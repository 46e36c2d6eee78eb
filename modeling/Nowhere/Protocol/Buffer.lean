import Nowhere.Protocol.Flow

/-!
# Fixed buffers

Writes into a byte buffer whose length does not change, with the panics of the source for a
range that does not fit. A buffer that is filled from the front has the form `done ++ room`;
the lemmas say what a write at the end of `done` leaves.
-/

namespace Nowhere.Protocol

/-- `xs[i] = x`. -/
def writeAt (xs : List UInt8) (i : Nat) (x : UInt8) : Result (List UInt8) :=
  if i < xs.length then .ok (xs.set i x) else .error (.panic "index out of bounds")

/-- `xs[start..stop].copy_from_slice(src)`. -/
def copyFromSlice (xs : List UInt8) (start stop : Nat) (src : List UInt8) :
    Result (List UInt8) :=
  if start ≤ stop ∧ stop ≤ xs.length then
    if src.length = stop - start then .ok (xs.take start ++ src ++ xs.drop stop)
    else .error (.panic "source slice length does not match destination slice length")
  else .error (.panic "slice index out of range")

section Filling

variable {done room : List UInt8} {i start stop : Nat} {src : List UInt8}

theorem writeAt_room (x : UInt8) (hi : done.length = i) (hroom : 1 ≤ room.length) :
    writeAt (done ++ room) i x = .ok ((done ++ [x]) ++ room.drop 1) := by
  subst hi
  cases room with
  | nil => simp at hroom
  | cons y room => simp [writeAt]

theorem copyFromSlice_room (hstart : done.length = start) (hstop : start + src.length = stop)
    (hroom : src.length ≤ room.length) :
    copyFromSlice (done ++ room) start stop src =
      .ok ((done ++ src) ++ room.drop src.length) := by
  subst hstart hstop
  have hfits : done.length + src.length ≤ (done ++ room).length := by
    rw [List.length_append]
    omega
  rw [copyFromSlice, if_pos ⟨Nat.le_add_right _ _, hfits⟩, if_pos (by omega),
    List.take_left, List.drop_append, Nat.add_sub_cancel_left,
    List.drop_of_length_le (Nat.le_add_right _ _), List.nil_append]

/-- Two writes one behind the other. -/
theorem copyFromSlice_pair {j k : Nat} {src' : List UInt8} (hi : done.length = i)
    (hj : i + src.length = j) (hk : j + src'.length = k)
    (hroom : src.length + src'.length ≤ room.length) :
    (copyFromSlice (done ++ room) i j src >>= fun filled => copyFromSlice filled j k src') =
      .ok ((done ++ (src ++ src')) ++ room.drop (src.length + src'.length)) := by
  have hdone : (done ++ src).length = j := by
    rw [List.length_append]
    omega
  have hroom' : src'.length ≤ (room.drop src.length).length := by
    rw [List.length_drop]
    omega
  rw [copyFromSlice_room hi hj (by omega)]
  show copyFromSlice ((done ++ src) ++ room.drop src.length) j k src' = _
  rw [copyFromSlice_room hdone hk hroom', List.append_assoc done, List.drop_drop]

theorem slice_done (hstop : done.length = stop) :
    slice (done ++ room) 0 stop = .ok done := by
  subst hstop
  have hfits : done.length ≤ (done ++ room).length := by simp
  rw [slice, if_pos ⟨Nat.zero_le _, hfits⟩, List.take_left, List.drop_zero]

theorem slice_room (hstart : done.length = start) :
    slice (done ++ room) start (done ++ room).length = .ok room := by
  subst hstart
  rw [slice, if_pos ⟨by simp, Nat.le_refl _⟩, List.take_length, List.drop_left]

end Filling

theorem exists_slice {xs : List UInt8} {start stop : Nat} (hle : start ≤ stop)
    (hstop : stop ≤ xs.length) :
    ∃ part, slice xs start stop = .ok part ∧ part.length = stop - start := by
  refine ⟨(xs.take stop).drop start, if_pos ⟨hle, hstop⟩, ?_⟩
  rw [List.length_drop, List.length_take, Nat.min_eq_left hstop]

end Nowhere.Protocol
