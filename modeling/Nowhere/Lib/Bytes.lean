import Mathlib.Algebra.Group.Nat.Defs
import Mathlib.Data.Nat.Init
import Mathlib.Data.List.Basic

/-!
# Byte strings

Numbers in big-endian order (`Bytes.toBe`, `Bytes.ofBe`), and the division of a string into
chunks of equal width with a shorter last one (`Bytes.chunk`).
-/

namespace Bytes

/-! ## Big-endian numbers -/

/-- The last `w` base-256 digits of `n`, most significant first. -/
def toBe : Nat → Nat → List UInt8
  | 0, _ => []
  | w + 1, n => UInt8.ofNat (n / 256 ^ w) :: toBe w n

def ofBe : List UInt8 → Nat
  | [] => 0
  | b :: bs => b.toNat * 256 ^ bs.length + ofBe bs

@[simp]
theorem length_toBe (w n : Nat) : (toBe w n).length = w := by
  induction w with
  | zero => rfl
  | succ w ih => simp [toBe, ih]

theorem ofBe_toBe (w n : Nat) : ofBe (toBe w n) = n % 256 ^ w := by
  induction w with
  | zero => simp [toBe, ofBe, Nat.mod_one]
  | succ w ih =>
    rw [toBe, ofBe, length_toBe, ih, Nat.mod_pow_succ, UInt8.toNat_ofNat', Nat.mul_comm,
      Nat.add_comm]

variable {w n : Nat} {bs xs : List UInt8}

/-- Numbers that fit the width are read back. -/
theorem ofBe_toBe_of_lt (h : n < 256 ^ w) : ofBe (toBe w n) = n :=
  (ofBe_toBe w n).trans (Nat.mod_eq_of_lt h)

theorem ofBe_lt (bs : List UInt8) : ofBe bs < 256 ^ bs.length := by
  induction bs with
  | nil => simp [ofBe]
  | cons b bs ih =>
    have hb : b.toNat + 1 ≤ 256 := b.toNat_lt
    calc ofBe (b :: bs) < b.toNat * 256 ^ bs.length + 256 ^ bs.length := by
          rw [ofBe]
          omega
      _ = (b.toNat + 1) * 256 ^ bs.length := (Nat.succ_mul _ _).symm
      _ ≤ 256 * 256 ^ bs.length := Nat.mul_le_mul_right _ hb
      _ = 256 ^ (b :: bs).length := by rw [List.length_cons, Nat.pow_succ, Nat.mul_comm]

/-- Only the last digits matter. -/
theorem toBe_add_mul (w n k : Nat) : toBe w (n + k * 256 ^ w) = toBe w n := by
  induction w generalizing k with
  | zero => rfl
  | succ w ih =>
    have hmul : k * 256 ^ (w + 1) = k * 256 * 256 ^ w := by
      rw [Nat.pow_succ, Nat.mul_assoc, Nat.mul_comm 256]
    rw [toBe, toBe, hmul, ih, Nat.add_mul_div_right _ _ (Nat.pow_pos (by decide))]
    refine congrArg (· :: toBe w n) (UInt8.toNat_inj.mp ?_)
    rw [UInt8.toNat_ofNat', UInt8.toNat_ofNat', Nat.add_mul_mod_self_right]

/-- What was read is written back. -/
theorem toBe_ofBe (h : bs.length = w) : toBe w (ofBe bs) = bs := by
  subst h
  induction bs with
  | nil => rfl
  | cons b bs ih =>
    have hlt := ofBe_lt bs
    rw [List.length_cons, toBe, ofBe, Nat.add_comm, toBe_add_mul, ih,
      Nat.add_mul_div_right _ _ (Nat.pow_pos (by decide)), Nat.div_eq_of_lt hlt, Nat.zero_add,
      UInt8.ofNat_toNat]

/-- Fixed-width numbers that were read are written back. -/
theorem toBe_bitVec (h : bs.length = w) :
    toBe w (BitVec.ofNat (8 * w) (ofBe bs)).toNat = bs := by
  have hlt := ofBe_lt bs
  rw [h, show 256 = 2 ^ 8 by rfl, ← Nat.pow_mul] at hlt
  rw [BitVec.toNat_ofNat, Nat.mod_eq_of_lt hlt, toBe_ofBe h]

theorem toBe_uint16 (h : bs.length = 2) :
    toBe 2 (UInt16.ofNat (ofBe bs)).toNat = bs := by
  have hlt := ofBe_lt bs
  rw [h, show 256 ^ 2 = 2 ^ 16 by rfl] at hlt
  rw [UInt16.toNat_ofNat', Nat.mod_eq_of_lt hlt, toBe_ofBe h]

/-- And the other way round. -/
theorem bitVec_toBe (x : BitVec (8 * w)) :
    BitVec.ofNat (8 * w) (ofBe (toBe w x.toNat)) = x := by
  have hlt := x.isLt
  rw [Nat.pow_mul, show 2 ^ 8 = 256 by rfl] at hlt
  rw [ofBe_toBe_of_lt hlt, BitVec.ofNat_toNat, BitVec.setWidth_eq]

theorem uint16_toBe (x : UInt16) : UInt16.ofNat (ofBe (toBe 2 x.toNat)) = x := by
  rw [ofBe_toBe_of_lt x.toNat_lt, UInt16.ofNat_toNat]

theorem exists_append (h : n ≤ xs.length) :
    ∃ front back, xs = front ++ back ∧ front.length = n :=
  ⟨xs.take n, xs.drop n, (List.take_append_drop n xs).symm, List.length_take_of_le h⟩

theorem exists_fields {m : Nat} (h : m + n ≤ xs.length) :
    ∃ first second rest, xs = first ++ (second ++ rest) ∧ first.length = m ∧
      second.length = n := by
  obtain ⟨first, more, rfl, hfirst⟩ := exists_append (Nat.le_trans (Nat.le_add_right m n) h)
  rw [List.length_append, hfirst] at h
  obtain ⟨second, rest, rfl, hsecond⟩ := exists_append (Nat.le_of_add_le_add_left h)
  exact ⟨first, second, rest, rfl, hfirst, hsecond⟩

/-- The field of width `n` at offset `i`. -/
theorem take_drop_field {front field rest : List UInt8} {i : Nat} (hi : front.length = i)
    (hn : field.length = n) : ((front ++ (field ++ rest)).drop i).take n = field := by
  rw [List.drop_left' hi, List.take_left' hn]

/-! ## Chunks -/

section Chunks

variable {α : Type}

/-- The `i`-th chunk of width `n`. -/
def chunk (xs : List α) (n i : Nat) : List α := (xs.drop (i * n)).take n

theorem length_chunk (xs : List α) (n i : Nat) :
    (chunk xs n i).length = min n (xs.length - i * n) := by
  simp [chunk]

/-- The slice from the start of a chunk to its end, or to the end of the string. -/
theorem drop_take_eq_chunk (xs : List α) (n i : Nat) :
    (xs.take (min xs.length (i * n + n))).drop (i * n) = chunk xs n i := by
  rw [Nat.min_comm, ← List.take_take, List.take_length, List.drop_take, chunk,
    Nat.add_sub_cancel_left]

theorem flatten_chunks (xs : List α) (n c : Nat) :
    ((List.range c).map (chunk xs n)).flatten = xs.take (c * n) := by
  induction c with
  | zero => simp
  | succ c ih =>
    rw [List.range_succ, List.map_append, List.flatten_append, ih, List.map_singleton,
      List.flatten_singleton, Nat.succ_mul, List.take_add, chunk]

/-- Enough chunks give the whole string. -/
theorem flatten_chunks_of_le {xs : List α} {n c : Nat} (h : xs.length ≤ c * n) :
    ((List.range c).map (chunk xs n)).flatten = xs := by
  rw [flatten_chunks, List.take_of_length_le h]

end Chunks

end Bytes
