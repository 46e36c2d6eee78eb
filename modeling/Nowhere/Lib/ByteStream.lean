import Mathlib.Data.List.Basic

/-!
# Byte streams

A stream hands out its bytes in pieces of its own choosing (`ByteStream.Input`). The loop that
fills a buffer from it (`Input.readExact`) does not depend on them, and neither does what is
built from that loop: `Input.Parses f input a` says that `f` takes `input` off the front of the
stream and returns `a`, whatever the pieces are and whatever comes after. The rules for
`pure`, `>>=` and lifted checks derive this for whole parsers.

`Input.Follows f g` also covers what fails: on every stream, `f` does what the parser `g` does on
the list of its bytes. `Input.Accepts f P E` is for the converse of `Parses`: whatever `f` returns,
the value and the bytes taken for it satisfy `P`, and its errors satisfy `E`.

A read may be given up while it waits and made again later (`ByteStream.Resumable`). A loop that
fills a buffer from its position on (`Resumable.fill`) can then be left and entered again without
losing a byte, as long as buffer and position are kept.
-/

namespace ByteStream

/-- In state `s` the stream still has `bytes s` to give. An empty answer to a read for at least
one byte is the end of the stream. -/
structure Input (σ : Type) where
  bytes : σ → List UInt8
  read : Nat → σ → List UInt8 × σ
  conserves : ∀ n s, (read n s).1 ++ bytes (read n s).2 = bytes s
  fits : ∀ n s, (read n s).1.length ≤ n
  progress : ∀ n s, 0 < n → bytes s ≠ [] → (read n s).1 ≠ []

namespace Input

variable {σ ε α β : Type}

/-- Reads until `n` bytes have arrived, and fails with `eof` if the stream ends before. -/
def readExact (R : Input σ) (eof : ε) (n : Nat) : StateT σ (Except ε) (List UInt8) := fun s =>
  if hn : n = 0 then .ok ([], s)
  else
    if hpiece : (R.read n s).1 = [] then .error eof
    else
      have _shorter : n - (R.read n s).1.length < n :=
        Nat.sub_lt (Nat.pos_of_ne_zero hn) (List.length_pos_iff.mpr hpiece)
      do
        let (rest, s') ← R.readExact eof (n - (R.read n s).1.length) (R.read n s).2
        return ((R.read n s).1 ++ rest, s')
termination_by n

/-- A single read for one byte. -/
def readOne (R : Input σ) : StateT σ (Except ε) (List UInt8) := fun s => .ok (R.read 1 s)

/-- `f` takes `input` off the front of the stream and returns `a`. -/
def Parses (R : Input σ) (f : StateT σ (Except ε) α) (input : List UInt8) (a : α) : Prop :=
  ∀ s rest, R.bytes s = input ++ rest → ∃ s', f s = .ok (a, s') ∧ R.bytes s' = rest

section Rules

variable {R : Input σ}

theorem parses_pure (a : α) : R.Parses (pure a : StateT σ (Except ε) α) [] a := by
  intro s rest hs
  exact ⟨s, rfl, hs⟩

variable {r : Except ε α} {a : α} {f : StateT σ (Except ε) α} {g : α → StateT σ (Except ε) β}
  {b : β} {input : List UInt8} {n : Nat}

/-- A check that passes reads nothing. -/
theorem parses_lift (h : r = .ok a) :
    R.Parses (liftM r : StateT σ (Except ε) α) [] a := by
  subst h
  intro s rest hs
  exact ⟨s, rfl, hs⟩

theorem Parses.bind {input input' : List UInt8} (hf : R.Parses f input a)
    (hg : R.Parses (g a) input' b) : R.Parses (f >>= g) (input ++ input') b := by
  intro s rest hs
  rw [List.append_assoc] at hs
  obtain ⟨s', hfs, hs'⟩ := hf s (input' ++ rest) hs
  obtain ⟨s'', hgs, hs''⟩ := hg s' rest hs'
  refine ⟨s'', ?_, hs''⟩
  show (f s >>= fun p => g p.1 p.2) = .ok (b, s'')
  rw [hfs]
  exact hgs

/-- A check in front of a parser does not change what it reads. -/
theorem Parses.after_lift (h : r = .ok a) (hg : R.Parses (g a) input b) :
    R.Parses ((liftM r : StateT σ (Except ε) α) >>= g) input b :=
  (parses_lift h).bind hg

/-- What reads nothing more does not change what was read. -/
theorem Parses.bind_nil (hf : R.Parses f input a) (hg : R.Parses (g a) [] b) :
    R.Parses (f >>= g) input b := by
  have hbind := hf.bind hg
  rwa [List.append_nil] at hbind

theorem Parses.map (hf : R.Parses f input a) (g : α → β) : R.Parses (g <$> f) input (g a) := by
  intro s rest hs
  obtain ⟨s', hfs, hs'⟩ := hf s rest hs
  refine ⟨s', ?_, hs'⟩
  show (f s >>= fun p => .ok (g p.1, p.2)) = .ok (g a, s')
  rw [hfs]
  rfl

/-- The piece a read returns is the front of what is asked for. -/
theorem exists_eq_read_append {s : σ} {input rest : List UInt8} (hs : R.bytes s = input ++ rest)
    (hn : input.length = n) :
    ∃ input', input = (R.read n s).1 ++ input' ∧ R.bytes (R.read n s).2 = input' ++ rest := by
  have hsplit : (R.read n s).1 ++ R.bytes (R.read n s).2 = input ++ rest :=
    (R.conserves n s).trans hs
  have hfits := R.fits n s
  rcases List.append_eq_append_iff.mp hsplit with ⟨front, hinput, hbytes⟩ | ⟨front, hpiece, hrest⟩
  · exact ⟨front, hinput, hbytes⟩
  · have hlen := congrArg List.length hpiece
    rw [List.length_append] at hlen
    have hfront : front = [] := List.length_eq_zero_iff.mp (by omega)
    subst hfront
    rw [List.append_nil] at hpiece
    exact ⟨[], by rw [hpiece, List.append_nil], by simpa using hrest.symm⟩

/-- However the stream is cut into pieces, the loop returns the bytes that were asked for. -/
theorem parses_readExact (eof : ε) (hn : input.length = n) :
    R.Parses (R.readExact eof n) input input := by
  -- every read returns at least one byte, so what is left to read gets shorter
  induction n using Nat.strongRecOn generalizing input with
  | ind n ih =>
    intro s rest hs
    rw [readExact]
    by_cases hzero : n = 0
    · have hinput : input = [] := List.length_eq_zero_iff.mp (hn.trans hzero)
      subst hinput
      exact ⟨s, by simp [hzero], hs⟩
    · have hne : R.bytes s ≠ [] := by
        rw [hs]
        intro hnil
        rw [(List.append_eq_nil_iff.mp hnil).1] at hn
        exact hzero hn.symm
      have hpiece := R.progress n s (Nat.pos_of_ne_zero hzero) hne
      have hpos := List.length_pos_iff.mpr hpiece
      obtain ⟨input', rfl, hs'⟩ := exists_eq_read_append hs hn
      rw [List.length_append] at hn
      have hlen : input'.length = n - (R.read n s).1.length := by omega
      obtain ⟨s', hread, hrest⟩ := ih _ (by omega) hlen _ rest hs'
      refine ⟨s', ?_, hrest⟩
      simp only [hzero, hpiece, dite_false, hread]
      rfl

end Rules

/-! ## Streams of pieces -/

/-- The stream that hands out the given pieces, each as far as it is asked for. -/
def pieces : Input (List { piece : List UInt8 // piece ≠ [] }) where
  bytes s := (s.map Subtype.val).flatten
  read n
    | [] => ([], [])
    | piece :: s =>
      if h : n < piece.1.length then
        (piece.1.take n, ⟨piece.1.drop n, by simpa using h⟩ :: s)
      else (piece.1, s)
  conserves n s := by
    cases s with
    | nil => rfl
    | cons piece s =>
      by_cases h : n < piece.1.length
      · simp [h, ← List.append_assoc]
      · simp [h]
  fits n s := by
    cases s with
    | nil => simp
    | cons piece s =>
      by_cases h : n < piece.1.length
      · simp only [h, dite_true]
        exact List.length_take_le _ _
      · simpa [h] using Nat.le_of_not_lt h
  progress n s hn hs := by
    cases s with
    | nil => simp at hs
    | cons piece s =>
      by_cases h : n < piece.1.length
      · simpa [h] using ⟨Nat.ne_of_gt hn, piece.2⟩
      · simpa [h] using piece.2

/-! ## Buffered streams -/

/-- A stream behind a buffer, which is refilled when it is empty. A read that is not smaller than
the buffer goes past it. -/
def buffered (R : Input σ) (capacity : Nat) : Input (List UInt8 × σ) where
  bytes s := s.1 ++ R.bytes s.2
  read n s :=
    if s.1 = [] then
      if capacity ≤ n then ((R.read n s.2).1, [], (R.read n s.2).2)
      else ((R.read capacity s.2).1.take n, (R.read capacity s.2).1.drop n,
        (R.read capacity s.2).2)
    else (s.1.take n, s.1.drop n, s.2)
  conserves n s := by
    by_cases hempty : s.1 = []
    · by_cases hbig : capacity ≤ n
      · simp [hempty, hbig, R.conserves]
      · simp [hempty, hbig, ← List.append_assoc, R.conserves]
    · simp [hempty, ← List.append_assoc]
  fits n s := by
    by_cases hempty : s.1 = []
    · by_cases hbig : capacity ≤ n
      · simpa [hempty, hbig] using R.fits n s.2
      · simp only [hempty, hbig, if_true, if_false]
        exact List.length_take_le _ _
    · simp only [hempty, if_false]
      exact List.length_take_le _ _
  progress n s hn hs := by
    by_cases hempty : s.1 = []
    · have hne : R.bytes s.2 ≠ [] := by simpa [hempty] using hs
      by_cases hbig : capacity ≤ n
      · simpa [hempty, hbig] using R.progress n s.2 hn hne
      · have hpiece := R.progress capacity s.2 (by omega) hne
        simpa [hempty, hbig] using ⟨Nat.ne_of_gt hn, hpiece⟩
    · simpa [hempty] using Nat.ne_of_gt hn

/-! ## Parsers of byte lists -/

/-- `readExact` on a list of bytes. -/
def takeExact (eof : ε) (n : Nat) : StateT (List UInt8) (Except ε) (List UInt8) := fun bytes =>
  if bytes.length < n then .error eof else .ok (bytes.take n, bytes.drop n)

/-- On every stream `f` returns what `g` returns on its bytes, fails as `g` does, and leaves the
bytes that `g` leaves. -/
def Follows (R : Input σ) (f : StateT σ (Except ε) α) (g : StateT (List UInt8) (Except ε) α) :
    Prop :=
  ∀ s, (f s).map (fun p => (p.1, R.bytes p.2)) = g (R.bytes s)

section Follows

variable {R : Input σ}

theorem follows_pure (a : α) :
    R.Follows (pure a : StateT σ (Except ε) α) (pure a : StateT (List UInt8) (Except ε) α) :=
  fun _ => rfl

variable {f : StateT σ (Except ε) α} {g : StateT (List UInt8) (Except ε) α} {s : σ}

theorem Follows.bind {f' : StateT (List UInt8) (Except ε) α} {g : α → StateT σ (Except ε) β}
    {g' : α → StateT (List UInt8) (Except ε) β} (hf : R.Follows f f')
    (hg : ∀ a, R.Follows (g a) (g' a)) : R.Follows (f >>= g) (f' >>= g') := by
  intro s
  have hfs := hf s
  change (f s >>= fun p => g p.1 p.2).map _ = f' (R.bytes s) >>= fun p => g' p.1 p.2
  rw [← hfs]
  cases f s with
  | error e => rfl
  | ok p => exact hg p.1 p.2

theorem Follows.ite {c : Prop} [Decidable c] {f g : StateT σ (Except ε) α}
    {f' g' : StateT (List UInt8) (Except ε) α} (hf : R.Follows f f') (hg : R.Follows g g') :
    R.Follows (if c then f else g) (if c then f' else g') := by
  by_cases hc : c
  · simpa only [hc, if_true] using hf
  · simpa only [hc, if_false] using hg

/-- What `f` makes of a stream is settled by the bytes of the stream. -/
theorem Follows.ok (h : R.Follows f g) {a : α} {rest : List UInt8}
    (hg : g (R.bytes s) = .ok (a, rest)) :
    ∃ s', f s = .ok (a, s') ∧ R.bytes s' = rest := by
  have hs := h s
  rw [hg] at hs
  cases hfs : f s with
  | error e =>
    rw [hfs] at hs
    cases hs
  | ok p =>
    rw [hfs] at hs
    cases hs
    exact ⟨p.2, rfl, rfl⟩

theorem Follows.error (h : R.Follows f g) {e : ε} (hg : g (R.bytes s) = .error e) :
    f s = .error e := by
  have hs := h s
  rw [hg] at hs
  cases hfs : f s with
  | error e' =>
    rw [hfs] at hs
    cases hs
    rfl
  | ok p =>
    rw [hfs] at hs
    cases hs

theorem follows_readExact (eof : ε) (n : Nat) :
    R.Follows (R.readExact eof n) (takeExact eof n) := by
  intro s
  unfold takeExact
  split
  · rename_i hshort
    -- the loop goes on until the stream is empty, and then it fails
    induction n using Nat.strongRecOn generalizing s with
    | ind n ih =>
      rw [readExact]
      have hzero : n ≠ 0 := by omega
      simp only [hzero, dite_false]
      by_cases hpiece : (R.read n s).1 = []
      · simp only [hpiece, dite_true]
        rfl
      · have hconserves := congrArg List.length (R.conserves n s)
        rw [List.length_append] at hconserves
        have hpos := List.length_pos_iff.mpr hpiece
        have hfits := R.fits n s
        have hrest := ih (n - (R.read n s).1.length) (by omega) (R.read n s).2 (by omega)
        simp only [hpiece, dite_false]
        cases hcall : R.readExact eof (n - (R.read n s).1.length) (R.read n s).2 with
        | error e =>
          rw [hcall] at hrest
          exact hrest
        | ok p =>
          rw [hcall] at hrest
          cases hrest
  · rename_i hlong
    have hlength : ((R.bytes s).take n).length = n := by
      rw [List.length_take]
      omega
    obtain ⟨s', hread, hrest⟩ := parses_readExact (R := R) eof hlength s ((R.bytes s).drop n)
      (List.take_append_drop n _).symm
    rw [hread]
    exact congrArg (fun rest => Except.ok ((R.bytes s).take n, rest)) hrest

/-- A read for one byte returns it, or finds the stream at its end. -/
theorem follows_readOne :
    R.Follows (R.readOne : StateT σ (Except ε) (List UInt8))
      (fun bytes => .ok (bytes.take 1, bytes.drop 1)) := by
  intro s
  have hconserves := R.conserves 1 s
  have hfits := R.fits 1 s
  have hprogress := R.progress 1 s Nat.one_pos
  unfold readOne
  generalize R.read 1 s = r at *
  obtain ⟨piece, s'⟩ := r
  match piece with
  | [] =>
    have hempty : R.bytes s = [] := by
      by_contra hne
      exact hprogress hne rfl
    rw [hempty] at hconserves ⊢
    exact congrArg (fun rest => Except.ok ([], rest)) hconserves
  | [b] =>
    rw [← hconserves]
    rfl
  | b :: c :: piece => simp at hfits

end Follows

/-! ## Both outcomes of a parser -/

/-- Whenever `f` returns a value, it and the bytes that were taken for it satisfy `P`; whenever it
fails, the error satisfies `E`. -/
structure Accepts (R : Input σ) (f : StateT σ (Except ε) α) (P : List UInt8 → α → Prop)
    (E : ε → Prop) : Prop where
  ok : ∀ {s a s'}, f s = .ok (a, s') → ∃ front, R.bytes s = front ++ R.bytes s' ∧ P front a
  error : ∀ {s e}, f s = .error e → E e

section Accepts

variable {R : Input σ} {P : List UInt8 → α → Prop} {E : ε → Prop}

theorem accepts_pure {a : α} (h : P [] a) : R.Accepts (pure a : StateT σ (Except ε) α) P E where
  ok hs := by
    cases hs
    exact ⟨[], rfl, h⟩
  error hs := by cases hs

theorem accepts_throw {e : ε} (h : E e) : R.Accepts (throw e : StateT σ (Except ε) α) P E where
  ok hs := by cases hs
  error hs := by
    cases hs
    exact h

variable {f : StateT σ (Except ε) α} {r : Except ε β} {g : β → StateT σ (Except ε) α}

theorem Accepts.mono {Q : List UInt8 → α → Prop} (h : R.Accepts f P E)
    (hPQ : ∀ front a, P front a → Q front a) : R.Accepts f Q E where
  ok hs := by
    obtain ⟨front, hfront, ha⟩ := h.ok hs
    exact ⟨front, hfront, hPQ front _ ha⟩
  error hs := h.error hs

theorem Accepts.bind {g : α → StateT σ (Except ε) β} {Q : List UInt8 → β → Prop}
    (hf : R.Accepts f P E)
    (hg : ∀ front a, P front a → R.Accepts (g a) (fun back b => Q (front ++ back) b) E) :
    R.Accepts (f >>= g) Q E where
  ok {s b s'} hs := by
    change (f s >>= fun p => g p.1 p.2) = .ok (b, s') at hs
    cases hfs : f s with
    | error e =>
      rw [hfs] at hs
      cases hs
    | ok p =>
      rw [hfs] at hs
      obtain ⟨front, hfront, ha⟩ := hf.ok hfs
      obtain ⟨back, hback, hb⟩ := (hg front p.1 ha).ok hs
      exact ⟨front ++ back, by rw [hfront, hback, List.append_assoc], hb⟩
  error {s e} hs := by
    change (f s >>= fun p => g p.1 p.2) = .error e at hs
    cases hfs : f s with
    | error e' =>
      rw [hfs] at hs
      cases hs
      exact hf.error hfs
    | ok p =>
      rw [hfs] at hs
      obtain ⟨front, _, ha⟩ := hf.ok hfs
      exact (hg front p.1 ha).error hs

/-- A step that takes nothing. -/
theorem Accepts.after_lift (hg : ∀ b, r = .ok b → R.Accepts (g b) P E)
    (he : ∀ e, r = .error e → E e) :
    R.Accepts (liftM r >>= g) P E := by
  cases r with
  | error e => exact accepts_throw (he e rfl)
  | ok b => exact hg b rfl

/-- A step that takes nothing and cannot fail. -/
theorem Accepts.after_ok {b : β} (hr : r = .ok b) (hg : R.Accepts (g b) P E) :
    R.Accepts (liftM r >>= g) P E := by
  subst hr
  exact hg

theorem accepts_readExact {eof : ε} (h : E eof) (n : Nat) :
    R.Accepts (R.readExact eof n) (fun front a => front = a ∧ a.length = n) E where
  ok {s a s'} hs := by
    have hfollows := R.follows_readExact eof n s
    rw [hs] at hfollows
    unfold takeExact at hfollows
    split at hfollows
    · cases hfollows
    · rename_i hlong
      have ha : a = (R.bytes s).take n := (Prod.mk.inj (Except.ok.inj hfollows)).1
      have hrest : R.bytes s' = (R.bytes s).drop n := (Prod.mk.inj (Except.ok.inj hfollows)).2
      refine ⟨a, ?_, rfl, ?_⟩
      · rw [ha, hrest, List.take_append_drop]
      · rw [ha, List.length_take]
        omega
  error {s e} hs := by
    have hfollows := R.follows_readExact eof n s
    rw [hs] at hfollows
    unfold takeExact at hfollows
    split at hfollows
    · obtain rfl := Except.error.inj hfollows
      exact h
    · cases hfollows

end Accepts

/-- The stream that returns whatever it is asked for at once. -/
def whole : Input (List UInt8) where
  bytes s := s
  read n s := (s.take n, s.drop n)
  conserves := List.take_append_drop
  fits := List.length_take_le
  progress n s hn hs := by simpa using ⟨Nat.ne_of_gt hn, hs⟩

end Input

/-! ## Reads that may be given up -/

/-- A stream on which a read may be given up while it waits (`none`). `cancels s` bounds how often
that happens. -/
structure Resumable (σ : Type) where
  bytes : σ → List UInt8
  cancels : σ → Nat
  read : Nat → σ → Option (List UInt8) × σ
  conserves : ∀ n s, (read n s).1.getD [] ++ bytes (read n s).2 = bytes s
  fits : ∀ n s, ((read n s).1.getD []).length ≤ n
  progress : ∀ n s, 0 < n → bytes s ≠ [] → (read n s).1 ≠ some []
  cancelled : ∀ n s, (read n s).1 = none → cancels (read n s).2 < cancels s
  answered : ∀ n s, cancels (read n s).2 ≤ cancels s

namespace Resumable

inductive Outcome
  | full
  | eof
  | cancelled
  deriving DecidableEq

/-- A buffer that is filled up to `position`. -/
structure Filled (σ : Type) where
  outcome : Outcome
  buffer : List UInt8
  position : Nat
  stream : σ

variable {σ : Type}

/-- The buffer after a read has put `piece` at `position`. -/
def overwrite (buffer : List UInt8) (position : Nat) (piece : List UInt8) : List UInt8 :=
  buffer.take position ++ piece ++ buffer.drop (position + piece.length)

section Overwrite

variable {buffer piece : List UInt8} {position : Nat}

theorem length_overwrite (h : position + piece.length ≤ buffer.length) :
    (overwrite buffer position piece).length = buffer.length := by
  simp only [overwrite, List.length_append, List.length_take, List.length_drop]
  omega

theorem take_overwrite (h : position ≤ buffer.length) :
    (overwrite buffer position piece).take (position + piece.length) =
      buffer.take position ++ piece := by
  have hlength : (buffer.take position ++ piece).length = position + piece.length := by
    rw [List.length_append, List.length_take, Nat.min_eq_left h]
  rw [overwrite, ← hlength, List.take_left]

end Overwrite

/-- Reads into the buffer from `position` on until it is full. -/
def fill (S : Resumable σ) (buffer : List UInt8) (position : Nat) (s : σ) : Filled σ :=
  if position = buffer.length then ⟨.full, buffer, position, s⟩
  else
    match _hread : S.read (buffer.length - position) s with
    | (none, s') => ⟨.cancelled, buffer, position, s'⟩
    | (some [], s') => ⟨.eof, buffer, position, s'⟩
    | (some (b :: piece), s') =>
      S.fill (overwrite buffer position (b :: piece)) (position + (b :: piece).length) s'
termination_by buffer.length - position
decreasing_by
  have hfits := S.fits (buffer.length - position) s
  rw [_hread] at hfits
  simp only [Option.getD_some, List.length_cons] at hfits
  rw [length_overwrite (by rw [List.length_cons]; omega), List.length_cons]
  omega

theorem fill_full (S : Resumable σ) (buffer : List UInt8) (s : σ) :
    S.fill buffer buffer.length s = ⟨.full, buffer, buffer.length, s⟩ := by
  rw [fill, if_pos rfl]

/-- What a fill leaves: the bytes in front of the position and those of the stream are the same
together, whatever the outcome. -/
structure Fills (S : Resumable σ) (buffer : List UInt8) (position : Nat) (s : σ)
    (r : Filled σ) : Prop where
  length : r.buffer.length = buffer.length
  position_le : r.position ≤ buffer.length
  le_position : position ≤ r.position
  conserves : r.buffer.take r.position ++ S.bytes r.stream = buffer.take position ++ S.bytes s
  cancels : S.cancels r.stream ≤ S.cancels s
  full : r.outcome = .full → r.position = buffer.length
  eof : r.outcome = .eof → r.position < buffer.length ∧ S.bytes r.stream = []
  cancelled : r.outcome = .cancelled → S.cancels r.stream < S.cancels s

theorem fill_fills (S : Resumable σ) {buffer : List UInt8} {position : Nat}
    (h : position ≤ buffer.length) (s : σ) :
    S.Fills buffer position s (S.fill buffer position s) := by
  -- along the recursion of `fill`: what is missing gets shorter
  fun_induction S.fill buffer position s with
  | case1 buffer s =>
    exact {
      length := rfl
      position_le := Nat.le_refl _
      le_position := Nat.le_refl _
      conserves := rfl
      cancels := Nat.le_refl _
      full := fun _ => rfl
      eof := nofun
      cancelled := nofun }
  | case2 buffer position s hmissing s' hread =>
    have hconserves := S.conserves (buffer.length - position) s
    have hcancelled := S.cancelled (buffer.length - position) s
    rw [hread] at hconserves hcancelled
    have hless := hcancelled rfl
    exact {
      length := rfl
      position_le := h
      le_position := Nat.le_refl _
      conserves := congrArg (buffer.take position ++ ·) hconserves
      cancels := Nat.le_of_lt hless
      full := nofun
      eof := nofun
      cancelled := fun _ => hless }
  | case3 buffer position s hmissing s' hread =>
    have hconserves := S.conserves (buffer.length - position) s
    have hprogress := S.progress (buffer.length - position) s (by omega)
    have hanswered := S.answered (buffer.length - position) s
    rw [hread] at hconserves hprogress hanswered
    have hempty : S.bytes s = [] := by
      by_contra hne
      exact hprogress hne rfl
    exact {
      length := rfl
      position_le := h
      le_position := Nat.le_refl _
      conserves := congrArg (buffer.take position ++ ·) hconserves
      cancels := hanswered
      full := nofun
      eof := fun _ => ⟨Nat.lt_of_le_of_ne h hmissing, hconserves.trans hempty⟩
      cancelled := nofun }
  | case4 buffer position s hmissing b piece s' hread ih =>
    have hconserves := S.conserves (buffer.length - position) s
    have hfits := S.fits (buffer.length - position) s
    have hanswered := S.answered (buffer.length - position) s
    rw [hread] at hconserves hfits hanswered
    simp only [Option.getD_some] at hconserves hfits
    have hlength : (overwrite buffer position (b :: piece)).length = buffer.length :=
      length_overwrite (by omega)
    have hrest := ih (by omega)
    exact {
      length := hrest.length.trans hlength
      position_le := hlength ▸ hrest.position_le
      le_position := by
        have hle := hrest.le_position
        omega
      conserves := by
        rw [hrest.conserves, take_overwrite h, List.append_assoc, hconserves]
      cancels := Nat.le_trans hrest.cancels hanswered
      full := fun hfull => (hrest.full hfull).trans hlength
      eof := fun heof => hlength ▸ hrest.eof heof
      cancelled := fun hcancelled => Nat.lt_of_lt_of_le (hrest.cancelled hcancelled) hanswered }

/-- The stream that hands out the given pieces, each as far as it is asked for, with reads that are
given up in between. -/
def interrupted : Resumable (List (Option { piece : List UInt8 // piece ≠ [] })) where
  bytes s := (s.map fun piece => piece.elim [] Subtype.val).flatten
  cancels s := s.count none
  read n
    | [] => (some [], [])
    | none :: s => (none, s)
    | some piece :: s =>
      if h : n < piece.1.length then
        (some (piece.1.take n), some ⟨piece.1.drop n, by simpa using h⟩ :: s)
      else (some piece.1, s)
  conserves n s := by
    match s with
    | [] => rfl
    | none :: s => rfl
    | some piece :: s =>
      by_cases h : n < piece.1.length
      · simp [h, ← List.append_assoc]
      · simp [h]
  fits n s := by
    match s with
    | [] => exact Nat.zero_le n
    | none :: s => exact Nat.zero_le n
    | some piece :: s =>
      by_cases h : n < piece.1.length
      · simp only [h, dif_pos]
        exact List.length_take_le _ _
      · simpa [h] using Nat.le_of_not_lt h
  progress n s hn hs := by
    match s with
    | [] => simp at hs
    | none :: s => simp
    | some piece :: s =>
      by_cases h : n < piece.1.length
      · simpa [h] using ⟨Nat.ne_of_gt hn, piece.2⟩
      · simpa [h] using piece.2
  cancelled n s hs := by
    match s with
    | [] => cases hs
    | none :: s => simp
    | some piece :: s =>
      by_cases h : n < piece.1.length <;> simp [h] at hs
  answered n s := by
    match s with
    | [] => exact Nat.le_refl _
    | none :: s => simp
    | some piece :: s =>
      by_cases h : n < piece.1.length <;> simp [h]

end Resumable

end ByteStream
