import Mathlib.Data.List.Basic

/-!
# Items of a stream

A framing takes the first item off what is left of a stream (`Framing.next`), and so divides the
whole into items and an end (`Framing.all`). A reader returns one item a call; its calls are
repeated until one reports the end or fails (`Repeats`), and a call that was given up is made
again.

`Framing.Answer` says that one call answers as the framing does, with what the reader keeps
between its calls counted to what is left. A reader all of whose calls do returns the items of the
framing, in order, and ends as it does (`Framing.repeats`).
-/

structure Framing (B A E : Type) where
  next : B → Except E (Option (A × B))
  size : B → Nat
  shrinks : ∀ {b a b'}, next b = .ok (some (a, b')) → size b' < size b

namespace Framing

variable {B A E : Type}

/-- All items, and the error that ends them, if one does. -/
def all (F : Framing B A E) (b : B) : List A × Option E :=
  match _hnext : F.next b with
  | .error e => ([], some e)
  | .ok none => ([], none)
  | .ok (some (a, b')) => (a :: (F.all b').1, (F.all b').2)
termination_by F.size b
decreasing_by all_goals exact F.shrinks _hnext

section All

variable {F : Framing B A E} {b : B}

theorem all_error {e : E} (h : F.next b = .error e) : F.all b = ([], some e) := by
  rw [all]
  split <;> simp_all

theorem all_ended (h : F.next b = .ok none) : F.all b = ([], none) := by
  rw [all]
  split <;> simp_all

theorem all_item {a : A} {b' : B} (h : F.next b = .ok (some (a, b'))) :
    F.all b = (a :: (F.all b').1, (F.all b').2) := by
  rw [all]
  split <;> simp_all

end All

end Framing

/-! ## Repeated calls -/

/-- Calls repeated from state `s` on return the items and then the end, `none` if it is clean. A
call that was given up answers `none`. -/
inductive Repeats {S A E : Type} (call : S → Option (Except E (Option A)) × S) :
    S → List A → Option E → Prop
  | item {s s' : S} {a : A} {items : List A} {ending : Option E}
      (answer : call s = (some (.ok (some a)), s')) (rest : Repeats call s' items ending) :
      Repeats call s (a :: items) ending
  | cancelled {s s' : S} {items : List A} {ending : Option E} (answer : call s = (none, s'))
      (rest : Repeats call s' items ending) : Repeats call s items ending
  | ended {s s' : S} (answer : call s = (some (.ok none), s')) : Repeats call s [] none
  | failed {s s' : S} {e : E} (answer : call s = (some (.error e), s')) :
      Repeats call s [] (some e)

namespace Framing

variable {B A E E' S : Type}

/-- A call in state `s` answers as the framing does on what is left, in the reader's own errors; a
call that is given up changes nothing of it, and cannot be given up forever. -/
inductive Answer (F : Framing B A E) (text : E → E') (inv : S → Prop) (left : S → B)
    (patience : S → Nat) (s : S) : Option (Except E' (Option A)) × S → Prop
  | item {a : A} {s' : S} (valid : inv s') (next : F.next (left s) = .ok (some (a, left s'))) :
      Answer F text inv left patience s (some (.ok (some a)), s')
  | cancelled {s' : S} (valid : inv s') (same : left s' = left s)
      (less : patience s' < patience s) : Answer F text inv left patience s (none, s')
  | ended {s' : S} (next : F.next (left s) = .ok none) :
      Answer F text inv left patience s (some (.ok none), s')
  | failed {e : E} {s' : S} (next : F.next (left s) = .error e) :
      Answer F text inv left patience s (some (.error (text e)), s')

variable {F : Framing B A E} {text : E → E'} {inv : S → Prop} {left : S → B} {patience : S → Nat}

/-- What a call does first may use up patience, as long as nothing is lost. -/
theorem Answer.of_earlier {s s₁ : S} {r : Option (Except E' (Option A)) × S}
    (h : F.Answer text inv left patience s₁ r) (hleft : left s₁ = left s)
    (hpatience : patience s₁ ≤ patience s) : F.Answer text inv left patience s r := by
  cases h with
  | item valid next => exact .item valid (hleft ▸ next)
  | cancelled valid same less =>
    exact .cancelled valid (same.trans hleft) (Nat.lt_of_lt_of_le less hpatience)
  | ended next => exact .ended (hleft ▸ next)
  | failed next => exact .failed (hleft ▸ next)

/-- The repeated calls return all items of the framing. -/
theorem repeats {call : S → Option (Except E' (Option A)) × S}
    (hcall : ∀ s, inv s → F.Answer text inv left patience s (call s)) (s : S) (hs : inv s) :
    Repeats call s (F.all (left s)).1 ((F.all (left s)).2.map text) := by
  -- an item leaves less to read, and a call that is given up leaves less patience
  cases hanswer : call s with
  | mk answer s' =>
    have hcalled := hcall s hs
    rw [hanswer] at hcalled
    cases hcalled with
    | item hs' hnext =>
      have hshorter := F.shrinks hnext
      rw [all_item hnext]
      exact .item hanswer (repeats hcall s' hs')
    | cancelled hs' hleft hpatience =>
      rw [← hleft]
      exact .cancelled hanswer (repeats hcall s' hs')
    | ended hnext =>
      rw [all_ended hnext]
      exact .ended hanswer
    | failed hnext =>
      rw [all_error hnext]
      exact .failed hanswer
termination_by (F.size (left s), patience s)
decreasing_by
  · exact Prod.Lex.left _ _ hshorter
  · rw [hleft]
    exact Prod.Lex.right _ hpatience

end Framing
