import Mathlib.Algebra.BigOperators.Group.List.Basic
import Mathlib.Algebra.GroupWithZero.Nat

/-!
# Lists of processes

A system keeps its processes in a list, and a step replaces one of them. What holds of every process
is kept if it holds of the new one (`forall_set`), and a sum over all processes changes by what the
one process contributes (`sum_set`, `sum_eraseIdx`).
-/

namespace Slots

variable {α : Type} {items : List α} {i : Nat} {a : α}

/-- The place of an item, and what is there after an update. -/
theorem exists_split (h : items[i]? = some a) :
    ∃ front back, items = front ++ a :: back ∧ front.length = i ∧
      ∀ a', items.set i a' = front ++ a' :: back := by
  obtain ⟨hi, rfl⟩ := List.getElem?_eq_some_iff.mp h
  refine ⟨items.take i, items.drop (i + 1), ?_, ?_, ?_⟩
  · rw [← List.drop_eq_getElem_cons hi, List.take_append_drop]
  · rw [List.length_take, Nat.min_eq_left (Nat.le_of_lt hi)]
  · intro a'
    exact List.set_eq_take_append_cons_drop.trans (if_pos hi)

theorem forall_set {P : α → Prop} {a' : α} (h : ∀ x ∈ items, P x) (ha : P a') :
    ∀ x ∈ items.set i a', P x := by
  intro x hx
  rcases List.mem_or_eq_of_mem_set hx with hmem | rfl
  · exact h x hmem
  · exact ha

/-- What is at a place after an update. -/
theorem getElem?_set_cases {a' x : α} {j : Nat} (h : (items.set i a')[j]? = some x) :
    j = i ∧ x = a' ∨ items[j]? = some x := by
  rw [List.getElem?_set] at h
  split at h
  · rename_i hj
    exact .inl ⟨hj.symm, (Option.some.inj (Option.ite_none_right_eq_some.mp h).2).symm⟩
  · exact .inr h

/-- Something that was there still is after an update, unless it is what was replaced. -/
theorem exists_set {P : α → Prop} (a' : α) (h : items[i]? = some a) (hex : ∃ x ∈ items, P x) :
    P a ∨ ∃ x ∈ items.set i a', P x := by
  obtain ⟨front, back, rfl, _, hset⟩ := exists_split h
  obtain ⟨x, hx, hP⟩ := hex
  rw [hset a']
  rcases List.mem_append.mp hx with hfront | hback
  · exact .inr ⟨x, List.mem_append_left _ hfront, hP⟩
  · rcases List.mem_cons.mp hback with rfl | hmem
    · exact .inl hP
    · exact .inr ⟨x, List.mem_append_right _ (List.mem_cons_of_mem _ hmem), hP⟩

/-- The sum of what the items contribute. -/
def sum (f : α → Nat) (items : List α) : Nat := (items.map f).sum

@[simp] theorem sum_nil (f : α → Nat) : sum f [] = 0 := rfl

@[simp] theorem sum_cons (f : α → Nat) (a : α) (items : List α) :
    sum f (a :: items) = f a + sum f items := List.sum_cons

@[simp] theorem sum_append (f : α → Nat) (items more : List α) :
    sum f (items ++ more) = sum f items + sum f more := by
  rw [sum, List.map_append, List.sum_append]
  rfl

theorem sum_set (f : α → Nat) (h : items[i]? = some a) (a' : α) :
    sum f (items.set i a') + f a = sum f items + f a' := by
  obtain ⟨front, back, rfl, _, hset⟩ := exists_split h
  rw [hset a', sum_append, sum_append, sum_cons, sum_cons]
  omega

theorem sum_eraseIdx (f : α → Nat) (h : items[i]? = some a) :
    sum f (items.eraseIdx i) + f a = sum f items := by
  obtain ⟨front, back, rfl, rfl, _⟩ := exists_split h
  rw [List.eraseIdx_append_of_length_le (Nat.le_refl _), Nat.sub_self, List.eraseIdx_cons_zero,
    sum_append, sum_append, sum_cons]
  omega

theorem le_sum (f : α → Nat) (h : a ∈ items) : f a ≤ sum f items := by
  obtain ⟨front, back, rfl⟩ := List.append_of_mem h
  rw [sum_append, sum_cons]
  omega

theorem countP_eq_sum (p : α → Bool) (items : List α) :
    items.countP p = sum (fun x => if p x then 1 else 0) items := by
  induction items with
  | nil => rfl
  | cons x items ih => rw [List.countP_cons, ih, sum_cons, Nat.add_comm]

theorem countP_flatMap {β : Type} (p : β → Bool) (f : α → List β) (items : List α) :
    (items.flatMap f).countP p = sum (fun x => (f x).countP p) items := List.countP_flatMap

/-- Something that is counted is there. -/
theorem exists_of_sum_pos {f : α → Nat} (h : 0 < sum f items) : ∃ x ∈ items, 0 < f x := by
  induction items with
  | nil => exact absurd h (Nat.lt_irrefl 0)
  | cons x items ih =>
    rw [sum_cons] at h
    rcases Nat.eq_zero_or_pos (f x) with hzero | hpos
    · obtain ⟨y, hy, hcount⟩ := ih (by omega)
      exact ⟨y, List.mem_cons_of_mem _ hy, hcount⟩
    · exact ⟨x, List.mem_cons_self, hpos⟩

end Slots
