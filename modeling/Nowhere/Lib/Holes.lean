import Mathlib.Algebra.BigOperators.Group.List.Basic
import Mathlib.Algebra.GroupWithZero.Nat
import Mathlib.Data.List.Basic

/-!
# Vectors with holes

A vector whose places are filled one at a time, in any order. `Holes.filled` counts the places
that are taken and `Holes.weight` sums a weight over them; filling a hole adds to both what the
new value brings, and a vector without holes is a vector of values.
-/

namespace Holes

variable {α : Type}

/-- The number of places that are taken. -/
def filled (xs : List (Option α)) : Nat := xs.countP Option.isSome

/-- The sum of a weight over the places that are taken. -/
def weight (f : α → Nat) (xs : List (Option α)) : Nat := (xs.map fun x => x.elim 0 f).sum

@[simp]
theorem filled_replicate (n : Nat) : filled (List.replicate n (none : Option α)) = 0 := by
  simp [filled]

@[simp]
theorem weight_replicate (f : α → Nat) (n : Nat) :
    weight f (List.replicate n (none : Option α)) = 0 := by
  simp [weight]

variable {xs : List (Option α)} {i : Nat}

theorem filled_set (h : xs[i]? = some none) (a : α) :
    filled (xs.set i (some a)) = filled xs + 1 := by
  induction xs generalizing i with
  | nil => cases h
  | cons x xs ih =>
    cases i with
    | zero =>
      obtain rfl : x = none := Option.some.inj h
      simp [filled]
    | succ i =>
      have ih := ih (i := i) h
      simp only [filled] at ih
      simp only [filled, List.set_cons_succ, List.countP_cons, ih]
      omega

theorem weight_set (f : α → Nat) (h : xs[i]? = some none) (a : α) :
    weight f (xs.set i (some a)) = weight f xs + f a := by
  induction xs generalizing i with
  | nil => cases h
  | cons x xs ih =>
    cases i with
    | zero =>
      obtain rfl : x = none := Option.some.inj h
      simp [weight, Nat.add_comm]
    | succ i =>
      have ih := ih (i := i) h
      simp only [weight] at ih
      simp only [weight, List.set_cons_succ, List.map_cons, List.sum_cons, ih]
      omega

/-- A vector without holes is a vector of values. -/
theorem exists_of_filled (h : filled xs = xs.length) :
    ∃ ys : List α, xs = ys.map some := by
  have hall := List.countP_eq_length.mp h
  clear h
  induction xs with
  | nil => exact ⟨[], rfl⟩
  | cons x xs ih =>
    obtain ⟨a, rfl⟩ := Option.isSome_iff_exists.mp (hall x (by simp))
    obtain ⟨ys, rfl⟩ := ih fun y hy => hall y (by simp [hy])
    exact ⟨a :: ys, rfl⟩

theorem weight_map_some (f : α → Nat) (ys : List α) :
    weight f (ys.map some) = (ys.map f).sum := by
  simp [weight, Function.comp_def]

end Holes
