import Mathlib.Data.Int.ModEq
import Mathlib.Logic.Function.Iterate

/-!
# A counter that passes over zero

The values `1, …, n - 1` in a circle: what a counter modulo `n` runs through if zero is not used.
Within one round no value comes twice.
-/

namespace Nowhere.Cycle

/-- The value after `x`. -/
def after (n x : Nat) : Nat := if x + 1 < n then x + 1 else 1

variable {n x : Nat}

theorem after_pos (n x : Nat) : 0 < after n x := by
  unfold after
  split <;> omega

/-- Positions are counted modulo the `n - 1` values of the circle. -/
theorem iterate_after (hpos : 0 < x) (hlt : x < n) (k : Nat) :
    (after n)^[k] x = (x - 1 + k) % (n - 1) + 1 := by
  induction k with
  | zero =>
    rw [Function.iterate_zero_apply, Nat.add_zero, Nat.mod_eq_of_lt (by omega)]
    omega
  | succ k ih =>
    have hbound : (x - 1 + k) % (n - 1) < n - 1 := Nat.mod_lt _ (by omega)
    have hstep : (x - 1 + (k + 1)) % (n - 1) = ((x - 1 + k) % (n - 1) + 1) % (n - 1) :=
      (Nat.mod_add_mod (x - 1 + k) (n - 1) 1).symm
    rw [Function.iterate_succ_apply', ih, after, hstep]
    by_cases hwrap : (x - 1 + k) % (n - 1) + 1 + 1 < n
    · have hsmall : (x - 1 + k) % (n - 1) + 1 < n - 1 := by omega
      rw [if_pos hwrap, Nat.mod_eq_of_lt hsmall]
    · have hlast : (x - 1 + k) % (n - 1) + 1 = n - 1 := by omega
      rw [if_neg hwrap, hlast, Nat.mod_self]

/-- Less than one round apart, two values differ. -/
theorem iterate_after_ne (hpos : 0 < x) (hlt : x < n) {i j : Nat} (hij : i < j)
    (hround : j - i < n - 1) : (after n)^[i] x ≠ (after n)^[j] x := by
  rw [iterate_after hpos hlt, iterate_after hpos hlt]
  intro heq
  have hmod : Nat.ModEq (n - 1) (x - 1 + i) (x - 1 + j) := Nat.succ.inj heq
  have hdvd : n - 1 ∣ j - i := by
    have hsub := (Nat.modEq_iff_dvd' (by omega)).mp hmod
    rwa [show x - 1 + j - (x - 1 + i) = j - i by omega] at hsub
  exact absurd (Nat.le_of_dvd (by omega) hdvd) (by omega)

theorem iterate_after_inj (hpos : 0 < x) (hlt : x < n) {i j : Nat} (hi : i < n - 1)
    (hj : j < n - 1) (heq : (after n)^[i] x = (after n)^[j] x) : i = j := by
  rcases Nat.lt_trichotomy i j with hij | rfl | hji
  · exact absurd heq (iterate_after_ne hpos hlt hij (by omega))
  · rfl
  · exact absurd heq.symm (iterate_after_ne hpos hlt hji (by omega))

theorem iterate_after_lt (hpos : 0 < x) (hlt : x < n) (k : Nat) : (after n)^[k] x < n := by
  have hmod := Nat.mod_lt (x - 1 + k) (show 0 < n - 1 by omega)
  rw [iterate_after hpos hlt]
  omega

end Nowhere.Cycle
