import Mathlib.Algebra.BigOperators.Group.Finset.Basic
import Mathlib.Algebra.BigOperators.Group.Multiset.Basic
import Mathlib.Data.Multiset.Count
import Nowhere.Lib.Assoc

/-!
# Maps of multiplicities

A multiset kept as a finite map from its elements to how often they occur, without entries for
what does not occur. `Tally.up` and `Tally.down` add and take away one occurrence; `down` forgets
an element with its last occurrence.
-/

namespace Tally

open Assoc

variable {K : Type} [DecidableEq K]

/-- How often `k` occurs. -/
def count (m : Map K Nat) (k : K) : Nat := (m.lookup k).getD 0

def up (m : Map K Nat) (k : K) : Map K Nat := m.insert k (count m k + 1)

def down (m : Map K Nat) (k : K) : Map K Nat :=
  if count m k ≤ 1 then m.erase k else m.insert k (count m k - 1)

/-- `m` is the map of the multiplicities of `s`. -/
structure Of (m : Map K Nat) (s : Multiset K) : Prop where
  count_eq : ∀ k, count m k = s.count k
  no_zero : ∀ k, m.lookup k ≠ some 0

@[simp]
theorem count_insert (m : Map K Nat) (k k' : K) (n : Nat) :
    count (m.insert k n) k' = if k' = k then n else count m k' := by
  unfold count
  rw [lookup_insert]
  split <;> rfl

@[simp]
theorem count_erase (m : Map K Nat) (k k' : K) :
    count (m.erase k) k' = if k' = k then 0 else count m k' := by
  unfold count
  rw [lookup_erase]
  split <;> rfl

theorem count_of_lookup {m : Map K Nat} {k : K} {n : Nat} (h : m.lookup k = some n) :
    count m k = n := by
  rw [count, h, Option.getD_some]

namespace Of

variable {m : Map K Nat} {s : Multiset K}

theorem empty : Of (∅ : Map K Nat) 0 where
  count_eq _ := rfl
  no_zero _ h := by cases h

theorem up (h : Of m s) (k : K) : Of (Tally.up m k) (k ::ₘ s) where
  count_eq k' := by
    rw [Tally.up, count_insert, Multiset.count_cons, h.count_eq, h.count_eq]
    split
    · rename_i hk
      rw [hk]
    · rfl
  no_zero k' := by
    rw [Tally.up, lookup_insert]
    split
    · simp
    · exact h.no_zero k'

theorem down (h : Of m s) (k : K) : Of (Tally.down m k) (s.erase k) where
  count_eq k' := by
    have hk := h.count_eq k
    have hk' := h.count_eq k'
    unfold Tally.down
    by_cases hkk : k' = k
    · subst hkk
      rw [Multiset.count_erase_self]
      split <;> simp <;> omega
    · rw [Multiset.count_erase_of_ne hkk]
      split <;> simp [hkk, hk']
  no_zero k' := by
    unfold Tally.down
    split
    · rw [lookup_erase]
      split
      · simp
      · exact h.no_zero k'
    · rw [lookup_insert]
      split
      · simp
        omega
      · exact h.no_zero k'

/-- An element that occurs has an entry. -/
theorem lookup_of_mem (h : Of m s) {k : K} (hk : k ∈ s) : m.lookup k = some (s.count k) := by
  have hcount := h.count_eq k
  have hpos : 0 < s.count k := Multiset.count_pos.mpr hk
  unfold count at hcount
  cases hlookup : m.lookup k with
  | none =>
    rw [hlookup, Option.getD_none] at hcount
    omega
  | some n =>
    rw [hlookup, Option.getD_some] at hcount
    rw [hcount]

/-- The multiplicities add up to the size of the multiset. -/
theorem total_eq_card (h : Of m s) : total m (fun _ n => n) = s.card := by
  have hkeys : ∀ k ∈ s, k ∈ m.keys.toFinset := by
    intro k hk
    rw [List.mem_toFinset, ← AList.mem_keys, ← AList.lookup_isSome, h.lookup_of_mem hk]
    rfl
  have hcount : ∀ e ∈ m.entries, e.2 = s.count e.1 := by
    intro e he
    rw [← h.count_eq, count_of_lookup (mem_entries.mp he)]
  calc total m (fun _ n => n) = (m.entries.map fun e => s.count e.1).sum := by
        rw [total, List.map_congr_left hcount]
    _ = (m.keys.map fun k => s.count k).sum := by
        rw [AList.keys, List.keys, List.map_map]
        rfl
    _ = ∑ k ∈ m.keys.toFinset, s.count k := (List.sum_toFinset _ m.keys_nodup).symm
    _ = s.card := Multiset.sum_count_eq_card hkeys

end Of

end Tally
