import Mathlib.Algebra.Order.BigOperators.Group.List
import Mathlib.Algebra.Order.Group.Nat
import Mathlib.Data.Finset.Card
import Mathlib.Data.List.AList
import Mathlib.Data.List.MinMax
import Mathlib.Algebra.BigOperators.Group.List.Basic

/-!
# Finite maps

Finite maps as Mathlib's association lists with distinct keys, with the operations of a hash
map that `AList` lacks: keeping the entries that satisfy a test (`Assoc.retain`), summing a
weight over all entries (`Assoc.total`), and finding an entry of least weight (`Assoc.minKey`).
The order of the entries carries no meaning; lookups and sums do not see it. Two maps are compared
entry by entry with `Assoc.Related`.
-/

namespace Assoc

/-- A finite map from `K` to `V`. -/
abbrev Map (K V : Type) : Type := AList fun _ : K => V

variable {K V : Type} [DecidableEq K]

theorem lookup_insert (m : Map K V) (k k' : K) (v : V) :
    (m.insert k v).lookup k' = if k' = k then some v else m.lookup k' := by
  split
  · rename_i h
    subst h
    exact AList.lookup_insert m
  · rename_i h
    exact AList.lookup_insert_ne h

theorem lookup_erase (m : Map K V) (k k' : K) :
    (m.erase k).lookup k' = if k' = k then none else m.lookup k' := by
  split
  · rename_i h
    subst h
    exact AList.lookup_erase k' m
  · rename_i h
    exact AList.lookup_erase_ne h

theorem entries_erase (m : Map K V) (k : K) : (m.erase k).entries = m.entries.kerase k := rfl

variable {m : Map K V} {k : K} {v : V} {p : K → V → Bool} {f : K → V → Nat} {pick : Nat}

theorem mem_entries :
    ⟨k, v⟩ ∈ m.entries ↔ m.lookup k = some v :=
  AList.mem_lookup_iff.symm

theorem eq_empty_of_lookup (h : ∀ k, m.lookup k = none) : m = ∅ := by
  apply AList.ext
  refine List.eq_nil_iff_forall_not_mem.mpr fun e he => ?_
  have hlookup : m.lookup e.1 = some e.2 := mem_entries.mp he
  rw [h] at hlookup
  cases hlookup

/-! ## Keeping a part of the entries -/

/-- The entries that satisfy `p`. -/
def retain (m : Map K V) (p : K → V → Bool) : Map K V :=
  ⟨m.entries.filter fun e => p e.1 e.2, m.nodupKeys.sublist List.filter_sublist⟩

omit [DecidableEq K] in
theorem mem_entries_retain {e : Sigma fun _ : K => V} :
    e ∈ (retain m p).entries ↔ e ∈ m.entries ∧ p e.1 e.2 = true :=
  List.mem_filter

theorem lookup_retain (m : Map K V) (p : K → V → Bool) (k : K) :
    (retain m p).lookup k = (m.lookup k).filter (p k) := by
  apply Option.ext
  intro v
  rw [← mem_entries, mem_entries_retain, mem_entries, Option.filter_eq_some_iff]

omit [DecidableEq K] in
theorem retain_retain (m : Map K V) (p : K → V → Bool) : retain (retain m p) p = retain m p := by
  apply AList.ext
  change (m.entries.filter _).filter _ = m.entries.filter _
  rw [List.filter_filter]
  simp only [Bool.and_self]

theorem retain_eq_self (h : ∀ k v, m.lookup k = some v → p k v = true) : retain m p = m := by
  apply AList.ext
  exact List.filter_eq_self.mpr fun e he => h e.1 e.2 (mem_entries.mp he)

/-- Some entry fails the test iff there are fewer entries left. -/
theorem length_retain_ne_iff :
    (retain m p).entries.length ≠ m.entries.length ↔
      ∃ k v, m.lookup k = some v ∧ p k v = false := by
  constructor
  · intro hlength
    by_contra hall
    push Not at hall
    refine hlength (congrArg (fun m : Map K V => m.entries.length) (retain_eq_self ?_))
    intro k v hv
    exact Bool.eq_true_of_not_eq_false (hall k v hv)
  · rintro ⟨k, v, hv, hp⟩ hlength
    have hall := List.length_filter_eq_length_iff.mp hlength ⟨k, v⟩ (mem_entries.mpr hv)
    rw [hp] at hall
    cases hall

/-! ## Sums over all entries -/

section Total

variable {M : Type} [AddCommMonoid M]

/-- The sum of a weight over all entries. -/
def total (m : Map K V) (f : K → V → M) : M := (m.entries.map fun e => f e.1 e.2).sum

omit [DecidableEq K] in
@[simp]
theorem total_empty (f : K → V → M) : total (∅ : Map K V) f = 0 := rfl

theorem total_insert (m : Map K V) (k : K) (v : V) (f : K → V → M) :
    total (m.insert k v) f = f k v + total (m.erase k) f := by
  simp [total, AList.entries_insert, entries_erase]

variable {m : Map K V} {k : K}

theorem erase_of_lookup_none (h : m.lookup k = none) : m.erase k = m := by
  apply AList.ext
  exact List.kerase_of_notMem_keys (AList.lookup_eq_none.mp h)

/-- Splitting off one entry. -/
theorem total_of_lookup {v : V} (h : m.lookup k = some v) (f : K → V → M) :
    total m f = f k v + total (m.erase k) f := by
  have hk : k ∈ m.entries.keys := List.mem_keys.mpr ⟨v, mem_entries.mpr h⟩
  obtain ⟨b, l₁, l₂, _, hl, herase⟩ := List.exists_of_kerase hk
  have hb : b = v := by
    have hmem : (⟨k, b⟩ : Sigma fun _ : K => V) ∈ m.entries := by simp [hl]
    exact Option.some.inj ((mem_entries.mp hmem).symm.trans h)
  subst hb
  simp only [total, entries_erase, herase]
  rw [hl]
  simp only [List.map_append, List.map_cons, List.sum_append, List.sum_cons]
  exact add_left_comm _ _ _

/-- Removing a key removes the weight of its value. -/
theorem total_erase (m : Map K V) (k : K) (f : K → V → M) :
    total (m.erase k) f + (m.lookup k).elim 0 (f k) = total m f := by
  cases h : m.lookup k with
  | none => rw [erase_of_lookup_none h, Option.elim_none, add_zero]
  | some v => rw [total_of_lookup h, Option.elim_some, add_comm]

/-- Replacing the value of a key by one of the same weight. -/
theorem total_insert_of_eq {v v' : V} (h : m.lookup k = some v) {f : K → V → M}
    (hf : f k v' = f k v) : total (m.insert k v') f = total m f := by
  rw [total_insert, total_of_lookup h, hf]

theorem total_insert_of_none (h : m.lookup k = none) (v : V) (f : K → V → M) :
    total (m.insert k v) f = f k v + total m f := by
  rw [total_insert, erase_of_lookup_none h]

/-- Writing a key trades the weight of the old value for that of the new one. -/
theorem total_insert_add (m : Map K V) (k : K) (v : V) (f : K → V → M) :
    total (m.insert k v) f + (m.lookup k).elim 0 (f k) = total m f + f k v := by
  rw [total_insert, add_assoc, total_erase, add_comm]

omit [DecidableEq K] in
/-- Sorting the entries by a test splits the sum. -/
theorem total_retain (m : Map K V) (p : K → V → Bool) (f : K → V → M) :
    total (retain m p) f + total (retain m fun k v => !p k v) f = total m f := by
  simp only [total, retain]
  induction m.entries with
  | nil => simp
  | cons e es ih =>
    rw [List.map_cons, List.sum_cons, ← ih]
    cases hp : p e.1 e.2 with
    | true => simp [hp, add_assoc]
    | false => simp [hp, add_left_comm]

theorem total_le_total {f g : K → V → Nat} (h : ∀ k v, m.lookup k = some v → f k v ≤ g k v) :
    total m f ≤ total m g := by
  refine List.sum_le_sum ?_
  intro e he
  exact h e.1 e.2 (mem_entries.mp he)

omit [DecidableEq K] in
/-- The number of entries, as a sum. -/
theorem length_entries (m : Map K V) : m.entries.length = total m fun _ _ => 1 := by
  simp [total]

end Total

/-! ## Keys that pass a test -/

/-- The keys of the entries that satisfy `p`. -/
def keysWhere (m : Map K V) (p : K → V → Bool) : Finset K := (retain m p).keys.toFinset

theorem mem_keysWhere :
    k ∈ keysWhere m p ↔ ∃ v, m.lookup k = some v ∧ p k v = true := by
  rw [keysWhere, List.mem_toFinset, ← AList.mem_keys, ← AList.lookup_isSome, lookup_retain,
    Option.isSome_iff_exists]
  simp only [Option.filter_eq_some_iff]

theorem card_keysWhere (m : Map K V) (p : K → V → Bool) :
    (keysWhere m p).card = m.entries.countP fun e => p e.1 e.2 := by
  rw [keysWhere, List.toFinset_card_of_nodup (retain m p).keys_nodup, List.countP_eq_length_filter]
  exact List.length_map _

/-- The number of keys, as a sum. -/
theorem total_toNat (m : Map K V) (p : K → V → Bool) :
    (total m fun k v => (p k v).toNat) = (keysWhere m p).card := by
  rw [card_keysWhere, total]
  induction m.entries with
  | nil => rfl
  | cons e es ih =>
    rw [List.map_cons, List.sum_cons, ih, List.countP_cons]
    cases p e.1 e.2 <;> simp [Nat.add_comm]

/-! ## Entries of least weight -/

omit [DecidableEq K] in
/-- The keys of the entries of least weight. -/
def minKeys (m : Map K V) (f : K → V → Nat) : List K :=
  (m.entries.filter fun e => m.entries.all fun e' =>
    decide (f e.1 e.2 ≤ f e'.1 e'.2)).map Sigma.fst

/-- An iteration for the least entry. A hash map meets equal ones in an unspecified order, `pick`
says which one comes first. -/
def minKey (m : Map K V) (f : K → V → Nat) (pick : Nat) : Option K :=
  (minKeys m f)[pick % (minKeys m f).length]?

theorem minKey_least (h : minKey m f pick = some k) :
    ∃ v, m.lookup k = some v ∧ ∀ k' v', m.lookup k' = some v' → f k v ≤ f k' v' := by
  have hk := List.mem_of_getElem? h
  simp only [minKeys, List.mem_map, List.mem_filter, List.all_eq_true, decide_eq_true_eq] at hk
  obtain ⟨⟨k, v⟩, ⟨hv, hleast⟩, rfl⟩ := hk
  exact ⟨v, mem_entries.mp hv, fun k' v' h' => hleast _ (mem_entries.mpr h')⟩

omit [DecidableEq K] in
theorem minKey_isSome (f : K → V → Nat) (pick : Nat) (h : m.entries ≠ []) :
    (minKey m f pick).isSome := by
  -- some entry attains the least weight, so the candidates are not empty
  obtain ⟨e, he⟩ : ∃ e, e ∈ m.entries.argmin fun e => f e.1 e.2 :=
    Option.ne_none_iff_exists'.mp fun hnone => h (List.argmin_eq_none.mp hnone)
  have hmem : e.1 ∈ minKeys m f := by
    simp only [minKeys, List.mem_map, List.mem_filter, List.all_eq_true, decide_eq_true_eq]
    exact ⟨e, ⟨List.argmin_mem he, fun e' he' => List.le_of_mem_argmin he' he⟩, rfl⟩
  have hlength := List.length_pos_of_mem hmem
  simp only [minKey, List.getElem?_eq_getElem (Nat.mod_lt pick hlength), Option.isSome_some]

/-- An entry is not the least when the map has more entries than the keys `others` of the
entries that weigh no less, one of which is missing. -/
theorem minKey_ne {k k₀ : K} {others : Finset K} (hfound : m.lookup k = some v)
    (hothers : ∀ k' v', k' ≠ k → m.lookup k' = some v' → f k v ≤ f k' v' → k' ∈ others)
    (hmissing : m.lookup k₀ = none) (hk₀ : k₀ ∈ others) (hcard : others.card < m.entries.length) :
    minKey m f pick ≠ some k := by
  intro hmin
  obtain ⟨v', hv', hleast⟩ := minKey_least hmin
  cases hfound.symm.trans hv'
  have hsubset : m.keys.toFinset ⊆ insert k (others.erase k₀) := by
    intro k' hk'
    obtain ⟨w, hw⟩ := Option.isSome_iff_exists.mp
      (AList.lookup_isSome.mpr (AList.mem_keys.mpr (List.mem_toFinset.mp hk')))
    by_cases hkk : k' = k
    · rw [hkk]
      exact Finset.mem_insert_self _ _
    · have hne : k' ≠ k₀ := by
        rintro rfl
        rw [hmissing] at hw
        cases hw
      exact Finset.mem_insert_of_mem
        (Finset.mem_erase.mpr ⟨hne, hothers k' w hkk hw (hleast k' w hw)⟩)
  have hle := (Finset.card_le_card hsubset).trans (Finset.card_insert_le _ _)
  rw [List.toFinset_card_of_nodup m.keys_nodup, Finset.card_erase_of_mem hk₀] at hle
  have hlength : m.keys.length = m.entries.length := List.length_map _
  have hpos := Finset.card_pos.mpr ⟨k₀, hk₀⟩
  omega

/-! ## Maps with corresponding values -/

section Related

variable {K V V' : Type} {R : V → V' → Prop} {m : Map K V} {m' : Map K V'}

/-- The maps have the same keys in the same order, with values related by `R`. -/
def Related (R : V → V' → Prop) (m : Map K V) (m' : Map K V') : Prop :=
  List.Forall₂ (fun e e' => e.1 = e'.1 ∧ R e.2 e'.2) m.entries m'.entries

namespace Related

theorem empty (R : V → V' → Prop) : Related R (∅ : Map K V) ∅ := .nil

theorem retain (h : Related R m m') {p : K → V → Bool} {p' : K → V' → Bool}
    (hp : ∀ k v v', R v v' → p k v = p' k v') :
    Related R (Assoc.retain m p) (Assoc.retain m' p') := by
  unfold Related Assoc.retain at *
  dsimp only
  generalize m.entries = es, m'.entries = es' at h ⊢
  induction h with
  | nil => exact .nil
  | @cons e e' es es' hhead _ ih =>
    obtain ⟨k, v⟩ := e
    obtain ⟨k', v'⟩ := e'
    obtain ⟨rfl, hv⟩ := hhead
    rw [List.filter_cons, List.filter_cons, hp k v v' hv]
    split
    · exact .cons ⟨rfl, hv⟩ ih
    · exact ih

theorem map_entries {A : Type} (h : Related R m m') {f : K → V → A} {f' : K → V' → A}
    (hf : ∀ k v v', R v v' → f k v = f' k v') :
    (m.entries.map fun e => f e.1 e.2) = m'.entries.map fun e => f' e.1 e.2 := by
  unfold Related at h
  generalize m.entries = es, m'.entries = es' at h ⊢
  induction h with
  | nil => rfl
  | @cons e e' es es' hhead _ ih =>
    rw [List.map_cons, List.map_cons, ih, hhead.1, hf _ _ _ hhead.2]

variable [DecidableEq K]

theorem lookup (h : Related R m m') (k : K) : Option.Rel R (m.lookup k) (m'.lookup k) := by
  unfold Related at h
  change Option.Rel R (m.entries.dlookup k) (m'.entries.dlookup k)
  generalize m.entries = es, m'.entries = es' at h ⊢
  induction h with
  | nil => exact .none
  | @cons e e' es es' hhead _ ih =>
    obtain ⟨k₁, v⟩ := e
    obtain ⟨k₂, v'⟩ := e'
    obtain ⟨rfl, hv⟩ := hhead
    by_cases hk : k = k₁
    · subst hk
      simpa [List.dlookup_cons_eq] using Option.Rel.some hv
    · simpa [List.dlookup_cons_ne, hk] using ih

theorem erase (h : Related R m m') (k : K) : Related R (m.erase k) (m'.erase k) := by
  unfold Related at *
  rw [entries_erase, entries_erase]
  generalize m.entries = es, m'.entries = es' at h ⊢
  induction h with
  | nil => exact .nil
  | @cons e e' es es' hhead htail ih =>
    by_cases hk : k = e.1
    · rw [List.kerase_cons_eq hk, List.kerase_cons_eq (hk.trans hhead.1)]
      exact htail
    · rw [List.kerase_cons_ne hk, List.kerase_cons_ne (hhead.1 ▸ hk)]
      exact .cons hhead ih

theorem insert (h : Related R m m') (k : K) {v : V} {v' : V'} (hv : R v v') :
    Related R (m.insert k v) (m'.insert k v') := by
  have herase := h.erase k
  unfold Related at *
  rw [AList.entries_insert, AList.entries_insert]
  exact .cons ⟨rfl, hv⟩ herase

end Related

end Related

end Assoc
