import Mathlib.Data.Finset.Card
import Mathlib.Logic.Relation
import Nowhere.Lib.Cycle
import Nowhere.Protocol.Flow

/-!
# Flow identifiers

The allocator of `src/vector/flow_id.rs`. A call of `allocate` or `release` is one step: both hold
the lock of `active`, and `next` is only touched by `allocate`. The search for a free id looks at
one id more than may be in use, and these ids differ from each other although the counter passes
over zero on the way; so it always finds one.
-/

namespace Nowhere.Vector

open Protocol

structure FlowIdAllocator where
  next : UInt32
  active : Finset FlowId
  limit : Nat

namespace FlowIdAllocator

def new (limit : Nat) : FlowIdAllocator := ⟨1, ∅, limit⟩

/-- The id of one round of the search, with the counter after it. -/
def probe (next : UInt32) : FlowId × UInt32 :=
  if next = 0 then (next + 1, next + 1 + 1) else (next, next + 1)

/-- The rounds that are left. -/
def search : Nat → FlowIdAllocator → Result FlowId × FlowIdAllocator
  | 0, a => (.error (.bail "vector::flow_id: no reusable flow identifier available"), a)
  | rounds + 1, a =>
    let (id, next) := probe a.next
    if id ≠ 0 ∧ id ∉ a.active then (.ok id, { a with next, active := insert id a.active })
    else search rounds { a with next }

def allocate (a : FlowIdAllocator) : Result FlowId × FlowIdAllocator :=
  if a.limit ≤ a.active.card then
    (.error (.bail "vector::flow_id: active flow limit reached"), a)
  else search (a.limit + 1) a

def release (a : FlowIdAllocator) (id : FlowId) : FlowIdAllocator :=
  { a with active := a.active.erase id }

/-! ## The ids that are looked at -/

theorem probe_pos (next : UInt32) : 0 < (probe next).1.toNat := by
  unfold probe
  split
  · rename_i hzero
    rw [hzero]
    exact Nat.one_pos
  · rename_i hzero
    exact Nat.pos_of_ne_zero fun h => hzero (UInt32.toNat_inj.mp h)

theorem probe_after (next : UInt32) :
    (probe (probe next).2).1.toNat = Cycle.after (2 ^ 32) (probe next).1.toNat := by
  have hlt := (probe next).1.toNat_lt
  have hnext : (probe next).2 = (probe next).1 + 1 := by
    unfold probe
    split <;> rfl
  have htoNat : ((probe next).1 + 1).toNat = ((probe next).1.toNat + 1) % 2 ^ 32 := by
    rw [UInt32.toNat_add, UInt32.toNat_one]
  rw [hnext, Cycle.after]
  by_cases hwrap : (probe next).1.toNat + 1 < 2 ^ 32
  · rw [Nat.mod_eq_of_lt hwrap] at htoNat
    have hne : (probe next).1 + 1 ≠ 0 := by
      intro hzero
      rw [hzero] at htoNat
      cases htoNat
    rw [if_pos hwrap, probe, if_neg hne, htoNat]
  · rw [show (probe next).1.toNat + 1 = 2 ^ 32 by omega, Nat.mod_self] at htoNat
    have hzero : (probe next).1 + 1 = 0 := UInt32.toNat_inj.mp htoNat
    rw [if_neg hwrap, hzero]
    rfl

variable {rounds : Nat} {a : FlowIdAllocator} {e : Failure} {id : FlowId}

/-- A search that fails has found all of its ids in use. -/
theorem mem_active_of_search_error {e : Failure} (h : (search rounds a).1 = .error e) {k : Nat}
    (hk : k < rounds) :
    UInt32.ofNat ((Cycle.after (2 ^ 32))^[k] (probe a.next).1.toNat) ∈ a.active := by
  induction rounds generalizing a k with
  | zero => exact absurd hk (Nat.not_lt_zero k)
  | succ rounds ih =>
    unfold search at h
    simp only at h
    split at h
    · cases h
    · rename_i htaken
      cases k with
      | zero =>
        have hne : (probe a.next).1 ≠ 0 := by
          intro hzero
          have hpos := probe_pos a.next
          rw [hzero] at hpos
          exact Nat.lt_irrefl 0 hpos
        rw [Function.iterate_zero_apply, UInt32.ofNat_toNat]
        by_contra hfree
        exact htaken ⟨hne, hfree⟩
      | succ k =>
        have hmem := ih h (Nat.lt_of_succ_lt_succ hk)
        rw [probe_after, ← Function.iterate_succ_apply] at hmem
        exact hmem

/-- More rounds than ids in use end with a free id. -/
theorem search_ok (hrounds : a.active.card < rounds) (hbound : rounds ≤ 2 ^ 32 - 1) :
    ∃ id, (search rounds a).1 = .ok id := by
  cases hsearch : (search rounds a).1 with
  | ok id => exact ⟨id, rfl⟩
  | error e =>
    -- the ids of the rounds are different and all in use
    have hpos := probe_pos a.next
    have hlt := (probe a.next).1.toNat_lt
    have hsub : (Finset.range rounds).image (fun k =>
        UInt32.ofNat ((Cycle.after (2 ^ 32))^[k] (probe a.next).1.toNat)) ⊆ a.active := by
      intro id hid
      obtain ⟨k, hk, rfl⟩ := Finset.mem_image.mp hid
      exact mem_active_of_search_error hsearch (Finset.mem_range.mp hk)
    have hcard := Finset.card_le_card hsub
    rw [Finset.card_image_of_injOn, Finset.card_range] at hcard
    · omega
    · intro i hi j hj heq
      have hi' := Finset.mem_range.mp hi
      have hj' := Finset.mem_range.mp hj
      have htoNat := congrArg UInt32.toNat heq
      simp only [UInt32.toNat_ofNat', Nat.mod_eq_of_lt (Cycle.iterate_after_lt hpos hlt _)]
        at htoNat
      exact Cycle.iterate_after_inj hpos hlt (by omega) (by omega) htoNat

/-- An id that is handed out is not zero and was not in use. -/
theorem search_fresh (h : (search rounds a).1 = .ok id) :
    id ≠ 0 ∧ id ∉ a.active ∧ (search rounds a).2.active = insert id a.active := by
  induction rounds generalizing a with
  | zero => cases h
  | succ rounds ih =>
    unfold search at h ⊢
    simp only at h ⊢
    split at h
    · rename_i hfree
      obtain rfl := Except.ok.inj h
      rw [if_pos hfree]
      exact ⟨hfree.1, hfree.2, rfl⟩
    · rename_i htaken
      rw [if_neg htaken]
      exact ih h

/-- A search that fails leaves what is in use. -/
theorem search_error_active (h : (search rounds a).1 = .error e) :
    (search rounds a).2.active = a.active := by
  induction rounds generalizing a with
  | zero => rfl
  | succ rounds ih =>
    unfold search at h ⊢
    simp only at h ⊢
    split at h
    · cases h
    · rename_i htaken
      rw [if_neg htaken]
      exact ih h

theorem search_limit (rounds : Nat) (a : FlowIdAllocator) :
    (search rounds a).2.limit = a.limit := by
  induction rounds generalizing a with
  | zero => rfl
  | succ rounds ih =>
    unfold search
    simp only
    split
    · rfl
    · exact ih _

theorem allocate_limit (a : FlowIdAllocator) : a.allocate.2.limit = a.limit := by
  unfold allocate
  split
  · rfl
  · exact search_limit _ a

theorem allocate_fresh (h : a.allocate.1 = .ok id) :
    id ≠ 0 ∧ id ∉ a.active ∧ a.allocate.2.active = insert id a.active := by
  unfold allocate at h ⊢
  split at h
  · cases h
  · rename_i hroom
    rw [if_neg hroom]
    exact search_fresh h

theorem allocate_error_active (h : a.allocate.1 = .error e) :
    a.allocate.2.active = a.active := by
  unfold allocate at h ⊢
  split at h
  · rename_i hfull
    rw [if_pos hfull]
  · rename_i hroom
    rw [if_neg hroom]
    exact search_error_active h

theorem allocate_ok (hlimit : a.limit < 2 ^ 32 - 1) (hroom : a.active.card < a.limit) :
    ∃ id, a.allocate.1 = .ok id := by
  rw [allocate, if_neg (Nat.not_le_of_lt hroom)]
  exact search_ok (by omega) (by omega)

theorem allocate_full (hfull : a.limit ≤ a.active.card) :
    a.allocate = (.error (.bail "vector::flow_id: active flow limit reached"), a) :=
  if_pos hfull

end FlowIdAllocator

/-! ## Leases -/

/-- An allocator with the leases that are held; `FlowLease::drop` releases the id. -/
structure Leases where
  allocator : FlowIdAllocator
  live : List FlowId

namespace Leases

inductive Step : Leases → Leases → Prop
  | allocate {s : Leases} {id : FlowId} (ok : s.allocator.allocate.1 = .ok id) :
      Step s ⟨s.allocator.allocate.2, id :: s.live⟩
  | refused {s : Leases} {e : Failure} (error : s.allocator.allocate.1 = .error e) :
      Step s ⟨s.allocator.allocate.2, s.live⟩
  | drop {s : Leases} {id : FlowId} (held : id ∈ s.live) :
      Step s ⟨s.allocator.release id, s.live.erase id⟩

/-- The allocator knows the leases. -/
structure Tracked (limit : Nat) (s : Leases) : Prop where
  limit_eq : s.allocator.limit = limit
  nodup : s.live.Nodup
  active_eq : s.allocator.active = s.live.toFinset

variable {limit : Nat} {s : Leases}

theorem Tracked.step {s' : Leases} (h : Tracked limit s) (hstep : Step s s') :
    Tracked limit s' := by
  cases hstep with
  | @allocate id ok =>
    obtain ⟨_, hnew, hactive⟩ := FlowIdAllocator.allocate_fresh ok
    rw [h.active_eq, List.mem_toFinset] at hnew
    refine ⟨(FlowIdAllocator.allocate_limit _).trans h.limit_eq, h.nodup.cons hnew, ?_⟩
    rw [hactive, h.active_eq, List.toFinset_cons]
  | refused error =>
    exact ⟨(FlowIdAllocator.allocate_limit _).trans h.limit_eq, h.nodup,
      (FlowIdAllocator.allocate_error_active error).trans h.active_eq⟩
  | @drop id held =>
    refine ⟨h.limit_eq, h.nodup.erase id, ?_⟩
    ext other
    simp only [FlowIdAllocator.release, h.active_eq, Finset.mem_erase, List.mem_toFinset,
      h.nodup.mem_erase_iff]

theorem tracked_of_reachable {next : UInt32}
    (h : Relation.ReflTransGen Step ⟨⟨next, ∅, limit⟩, []⟩ s) : Tracked limit s := by
  induction h with
  | refl => exact ⟨rfl, List.nodup_nil, rfl⟩
  | tail _ hstep ih => exact ih.step hstep

/-- **Allocation of flow identifiers.** From any counter on and in any order of allocations and
drops, there is an id exactly as long as there are fewer leases than the limit, and it is new. -/
theorem allocate_free {limit : Nat} (hlimit : limit < 2 ^ 32 - 1) {next : UInt32} {s : Leases}
    (h : Relation.ReflTransGen Step ⟨⟨next, ∅, limit⟩, []⟩ s) :
    ((∃ id, s.allocator.allocate.1 = .ok id) ↔ s.live.length < limit) ∧
    (∀ id, s.allocator.allocate.1 = .ok id → id ≠ 0 ∧ id ∉ s.live) ∧
    s.allocator.allocate.1 ≠
      .error (.bail "vector::flow_id: no reusable flow identifier available") := by
  have htracked := tracked_of_reachable h
  have hcard : s.allocator.active.card = s.live.length := by
    rw [htracked.active_eq, List.toFinset_card_of_nodup htracked.nodup]
  have hfull : limit ≤ s.live.length → s.allocator.allocate.1 =
      .error (.bail "vector::flow_id: active flow limit reached") := by
    intro hle
    rw [FlowIdAllocator.allocate_full (by rw [htracked.limit_eq, hcard]; exact hle)]
  have hok : s.live.length < limit → ∃ id, s.allocator.allocate.1 = .ok id := fun hlt =>
    FlowIdAllocator.allocate_ok (htracked.limit_eq ▸ hlimit)
      (by rw [htracked.limit_eq, hcard]; exact hlt)
  refine ⟨⟨fun ⟨id, hid⟩ => ?_, hok⟩, fun id hid => ?_, fun herror => ?_⟩
  · by_contra hle
    cases hid.symm.trans (hfull (Nat.le_of_not_lt hle))
  · obtain ⟨hne, hnew, _⟩ := FlowIdAllocator.allocate_fresh hid
    rw [htracked.active_eq, List.mem_toFinset] at hnew
    exact ⟨hne, hnew⟩
  · rcases Nat.lt_or_ge s.live.length limit with hlt | hge
    · obtain ⟨id, hid⟩ := hok hlt
      cases herror.symm.trans hid
    · have hmessage := Failure.bail.inj (Except.error.inj (herror.symm.trans (hfull hge)))
      exact absurd hmessage (by decide)

/-- The ids around the wrap of the counter: the next one is not zero, and not the one in use. -/
theorem allocate_free_wrapped :
    ∃ s : Leases, Relation.ReflTransGen Step ⟨⟨4294967295, ∅, 2⟩, []⟩ s ∧
      s.live = [4294967295] ∧ s.allocator.next = 0 ∧
      ∃ id, s.allocator.allocate.1 = .ok id ∧ id ≠ 0 ∧ id ∉ s.live := by
  have hrun : Relation.ReflTransGen Step ⟨⟨4294967295, ∅, 2⟩, []⟩
      ⟨(⟨4294967295, ∅, 2⟩ : FlowIdAllocator).allocate.2, [4294967295]⟩ :=
    .single (.allocate (by decide))
  obtain ⟨hiff, hfresh, _⟩ := allocate_free (by decide) hrun
  obtain ⟨id, hid⟩ := hiff.mpr (by decide)
  exact ⟨_, hrun, rfl, rfl, id, hid, hfresh id hid⟩

end Leases

end Nowhere.Vector
