import Mathlib.Logic.Relation
import Nowhere.Lib.Tally

/-!
# Admission of unauthenticated connections

The counters of `src/portal/admission.rs`. A connection is admitted with a guard, which gives its
slot back when it is dropped; `try_acquire` and the drop are each one critical section of the
mutex, hence one step. The guards that are alive stand beside the counters (`Admission.live`),
each with the address it was acquired for.

What the counters are for is the multiset of the keys of the live guards: `total` is its size and
`per_source` its map of multiplicities (`Counts`). Every call keeps that, so that the two
decrements of a drop always have something to take away.
-/

namespace Nowhere.Portal

open Assoc

def maxUnauthenticatedConnections : Nat := 256
def maxUnauthenticatedPerSource : Nat := 32

/-- `std::net::IpAddr`. -/
inductive IpAddr
  | v4 (ip : BitVec 32)
  | v6 (ip : BitVec 128)
  deriving DecidableEq, Repr

inductive SourceKey
  | v4 (ip : BitVec 32)
  | v6 (network : BitVec 64)
  deriving DecidableEq, Repr

/-- `SourceKey::from`: IPv6 sources are grouped by /64. -/
def SourceKey.ofIp : IpAddr → SourceKey
  | .v4 ip => .v4 ip
  | .v6 ip => .v6 ((ip >>> 64).setWidth 64)

theorem SourceKey.ofIp_v6_eq_iff (a b : BitVec 128) :
    SourceKey.ofIp (.v6 a) = SourceKey.ofIp (.v6 b) ↔ a.toNat / 2 ^ 64 = b.toNat / 2 ^ 64 := by
  have hupper (ip : BitVec 128) : ((ip >>> 64).setWidth 64).toNat = ip.toNat / 2 ^ 64 := by
    rw [BitVec.toNat_setWidth, BitVec.toNat_ushiftRight, Nat.shiftRight_eq_div_pow]
    have := ip.isLt
    omega
  rw [SourceKey.ofIp, SourceKey.ofIp, SourceKey.v6.injEq, BitVec.toNat_eq, hupper, hupper]

structure AdmissionState where
  total : Nat
  perSource : Map SourceKey Nat

structure UnauthenticatedGuard where
  key : SourceKey
  deriving DecidableEq

namespace AdmissionState

def new : AdmissionState := ⟨0, ∅⟩

def tryAcquire (state : AdmissionState) (source : IpAddr) :
    Option UnauthenticatedGuard × AdmissionState :=
  let key := SourceKey.ofIp source
  let sourceCount := (state.perSource.lookup key).getD 0
  if maxUnauthenticatedConnections ≤ state.total ∨ maxUnauthenticatedPerSource ≤ sourceCount then
    (none, state)
  else (some ⟨key⟩, ⟨state.total + 1, state.perSource.insert key (sourceCount + 1)⟩)

end AdmissionState

/-- `-= 1` on a counter; there is no result when it underflows. -/
def decrement : Nat → Option Nat
  | 0 => none
  | count + 1 => some count

/-- `drop` of a guard; there is no result when one of the counters underflows. -/
def UnauthenticatedGuard.drop (guard : UnauthenticatedGuard) (state : AdmissionState) :
    Option AdmissionState := do
  let total ← decrement state.total
  match state.perSource.lookup guard.key with
  | none => return ⟨total, state.perSource⟩
  | some count =>
    let count ← decrement count
    if count = 0 then return ⟨total, state.perSource.erase guard.key⟩
    else return ⟨total, state.perSource.insert guard.key count⟩

/-! ## Calls and live guards -/

/-- A guard that is alive, with the address it was acquired for. -/
structure Admitted where
  source : IpAddr
  guard : UnauthenticatedGuard
  deriving DecidableEq

structure Admission where
  state : AdmissionState
  live : Multiset Admitted

namespace Admission

def new : Admission := ⟨.new, 0⟩

/-- One call. A guard is dropped once, by whoever owns it. -/
inductive Step : Admission → Admission → Prop
  | refused {a : Admission} {source : IpAddr} {state : AdmissionState}
      (call : a.state.tryAcquire source = (none, state)) : Step a ⟨state, a.live⟩
  | acquired {a : Admission} {source : IpAddr} {guard : UnauthenticatedGuard}
      {state : AdmissionState} (call : a.state.tryAcquire source = (some guard, state)) :
      Step a ⟨state, ⟨source, guard⟩ ::ₘ a.live⟩
  | dropped {a : Admission} {admitted : Admitted} {state : AdmissionState}
      (alive : admitted ∈ a.live) (call : admitted.guard.drop a.state = some state) :
      Step a ⟨state, a.live.erase admitted⟩

/-- The keys of the live guards. -/
def keys (a : Admission) : Multiset SourceKey := a.live.map fun admitted => admitted.guard.key

end Admission

/-! ## What the counters count -/

/-- The counters are those of the multiset `keys`, which respects both limits. -/
structure Counts (state : AdmissionState) (keys : Multiset SourceKey) : Prop where
  total_eq : state.total = keys.card
  perSource : Tally.Of state.perSource keys
  total_le : keys.card ≤ maxUnauthenticatedConnections
  count_le : ∀ k, keys.count k ≤ maxUnauthenticatedPerSource

namespace Counts

variable {state : AdmissionState} {keys : Multiset SourceKey}

theorem new : Counts .new 0 where
  total_eq := rfl
  perSource := .empty
  total_le := Nat.zero_le _
  count_le _ := Nat.zero_le _

/-- The test of `try_acquire` in terms of the live guards. -/
theorem full_iff (h : Counts state keys) (source : IpAddr) :
    (state.tryAcquire source).1 = none ↔
      maxUnauthenticatedConnections ≤ keys.card ∨
        maxUnauthenticatedPerSource ≤ keys.count (SourceKey.ofIp source) := by
  rw [← h.total_eq, ← h.perSource.count_eq, Tally.count, AdmissionState.tryAcquire]
  split
  · rename_i hfull
    exact ⟨fun _ => hfull, fun _ => rfl⟩
  · rename_i hroom
    constructor
    · intro hnone
      cases hnone
    · intro hfull
      exact absurd hfull hroom

variable {source : IpAddr} {state' : AdmissionState} {guard : UnauthenticatedGuard}

theorem refused (h : Counts state keys) (hcall : state.tryAcquire source = (none, state')) :
    Counts state' keys := by
  unfold AdmissionState.tryAcquire at hcall
  dsimp only at hcall
  split at hcall
  · cases hcall
    exact h
  · cases hcall

theorem acquired (h : Counts state keys) (hcall : state.tryAcquire source = (some guard, state')) :
    guard.key = SourceKey.ofIp source ∧ Counts state' (guard.key ::ₘ keys) := by
  unfold AdmissionState.tryAcquire at hcall
  dsimp only at hcall
  split at hcall
  · cases hcall
  · rename_i hroom
    cases hcall
    have htotal := h.total_eq
    have hcount : (state.perSource.lookup (SourceKey.ofIp source)).getD 0 =
        keys.count (SourceKey.ofIp source) := h.perSource.count_eq _
    refine ⟨rfl, ⟨?_, h.perSource.up _, ?_, ?_⟩⟩
    · rw [Multiset.card_cons, htotal]
    · rw [Multiset.card_cons]
      omega
    · intro k
      have hk := h.count_le k
      rw [Multiset.count_cons]
      split
      · rename_i hkey
        subst hkey
        change keys.count (SourceKey.ofIp source) + 1 ≤ _
        omega
      · exact hk

/-- Dropping a live guard takes its key out of both counters. -/
theorem drop_eq (h : Counts state keys) (hkey : guard.key ∈ keys) :
    guard.drop state = some ⟨state.total - 1, Tally.down state.perSource guard.key⟩ := by
  have hlookup := h.perSource.lookup_of_mem hkey
  have hcount : Tally.count state.perSource guard.key = keys.count guard.key :=
    h.perSource.count_eq guard.key
  obtain ⟨n, hn⟩ : ∃ n, keys.count guard.key = n + 1 :=
    Nat.exists_eq_add_one.mpr (Multiset.count_pos.mpr hkey)
  obtain ⟨t, ht⟩ : ∃ t, state.total = t + 1 := by
    rw [h.total_eq]
    exact Nat.exists_eq_add_one.mpr (Multiset.card_pos_iff_exists_mem.mpr ⟨_, hkey⟩)
  rw [UnauthenticatedGuard.drop, Tally.down, hlookup, hcount, hn, ht]
  cases n with
  | zero => rfl
  | succ n => rfl

theorem dropped (h : Counts state keys) (hkey : guard.key ∈ keys)
    (hcall : guard.drop state = some state') :
    Counts state' (keys.erase guard.key) := by
  rw [h.drop_eq hkey] at hcall
  cases hcall
  have hcard : (keys.erase guard.key).card = keys.card - 1 := Multiset.card_erase_of_mem hkey
  have hle := h.total_le
  refine ⟨?_, h.perSource.down _, ?_, ?_⟩
  · rw [hcard, h.total_eq]
  · rw [hcard]
    omega
  · intro k
    exact (Multiset.count_le_of_le k (Multiset.erase_le _ _)).trans (h.count_le k)

end Counts

/-! ## Every sequence of calls -/

/-- The counters fit the live guards, and every guard has the key of its source. -/
structure Kept (a : Admission) : Prop where
  counts : Counts a.state a.keys
  key_eq : ∀ admitted ∈ a.live, admitted.guard.key = SourceKey.ofIp admitted.source

namespace Kept

variable {a b : Admission}

theorem key_mem {admitted : Admitted} (h : admitted ∈ a.live) : admitted.guard.key ∈ a.keys :=
  Multiset.mem_map_of_mem _ h

theorem step (h : Kept a) (hstep : Admission.Step a b) : Kept b := by
  cases hstep with
  | refused call => exact ⟨h.counts.refused call, h.key_eq⟩
  | acquired call =>
    obtain ⟨hkey, hcounts⟩ := h.counts.acquired call
    refine ⟨?_, ?_⟩
    · rw [Admission.keys, Multiset.map_cons]
      exact hcounts
    · intro admitted hadmitted
      rcases Multiset.mem_cons.mp hadmitted with rfl | hold
      · exact hkey
      · exact h.key_eq admitted hold
  | @dropped admitted _ alive call =>
    refine ⟨?_, fun other hother => h.key_eq other (Multiset.mem_of_mem_erase hother)⟩
    have herase : (a.live.erase admitted).map (fun admitted => admitted.guard.key) =
        a.keys.erase admitted.guard.key :=
      Multiset.map_erase_of_mem _ _ alive
    rw [Admission.keys, herase]
    exact h.counts.dropped (key_mem alive) call

theorem reachable (h : Relation.ReflTransGen Admission.Step .new a) : Kept a := by
  induction h with
  | refl => exact ⟨.new, fun admitted hadmitted => absurd hadmitted (Multiset.notMem_zero _)⟩
  | tail _ hstep ih => exact ih.step hstep

/-- The guards of a key, counted by their sources. -/
theorem count_keys (h : Kept a) (k : SourceKey) :
    a.keys.count k = a.live.countP fun admitted => SourceKey.ofIp admitted.source = k := by
  rw [Admission.keys, Multiset.count_map, ← Multiset.countP_eq_card_filter]
  refine Multiset.countP_congr rfl ?_
  intro admitted hadmitted
  rw [h.key_eq admitted hadmitted]
  exact propext eq_comm

end Kept

/-- After every sequence of calls the counters count the live guards, within both limits; a live
guard can be dropped, and `try_acquire` refuses exactly at one of the limits. -/
theorem admission_counts {a : Admission} (h : Relation.ReflTransGen Admission.Step .new a) :
    a.state.total = a.live.card ∧
    a.state.total = total a.state.perSource (fun _ count => count) ∧
    (∀ k, (a.state.perSource.lookup k).getD 0 =
      a.live.countP fun admitted => SourceKey.ofIp admitted.source = k) ∧
    (∀ k, a.state.perSource.lookup k ≠ some 0) ∧
    a.state.total ≤ maxUnauthenticatedConnections ∧
    (∀ k count, a.state.perSource.lookup k = some count → count ≤ maxUnauthenticatedPerSource) ∧
    (∀ admitted ∈ a.live, ∃ state, admitted.guard.drop a.state = some state) ∧
    ∀ source, (a.state.tryAcquire source).1 = none ↔
      a.state.total = maxUnauthenticatedConnections ∨
        (a.state.perSource.lookup (SourceKey.ofIp source)).getD 0 =
          maxUnauthenticatedPerSource := by
  have hkept := Kept.reachable h
  have hcounts := hkept.counts
  have hcard : a.keys.card = a.live.card := Multiset.card_map _ _
  have hcount (k : SourceKey) : (a.state.perSource.lookup k).getD 0 = a.keys.count k :=
    hcounts.perSource.count_eq k
  refine ⟨hcounts.total_eq.trans hcard, ?_, ?_, hcounts.perSource.no_zero, ?_, ?_, ?_, ?_⟩
  · rw [hcounts.perSource.total_eq_card, hcounts.total_eq]
  · intro k
    rw [hcount, hkept.count_keys]
  · rw [hcounts.total_eq]
    exact hcounts.total_le
  · intro k count hk
    have hle := hcounts.count_le k
    rw [← hcount, hk, Option.getD_some] at hle
    exact hle
  · intro admitted hadmitted
    exact ⟨_, hcounts.drop_eq (Kept.key_mem hadmitted)⟩
  · intro source
    have htotal := hcounts.total_le
    have hle := hcounts.count_le (SourceKey.ofIp source)
    rw [hcounts.full_iff, hcounts.total_eq, hcount]
    omega

namespace Sample

/-- Two hosts of one IPv6 network are admitted; then the first leaves. -/
theorem admission_counts_sharedNetwork : ∃ a : Admission,
    Relation.ReflTransGen Admission.Step .new a ∧ a.live = {⟨.v6 0x70000000000000002, ⟨.v6 7⟩⟩} ∧
      a.state.total = 1 ∧ (a.state.perSource.lookup (.v6 7)).getD 0 = 1 := by
  let first : Admitted := ⟨.v6 0x70000000000000001, ⟨.v6 7⟩⟩
  let second : Admitted := ⟨.v6 0x70000000000000002, ⟨.v6 7⟩⟩
  have hboth : Relation.ReflTransGen Admission.Step .new
      ⟨⟨2, Tally.up (Tally.up ∅ (.v6 7)) (.v6 7)⟩, second ::ₘ first ::ₘ 0⟩ :=
    .tail (.single (.acquired rfl)) (.acquired rfl)
  obtain ⟨-, -, -, -, -, -, hdrop, -⟩ := admission_counts hboth
  obtain ⟨state, hstate⟩ := hdrop first (by simp [first])
  have hleft : Relation.ReflTransGen Admission.Step .new ⟨state, second ::ₘ 0⟩ := by
    refine hboth.tail ?_
    have herase : second ::ₘ 0 = (second ::ₘ first ::ₘ 0).erase first := by decide
    rw [herase]
    exact .dropped (by simp [first]) hstate
  obtain ⟨htotal, -, hcount, -⟩ := admission_counts hleft
  exact ⟨_, hleft, rfl, htotal, hcount _⟩

end Sample

end Nowhere.Portal
