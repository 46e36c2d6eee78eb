import Mathlib.Algebra.Order.Group.Multiset
import Mathlib.Algebra.BigOperators.Group.List.Basic
import Nowhere.Protocol.ReassemblySteps

/-!
# Resources of the reassembler

In every state that calls of the interface can reach, the counters of the reassembler agree
with its slots and stay within the configured limits (`DatagramReassembler.Valid`), and every
reservation the caller has granted is in exactly one place: inside an open slot, handed out in
a `Complete`, or released with a slot that was dropped (`reservations_balance`).
-/

namespace Nowhere.Protocol

open Assoc Holes

variable {R : Type}

/-- The reservation handed out in a `Complete`. -/
def ReassemblyOutcome.reservation : ReassemblyOutcome R → Option R
  | .complete _ reservation _ => some reservation
  | _ => none

/-! ## Histories -/

/-- The calls made on a new reassembler, in order, with what each of them did. -/
inductive History (config : ReassemblyConfig) :
    List (Call R × Effect R) → DatagramReassembler R → Prop
  | new : History config [] (.new config)
  | call {history : List (Call R × Effect R)} {r : DatagramReassembler R} {call : Call R}
      {e : Effect R} (prior : History config history r) (result : r.apply call = .ok e) :
      History config (history ++ [(call, e)]) e.state

namespace DatagramReassembler

/-! ## The invariant -/

structure Valid (r : DatagramReassembler R) : Prop where
  slot_valid : ∀ {key slot}, r.slots.lookup key = some slot → slot.Valid
  slots_le : r.slots.entries.length ≤ r.config.maxSlots
  counted : r.Counted
  reserved_le : r.reservedBytes ≤ r.config.maxBytes

theorem new_valid (config : ReassemblyConfig) :
    (new config : DatagramReassembler R).Valid where
  slot_valid h := by cases h
  slots_le := Nat.zero_le _
  counted := rfl
  reserved_le := Nat.zero_le _

/-- Removing slots keeps the invariant. -/
theorem Valid.removes {r r' : DatagramReassembler R} {gone : Dropped R} (h : r.Valid)
    (hrem : Removes r r' gone) : r'.Valid where
  slot_valid hfound := h.slot_valid (hrem.kept hfound).1
  slots_le := hrem.config ▸ hrem.length_le.trans h.slots_le
  counted := hrem.counted h.counted
  reserved_le := hrem.config ▸ (hrem.reserved h.counted).trans h.reserved_le

variable {r : DatagramReassembler R} {key : ReassemblyKey} {fragment : UdpFragment}

theorem Valid.expire (h : r.Valid) (now : Nat) :
    (r.expire now).state.Valid :=
  h.removes (removes_expire r now)

/-- Filling a hole keeps the number of slots and the bytes reserved for them. -/
theorem Valid.insert_store (h : r.Valid) {slot : ReassemblySlot R}
    (found : r.slots.lookup key = some slot) (valid : (slot.store fragment).Valid) :
    ({ r with slots := r.slots.insert key (slot.store fragment) } :
      DatagramReassembler R).Valid := by
  have hslots : total (r.slots.insert key (slot.store fragment)) (fun _ _ => 1) = _ :=
    total_insert_of_eq found rfl
  have hbytes : load (fun totalLen _ => totalLen.toNat)
      (r.slots.insert key (slot.store fragment)) = _ := total_insert_of_eq found rfl
  refine ⟨fun {key' slot'} hfound => ?_, ?_, ?_, h.reserved_le⟩
  · rw [lookup_insert] at hfound
    split at hfound
    · obtain rfl := Option.some.inj hfound
      exact valid
    · exact h.slot_valid hfound
  · rw [← length_entries, ← length_entries] at hslots
    exact hslots ▸ h.slots_le
  · exact h.counted.trans hbytes.symm

/-- A new slot takes the room that was made for it. -/
theorem Valid.openSlot (h : r.Valid) {flowId : FlowId} (accepted : fragment.Accepted flowId)
    (missing : r.slots.lookup key = none) (room : r.slots.entries.length < r.config.maxSlots)
    (fits : r.reservedBytes + fragment.totalLen.toNat ≤ r.config.maxBytes) (now : Nat)
    (reservation : R) : (r.openSlot key fragment now reservation).Valid := by
  have hslots := total_insert_of_none missing (.first fragment now reservation) fun _ _ => 1
  have hbytes := total_insert_of_none missing (.first fragment now reservation) fun _ slot =>
    slot.totalLen.toNat
  have hcounted := h.counted
  simp only [Counted, load] at hcounted
  refine ⟨fun {key' slot'} hfound => ?_, ?_, ?_, fits⟩
  · simp only [DatagramReassembler.openSlot, lookup_insert] at hfound
    split at hfound
    · obtain rfl := Option.some.inj hfound
      exact ReassemblySlot.first_valid accepted now reservation
    · exact h.slot_valid hfound
  · rw [← length_entries, ← length_entries] at hslots
    simp only [DatagramReassembler.openSlot]
    omega
  · simp only [ReassemblySlot.first] at hbytes
    simp only [Counted, load, DatagramReassembler.openSlot, ReassemblySlot.first]
    omega

end DatagramReassembler

open DatagramReassembler

section Pushed

variable {r : DatagramReassembler R} {c : Push R} {e : Effect R}

theorem Pushed.config (h : Pushed r c e) : e.state.config = r.config := by
  have hexpire := (removes_expire r c.now).config
  have hevict := (removes_evictOldest r c.now c.pick).config
  cases h with
  | invalid => rfl
  | full _ _ room => exact room ▸ hevict
  | unreserved _ _ room => exact room ▸ hevict
  | opened _ _ room => exact room ▸ hevict
  | _ => exact hexpire

theorem Pushed.valid (h : Pushed r c e) (hr : r.Valid) : e.state.Valid := by
  have hexpired := hr.expire c.now
  have hevicted := hr.removes (removes_evictOldest r c.now c.pick)
  cases h with
  | invalid => exact hr
  | gaveUp _ found => exact hexpired.removes (removes_without found)
  | repeated => exact hexpired
  | stored _ found fills more =>
    have hslot := (hexpired.slot_valid found).store fills.hole fills.fits more
    exact hexpired.insert_store found hslot
  | short _ found => exact hexpired.removes (removes_without found)
  | completed _ found => exact hexpired.removes (removes_without found)
  | outsized => exact hexpired
  | full _ _ room => exact room ▸ hevicted
  | unreserved _ _ room => exact room ▸ hevicted
  | opened accepted missing room slots fits =>
    subst room
    have hroom := evictOldest_room c.pick slots hexpired.slots_le
    have hconfig := (removes_evictOldest r c.now c.pick).config.trans
      (removes_expire r c.now).config.symm
    exact hevicted.openSlot accepted (missing_evictOldest c.pick missing) (hconfig ▸ hroom) fits
      c.now _

/-! ## The ledger -/

/-- The weight of the reservations that were granted. -/
def grants {M : Type} [AddCommMonoid M] (φ : UInt16 → R → M)
    (reserved : List (UInt16 × Option R)) : M :=
  (reserved.map fun answer => answer.2.elim 0 (φ answer.1)).sum

/-- What a push takes in stays in a slot, or leaves with one. -/
theorem Pushed.balance {M : Type} [AddCommMonoid M] (φ : UInt16 → R → M) (h : Pushed r c e) :
    load φ r.slots + grants φ e.reserved =
      load φ e.state.slots + weighed φ e.dropped + weighed φ e.completed.toList := by
  have hexpire := (removes_expire r c.now).balance φ
  have hevict := (removes_evictOldest r c.now c.pick).balance φ
  cases h with
  | invalid => simp [grants]
  | gaveUp _ found =>
    rw [hexpire, (removes_without found).balance φ]
    simp [grants, add_assoc, add_comm, add_left_comm]
  | repeated => simp [grants, hexpire]
  | @stored slot _ found =>
    have hinsert : load φ ((r.expire c.now).state.slots.insert c.key (slot.store c.fragment)) =
        load φ (r.expire c.now).state.slots := total_insert_of_eq found rfl
    simp [grants, hexpire, hinsert]
  | short _ found =>
    rw [hexpire, (removes_without found).balance φ]
    simp [grants, ReassemblySlot.store, add_assoc, add_comm, add_left_comm]
  | completed _ found =>
    rw [hexpire, (removes_without found).balance φ]
    simp [grants, ReassemblySlot.store, add_comm, add_left_comm]
  | outsized => simp [grants, hexpire]
  | full _ _ room => simp [grants, hevict, room]
  | unreserved _ _ room => simp [grants, hevict, room]
  | @opened s reservation _ missing room =>
    subst room
    have hinsert := total_insert_of_none (missing_evictOldest c.pick missing)
      (.first c.fragment c.now reservation) fun _ slot => φ slot.totalLen slot.reservation
    rw [hevict]
    simp only [load, openSlot, hinsert]
    simp [grants, ReassemblySlot.first, add_comm, add_left_comm]

/-- `reserve` is called at most once, and a slot is created exactly when it grants. -/
theorem Pushed.reserve_once (h : Pushed r c e) :
    e.reserved.length ≤ 1 ∧
      (e.opened.isSome ↔ ∃ totalLen reservation, e.reserved = [(totalLen, some reservation)]) := by
  cases h with
  | _ => simp

/-- The reservation of a completed slot is the one in the result. -/
theorem Pushed.handed (h : Pushed r c e) :
    e.completed.map (fun slot => slot.2.reservation) =
      e.outcome.bind ReassemblyOutcome.reservation := by
  cases h with
  | _ => rfl

end Pushed

/-! ## Every call -/

section Applied

variable {r : DatagramReassembler R} {call : Call R} {e : Effect R}

theorem Applied.config (h : Applied r call e) : e.state.config = r.config := by
  cases h with
  | push pushed => exact pushed.config
  | removal _ removes => exact removes.config

theorem Applied.valid (h : Applied r call e) (hr : r.Valid) : e.state.Valid := by
  cases h with
  | push pushed => exact pushed.valid hr
  | removal _ removes => exact hr.removes removes

theorem Applied.balance {M : Type} [AddCommMonoid M] (φ : UInt16 → R → M) (h : Applied r call e) :
    load φ r.slots + grants φ e.reserved =
      load φ e.state.slots + weighed φ e.dropped + weighed φ e.completed.toList := by
  cases h with
  | push pushed => exact pushed.balance φ
  | removal _ removes => simp [grants, removes.balance φ]

theorem Applied.reserve_once (h : Applied r call e) :
    e.reserved.length ≤ 1 ∧
      (e.opened.isSome ↔ ∃ totalLen reservation, e.reserved = [(totalLen, some reservation)]) := by
  cases h with
  | push pushed => exact pushed.reserve_once
  | removal => simp

theorem Applied.handed (h : Applied r call e) :
    e.completed.map (fun slot => slot.2.reservation) =
      e.outcome.bind ReassemblyOutcome.reservation := by
  cases h with
  | push pushed => exact pushed.handed
  | removal => rfl

end Applied

variable {config : ReassemblyConfig} {history : List (Call R × Effect R)}
  {r : DatagramReassembler R} {call : Call R} {e : Effect R} {calls : List (Call R)}
  {effects : List (Effect R)}

/-- Every reachable state satisfies the invariant. -/
theorem History.valid (h : History config history r) :
    r.Valid ∧ r.config = config := by
  induction h with
  | new => exact ⟨new_valid config, rfl⟩
  | @call history r call e prior result ih =>
    obtain ⟨e', hresult, happlied⟩ := apply_cases ih.1.slot_valid call
    obtain rfl := Except.ok.inj (result.symm.trans hresult)
    exact ⟨happlied.valid ih.1, happlied.config.trans ih.2⟩

/-- The last call of a history, by what it did. -/
theorem History.applied (h : History config history r) (result : r.apply call = .ok e) :
    Applied r call e := by
  obtain ⟨e', hresult, happlied⟩ := apply_cases h.valid.1.slot_valid call
  obtain rfl := Except.ok.inj (result.symm.trans hresult)
  exact happlied

theorem History.reserve_once (h : History config history r) :
    ∀ step ∈ history, step.2.reserved.length ≤ 1 ∧ (step.2.opened.isSome ↔
      ∃ totalLen reservation, step.2.reserved = [(totalLen, some reservation)]) := by
  induction h with
  | new => simp
  | call prior result ih =>
    intro step hstep
    rcases List.mem_append.mp hstep with hstep | hstep
    · exact ih step hstep
    · obtain rfl := List.mem_singleton.mp hstep
      exact (prior.applied result).reserve_once

/-- A computed run extends a history. -/
theorem History.run {r r' : DatagramReassembler R} (h : History config history r)
    (hrun : r.run calls = .ok (effects, r')) :
    History config (history ++ calls.zip effects) r' := by
  induction calls generalizing history r effects with
  | nil =>
    obtain ⟨rfl, rfl⟩ := Prod.mk.inj (Except.ok.inj hrun)
    simpa using h
  | cons call calls ih =>
    simp only [DatagramReassembler.run, bind_eq_ok] at hrun
    obtain ⟨e, hresult, ⟨rest, last⟩, hrest, hreturn⟩ := hrun
    obtain ⟨rfl, rfl⟩ := Prod.mk.inj (Except.ok.inj hreturn)
    have htail := ih (h.call hresult) hrest
    simpa using htail

theorem run_cons {last : DatagramReassembler R} (result : r.apply call = .ok e)
    (hrun : e.state.run calls = .ok (effects, last)) :
    r.run (call :: calls) = .ok (e :: effects, last) := by
  simp only [DatagramReassembler.run, result, bind, Except.bind, hrun]
  rfl

/-- Calls on a valid state never panic. -/
theorem run_ok (hr : r.Valid) (calls : List (Call R)) :
    ∃ effects last, r.run calls = .ok (effects, last) := by
  induction calls generalizing r with
  | nil => exact ⟨[], r, rfl⟩
  | cons call calls ih =>
    obtain ⟨e, hresult, happlied⟩ := apply_cases hr.slot_valid call
    obtain ⟨effects, last, hrun⟩ := ih (happlied.valid hr)
    exact ⟨e :: effects, last, run_cons hresult hrun⟩

/-- A new reassembler takes any calls. -/
theorem exists_history (config : ReassemblyConfig) (calls : List (Call R)) :
    ∃ effects r, (DatagramReassembler.new config).run calls = .ok (effects, r) ∧
      History config (calls.zip effects) r := by
  obtain ⟨effects, r, hrun⟩ := run_ok (new_valid config) calls
  exact ⟨effects, r, hrun, History.new.run hrun⟩

theorem exists_history_of_run (config : ReassemblyConfig) (calls : List (Call R))
    (P : List (Effect R) → DatagramReassembler R → Bool)
    (h : ((DatagramReassembler.new config).run calls).toOption.any (fun x => P x.1 x.2) = true) :
    ∃ effects r, History config (calls.zip effects) r ∧ P effects r = true := by
  cases hrun : (DatagramReassembler.new config).run calls with
  | error e =>
    rw [hrun] at h
    cases h
  | ok x =>
    rw [hrun] at h
    exact ⟨x.1, x.2, History.new.run hrun, h⟩

/-! ## Where the reservations are -/

/-- The reservations the caller has granted. -/
def granted (history : List (Call R × Effect R)) : Multiset R :=
  ↑(history.flatMap fun step => step.2.reserved.filterMap Prod.snd)

/-- The reservations inside open slots. -/
def held (r : DatagramReassembler R) : Multiset R :=
  ↑(r.slots.entries.map fun e => e.2.reservation)

/-- The reservations handed out in `Complete` results. -/
def handedOut (history : List (Call R × Effect R)) : Multiset R :=
  ↑(history.flatMap fun step => (step.2.outcome.bind ReassemblyOutcome.reservation).toList)

/-- The reservations released with a slot that was dropped. -/
def released (history : List (Call R × Effect R)) : Multiset R :=
  ↑(history.flatMap fun step => step.2.dropped.map fun e => e.2.reservation)

theorem sum_singletons {α : Type} (xs : List α) (f : α → R) :
    (xs.map fun x => ({f x} : Multiset R)).sum = ↑(xs.map f) := by
  induction xs with
  | nil => rfl
  | cons x xs ih =>
    rw [List.map_cons, List.sum_cons, ih, Multiset.singleton_add, List.map_cons,
      Multiset.cons_coe]

theorem grants_singletons (reserved : List (UInt16 × Option R)) :
    grants (fun _ reservation => ({reservation} : Multiset R)) reserved =
      ↑(reserved.filterMap Prod.snd) := by
  induction reserved with
  | nil => rfl
  | cons answer reserved ih =>
    simp only [grants] at ih
    simp only [grants, List.map_cons, List.sum_cons, ih]
    rcases answer with ⟨totalLen, _ | reservation⟩
    · simp
    · simp [Multiset.singleton_add]

/-- The reservations a call moves. -/
theorem Applied.reservations (h : Applied r call e) :
    held r + ↑(e.reserved.filterMap Prod.snd) =
      held e.state + ↑(e.outcome.bind ReassemblyOutcome.reservation).toList +
        ↑(e.dropped.map fun e => e.2.reservation) := by
  have hbalance := h.balance fun _ reservation => ({reservation} : Multiset R)
  simp only [load, total, weighed, sum_singletons, grants_singletons] at hbalance
  rw [← h.handed]
  simp only [held, hbalance]
  cases e.completed with
  | none => simp
  | some slot => simp [add_comm]

theorem reservations_balance (h : History config history r) :
    granted history = held r + handedOut history + released history := by
  induction h with
  | new => rfl
  | @call history r call e prior result ih =>
    have hstep := (prior.applied result).reservations
    have hgranted : granted (history ++ [(call, e)]) =
        granted history + ↑(e.reserved.filterMap Prod.snd) := by
      simp [granted]
    have hhanded : handedOut (history ++ [(call, e)]) =
        handedOut history + ↑(e.outcome.bind ReassemblyOutcome.reservation).toList := by
      simp [handedOut]
    have hreleased : released (history ++ [(call, e)]) =
        released history + ↑(e.dropped.map fun e => e.2.reservation) := by
      simp [released]
    calc granted (history ++ [(call, e)])
        = held r + ↑(e.reserved.filterMap Prod.snd) + (handedOut history + released history) := by
          rw [hgranted, ih]
          ac_rfl
      _ = held e.state + handedOut (history ++ [(call, e)]) +
            released (history ++ [(call, e)]) := by
          rw [hstep, hhanded, hreleased]
          ac_rfl

/-- The limits, the counters and the reservations of every reachable state. -/
theorem reassembler_resources {config : ReassemblyConfig} {history : List (Call R × Effect R)}
    {r : DatagramReassembler R} (h : History config history r) :
    r.slots.entries.length ≤ config.maxSlots ∧
    r.reservedBytes = total r.slots (fun _ slot => slot.totalLen.toNat) ∧
    r.reservedBytes ≤ config.maxBytes ∧
    -- whatever part of the slots leaves at once, its bytes have been counted
    (∀ p, total (retain r.slots p) (fun _ slot => slot.totalLen.toNat) ≤ r.reservedBytes) ∧
    (∀ key slot, r.slots.lookup key = some slot →
      slot.fragments.length = slot.fragmentCount.toNat ∧
      slot.received = filled slot.fragments ∧ slot.received < slot.fragmentCount.toNat ∧
      slot.retained = weight List.length slot.fragments ∧
      slot.retained ≤ slot.totalLen.toNat) ∧
    granted history = held r + handedOut history + released history ∧
    (∀ step ∈ history, step.2.reserved.length ≤ 1 ∧ (step.2.opened.isSome ↔
      ∃ totalLen reservation, step.2.reserved = [(totalLen, some reservation)])) := by
  obtain ⟨hvalid, rfl⟩ := h.valid
  have hcounted := hvalid.counted
  simp only [Counted, load] at hcounted
  refine ⟨hvalid.slots_le, hcounted, hvalid.reserved_le, fun p => ?_, fun key slot hfound => ?_,
    reservations_balance h, h.reserve_once⟩
  · have hsplit := total_retain r.slots p fun _ slot => slot.totalLen.toNat
    omega
  · have hslot := hvalid.slot_valid hfound
    exact ⟨hslot.length, hslot.received, hslot.incomplete, hslot.retained, hslot.bounded⟩

namespace Sample

/-- One fragment of two: its slot holds the reservation and the bytes of the whole packet. -/
theorem oneHalf_resources :
    ∃ (history : List (Call Nat × Effect Nat)) (r : DatagramReassembler Nat),
      History .default history r ∧ r.slots.entries.length = 1 ∧
      total r.slots (fun _ slot => slot.totalLen.toNat) = 4 ∧
      granted history = held r + handedOut history + released history := by
  obtain ⟨effects, r, hhistory, hr⟩ := exists_history_of_run .default
    [.push (pushHalf 3 0 [1, 2])]
    (fun _ r => r.slots.entries.length == 1 && r.reservedBytes == 4) (by decide +kernel)
  have hresources := reassembler_resources hhistory
  simp only [Bool.and_eq_true, beq_iff_eq] at hr
  exact ⟨_, r, hhistory, hr.1, hresources.2.1.symm.trans hr.2, hresources.2.2.2.2.2.1⟩

end Sample

end Nowhere.Protocol
