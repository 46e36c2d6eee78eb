import Nowhere.Protocol.ReassemblyLedger

/-!
# Expiry of partial packets

The reassembler keeps a lower bound of the instant at which a slot can expire (`next_expiry`), and
a call of `expire` that comes no later than the bound does not look at the slots. The bound is
lowered when a slot is opened and computed anew by a sweep; a removal leaves it where it is. It is
sound in every reachable state (`ExpirySound`), so `expire` removes what a sweep would remove.

The last section is about refused packets. What a refused push removes besides the expired slots
is at most the oldest slot, and it does so exactly when all slots are taken (`Displaces`).
-/

namespace Nowhere.Protocol

open Assoc

variable {R : Type}

namespace DatagramReassembler

/-! ## The cached bound -/

/-- No open slot expires before the cached instant, and without one no slot expires at an instant
that exists. Beyond `limit` nothing is said; if calls were made at instants that do not exist, it
is `instantEnd`. -/
def ExpirySound (limit : Nat) (r : DatagramReassembler R) : Prop :=
  ∀ key slot, r.slots.lookup key = some slot →
    min (r.nextExpiry.getD instantEnd) limit ≤ slot.createdAt + r.config.ttl

section Sound

variable {limit : Nat} {r r' : DatagramReassembler R}

/-- Slots may leave or change otherwise, as long as they keep the instant of their creation. -/
theorem ExpirySound.of_older (h : r.ExpirySound limit) (hconfig : r'.config = r.config)
    (hslots : ∀ key slot', r'.slots.lookup key = some slot' →
      ∃ slot, r.slots.lookup key = some slot ∧ slot'.createdAt = slot.createdAt)
    (hexpiry : r'.nextExpiry = r.nextExpiry ∨ r'.slots.entries = []) : r'.ExpirySound limit := by
  intro key slot' hfound
  obtain ⟨slot, hslot, hcreated⟩ := hslots key slot' hfound
  rcases hexpiry with hexpiry | hempty
  · rw [hexpiry, hconfig, hcreated]
    exact h key slot hslot
  · have hmem := mem_entries.mpr hfound
    rw [hempty] at hmem
    cases hmem

/-- The bound goes only together with the last slot. -/
theorem cleared_or_kept (slots : Map ReassemblyKey (ReassemblySlot R)) (expiry : Option Nat) :
    (if slots.entries.isEmpty then none else expiry) = expiry ∨ slots.entries = [] := by
  cases hslots : slots.entries with
  | nil => exact .inr rfl
  | cons e es => exact .inl rfl

variable {key : ReassemblyKey} {slot : ReassemblySlot R}

theorem ExpirySound.without (h : r.ExpirySound limit) (found : r.slots.lookup key = some slot) :
    (r.without key slot).ExpirySound limit :=
  h.of_older rfl (fun _ slot' hfound => ⟨slot', ((removes_without found).kept hfound).1, rfl⟩)
    (cleared_or_kept _ _)

theorem ExpirySound.removeFlow (h : r.ExpirySound limit) (flowId : FlowId) :
    (r.removeFlow flowId).state.ExpirySound limit :=
  h.of_older rfl (fun _ slot' hfound => ⟨slot', ((removes_removeFlow r flowId).kept hfound).1, rfl⟩)
    (cleared_or_kept _ _)

theorem ExpirySound.clear (r : DatagramReassembler R) : r.clear.state.ExpirySound limit :=
  fun _ _ hfound => by cases hfound

theorem ExpirySound.insert_store (h : r.ExpirySound limit) {fragment : UdpFragment}
    (found : r.slots.lookup key = some slot) :
    ({ r with slots := r.slots.insert key (slot.store fragment) } :
      DatagramReassembler R).ExpirySound limit := by
  refine h.of_older rfl (fun key' slot' hfound => ?_) (.inl rfl)
  rw [lookup_insert] at hfound
  split at hfound
  · rename_i hkey
    cases hfound
    exact ⟨slot, hkey ▸ found, rfl⟩
  · exact ⟨slot', hfound, rfl⟩

/-- A sweep takes the least instant that can be represented. -/
theorem ExpirySound.sweep (r : DatagramReassembler R) (now : Nat) :
    (r.sweep now).state.ExpirySound limit := by
  intro key slot hfound
  have hmem := mem_entries.mpr hfound
  refine (Nat.min_le_left _ _).trans ?_
  change (((r.sweep now).state.slots.entries.filterMap fun e =>
    checkedAdd e.2.createdAt r.config.ttl).min?).getD instantEnd ≤ slot.createdAt + r.config.ttl
  generalize (r.sweep now).state.slots.entries = entries at hmem
  by_cases hearly : slot.createdAt + r.config.ttl < instantEnd
  · exact List.min?_getD_le_of_mem (List.mem_filterMap.mpr ⟨⟨key, slot⟩, hmem, if_pos hearly⟩)
  · -- the slot is not among those that count, and the others expire before the end
    refine Nat.le_trans ?_ (Nat.le_of_not_lt hearly)
    cases hmin : (entries.filterMap fun e => checkedAdd e.2.createdAt r.config.ttl).min? with
    | none => exact Nat.le_refl _
    | some instant =>
      obtain ⟨e, _, hinstant⟩ := List.mem_filterMap.mp (List.min?_eq_some_iff.mp hmin).1
      obtain ⟨hlt, hsome⟩ := Option.ite_none_right_eq_some.mp hinstant
      cases hsome
      exact Nat.le_of_lt hlt

theorem ExpirySound.expire (h : r.ExpirySound limit) (now : Nat) :
    (r.expire now).state.ExpirySound limit := by
  unfold DatagramReassembler.expire
  split
  · exact h
  · split
    · exact h
    · exact .sweep r now

theorem ExpirySound.evictOldest {s : Swept R} (h : s.state.ExpirySound limit) (pick : Nat) :
    (evictOldest s pick).state.ExpirySound limit := by
  unfold DatagramReassembler.evictOldest
  split
  · split
    · exact h
    · rename_i oldest hmin
      obtain ⟨slot, found, _⟩ := minKey_least hmin
      rw [removeSlot_of_lookup found]
      exact h.without found
  · exact h

/-- An instant of expiry that cannot be represented is replaced by an earlier one. -/
theorem ExpirySound.openSlot (h : r.ExpirySound limit) (key : ReassemblyKey)
    (fragment : UdpFragment) {now : Nat} (hnow : now < instantEnd ∨ limit ≤ instantEnd)
    (reservation : R) : (r.openSlot key fragment now reservation).ExpirySound limit := by
  have hexpiry : (checkedAdd now r.config.ttl).getD now ≤ now + r.config.ttl ∧
      min ((checkedAdd now r.config.ttl).getD now) limit ≤ instantEnd := by
    unfold checkedAdd
    split <;> simp only [Option.getD_some, Option.getD_none] <;> omega
  have hlowered : (r.openSlot key fragment now reservation).nextExpiry.getD instantEnd ≤
      (checkedAdd now r.config.ttl).getD now ∧
      min ((r.openSlot key fragment now reservation).nextExpiry.getD instantEnd) limit ≤
        r.nextExpiry.getD instantEnd := by
    unfold DatagramReassembler.openSlot
    cases r.nextExpiry with
    | none => exact ⟨Nat.le_refl _, hexpiry.2⟩
    | some current =>
      exact ⟨Nat.min_le_right _ _, (Nat.min_le_left _ _).trans (Nat.min_le_left _ _)⟩
  intro key' slot' hfound
  change (r.slots.insert key (.first fragment now reservation)).lookup key' = some slot' at hfound
  rw [lookup_insert] at hfound
  split at hfound
  · cases hfound
    exact (Nat.min_le_left _ _).trans (hlowered.1.trans hexpiry.1)
  · exact (Nat.le_min.mpr ⟨hlowered.2, Nat.min_le_right _ _⟩).trans (h key' slot' hfound)

end Sound

end DatagramReassembler

open DatagramReassembler

/-- The instant of the call, if it has one, can be represented. -/
def Call.Timely : Call R → Prop
  | .push c => c.now < instantEnd
  | .expire now => now < instantEnd
  | _ => True

variable {limit : Nat} {r : DatagramReassembler R}

theorem Pushed.expirySound {c : Push R} {e : Effect R} (h : Pushed r c e)
    (hnow : c.now < instantEnd ∨ limit ≤ instantEnd) (hr : r.ExpirySound limit) :
    e.state.ExpirySound limit := by
  have hexpired := hr.expire c.now
  have hevicted := hexpired.evictOldest c.pick
  cases h with
  | invalid => exact hr
  | gaveUp _ found => exact hexpired.without found
  | repeated => exact hexpired
  | stored _ found => exact hexpired.insert_store found
  | short _ found => exact hexpired.without found
  | completed _ found => exact hexpired.without found
  | outsized => exact hexpired
  | full _ _ room => exact room ▸ hevicted
  | unreserved _ _ room => exact room ▸ hevicted
  | opened _ _ room => exact (room ▸ hevicted).openSlot _ _ hnow _

/-- The cached bound is sound after every history, as far as instants can be represented. -/
theorem History.expirySound {config : ReassemblyConfig} {history : List (Call R × Effect R)}
    (h : History config history r)
    (htimely : (∀ step ∈ history, step.1.Timely) ∨ limit ≤ instantEnd) :
    r.ExpirySound limit := by
  induction h with
  | new => exact fun _ _ hfound => by cases hfound
  | @call history r call e prior result ih =>
    have hr := ih (htimely.imp_left fun h step hstep => h step (List.mem_append_left _ hstep))
    have hcall := htimely.imp_left fun h =>
      h (call, e) (List.mem_append_right _ (List.mem_singleton_self _))
    cases call with
    | push c =>
      obtain ⟨e', hresult, hpushed⟩ := push_cases prior.valid.1.slot_valid c
      cases result.symm.trans hresult
      exact hpushed.expirySound hcall hr
    | expire now =>
      cases result
      exact hr.expire now
    | removeFlow flowId =>
      cases result
      exact hr.removeFlow flowId
    | clear =>
      cases result
      exact .clear r

namespace DatagramReassembler

variable {r : DatagramReassembler R} {now : Nat}

/-! ## `expire` as a sweep -/

theorem expire_early (h : now ≤ r.nextExpiry.getD instantEnd) : r.expire now = ⟨r, false, []⟩ := by
  unfold expire
  cases hexpiry : r.nextExpiry with
  | none => rfl
  | some instant =>
    rw [hexpiry] at h
    exact if_pos h

theorem expire_late (hnow : now < instantEnd) (h : ¬ now ≤ r.nextExpiry.getD instantEnd) :
    r.expire now = r.sweep now := by
  unfold expire
  cases hexpiry : r.nextExpiry with
  | none =>
    rw [hexpiry] at h
    exact absurd (Nat.le_of_lt hnow) h
  | some instant =>
    rw [hexpiry] at h
    exact if_neg h

/-- A sweep over slots none of which has expired changes nothing but the bound. -/
theorem sweep_of_keeps (h : ∀ key slot, r.slots.lookup key = some slot → r.keeps now slot = true) :
    (r.sweep now).state.slots = r.slots ∧ (r.sweep now).state.reservedBytes = r.reservedBytes ∧
      (r.sweep now).removed = false := by
  have hslots : retain r.slots (fun _ slot => r.keeps now slot) = r.slots := retain_eq_self h
  have hleaving := total_retain r.slots (fun _ slot => r.keeps now slot)
    fun _ slot => slot.totalLen.toNat
  rw [hslots] at hleaving
  refine ⟨hslots, ?_, ?_⟩
  · change r.reservedBytes - total (retain r.slots fun _ slot => !r.keeps now slot)
      (fun _ slot => slot.totalLen.toNat) = r.reservedBytes
    omega
  · change ((retain r.slots fun _ slot => r.keeps now slot).entries.length !=
      r.slots.entries.length) = false
    rw [hslots, bne_self_eq_false]

/-- With a sound bound, an early return leaves nothing behind that has expired. -/
theorem ExpirySound.expire_eq (h : r.ExpirySound instantEnd) (hnow : now < instantEnd) :
    (r.expire now).state.slots = (r.sweep now).state.slots ∧
      (r.expire now).state.reservedBytes = (r.sweep now).state.reservedBytes ∧
      (r.expire now).removed = (r.sweep now).removed := by
  by_cases hearly : now ≤ r.nextExpiry.getD instantEnd
  · have hkeeps : ∀ key slot, r.slots.lookup key = some slot → r.keeps now slot = true := by
      intro key slot hfound
      have hbound := h key slot hfound
      exact decide_eq_true (by omega)
    obtain ⟨hslots, hreserved, hremoved⟩ := sweep_of_keeps hkeeps
    rw [expire_early hearly, hslots, hreserved, hremoved]
    exact ⟨rfl, rfl, rfl⟩
  · rw [expire_late hnow hearly]
    exact ⟨rfl, rfl, rfl⟩

variable {key : ReassemblyKey} {slot : ReassemblySlot R}

theorem lookup_sweep :
    (r.sweep now).state.slots.lookup key = some slot ↔
      r.slots.lookup key = some slot ∧ now - slot.createdAt ≤ r.config.ttl := by
  change (retain r.slots fun _ slot => r.keeps now slot).lookup key = some slot ↔ _
  rw [lookup_retain, Option.filter_eq_some_iff]
  exact and_congr_right fun _ => decide_eq_true_iff

/-- What `expire` leaves has not expired. -/
theorem lookup_expire (found : (r.expire now).state.slots.lookup key = some slot) :
    r.slots.lookup key = some slot ∧
      (r.ExpirySound instantEnd → now < instantEnd → now - slot.createdAt ≤ r.config.ttl) := by
  refine ⟨((removes_expire r now).kept found).1, fun hsound hnow => ?_⟩
  rw [(hsound.expire_eq hnow).1] at found
  exact (lookup_sweep.mp found).2

theorem removed_sweep : (r.sweep now).removed = true ↔
    ∃ key slot, r.slots.lookup key = some slot ∧ r.config.ttl < now - slot.createdAt := by
  change ((retain r.slots fun _ slot => r.keeps now slot).entries.length !=
    r.slots.entries.length) = true ↔ _
  rw [bne_iff_ne, length_retain_ne_iff]
  have hexpired (slot : ReassemblySlot R) :
      r.keeps now slot = false ↔ r.config.ttl < now - slot.createdAt := by
    rw [keeps, decide_eq_false_iff_not, Nat.not_le]
  simp only [hexpired]

end DatagramReassembler

/-- After any calls, `expire` removes exactly what a sweep over all slots removes, and the cached
instant is none at which a slot has already expired. -/
theorem expire_sweeps (config : ReassemblyConfig) (calls : List (Call R))
    (htimely : ∀ call ∈ calls, call.Timely) :
    ∃ effects r, (DatagramReassembler.new config).run calls = .ok (effects, r) ∧
      (∀ now < instantEnd,
        (∀ key slot, (r.expire now).state.slots.lookup key = some slot ↔
          r.slots.lookup key = some slot ∧ now - slot.createdAt ≤ config.ttl) ∧
        ((r.expire now).removed = true ↔
          ∃ key slot, r.slots.lookup key = some slot ∧ config.ttl < now - slot.createdAt) ∧
        (r.expire now).state.slots = (r.sweep now).state.slots ∧
        (r.expire now).state.reservedBytes = (r.sweep now).state.reservedBytes ∧
        (r.expire now).removed = (r.sweep now).removed) ∧
      (r.nextExpiry = none → ∀ key slot, r.slots.lookup key = some slot →
        ∀ now < instantEnd, now - slot.createdAt ≤ config.ttl) ∧
      (∀ instant, r.nextExpiry = some instant → ∀ key slot, r.slots.lookup key = some slot →
        instant ≤ slot.createdAt + config.ttl) := by
  obtain ⟨effects, r, hresult, hhistory⟩ := exists_history config calls
  have hsound (limit : Nat) : r.ExpirySound limit :=
    hhistory.expirySound (.inl fun step hstep => htimely step.1 (List.of_mem_zip hstep).1)
  obtain ⟨_, rfl⟩ := hhistory.valid
  refine ⟨effects, r, hresult, ?_, ?_, ?_⟩
  · intro now hnow
    obtain ⟨hslots, hreserved, hremoved⟩ := (hsound instantEnd).expire_eq hnow
    refine ⟨fun key slot => ?_, ?_, hslots, hreserved, hremoved⟩
    · rw [hslots]
      exact lookup_sweep
    · rw [hremoved]
      exact removed_sweep
  · intro hnone key slot hfound now hnow
    have hbound := hsound instantEnd key slot hfound
    rw [hnone, Option.getD_none, Nat.min_self] at hbound
    omega
  · intro instant hsome key slot hfound
    have hbound := hsound instant key slot hfound
    rwa [hsome, Option.getD_some, Nat.min_self] at hbound

namespace Sample

/-- Two packets and the end of the first, with instants that go back. -/
theorem expire_sweeps_back : ∃ effects r,
    (DatagramReassembler.new .default).run
      [.push (pushHalf 9 0 [1, 2]), .expire (2 * 10 ^ 10), .push (pushHalf 4 0 [1, 2])] =
        .ok (effects, r) ∧
      (∀ key slot, (r.expire (10 ^ 10 + 5)).state.slots.lookup key = some slot ↔
        r.slots.lookup key = some slot ∧ 10 ^ 10 + 5 - slot.createdAt ≤ 10 * 10 ^ 9) := by
  have htimely : ∀ call ∈ [Call.push (pushHalf 9 0 [1, 2]), .expire (2 * 10 ^ 10),
      .push (pushHalf 4 0 [1, 2])], call.Timely := by
    simp [Call.Timely, pushHalf, instantEnd]
  obtain ⟨effects, r, hresult, hexpire, _⟩ := expire_sweeps .default _ htimely
  exact ⟨effects, r, hresult, (hexpire (10 ^ 10 + 5) (by decide)).1⟩

end Sample

/-! ## Refused packets -/

section Refused

variable {r : DatagramReassembler R} {c : Push R} {e : Effect R}

/-- The call cost nobody a slot: those that have not expired are as before, and the bytes that
became free are those of the expired slots. -/
structure Harmless (r : DatagramReassembler R) (now : Nat) (e : Effect R) : Prop where
  kept : ∀ key slot, r.slots.lookup key = some slot → now - slot.createdAt ≤ r.config.ttl →
    e.state.slots.lookup key = some slot
  reserved : e.state.reservedBytes = r.reservedBytes ∨
    e.state.reservedBytes = r.reservedBytes - total (retain r.slots fun _ slot =>
      decide (r.config.ttl < now - slot.createdAt)) fun _ slot => slot.totalLen.toNat

/-- The push is for a packet that fits, but all slots are taken by packets that have not
expired. -/
structure Displaces (r : DatagramReassembler R) (c : Push R) : Prop where
  accepted : invalidFragment c.flowId c.fragment = false
  slots : r.config.maxSlots ≠ 0
  fits : c.fragment.totalLen.toNat ≤ r.config.maxBytes
  full : r.config.maxSlots ≤ (retain r.slots fun _ slot =>
    decide (c.now - slot.createdAt ≤ r.config.ttl)).entries.length

/-- A packet with an open slot is never refused for want of room. -/
theorem Pushed.missing_of_byteLimit (h : Pushed r c e)
    (houtcome : e.outcome = some (.dropped .byteLimit)) :
    (r.expire c.now).state.slots.lookup c.key = none := by
  cases h with
  | gaveUp _ _ cause =>
    cases houtcome
    cases cause
  | outsized _ missing => exact missing
  | full _ missing => exact missing
  | unreserved _ missing => exact missing
  | _ => cases houtcome

/-- What a refused push leaves, by the place that refused it. -/
inductive RefusedState (r : DatagramReassembler R) (c : Push R) : DatagramReassembler R → Prop
  | invalid (refused : invalidFragment c.flowId c.fragment = true) : RefusedState r c r
  | outsized (limit : r.config.maxSlots = 0 ∨ r.config.maxBytes < c.fragment.totalLen.toNat) :
      RefusedState r c (r.expire c.now).state
  | evicted (accepted : invalidFragment c.flowId c.fragment = false)
      (slots : r.config.maxSlots ≠ 0) (fits : c.fragment.totalLen.toNat ≤ r.config.maxBytes) :
      RefusedState r c (evictOldest (r.expire c.now) c.pick).state

theorem apply_push_of_missing (accepted : invalidFragment c.flowId c.fragment = false)
    (missing : (r.expire c.now).state.slots.lookup c.key = none) :
    r.apply (.push c) =
      pushNew (r.expire c.now) c.key c.fragment c.now c.reserve c.pick := by
  have hlookup : (r.expire c.now).state.slots.lookup ⟨c.flowId, c.fragment.packetId⟩ = none :=
    missing
  simp only [apply, pushWith, accepted, Bool.false_eq_true, if_false, hlookup]
  rfl

theorem refused_state (hvalid : r.Valid) (result : r.apply (.push c) = .ok e)
    (refused : e.outcome = some (.dropped .byteLimit) ∨
      invalidFragment c.flowId c.fragment = true) : RefusedState r c e.state := by
  cases hinvalid : invalidFragment c.flowId c.fragment with
  | true =>
    simp only [apply, pushWith, hinvalid, if_true] at result
    cases result
    exact .invalid hinvalid
  | false =>
    rw [hinvalid] at refused
    have houtcome := refused.resolve_right Bool.false_ne_true
    obtain ⟨e', hresult, hpushed⟩ := push_cases hvalid.slot_valid c
    cases result.symm.trans hresult
    have hmissing := hpushed.missing_of_byteLimit houtcome
    have hconfig := (removes_expire r c.now).config
    rw [apply_push_of_missing hinvalid hmissing, pushNew, hconfig] at result
    split at result
    · rename_i hlimit
      cases result
      exact .outsized hlimit
    · rename_i hlimit
      obtain ⟨hslots, hfits⟩ := not_or.mp hlimit
      have hevicted : RefusedState r c (evictOldest (r.expire c.now) c.pick).state :=
        .evicted hinvalid hslots (Nat.le_of_not_lt hfits)
      dsimp only at result
      split at result
      · cases result
        exact hevicted
      · split at result
        · cases result
          exact hevicted
        · split at result
          · cases result
            cases houtcome
          · cases result

variable {s : Swept R}

theorem evictOldest_of_room (h : s.state.slots.entries.length < s.state.config.maxSlots)
    (pick : Nat) :
    evictOldest s pick = s :=
  if_neg (Nat.not_le_of_lt h)

/-- When all slots are taken, the oldest one is given up. -/
theorem evictOldest_oldest {pick : Nat} {oldest : ReassemblyKey}
    (hfull : s.state.config.maxSlots ≤ s.state.slots.entries.length)
    (hmin : minKey s.state.slots (fun _ slot => slot.createdAt) pick = some oldest) :
    (evictOldest s pick).state.slots.lookup oldest = none := by
  obtain ⟨slot, found, _⟩ := minKey_least hmin
  simp only [evictOldest, hfull, if_true, hmin, removeSlot_of_lookup found]
  simp [without]

theorem exists_evicted (hslots : s.state.config.maxSlots ≠ 0)
    (hfull : s.state.config.maxSlots ≤ s.state.slots.entries.length) (pick : Nat) :
    ∃ key slot, s.state.slots.lookup key = some slot ∧
      (evictOldest s pick).state.slots.lookup key = none := by
  have hne : s.state.slots.entries ≠ [] := by
    intro hnil
    rw [hnil] at hfull
    exact hslots (Nat.le_zero.mp hfull)
  obtain ⟨oldest, hmin⟩ := Option.isSome_iff_exists.mp
    (minKey_isSome (fun _ slot => slot.createdAt) pick hne)
  obtain ⟨slot, found, _⟩ := minKey_least hmin
  exact ⟨oldest, slot, found, evictOldest_oldest hfull hmin⟩

/-- The push loses only what has expired. -/
theorem harmless_of_expired (h : r.ExpirySound instantEnd) (hnow : c.now < instantEnd)
    (hstate : e.state = (r.expire c.now).state) : Harmless r c.now e where
  kept key slot hfound hlive := by
    rw [hstate, (h.expire_eq hnow).1]
    exact lookup_sweep.mpr ⟨hfound, hlive⟩
  reserved := by
    right
    have hexpired (slot : ReassemblySlot R) :
        decide (r.config.ttl < c.now - slot.createdAt) = !r.keeps c.now slot := by
      rw [keeps, ← decide_not, decide_eq_decide, Nat.not_le]
    rw [hstate, (h.expire_eq hnow).2.1]
    simp only [hexpired]
    rfl

/-- A refused push is harmless, unless all slots are taken and it got past the first checks; then
the oldest slot is lost. -/
theorem refused_harmless_iff {config : ReassemblyConfig} {history : List (Call R × Effect R)}
    (h : History config history r) (htimely : ∀ step ∈ history, step.1.Timely)
    (hnow : c.now < instantEnd) (result : r.apply (.push c) = .ok e)
    (refused : e.outcome = some (.dropped .byteLimit) ∨
      invalidFragment c.flowId c.fragment = true) :
    Harmless r c.now e ↔ ¬ Displaces r c := by
  have hsound : r.ExpirySound instantEnd := h.expirySound (.inl htimely)
  have hslots := (hsound.expire_eq hnow).1
  have hconfig := (removes_expire r c.now).config
  have hstate := refused_state h.valid.1 result refused
  generalize hs : e.state = state at hstate
  cases hstate with
  | invalid hinvalid =>
    have hharmless : Harmless r c.now e := ⟨fun _ _ hfound _ => hs ▸ hfound, .inl (by rw [hs])⟩
    refine iff_of_true hharmless fun hdisplaces => ?_
    rw [hdisplaces.accepted] at hinvalid
    cases hinvalid
  | outsized hlimit =>
    refine iff_of_true (harmless_of_expired hsound hnow hs) fun hdisplaces => ?_
    rcases hlimit with hzero | hlarge
    · exact hdisplaces.slots hzero
    · exact Nat.not_le_of_lt hlarge hdisplaces.fits
  | evicted accepted hmax hfits =>
    by_cases hfull : r.config.maxSlots ≤ (r.expire c.now).state.slots.entries.length
    · have hdisplaces : Displaces r c := ⟨accepted, hmax, hfits, by rwa [hslots] at hfull⟩
      refine iff_of_false (fun hharmless => ?_) (not_not.mpr hdisplaces)
      rw [← hconfig] at hmax hfull
      obtain ⟨key, slot, hfound, hlost⟩ := exists_evicted hmax hfull c.pick
      rw [hslots] at hfound
      obtain ⟨hbefore, hlive⟩ := lookup_sweep.mp hfound
      have hafter := hharmless.kept key slot hbefore hlive
      rw [hs, hlost] at hafter
      cases hafter
    · have hroom := evictOldest_of_room (hconfig ▸ Nat.lt_of_not_le hfull) c.pick
      rw [hroom] at hs
      refine iff_of_true (harmless_of_expired hsound hnow hs) fun hdisplaces => hfull ?_
      rw [hslots]
      exact hdisplaces.full

end Refused

namespace Sample

/-- A push for another packet, which the caller has no room for. -/
def pushRefused (now : Nat) : Push Nat := ⟨1, ⟨8, 0, 2, 4, [1, 2]⟩, now, fun _ => none, 0⟩

/-- With a slot to spare the refusal is harmless. -/
theorem refused_harmless_twoSlots :
    ∃ (history : List (Call Nat × Effect Nat)) (r : DatagramReassembler Nat) (e : Effect Nat),
      History ⟨2, 100, 10⟩ history r ∧ r.slots.entries.length = 1 ∧
        r.apply (.push (pushRefused 5)) = .ok e ∧
        e.outcome = some (.dropped .byteLimit) ∧
        (Harmless r 5 e ↔ ¬ Displaces r (pushRefused 5)) := by
  obtain ⟨effects, r, hhistory, hr⟩ := exists_history_of_run ⟨2, 100, 10⟩
    [.push (pushHalf 3 0 [1, 2])]
    (fun _ r => r.slots.entries.length == 1 &&
      (r.apply (.push (pushRefused 5))).toOption.any
        fun e => e.outcome == some (.dropped .byteLimit)) (by decide +kernel)
  rw [Bool.and_eq_true, beq_iff_eq] at hr
  obtain ⟨hlength, hrefused⟩ := hr
  cases hresult : r.apply (.push (pushRefused 5)) with
  | error failure =>
    rw [hresult] at hrefused
    cases hrefused
  | ok e =>
    rw [hresult] at hrefused
    have houtcome : e.outcome = some (.dropped .byteLimit) := beq_iff_eq.mp hrefused
    have htimely : ∀ step ∈ [Call.push (pushHalf 3 0 [1, 2])].zip effects, step.1.Timely := by
      intro step hstep
      rw [List.mem_singleton.mp (List.of_mem_zip hstep).1]
      exact (by decide : 3 < instantEnd)
    exact ⟨_, r, e, hhistory, hlength, hresult, houtcome,
      refused_harmless_iff hhistory htimely (by decide) hresult (.inl houtcome)⟩

/-- With all slots taken, the refused packet costs another packet its slot. -/
theorem refused_displaces_oneSlot :
    ∃ (history : List (Call Nat × Effect Nat)) (r : DatagramReassembler Nat) (e : Effect Nat),
      History ⟨1, 100, 10⟩ history r ∧ r.apply (.push (pushRefused 5)) = .ok e ∧
        e.outcome = some (.dropped .byteLimit) ∧
        (∃ slot, r.slots.lookup ⟨1, 7⟩ = some slot ∧ 5 - slot.createdAt ≤ r.config.ttl) ∧
        e.state.slots.lookup ⟨1, 7⟩ = none := by
  obtain ⟨effects, r, hhistory, hr⟩ := exists_history_of_run ⟨1, 100, 10⟩
    [.push (pushHalf 3 0 [1, 2])]
    (fun _ r => ((r.slots.lookup ⟨1, 7⟩).any fun slot =>
        decide (5 - slot.createdAt ≤ r.config.ttl)) &&
      (r.apply (.push (pushRefused 5))).toOption.any fun e =>
        e.outcome == some (.dropped .byteLimit) && (e.state.slots.lookup ⟨1, 7⟩).isNone)
    (by decide +kernel)
  rw [Bool.and_eq_true] at hr
  obtain ⟨hopen, hrefused⟩ := hr
  cases hresult : r.apply (.push (pushRefused 5)) with
  | error failure =>
    rw [hresult] at hrefused
    cases hrefused
  | ok e =>
    rw [hresult] at hrefused
    obtain ⟨houtcome, hlost⟩ := Bool.and_eq_true_iff.mp hrefused
    obtain ⟨slot, hfound, hlive⟩ := (Option.any_eq_true _ _).mp hopen
    exact ⟨_, r, e, hhistory, hresult, beq_iff_eq.mp houtcome,
      ⟨slot, hfound, of_decide_eq_true hlive⟩, Option.isNone_iff_eq_none.mp hlost⟩

end Sample

end Nowhere.Protocol
