import Nowhere.Protocol.Reassembly

/-!
# What a call of the reassembler can do

Every way in which slots leave the map is an instance of `Removes`, which says what became of
each slot and that the slots that left carry the weight that is missing. `Pushed` lists the
outcomes of `push_with` with the test that led to each; on a state whose slots are well formed
no other outcome is possible, and in particular no panic (`push_cases`).
-/

namespace Nowhere.Protocol

open Assoc Holes

variable {R : Type}

/-! ## Weights -/

section Load

variable {M : Type} [AddCommMonoid M]

/-- A weight of packet lengths and reservations, summed over the open slots. -/
def load (φ : UInt16 → R → M) (slots : Map ReassemblyKey (ReassemblySlot R)) : M :=
  total slots fun _ slot => φ slot.totalLen slot.reservation

/-- The same weight, summed over slots that left the map. -/
def weighed (φ : UInt16 → R → M) (gone : Dropped R) : M :=
  (gone.map fun e => φ e.2.totalLen e.2.reservation).sum

@[simp]
theorem weighed_nil (φ : UInt16 → R → M) : weighed φ [] = 0 := rfl

@[simp]
theorem weighed_cons (φ : UInt16 → R → M) (e : Sigma fun _ : ReassemblyKey => ReassemblySlot R)
    (gone : Dropped R) :
    weighed φ (e :: gone) = φ e.2.totalLen e.2.reservation + weighed φ gone := by
  simp [weighed]

@[simp]
theorem weighed_append (φ : UInt16 → R → M) (gone gone' : Dropped R) :
    weighed φ (gone ++ gone') = weighed φ gone + weighed φ gone' := by
  simp [weighed]

end Load

/-! ## Slots that leave -/

namespace DatagramReassembler

/-- `reserved_bytes` is the sum of the packet lengths. -/
def Counted (r : DatagramReassembler R) : Prop :=
  r.reservedBytes = load (fun totalLen _ => totalLen.toNat) r.slots

/-- From `r` to `r'` the slots `gone` left the map, and nothing else happened to it. -/
structure Removes (r r' : DatagramReassembler R) (gone : Dropped R) : Prop where
  config : r'.config = r.config
  kept : ∀ {key slot}, r'.slots.lookup key = some slot →
    r.slots.lookup key = some slot ∧ ∀ e ∈ gone, e.1 ≠ key
  balance : ∀ {M : Type} [AddCommMonoid M] (φ : UInt16 → R → M),
    load φ r.slots = load φ r'.slots + weighed φ gone
  counted : r.Counted → r'.Counted

theorem Removes.refl (r : DatagramReassembler R) : Removes r r [] where
  config := rfl
  kept h := ⟨h, by simp⟩
  balance φ := by simp
  counted h := h

theorem Removes.trans {r₁ r₂ r₃ : DatagramReassembler R} {gone gone' : Dropped R}
    (h₁ : Removes r₁ r₂ gone) (h₂ : Removes r₂ r₃ gone') : Removes r₁ r₃ (gone' ++ gone) where
  config := h₂.config.trans h₁.config
  kept h := by
    obtain ⟨hmid, hgone'⟩ := h₂.kept h
    obtain ⟨hfirst, hgone⟩ := h₁.kept hmid
    refine ⟨hfirst, fun e he => ?_⟩
    rcases List.mem_append.mp he with he | he
    · exact hgone' e he
    · exact hgone e he
  balance φ := by rw [h₁.balance, h₂.balance, weighed_append, add_assoc]
  counted h := h₂.counted (h₁.counted h)

variable {r r' : DatagramReassembler R} {gone : Dropped R} {key : ReassemblyKey}
  {slot : ReassemblySlot R} {s : Swept R}

/-- Fewer slots are open afterwards. -/
theorem Removes.length_le (h : Removes r r' gone) :
    r'.slots.entries.length ≤ r.slots.entries.length := by
  have hbalance := h.balance fun _ _ => 1
  simp only [load] at hbalance
  rw [length_entries, length_entries]
  omega

/-- The bytes taken back are those of the slots that left. -/
theorem Removes.reserved (h : Removes r r' gone) (hr : r.Counted) :
    r'.reservedBytes ≤ r.reservedBytes := by
  have hbalance := h.balance fun totalLen _ => totalLen.toNat
  have hafter := h.counted hr
  unfold Counted at hr hafter
  omega

/-- Removing by a test on keys and slots, whatever becomes of the cached expiry. -/
theorem removes_retain (r r' : DatagramReassembler R) (p : ReassemblyKey → ReassemblySlot R → Bool)
    (hconfig : r'.config = r.config) (hslots : r'.slots = retain r.slots p)
    (hreserved : r'.reservedBytes = r.reservedBytes -
      total (retain r.slots fun key slot => !p key slot) fun _ slot => slot.totalLen.toNat) :
    Removes r r' (retain r.slots fun key slot => !p key slot).entries := by
  have hbalance {M : Type} [AddCommMonoid M] (φ : UInt16 → R → M) : load φ r.slots =
      load φ r'.slots + weighed φ (retain r.slots fun key slot => !p key slot).entries := by
    rw [hslots]
    exact (total_retain r.slots p _).symm
  refine ⟨hconfig, fun h => ?_, hbalance, fun h => ?_⟩
  · rw [hslots, lookup_retain, Option.filter_eq_some_iff] at h
    refine ⟨h.1, ?_⟩
    rintro ⟨key, slot⟩ he rfl
    obtain ⟨hmem, hleaves⟩ := mem_entries_retain.mp he
    have hsame := Option.some.inj (h.1.symm.trans (mem_entries.mp hmem))
    subst hsame
    simp [h.2] at hleaves
  · have hsum := hbalance fun totalLen _ => totalLen.toNat
    have hgone : weighed (fun totalLen (_ : R) => totalLen.toNat)
        (retain r.slots fun key slot => !p key slot).entries =
          total (retain r.slots fun key slot => !p key slot)
            fun _ slot => slot.totalLen.toNat := rfl
    unfold Counted at h ⊢
    rw [hreserved, ← hgone]
    omega

theorem removes_without (found : r.slots.lookup key = some slot) :
    Removes r (r.without key slot) [⟨key, slot⟩] := by
  have hbalance {M : Type} [AddCommMonoid M] (φ : UInt16 → R → M) :
      load φ r.slots = load φ (r.without key slot).slots + weighed φ [⟨key, slot⟩] := by
    simp only [load, without, weighed, List.map_cons, List.map_nil, List.sum_cons, List.sum_nil,
      add_zero]
    rw [total_of_lookup found, add_comm]
  refine ⟨rfl, fun {key' slot'} h => ?_, hbalance, fun h => ?_⟩
  · simp only [without, lookup_erase] at h
    split at h
    · cases h
    · rename_i hne
      exact ⟨h, by simpa using Ne.symm hne⟩
  · have hsum := hbalance fun totalLen _ => totalLen.toNat
    simp only [weighed_cons, weighed_nil] at hsum
    unfold Counted at h ⊢
    rw [show (r.without key slot).reservedBytes = r.reservedBytes - slot.totalLen.toNat from rfl]
    omega

theorem removes_expire (r : DatagramReassembler R) (now : Nat) :
    Removes r (r.expire now).state (r.expire now).dropped := by
  unfold expire
  split
  · exact .refl r
  · split
    · exact .refl r
    · exact removes_retain r _ (fun _ slot => r.keeps now slot) rfl rfl rfl

theorem removes_removeFlow (r : DatagramReassembler R) (flowId : FlowId) :
    Removes r (r.removeFlow flowId).state (r.removeFlow flowId).dropped := by
  have h := removes_retain r (r.removeFlow flowId).state
    (fun key _ => !decide (key.flowId = flowId)) rfl rfl
  simp only [Bool.not_not] at h
  exact h rfl

theorem removes_clear (r : DatagramReassembler R) :
    Removes r r.clear.state r.clear.dropped where
  config := rfl
  kept h := by cases h
  balance φ := by
    simp only [clear, load, weighed, total_empty, zero_add]
    rfl
  counted _ := rfl

theorem removeSlot_of_lookup (found : r.slots.lookup key = some slot) :
    r.removeSlot key = (some slot, r.without key slot) := by
  simp only [removeSlot, found]

theorem evictOldest_removes (s : Swept R) (pick : Nat) :
    ∃ gone, Removes s.state (evictOldest s pick).state gone ∧
      (evictOldest s pick).dropped = gone ++ s.dropped := by
  unfold evictOldest
  split
  · split
    · exact ⟨[], .refl _, rfl⟩
    · rename_i oldest hmin
      obtain ⟨slot, found, _⟩ := minKey_least hmin
      rw [removeSlot_of_lookup found]
      exact ⟨_, removes_without found, rfl⟩
  · exact ⟨[], .refl _, rfl⟩

/-- The slots that have left before a packet without a slot gets one. -/
theorem removes_evictOldest (r : DatagramReassembler R) (now pick : Nat) :
    Removes r (evictOldest (r.expire now) pick).state
      (evictOldest (r.expire now) pick).dropped := by
  obtain ⟨gone, hremoves, hdropped⟩ := evictOldest_removes (r.expire now) pick
  rw [hdropped]
  exact (removes_expire r now).trans hremoves

theorem missing_evictOldest (pick : Nat) (missing : s.state.slots.lookup key = none) :
    (evictOldest s pick).state.slots.lookup key = none := by
  obtain ⟨gone, hremoves, _⟩ := evictOldest_removes s pick
  apply Option.eq_none_iff_forall_ne_some.mpr
  intro slot hfound
  rw [(hremoves.kept hfound).1] at missing
  cases missing

/-- After an eviction there is room for one more slot. -/
theorem evictOldest_room (pick : Nat) (hslots : 0 < s.state.config.maxSlots)
    (hlength : s.state.slots.entries.length ≤ s.state.config.maxSlots) :
    (evictOldest s pick).state.slots.entries.length < s.state.config.maxSlots := by
  unfold evictOldest
  split
  · rename_i hfull
    have hne : s.state.slots.entries ≠ [] := by
      intro hnil
      rw [hnil] at hfull
      simp only [List.length_nil] at hfull
      omega
    have hsome := minKey_isSome (fun _ slot => slot.createdAt) pick hne
    split
    · rename_i hnone
      rw [hnone] at hsome
      cases hsome
    · rename_i oldest hmin
      obtain ⟨slot, found, _⟩ := minKey_least hmin
      rw [removeSlot_of_lookup found]
      have hone := total_of_lookup found fun _ _ => 1
      rw [← length_entries, ← length_entries] at hone
      simp only [without]
      omega
  · omega

end DatagramReassembler

/-! ## Fragments and slots -/

/-- The fragments that `push_with` looks at. -/
structure UdpFragment.Accepted (flowId : FlowId) (fragment : UdpFragment) : Prop where
  flow_ne : flowId ≠ 0
  packet_ne : fragment.packetId ≠ 0
  two_le : 2 ≤ fragment.fragmentCount.toNat
  index_lt : fragment.fragmentIndex.toNat < fragment.fragmentCount.toNat
  count_le : fragment.fragmentCount.toNat ≤ fragment.totalLen.toNat
  payload_ne : fragment.payload ≠ []
  payload_le :
    fragment.payload.length + (fragment.fragmentCount.toNat - 1) ≤ fragment.totalLen.toNat

theorem invalidFragment_eq_false {flowId : FlowId} {fragment : UdpFragment} :
    DatagramReassembler.invalidFragment flowId fragment = false ↔ fragment.Accepted flowId := by
  have hmetadata : (!(validateFragmentMetadata fragment.fragmentIndex fragment.fragmentCount
      fragment.totalLen "reassembly").isOk) = false ↔ 2 ≤ fragment.fragmentCount.toNat ∧
        fragment.fragmentIndex.toNat < fragment.fragmentCount.toNat ∧
        fragment.fragmentCount.toNat ≤ fragment.totalLen.toNat := by
    rw [← validateFragmentMetadata_ok "reassembly"]
    cases validateFragmentMetadata fragment.fragmentIndex fragment.fragmentCount
      fragment.totalLen "reassembly" with
    | ok a => simp [Except.isOk, Except.toBool]
    | error e => simp [Except.isOk, Except.toBool]
  simp only [DatagramReassembler.invalidFragment, Bool.or_eq_false_iff, decide_eq_false_iff_not,
    hmetadata, badFragmentPayload_eq_false]
  constructor
  · rintro ⟨⟨⟨hflow, hpacket⟩, htwo, hindex, hcount⟩, hne, hle⟩
    exact ⟨hflow, hpacket, htwo, hindex, hcount, hne, hle⟩
  · intro h
    exact ⟨⟨⟨h.flow_ne, h.packet_ne⟩, h.two_le, h.index_lt, h.count_le⟩, h.payload_ne,
      h.payload_le⟩

namespace ReassemblySlot

/-- What every open slot satisfies. -/
structure Valid (slot : ReassemblySlot R) : Prop where
  length : slot.fragments.length = slot.fragmentCount.toNat
  received : slot.received = filled slot.fragments
  incomplete : slot.received < slot.fragmentCount.toNat
  retained : slot.retained = weight List.length slot.fragments
  bounded : slot.retained ≤ slot.totalLen.toNat

/-- The fragment belongs to the packet of the slot. -/
structure Matches (slot : ReassemblySlot R) (fragment : UdpFragment) : Prop where
  count : slot.fragmentCount = fragment.fragmentCount
  totalLen : slot.totalLen = fragment.totalLen

variable {slot : ReassemblySlot R} {fragment : UdpFragment}

/-- Storing into a hole keeps the counters right; only `incomplete` can be lost. -/
theorem Valid.store (h : slot.Valid)
    (hole : slot.fragments[fragment.fragmentIndex.toNat]? = some none)
    (fits : slot.retained + fragment.payload.length ≤ slot.totalLen.toNat)
    (more : slot.received + 1 < slot.fragmentCount.toNat) : (slot.store fragment).Valid where
  length := by simp only [ReassemblySlot.store, List.length_set, h.length]
  received := by simp only [ReassemblySlot.store, filled_set hole, h.received]
  incomplete := more
  retained := by simp only [ReassemblySlot.store, weight_set _ hole, h.retained]
  bounded := fits

/-- The fragment that fills the last hole leaves none. -/
theorem Valid.store_full (h : slot.Valid)
    (hole : slot.fragments[fragment.fragmentIndex.toNat]? = some none)
    (last : ¬ slot.received + 1 < slot.fragmentCount.toNat) :
    ∃ payloads : List (List UInt8), (slot.store fragment).fragments = payloads.map some := by
  apply exists_of_filled
  have hincomplete := h.incomplete
  have hlength := h.length
  have hreceived := h.received
  simp only [ReassemblySlot.store, filled_set hole, List.length_set]
  omega

theorem first_valid {flowId : FlowId} (h : fragment.Accepted flowId) (now : Nat)
    (reservation : R) : (ReassemblySlot.first fragment now reservation).Valid := by
  have hole : (List.replicate fragment.fragmentCount.toNat (none : Option (List UInt8)))[
      fragment.fragmentIndex.toNat]? = some none := by
    rw [List.getElem?_replicate, if_pos h.index_lt]
  have htwo := h.two_le
  have hle := h.payload_le
  exact
    { length := by simp [first]
      received := by simp [first, filled_set hole]
      incomplete := by simp only [first]; omega
      retained := by simp [first, weight_set _ hole]
      bounded := by simp only [first]; omega }

end ReassemblySlot

theorem joinFragments_map_some (payload : List UInt8) (payloads : List (List UInt8)) :
    DatagramReassembler.joinFragments payload (payloads.map some) =
      some (payload ++ payloads.flatten) := by
  induction payloads generalizing payload with
  | nil => simp [DatagramReassembler.joinFragments]
  | cons fragment rest ih =>
    simp only [List.map_cons, DatagramReassembler.joinFragments, ih, List.flatten_cons,
      List.append_assoc]

/-! ## The outcomes of `push_with` -/

/-- Why a fragment makes the reassembler give up the packet it belongs to. -/
inductive GivesUp (slot : ReassemblySlot R) (fragment : UdpFragment) : ReassemblyDropReason → Prop
  | metadata (differs : ¬ slot.Matches fragment) : GivesUp slot fragment .metadataConflict
  | duplicate {existing : List UInt8} (alike : slot.Matches fragment)
      (taken : slot.fragments[fragment.fragmentIndex.toNat]? = some (some existing))
      (differs : existing ≠ fragment.payload) : GivesUp slot fragment .duplicateConflict
  | overlong (alike : slot.Matches fragment)
      (hole : slot.fragments[fragment.fragmentIndex.toNat]? = some none)
      (exceeds : slot.totalLen.toNat < slot.retained + fragment.payload.length) :
      GivesUp slot fragment .invalidLength

/-- The fragment fills a hole of the slot of its packet. -/
structure Fills (slot : ReassemblySlot R) (fragment : UdpFragment) : Prop where
  alike : slot.Matches fragment
  hole : slot.fragments[fragment.fragmentIndex.toNat]? = some none
  fits : slot.retained + fragment.payload.length ≤ slot.totalLen.toNat

open DatagramReassembler in
/-- The possible effects of the push `c` on `r`. Everything but a refusal of the fragment
itself happens after the expired slots have been removed. -/
inductive Pushed (r : DatagramReassembler R) (c : Push R) : Effect R → Prop
  | invalid (refused : invalidFragment c.flowId c.fragment = true) :
      Pushed r c { state := r, outcome := some (.dropped .invalidLength) }
  | gaveUp {slot : ReassemblySlot R} {reason : ReassemblyDropReason}
      (accepted : c.fragment.Accepted c.flowId)
      (found : (r.expire c.now).state.slots.lookup c.key = some slot)
      (cause : GivesUp slot c.fragment reason) :
      Pushed r c
        { state := (r.expire c.now).state.without c.key slot
          outcome := some (.dropped reason)
          dropped := ⟨c.key, slot⟩ :: (r.expire c.now).dropped }
  | repeated {slot : ReassemblySlot R}
      (accepted : c.fragment.Accepted c.flowId)
      (found : (r.expire c.now).state.slots.lookup c.key = some slot)
      (alike : slot.Matches c.fragment)
      (taken : slot.fragments[c.fragment.fragmentIndex.toNat]? = some (some c.fragment.payload)) :
      Pushed r c
        { state := (r.expire c.now).state
          outcome := some (.pending (r.expire c.now).removed)
          dropped := (r.expire c.now).dropped }
  | stored {slot : ReassemblySlot R}
      (accepted : c.fragment.Accepted c.flowId)
      (found : (r.expire c.now).state.slots.lookup c.key = some slot)
      (fills : Fills slot c.fragment)
      (more : slot.received + 1 < slot.fragmentCount.toNat) :
      Pushed r c
        { state :=
            { (r.expire c.now).state with
              slots := (r.expire c.now).state.slots.insert c.key (slot.store c.fragment) }
          outcome := some (.pending (r.expire c.now).removed)
          dropped := (r.expire c.now).dropped }
  | short {slot : ReassemblySlot R}
      (accepted : c.fragment.Accepted c.flowId)
      (found : (r.expire c.now).state.slots.lookup c.key = some slot)
      (fills : Fills slot c.fragment)
      (last : ¬ slot.received + 1 < slot.fragmentCount.toNat)
      (differs : slot.retained + c.fragment.payload.length ≠ slot.totalLen.toNat) :
      Pushed r c
        { state := (r.expire c.now).state.without c.key slot
          outcome := some (.dropped .invalidLength)
          dropped := ⟨c.key, slot.store c.fragment⟩ :: (r.expire c.now).dropped }
  | completed {slot : ReassemblySlot R} {payloads : List (List UInt8)}
      (accepted : c.fragment.Accepted c.flowId)
      (found : (r.expire c.now).state.slots.lookup c.key = some slot)
      (fills : Fills slot c.fragment)
      (last : ¬ slot.received + 1 < slot.fragmentCount.toNat)
      (whole : slot.retained + c.fragment.payload.length = slot.totalLen.toNat)
      (full : (slot.store c.fragment).fragments = payloads.map some) :
      Pushed r c
        { state := (r.expire c.now).state.without c.key slot
          outcome := some (.complete payloads.flatten slot.reservation (r.expire c.now).removed)
          dropped := (r.expire c.now).dropped
          completed := some ⟨c.key, slot.store c.fragment⟩ }
  | outsized
      (accepted : c.fragment.Accepted c.flowId)
      (missing : (r.expire c.now).state.slots.lookup c.key = none)
      (limit : (r.expire c.now).state.config.maxSlots = 0 ∨
        (r.expire c.now).state.config.maxBytes < c.fragment.totalLen.toNat) :
      Pushed r c
        { state := (r.expire c.now).state
          outcome := some (.dropped .byteLimit)
          dropped := (r.expire c.now).dropped }
  | full {s : Swept R}
      (accepted : c.fragment.Accepted c.flowId)
      (missing : (r.expire c.now).state.slots.lookup c.key = none)
      (room : s = evictOldest (r.expire c.now) c.pick)
      (limit : s.state.config.maxBytes < s.state.reservedBytes + c.fragment.totalLen.toNat) :
      Pushed r c
        { state := s.state, outcome := some (.dropped .byteLimit), dropped := s.dropped }
  | unreserved {s : Swept R}
      (accepted : c.fragment.Accepted c.flowId)
      (missing : (r.expire c.now).state.slots.lookup c.key = none)
      (room : s = evictOldest (r.expire c.now) c.pick)
      (refused : c.reserve c.fragment.totalLen = none) :
      Pushed r c
        { state := s.state
          outcome := some (.dropped .byteLimit)
          reserved := [(c.fragment.totalLen, none)]
          dropped := s.dropped }
  | opened {s : Swept R} {reservation : R}
      (accepted : c.fragment.Accepted c.flowId)
      (missing : (r.expire c.now).state.slots.lookup c.key = none)
      (room : s = evictOldest (r.expire c.now) c.pick)
      (slots : 0 < (r.expire c.now).state.config.maxSlots)
      (fits : s.state.reservedBytes + c.fragment.totalLen.toNat ≤ s.state.config.maxBytes)
      (granted : c.reserve c.fragment.totalLen = some reservation) :
      Pushed r c
        { state := s.state.openSlot c.key c.fragment c.now reservation
          outcome := some (.pending s.removed)
          reserved := [(c.fragment.totalLen, some reservation)]
          opened := some c.key
          dropped := s.dropped }

namespace DatagramReassembler

variable {r : DatagramReassembler R} {c : Push R} {slot : ReassemblySlot R}

theorem dropSlot_of_lookup {s : Swept R} {key : ReassemblyKey}
    (found : s.state.slots.lookup key = some slot) (reason : ReassemblyDropReason) :
    dropSlot s key reason =
      { state := s.state.without key slot
        outcome := some (.dropped reason)
        dropped := ⟨key, slot⟩ :: s.dropped } := by
  simp only [dropSlot, removeSlot_of_lookup found]
  rfl

/-- The slot that was filled last is the one that is taken out. -/
theorem removeSlot_insert (r : DatagramReassembler R) (key : ReassemblyKey)
    (slot slot' : ReassemblySlot R) (hlen : slot'.totalLen = slot.totalLen) :
    ({ r with slots := r.slots.insert key slot' } : DatagramReassembler R).removeSlot key =
      (some slot', r.without key slot) := by
  have herase : (r.slots.insert key slot').erase key = r.slots.erase key := by
    apply AList.ext
    simp [entries_erase, AList.entries_insert]
  simp only [removeSlot, AList.lookup_insert, without, herase, hlen]

/-- A filled slot without holes completes the packet, unless its length is wrong. -/
theorem finish_pushed (accepted : c.fragment.Accepted c.flowId)
    (found : (r.expire c.now).state.slots.lookup c.key = some slot) (valid : slot.Valid)
    (fills : Fills slot c.fragment) (last : ¬ slot.received + 1 < slot.fragmentCount.toNat) :
    ∃ e, finish { r.expire c.now with
        state := { (r.expire c.now).state with
          slots := (r.expire c.now).state.slots.insert c.key (slot.store c.fragment) } } c.key =
      .ok e ∧ Pushed r c e := by
  obtain ⟨payloads, hfull⟩ := valid.store_full fills.hole last
  simp only [finish,
    removeSlot_insert (r.expire c.now).state c.key slot (slot.store c.fragment) rfl, hfull,
    joinFragments_map_some, List.nil_append]
  split
  · rename_i hdiffers
    exact ⟨_, rfl, .short accepted found fills last hdiffers⟩
  · rename_i hwhole
    exact ⟨_, rfl, .completed accepted found fills last (not_not.mp hwhole) hfull⟩

theorem pushOpen_pushed (accepted : c.fragment.Accepted c.flowId)
    (found : (r.expire c.now).state.slots.lookup c.key = some slot) (valid : slot.Valid) :
    ∃ e, pushOpen (r.expire c.now) c.key slot c.fragment = .ok e ∧ Pushed r c e := by
  unfold pushOpen
  split
  · rename_i hdiffers
    rw [dropSlot_of_lookup found]
    refine ⟨_, rfl, .gaveUp accepted found (.metadata fun hmatch => ?_)⟩
    exact hdiffers.elim (fun h => h hmatch.count) fun h => h hmatch.totalLen
  · rename_i hsame
    obtain ⟨hcount, htotal⟩ := not_or.mp hsame
    have hmatch : slot.Matches c.fragment := ⟨not_not.mp hcount, not_not.mp htotal⟩
    split
    · -- the index is below the fragment count, which is the vector's length
      rename_i hout
      have hlt := accepted.index_lt
      rw [List.getElem?_eq_none_iff, valid.length, hmatch.count] at hout
      omega
    · rename_i existing htaken
      split
      · rename_i hdiffers
        rw [dropSlot_of_lookup found]
        exact ⟨_, rfl, .gaveUp accepted found (.duplicate hmatch htaken hdiffers)⟩
      · rename_i hequal
        rw [not_not.mp hequal] at htaken
        exact ⟨_, rfl, .repeated accepted found hmatch htaken⟩
    · rename_i hole
      split
      · rename_i hexceeds
        rw [dropSlot_of_lookup found]
        exact ⟨_, rfl, .gaveUp accepted found (.overlong hmatch hole hexceeds)⟩
      · rename_i hfits
        have hfills : Fills slot c.fragment := ⟨hmatch, hole, Nat.le_of_not_lt hfits⟩
        dsimp only
        split
        · rename_i hmore
          exact ⟨_, rfl, .stored accepted found hfills hmore⟩
        · rename_i hlast
          exact finish_pushed accepted found valid hfills hlast

theorem pushNew_pushed (accepted : c.fragment.Accepted c.flowId)
    (missing : (r.expire c.now).state.slots.lookup c.key = none) :
    ∃ e, pushNew (r.expire c.now) c.key c.fragment c.now c.reserve c.pick = .ok e ∧
      Pushed r c e := by
  unfold pushNew
  split
  · rename_i hlimit
    exact ⟨_, rfl, .outsized accepted missing hlimit⟩
  · rename_i hlimit
    dsimp only
    split
    · rename_i hbytes
      exact ⟨_, rfl, .full accepted missing rfl hbytes⟩
    · rename_i hbytes
      split
      · rename_i hrefused
        exact ⟨_, rfl, .unreserved accepted missing rfl hrefused⟩
      · rename_i reservation hgranted
        rw [if_pos accepted.index_lt]
        have hslots : 0 < (r.expire c.now).state.config.maxSlots :=
          Nat.pos_of_ne_zero (not_or.mp hlimit).1
        exact ⟨_, rfl, .opened accepted missing rfl hslots (Nat.le_of_not_lt hbytes) hgranted⟩

/-- On well-formed slots a push never panics, and has one of the listed effects. -/
theorem push_cases (valid : ∀ {key slot}, r.slots.lookup key = some slot → slot.Valid)
    (c : Push R) : ∃ e, r.apply (.push c) = .ok e ∧ Pushed r c e := by
  simp only [apply, pushWith]
  split
  · rename_i hrefused
    exact ⟨_, rfl, .invalid hrefused⟩
  · rename_i hrefused
    have haccepted := invalidFragment_eq_false.mp (Bool.eq_false_iff.mpr hrefused)
    split
    · rename_i slot hfound
      exact pushOpen_pushed haccepted hfound (valid ((removes_expire r c.now).kept hfound).1)
    · rename_i hmissing
      exact pushNew_pushed haccepted hmissing

end DatagramReassembler

/-- The possible effects of a call. -/
inductive Applied (r : DatagramReassembler R) : Call R → Effect R → Prop
  | push {c : Push R} {e : Effect R} (pushed : Pushed r c e) : Applied r (.push c) e
  | removal {call : Call R} {state : DatagramReassembler R} {gone : Dropped R}
      (other : ∀ c, call ≠ .push c) (removes : DatagramReassembler.Removes r state gone) :
      Applied r call { state, dropped := gone }

namespace DatagramReassembler

theorem apply_cases {r : DatagramReassembler R}
    (valid : ∀ {key slot}, r.slots.lookup key = some slot → slot.Valid) (call : Call R) :
    ∃ e, r.apply call = .ok e ∧ Applied r call e := by
  cases call with
  | push c =>
    obtain ⟨e, hresult, hpushed⟩ := push_cases valid c
    exact ⟨e, hresult, .push hpushed⟩
  | expire now => exact ⟨_, rfl, .removal (by simp) (removes_expire r now)⟩
  | removeFlow flowId => exact ⟨_, rfl, .removal (by simp) (removes_removeFlow r flowId)⟩
  | clear => exact ⟨_, rfl, .removal (by simp) (removes_clear r)⟩

end DatagramReassembler

end Nowhere.Protocol
