import Nowhere.Portal.Atomic

/-!
# Corresponding registries

A registry whose flows are all TCP and one with the same flows of kind UDP (`Mirrors`). The UDP
registry keeps its entries in the other map, its halves wrap the same streams, and its entries and
leases own permits; everything else is equal, and the histories agree event by event up to the
texts of errors.

Each critical section of the registry, applied to corresponding data, gives corresponding data.
-/

namespace Nowhere.Portal

open Protocol Assoc

/-! ## What corresponds -/

/-- A TCP half and the UDP half of the same stream. -/
inductive Uplink.Corresponds : Uplink → Uplink → Prop
  | tlsTcp (r : Reader) : Corresponds (.tcp r) (.udp (.tlsTcp r))
  | quic (r : Reader) (unguarded : r.guard = none) : Corresponds (.tcp r) (.udp (.quic r.source))

inductive Downlink.Corresponds (liveness : Option Reader) : Downlink → Downlink → Prop
  | tlsTcp (w : Writer) : Corresponds liveness (.tcp w) (.udp (.tlsTcp w liveness))
  | quic (w : Writer) : Corresponds liveness (.tcp w) (.udp (.quic w))

structure Pending.Corresponds (p q : Pending) : Prop where
  epoch : q.epoch = p.epoch
  kind : p.metadata.kind = .tcp
  metadata : q.metadata = p.metadata.asUdp
  quicSnapshot : q.quicSnapshot = p.quicSnapshot
  target : q.target = p.target
  uplink : Option.Rel Uplink.Corresponds p.uplink q.uplink
  downlink : Option.Rel (Downlink.Corresponds p.downlinkLiveness) p.downlink q.downlink
  uplinkPath : q.uplinkPath = p.uplinkPath
  downlinkPath : q.downlinkPath = p.downlinkPath
  uplinkGeneration : q.uplinkGeneration = p.uplinkGeneration
  downlinkGeneration : q.downlinkGeneration = p.downlinkGeneration

structure FlowClaim.Corresponds (a b : FlowClaim) : Prop where
  kind : a.metadata.kind = .tcp
  claim : b = { a with metadata := a.metadata.asUdp }

structure Claims.Corresponds (a b : Claims) : Prop where
  map : Related FlowClaim.Corresponds a.map b.map
  nextEpoch : b.nextEpoch = a.nextEpoch
  nextToken : b.nextToken = a.nextToken

/-- The leases of one flow: only the permit differs. -/
structure FlowLease.Corresponds (a b : FlowLease) : Prop where
  key : b.key = a.key
  epoch : b.epoch = a.epoch
  cancel : b.cancel = a.cancel

structure Paired.Corresponds (p q : Paired) : Prop where
  tcp : p.kind = .tcp
  udp : q.kind = .udp
  flowId : q.flowId = p.flowId
  target : q.target = p.target
  uplink : p.uplink.Corresponds q.uplink
  downlink : p.downlink.Corresponds p.downlinkLiveness q.downlink
  uplinkCarrier : q.uplinkCarrier = p.uplinkCarrier
  downlinkCarrier : q.downlinkCarrier = p.downlinkCarrier
  uplinkPath : q.uplinkPath = p.uplinkPath
  downlinkPath : q.downlinkPath = p.downlinkPath
  lease : p.lease.Corresponds q.lease

/-- Events that differ in the text of an error or in the kind of a flow only. -/
inductive Event.Corresponds : Event → Event → Prop
  | returned (id : Nat) {e e' : Option PairingError}
      (code : e'.map PairingError.code = e.map PairingError.code) :
      Corresponds (.returned id e) (.returned id e')
  | paired (c : Submission) {p q : Paired} (pair : p.Corresponds q) :
      Corresponds (.paired c p) (.paired c.asUdp q)
  | wrote (downlink : Nat) (result : FlowResult) :
      Corresponds (.wrote downlink result) (.wrote downlink result)
  | dropped (downlink : Nat) (reason : DropReason) :
      Corresponds (.dropped downlink reason) (.dropped downlink reason)
  | cancelledGeneration (s : SessionId) (generation : Nat) :
      Corresponds (.cancelledGeneration s generation) (.cancelledGeneration s generation)
  | registeredQuic (s : SessionId) (generation : Nat) (previous : Option Nat) :
      Corresponds (.registeredQuic s generation previous) (.registeredQuic s generation previous)
  | panicked (message message' : String) :
      Corresponds (.panicked message) (.panicked message')

/-- A registry of TCP flows and the registry of the same flows with kind UDP. -/
structure Mirrors (wt wu : World) : Prop where
  entries : Related Pending.Corresponds (wt.pending .tcp) (wu.pending .udp)
  noUdp : wt.pending .udp = ∅
  noTcp : wu.pending .tcp = ∅
  claims : wt.claims.Corresponds wu.claims
  rejections : wu.rejections = wt.rejections
  links : wu.links = wt.links
  nextQuicGeneration : wu.nextQuicGeneration = wt.nextQuicGeneration
  now : wu.now = wt.now
  cancelled : wu.cancelled = wt.cancelled
  nextBudget : wu.permits.nextBudget = wt.permits.nextBudget
  stats : wu.stats = wt.stats
  log : List.Forall₂ Event.Corresponds wt.log wu.log

/-! ## Halves -/

variable {A B : Type} {R : A → B → Prop} {a : Option A} {b : Option B} {p q : Pending}
  {c : Submission}

theorem isSome_of_rel (h : Option.Rel R a b) : b.isSome = a.isSome := by
  cases h <;> rfl

theorem isNone_of_rel (h : Option.Rel R a b) : b.isNone = a.isNone := by
  cases h <;> rfl

theorem Uplink.Corresponds.guard {u v : Uplink} (h : u.Corresponds v) : v.guard = u.guard := by
  cases h with
  | tlsTcp r => rfl
  | quic r unguarded => exact unguarded.symm

theorem uplinkGuard_of_rel {a b : Option Uplink} (h : Option.Rel Uplink.Corresponds a b) :
    b.bind Uplink.guard = a.bind Uplink.guard := by
  cases h with
  | none => rfl
  | some h => exact h.guard

section Downlink

variable {liveness : Option Reader}

theorem Downlink.Corresponds.writer {d e : Downlink} (h : d.Corresponds liveness e) :
    e.writer = d.writer := by
  cases h <;> rfl

variable {a b : Option Downlink}

theorem downlinkGuard_of_rel (h : Option.Rel (Downlink.Corresponds liveness) a b) :
    b.bind Downlink.guard = a.bind Downlink.guard := by
  cases h with
  | none => rfl
  | some h => exact congrArg Writer.guard h.writer

theorem discards_of_rel (h : Option.Rel (Downlink.Corresponds liveness) a b) :
    (b.toList.map fun d => Frame.discard d.source) =
      a.toList.map fun d => Frame.discard d.source := by
  cases h with
  | none => rfl
  | some h => exact congrArg (fun w : Writer => [Frame.discard w.source]) h.writer

theorem dropped_of_rel (h : Option.Rel (Downlink.Corresponds liveness) a b) (reason : DropReason) :
    List.Forall₂ Event.Corresponds (a.toList.map fun d => .dropped d.source reason)
      (b.toList.map fun d => .dropped d.source reason) := by
  cases h with
  | none => exact .nil
  | @some d e h =>
    have hsource : e.source = d.source := congrArg Writer.source h.writer
    simp only [Option.toList_some, List.map_cons, List.map_nil, hsource]
    exact .cons (.dropped _ _) .nil

/-- The same frames write a rejection to both halves. -/
theorem rejectDownlink_of_rel (h : Option.Rel (Downlink.Corresponds liveness) a b)
    (code : FlowErrorCode) :
    rejectDownlink b code = rejectDownlink a code := by
  cases h with
  | none => rfl
  | some h =>
    exact congrArg (fun w : Writer => [Frame.writeReject w.source code]) h.writer

end Downlink

/-- Changing the kind loses nothing between two metadata of kind TCP. -/
theorem Metadata.asUdp_inj {a b : Metadata} (ha : a.kind = .tcp) (hb : b.kind = .tcp) :
    a.asUdp = b.asUdp ↔ a = b := by
  obtain ⟨kind, uplink, downlink⟩ := a
  obtain ⟨kind', uplink', downlink'⟩ := b
  cases ha
  cases hb
  simp [asUdp]

/-! ## Claims -/

namespace Claims.Corresponds

variable {a b : Claims}

/-- A test that does not look at the kind keeps corresponding claims. -/
theorem retain (h : a.Corresponds b) (test : FlowKey → FlowClaim → Bool)
    (htest : ∀ key c m, test key { c with metadata := m } = test key c) :
    Related FlowClaim.Corresponds (Assoc.retain a.map test) (Assoc.retain b.map test) := by
  refine h.map.retain ?_
  rintro key c _ ⟨_, rfl⟩
  exact (htest key c _).symm

theorem pendingCount (h : a.Corresponds b) (s : SessionId) :
    b.pendingCount s = a.pendingCount s := by
  unfold Claims.pendingCount
  rw [List.countP_eq_length_filter, List.countP_eq_length_filter]
  have hlive := h.retain (fun key claim => decide (key.sessionId = s) && !claim.active)
    fun _ _ _ => rfl
  exact (List.Forall₂.length_eq hlive).symm

theorem insert (h : a.Corresponds b) (key : FlowKey) {c d : FlowClaim} (hcd : c.Corresponds d) :
    Claims.Corresponds { a with map := a.map.insert key c }
      { b with map := b.map.insert key d } :=
  ⟨h.map.insert key hcd, h.nextEpoch, h.nextToken⟩

theorem erase (h : a.Corresponds b) (key : FlowKey) :
    Claims.Corresponds { a with map := a.map.erase key } { b with map := b.map.erase key } :=
  ⟨h.map.erase key, h.nextEpoch, h.nextToken⟩

/-- `reserve_claim` gives the same answer. -/
theorem reserveClaim (h : a.Corresponds b) (cfg : Config) (key : FlowKey) {m : Metadata}
    (hm : m.kind = .tcp) (target : Option Target) (generation : Option Nat) :
    (a.reserveClaim cfg key m target generation).1.Corresponds
        (b.reserveClaim cfg key m.asUdp target generation).1 ∧
      (b.reserveClaim cfg key m.asUdp target generation).2 =
        (a.reserveClaim cfg key m target generation).2 := by
  have hlookup := h.map.lookup key
  unfold Claims.reserveClaim
  generalize a.map.lookup key = found, b.map.lookup key = found' at hlookup ⊢
  cases hlookup with
  | none =>
    dsimp only
    rw [h.pendingCount, h.nextEpoch, h.nextToken]
    split
    · exact ⟨h, rfl⟩
    · exact ⟨⟨h.map.insert key ⟨hm, rfl⟩, rfl, rfl⟩, rfl⟩
  | @some claim claim' hclaim =>
    obtain ⟨hkind, rfl⟩ := hclaim
    dsimp only
    have hmetadata : claim.metadata.asUdp ≠ m.asUdp ↔ claim.metadata ≠ m :=
      not_congr (Metadata.asUdp_inj hkind hm)
    simp only [hmetadata]
    split
    · exact ⟨h, rfl⟩
    · split
      · exact ⟨h, rfl⟩
      · exact ⟨h.insert key ⟨hkind, rfl⟩, rfl⟩

theorem refreshClaim (h : a.Corresponds b) (key : FlowKey) {n n' : Nat} (hn : n' = n) :
    Option.Rel Claims.Corresponds (a.refreshClaim key n) (b.refreshClaim key n') := by
  subst hn
  have hlookup := h.map.lookup key
  unfold Claims.refreshClaim
  generalize a.map.lookup key = found, b.map.lookup key = found' at hlookup ⊢
  cases hlookup with
  | none => exact .none
  | some hclaim =>
    obtain ⟨hkind, rfl⟩ := hclaim
    exact .some (h.insert key ⟨hkind, rfl⟩)

theorem abandonClaim (h : a.Corresponds b) (key : FlowKey) (epoch : Nat) :
    (a.abandonClaim key epoch).Corresponds (b.abandonClaim key epoch) := by
  have hlookup := h.map.lookup key
  unfold Claims.abandonClaim
  generalize a.map.lookup key = found, b.map.lookup key = found' at hlookup ⊢
  cases hlookup with
  | none => exact h
  | some hclaim =>
    obtain ⟨_, rfl⟩ := hclaim
    dsimp only
    split
    · exact h.erase key
    · exact h

theorem finishFlow (h : a.Corresponds b) (key : FlowKey) (epoch : Nat) :
    (a.finishFlow key epoch).Corresponds (b.finishFlow key epoch) := by
  have hlookup := h.map.lookup key
  unfold Claims.finishFlow
  generalize a.map.lookup key = found, b.map.lookup key = found' at hlookup ⊢
  cases hlookup with
  | none => exact h
  | some hclaim =>
    obtain ⟨_, rfl⟩ := hclaim
    dsimp only
    split
    · exact h.erase key
    · exact h

theorem sweepClaim (h : a.Corresponds b) (key : FlowKey)
    (left : Option (Option Target × List Nat)) :
    (a.sweepClaim key left).Corresponds (b.sweepClaim key left) := by
  have hlookup := h.map.lookup key
  unfold Claims.sweepClaim
  generalize a.map.lookup key = found, b.map.lookup key = found' at hlookup ⊢
  cases hlookup with
  | none => exact h
  | some hclaim =>
    obtain ⟨hkind, rfl⟩ := hclaim
    dsimp only
    split
    · exact h
    · cases left with
      | none => exact h.erase key
      | some left => exact h.insert key ⟨hkind, rfl⟩

/-- `activate_claim` hands out the same token. -/
theorem activateClaim (h : a.Corresponds b) (key : FlowKey) (epoch : Nat) (generations : List Nat) :
    Option.Rel (fun x y => x.1.Corresponds y.1 ∧ y.2 = x.2) (a.activateClaim key epoch generations)
      (b.activateClaim key epoch generations) := by
  have hlookup := h.map.lookup key
  unfold Claims.activateClaim
  generalize a.map.lookup key = found, b.map.lookup key = found' at hlookup ⊢
  cases hlookup with
  | none => exact .none
  | some hclaim =>
    obtain ⟨hkind, rfl⟩ := hclaim
    exact .some ⟨h.insert key ⟨hkind, rfl⟩, rfl⟩

/-- Is the key's claim active? -/
theorem active (h : a.Corresponds b) (key : FlowKey) :
    (b.map.lookup key).any FlowClaim.active = (a.map.lookup key).any FlowClaim.active := by
  have hlookup := h.map.lookup key
  generalize a.map.lookup key = found, b.map.lookup key = found' at hlookup ⊢
  cases hlookup with
  | none => rfl
  | some hclaim =>
    obtain ⟨_, rfl⟩ := hclaim
    rfl

theorem tokens (h : a.Corresponds b) (test : FlowKey → FlowClaim → Bool)
    (htest : ∀ key c m, test key { c with metadata := m } = test key c) :
    b.tokens test = a.tokens test := by
  have hcancel : ∀ (key : FlowKey) (c d : FlowClaim), c.Corresponds d → c.cancel = d.cancel := by
    rintro key c _ ⟨_, rfl⟩
    rfl
  exact ((h.retain test htest).map_entries hcancel).symm

end Claims.Corresponds

/-! ## Pending entries -/

namespace Pending.Corresponds

variable {p q : Pending}

theorem generations (h : p.Corresponds q) : q.generations = p.generations := by
  unfold Pending.generations
  rw [h.uplinkGeneration, h.downlinkGeneration]

theorem complete (h : p.Corresponds q) : q.complete = p.complete := by
  unfold Pending.complete
  rw [isSome_of_rel h.uplink, isSome_of_rel h.downlink]

theorem uplinkStale (h : p.Corresponds q) (active : Option Nat) :
    q.uplinkStale active = p.uplinkStale active := by
  unfold Pending.uplinkStale
  rw [h.metadata, h.uplinkGeneration]
  rfl

theorem downlinkStale (h : p.Corresponds q) (active : Option Nat) :
    q.downlinkStale active = p.downlinkStale active := by
  unfold Pending.downlinkStale
  rw [h.metadata, h.downlinkGeneration]
  rfl

theorem clearStale (h : p.Corresponds q) (active : Option Nat) :
    (p.clearStale active).Corresponds (q.clearStale active) := by
  unfold Pending.clearStale
  rw [h.uplinkStale, h.downlinkStale]
  constructor
  case uplink =>
    dsimp only
    split
    · exact .none
    · exact h.uplink
  case downlink =>
    dsimp only
    split
    · exact .none
    · exact h.downlink
  all_goals simp only [h.epoch, h.kind, h.metadata, h.quicSnapshot, h.target, h.uplinkPath,
    h.downlinkPath, h.uplinkGeneration, h.downlinkGeneration]

theorem with_epoch (h : p.Corresponds q) {n n' : Nat} (hn : n' = n) :
    Pending.Corresponds { p with epoch := n } { q with epoch := n' } :=
  { h with epoch := hn }

theorem fresh {c : Submission} (hkind : c.header.kind = .tcp) (permit : Option Permit) (epoch : Nat)
    (active : Option Nat) :
    (Pending.fresh c epoch active).Corresponds
      (.fresh { c.asUdp with permit } epoch active) where
  epoch := rfl
  kind := hkind
  metadata := rfl
  quicSnapshot := rfl
  target := rfl
  uplink := .none
  downlink := .none
  uplinkPath := rfl
  downlinkPath := rfl
  uplinkGeneration := rfl
  downlinkGeneration := rfl

end Pending.Corresponds

/-! ## Submissions -/

namespace Submission.BuiltTcp

variable {c : Submission}

/-- A half that came over QUIC owns no guard. -/
theorem uplink_rel (h : c.BuiltTcp) : Option.Rel Uplink.Corresponds c.uplink c.asUdp.uplink := by
  unfold asUdp LinkHalf.carrier
  cases hu : c.uplink with
  | none => exact .none
  | some u =>
    obtain ⟨r, rfl⟩ := h.reader u hu
    cases hquic : c.link.quicGeneration with
    | none => exact .some (.tlsTcp r)
    | some g =>
      refine .some (.quic r ?_)
      by_contra hguard
      obtain ⟨guard, hguard⟩ := Option.ne_none_iff_exists'.mp hguard
      have hnone := (h.uplinkGuard guard (by rw [hu]; exact hguard)).2
      rw [hquic] at hnone
      cases hnone

theorem downlink_rel (h : c.BuiltTcp) :
    Option.Rel (Downlink.Corresponds c.liveness) c.downlink c.asUdp.downlink := by
  unfold asUdp LinkHalf.carrier
  cases hd : c.downlink with
  | none => exact .none
  | some d =>
    obtain ⟨w, rfl⟩ := h.writer d hd
    cases c.link.quicGeneration with
    | none => exact .some (.tlsTcp w)
    | some g => exact .some (.quic w)

theorem header_kind (h : c.BuiltTcp) : c.header.kind = .tcp :=
  h.via.symm.trans h.kind

end Submission.BuiltTcp

/-- The half fits into corresponding entries, or misses for the same reason. -/
theorem Pending.Corresponds.fill (h : p.Corresponds q) (hc : c.BuiltTcp) (permit : Option Permit) :
    (p.fill c).1.Corresponds (q.fill { c.asUdp with permit }).1 ∧
      (q.fill { c.asUdp with permit }).2 = (p.fill c).2 := by
  have hmetadata : q.metadata = Submission.metadata { c.asUdp with permit } ↔
      p.metadata = c.metadata := by
    rw [h.metadata]
    exact Metadata.asUdp_inj (b := c.metadata) h.kind hc.header_kind
  have htarget : q.target.or c.target = p.target.or c.target := by rw [h.target]
  unfold Pending.fill
  by_cases hm : p.metadata = c.metadata
  · rw [if_neg (not_not.mpr (hmetadata.mpr hm)), if_neg (not_not.mpr hm)]
    dsimp only [Submission.asUdp]
    cases c.header.role with
    | opening =>
      dsimp only
      rw [isSome_of_rel h.uplink]
      split
      · exact ⟨{ h with target := htarget }, rfl⟩
      · exact ⟨{ h with
          target := htarget
          uplink := hc.uplink_rel
          uplinkPath := rfl
          uplinkGeneration := rfl }, rfl⟩
    | attach =>
      dsimp only
      rw [isSome_of_rel h.downlink]
      split
      · exact ⟨{ h with target := htarget }, rfl⟩
      · exact ⟨{ h with
          target := htarget
          downlink := hc.downlink_rel
          downlinkPath := rfl
          downlinkGeneration := rfl }, rfl⟩
    | duplex => exact ⟨{ h with target := htarget }, rfl⟩
  · rw [if_pos (mt hmetadata.mp hm), if_pos hm]
    exact ⟨h, rfl⟩

/-- The entry of a DUPLEX. -/
theorem Submission.BuiltTcp.toPending (h : c.BuiltTcp) (permit : Option Permit) (epoch : Nat) :
    (c.toPending epoch).Corresponds (Submission.toPending { c.asUdp with permit } epoch) where
  epoch := rfl
  kind := h.header_kind
  metadata := rfl
  quicSnapshot := rfl
  target := rfl
  uplink := h.uplink_rel
  downlink := h.downlink_rel
  uplinkPath := rfl
  downlinkPath := rfl
  uplinkGeneration := rfl
  downlinkGeneration := rfl

/-- Corresponding entries make corresponding pairs, or both calls panic. -/
theorem Pending.Corresponds.toPaired (h : p.Corresponds q) (hvia : c.via = .tcp)
    {lease lease' : FlowLease} (hlease : lease.Corresponds lease') :
    (∃ x y, p.toPaired c lease = .ok x ∧ q.toPaired c.asUdp lease' = .ok y ∧ x.Corresponds y) ∨
      ∃ e e', p.toPaired c lease = .error e ∧ q.toPaired c.asUdp lease' = .error e' := by
  obtain ⟨epoch, metadata, snapshot, target, uplink, downlink, liveness, permit, uplinkPath,
    downlinkPath, uplinkGeneration, downlinkGeneration⟩ := p
  obtain ⟨epoch', metadata', snapshot', target', uplink', downlink', liveness', permit',
    uplinkPath', downlinkPath', uplinkGeneration', downlinkGeneration'⟩ := q
  obtain ⟨hepoch, hkind, hmetadata, hsnapshot, htarget, huplink, hdownlink, huplinkPath,
    hdownlinkPath, huplinkGeneration, hdownlinkGeneration⟩ := h
  dsimp only at *
  subst htarget huplinkPath hdownlinkPath hmetadata
  unfold Pending.toPaired
  cases target' with
  | none => exact .inr ⟨_, _, rfl, rfl⟩
  | some target =>
    cases huplink with
    | none => exact .inr ⟨_, _, rfl, rfl⟩
    | some hup =>
      cases hdownlink with
      | none => exact .inr ⟨_, _, rfl, rfl⟩
      | some hdown =>
        cases uplinkPath' with
        | none => exact .inr ⟨_, _, rfl, rfl⟩
        | some up =>
          cases downlinkPath' with
          | none => exact .inr ⟨_, _, rfl, rfl⟩
          | some down =>
            exact .inl ⟨_, _, rfl, rfl, hvia, rfl, rfl, rfl, hup, hdown, rfl, rfl, rfl, rfl, hlease⟩

end Nowhere.Portal
