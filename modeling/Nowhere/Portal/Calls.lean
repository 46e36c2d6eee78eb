import Nowhere.Portal.Changes

/-!
# Where halves come from

The provenance of everything the registry holds. A call keeps the halves, header and target it
was submitted with (`Call`); a pending entry takes its uplink, target, path and generation from
one OPEN and its downlink, path and generation from one ATTACH of its own key and metadata
(`Entry`); so does the complete entry of an activation, and with it the pair that is returned
(`PairFrom`). From `Entry` it follows that no `expect` on a complete entry can fail.
-/

namespace Nowhere.Portal

open Protocol Assoc

/-- A submission as the ingress handlers build it. -/
structure Submission.Built (c : Submission) : Prop where
  via : c.via = c.header.kind
  permit : c.permit = none
  uplink : c.uplink.isSome = true ↔ c.header.role ≠ .attach
  downlink : c.downlink.isSome = true ↔ c.header.role ≠ .opening
  uplinkSource : ∀ u, c.uplink = some u → u.source = c.id
  downlinkSource : ∀ d, c.downlink = some d → d.source = c.id
  uplinkGuard : ∀ g, c.uplink.bind Uplink.guard = some g →
    g = ⟨c.sessionId, .tlsTcp, none⟩ ∧ c.link.quicGeneration = none
  downlinkGuard : ∀ g, c.downlink.bind Downlink.guard = some g →
    g = ⟨c.sessionId, .tlsTcp, none⟩ ∧ c.link.quicGeneration = none

theorem built_tls (w : World) {g : LinkGuard} (hg : g.carrier = .tlsTcp ∧ g.quicGeneration = none)
    (header : FlowHeader) (target : Option Target) (path : LinkPath) :
    (w.newSubmission g.sessionId header target ⟨path, none⟩
      (tlsHalves w.nextSubmission g header.kind header.role)).Built := by
  obtain ⟨s, carrier, generation⟩ := g
  obtain ⟨rfl, rfl⟩ := hg
  obtain ⟨role, flowId, kind, uplink, downlink⟩ := header
  cases kind <;> cases role <;> constructor <;>
    simp [World.newSubmission, tlsHalves, Uplink.source, Downlink.source, Downlink.writer,
      Uplink.guard, Downlink.guard]

theorem built_quic (w : World) (s : SessionId) (generation : Nat) (header : FlowHeader)
    (target : Option Target) (path : LinkPath) :
    (w.newSubmission s header target ⟨path, some generation⟩
      (quicHalves w.nextSubmission header.kind header.role)).Built := by
  obtain ⟨role, flowId, kind, uplink, downlink⟩ := header
  cases kind <;> cases role <;> constructor <;>
    simp [World.newSubmission, quicHalves, Uplink.source, Downlink.source, Downlink.writer,
      Uplink.guard, Downlink.guard]

/-! ## Calls, entries and activations -/

/-- A call that passed the header checks, with what it was submitted with. -/
structure Call (log : List Event) (c : Submission) : Prop where
  submitted : .submitted { c with permit := none } ∈ log
  target : c.target = none ↔ c.header.role = .attach
  carrier : c.carrier = .quic ↔ c.link.quicGeneration.isSome = true

/-- The call holds a permit exactly if it opens a UDP flow. -/
def Submission.Permitted (c : Submission) : Prop :=
  c.permit.isSome = true ↔ c.via = .udp ∧ c.header.role ≠ .attach

/-- `o` is an OPEN that supplied the uplink half of `p`. -/
structure Opens (o : Submission) (key : FlowKey) (p : Pending) : Prop where
  role : o.header.role = .opening
  key : o.key = key
  metadata : o.metadata = p.metadata
  uplink : o.uplink = p.uplink
  target : o.target = p.target
  path : p.uplinkPath = some o.link.path
  generation : p.uplinkGeneration = o.link.quicGeneration
  carrier : o.header.uplink = .quic ↔ o.link.quicGeneration.isSome = true

/-- `o` is an ATTACH that supplied the downlink half of `p`. -/
structure Attaches (o : Submission) (key : FlowKey) (p : Pending) : Prop where
  role : o.header.role = .attach
  key : o.key = key
  metadata : o.metadata = p.metadata
  downlink : o.downlink = p.downlink
  path : p.downlinkPath = some o.link.path
  generation : p.downlinkGeneration = o.link.quicGeneration
  carrier : o.header.downlink = .quic ↔ o.link.quicGeneration.isSome = true

/-- A well-formed pending entry. -/
structure Entry (log : List Event) (kind : FlowKind) (key : FlowKey) (p : Pending) : Prop where
  ofKind : p.metadata.kind = kind
  target : p.target.isSome = true ↔ p.uplink.isSome = true
  uplinkPath : p.uplinkPath.isSome = true ↔ p.uplink.isSome = true
  flowPermit : p.flowPermit.isSome = true ↔ kind = .udp ∧ p.uplink.isSome = true
  downlinkPath : p.downlinkPath.isSome = true ↔ p.downlink.isSome = true
  uplinkGeneration : p.uplink = none → p.uplinkGeneration = none
  downlinkGeneration : p.downlink = none → p.downlinkGeneration = none
  opened : p.uplink.isSome = true → ∃ o, .submitted o ∈ log ∧ Opens o key p
  attached : p.downlink.isSome = true → ∃ o, .submitted o ∈ log ∧ Attaches o key p

/-- A complete flow on its way to activation. -/
structure Activates (log : List Event) (a : Activation) : Prop where
  call : ∃ o, .submitted o ∈ log ∧ a.call = o.bare
  complete : a.complete.complete = true
  target : a.complete.target.isSome = true
  uplinkPath : a.complete.uplinkPath.isSome = true
  downlinkPath : a.complete.downlinkPath.isSome = true
  generations : ∀ g, g ∈ a.complete.generations ↔ g ∈ a.generations
  split : a.call.header.role ≠ .duplex → Entry log a.call.via a.call.key a.complete
  duplex : a.call.header.role = .duplex →
    ∃ o, .submitted o ∈ log ∧ a.call = o.bare ∧ a.complete = o.toPending a.epoch

/-- The pair `p` is made of the uplink and target of the OPEN `o` and of the downlink of the
ATTACH `a`, and reports what both of them carried. -/
structure PairFrom (p : Paired) (o a : Submission) : Prop where
  opening : o.header.role = .opening
  attach : a.header.role = .attach
  uplink : o.uplink = some p.uplink
  target : o.target = some p.target
  downlink : a.downlink = some p.downlink
  openKey : o.key = p.lease.key
  attachKey : a.key = p.lease.key
  flowId : p.flowId = p.lease.key.flowId
  openMetadata : o.metadata = ⟨p.kind, p.uplinkCarrier, p.downlinkCarrier⟩
  attachMetadata : a.metadata = ⟨p.kind, p.uplinkCarrier, p.downlinkCarrier⟩
  uplinkPath : o.link.path = p.uplinkPath
  downlinkPath : a.link.path = p.downlinkPath

/-- The pair `p` is made of the DUPLEX `o` alone. -/
structure DuplexFrom (p : Paired) (o : Submission) : Prop where
  role : o.header.role = .duplex
  uplink : o.uplink = some p.uplink
  target : o.target = some p.target
  downlink : o.downlink = some p.downlink
  key : o.key = p.lease.key
  flowId : p.flowId = p.lease.key.flowId
  kind : p.kind = o.via
  metadata : o.metadata = ⟨o.header.kind, p.uplinkCarrier, p.downlinkCarrier⟩
  uplinkPath : o.link.path = p.uplinkPath
  downlinkPath : o.link.path = p.downlinkPath

section Monotone

variable {log log' : List Event} (hlog : log ⊆ log')

include hlog

theorem Call.mono {c : Submission} (h : Call log c) : Call log' c :=
  { h with submitted := hlog h.submitted }

theorem Entry.mono {kind : FlowKind} {key : FlowKey} {p : Pending} (h : Entry log kind key p) :
    Entry log' kind key p :=
  { h with
    opened := fun hu => (h.opened hu).imp fun _ ho => ⟨hlog ho.1, ho.2⟩
    attached := fun hd => (h.attached hd).imp fun _ ho => ⟨hlog ho.1, ho.2⟩ }

theorem Activates.mono {a : Activation} (h : Activates log a) : Activates log' a :=
  { h with
    call := h.call.imp fun _ ho => ⟨hlog ho.1, ho.2⟩
    split := fun hr => (h.split hr).mono hlog
    duplex := fun hr => (h.duplex hr).imp fun _ ho => ⟨hlog ho.1, ho.2⟩ }

end Monotone

/-! ## Entries through the install block -/

namespace Pending

def withoutUplink (p : Pending) : Pending :=
  { p with
    uplink := none, target := none, flowPermit := none, uplinkPath := none
    uplinkGeneration := none }

def withoutDownlink (p : Pending) : Pending :=
  { p with
    downlink := none, downlinkLiveness := none, downlinkPath := none, downlinkGeneration := none }

/-- Clearing a stale half clears everything that came with it. -/
theorem clearStale_eq (p : Pending) (active : Option Nat) :
    p.clearStale active =
      if p.downlinkStale active then
        if p.uplinkStale active then p.withoutUplink.withoutDownlink else p.withoutDownlink
      else if p.uplinkStale active then p.withoutUplink else p := by
  cases hu : p.uplinkStale active <;> cases hd : p.downlinkStale active <;>
    simp [clearStale, withoutUplink, withoutDownlink, hu, hd]

/-- A fresh entry that takes a half: the target it was created with makes no difference. -/
theorem fill_fresh (c : Submission) (epoch : Nat) (active : Option Nat) :
    (fresh c epoch active).fill c =
      ({ fresh c epoch active with target := none } : Pending).fill c := by
  cases hrole : c.header.role <;> simp [fill, fresh, hrole]

end Pending

namespace Entry

variable {log : List Event} {kind : FlowKind} {key : FlowKey} {p : Pending}

theorem with_epoch (h : Entry log kind key p) (epoch : Nat) :
    Entry log kind key { p with epoch } :=
  { h with
    opened := fun hu => (h.opened hu).imp fun _ ho => ⟨ho.1, { ho.2 with }⟩
    attached := fun hd => (h.attached hd).imp fun _ ho => ⟨ho.1, { ho.2 with }⟩ }

theorem withoutUplink (h : Entry log kind key p) : Entry log kind key p.withoutUplink where
  ofKind := h.ofKind
  target := by simp [Pending.withoutUplink]
  uplinkPath := by simp [Pending.withoutUplink]
  flowPermit := by simp [Pending.withoutUplink]
  downlinkPath := h.downlinkPath
  uplinkGeneration := fun _ => rfl
  downlinkGeneration := h.downlinkGeneration
  opened := by simp [Pending.withoutUplink]
  attached := fun hd => (h.attached hd).imp fun _ ho => ⟨ho.1, { ho.2 with }⟩

theorem withoutDownlink (h : Entry log kind key p) : Entry log kind key p.withoutDownlink where
  ofKind := h.ofKind
  target := h.target
  uplinkPath := h.uplinkPath
  flowPermit := h.flowPermit
  downlinkPath := by simp [Pending.withoutDownlink]
  uplinkGeneration := h.uplinkGeneration
  downlinkGeneration := fun _ => rfl
  opened := fun hu => (h.opened hu).imp fun _ ho => ⟨ho.1, { ho.2 with }⟩
  attached := by simp [Pending.withoutDownlink]

theorem clearStale (h : Entry log kind key p) (active : Option Nat) :
    Entry log kind key (p.clearStale active) := by
  rw [Pending.clearStale_eq]
  split <;> split
  · exact h.withoutUplink.withoutDownlink
  · exact h.withoutDownlink
  · exact h.withoutUplink
  · exact h

theorem fresh (log : List Event) (c : Submission) (epoch : Nat) (active : Option Nat)
    (hvia : c.via = c.header.kind) :
    Entry log c.via c.key { Pending.fresh c epoch active with target := none } := by
  constructor <;> simp [Pending.fresh, Submission.metadata, hvia]

/-- Filling in a half of a checked call. -/
theorem fill {c : Submission} {p' : Pending} {misfit : Option Pending.Misfit}
    (h : Entry log c.via c.key p) (hcall : Call log c)
    (hbuilt : ({ c with permit := none } : Submission).Built) (hpermit : c.Permitted)
    (hrole : c.header.role ≠ .duplex) (hfill : p.fill c = (p', misfit)) :
    Entry log c.via c.key p' := by
  unfold Pending.fill at hfill
  split at hfill
  · cases hfill
    exact h
  · rename_i hmetadata
    rw [not_not] at hmetadata
    dsimp only at hfill
    split at hfill
    · rename_i hopening
      split at hfill
      · -- the entry keeps the target it has
        rename_i huplink
        cases hfill
        have htarget : p.target.or c.target = p.target :=
          Option.or_of_isSome (h.target.mpr huplink)
        simpa only [htarget] using h
      · rename_i huplink
        cases hfill
        have hu : p.uplink = none := by simpa using huplink
        have ht : p.target = none := by
          simpa [hu] using h.target
        have hc : c.uplink.isSome = true := hbuilt.uplink.mpr (by simp [hopening])
        have htarget : c.target.isSome = true := by
          rw [Option.isSome_iff_ne_none, ne_eq, hcall.target, hopening]
          simp
        refine ⟨h.ofKind, ?_, ?_, ?_, h.downlinkPath, ?_, h.downlinkGeneration, ?_, ?_⟩
        · simp [ht, htarget, hc]
        · simp [hc]
        · simpa [Submission.Permitted, hc, hopening] using hpermit
        · intro hnone
          rw [show c.uplink = none from hnone] at hc
          cases hc
        · intro _
          refine ⟨_, hcall.submitted, hopening, rfl, hmetadata.symm, rfl, ?_, rfl, rfl, ?_⟩
          · simp [ht]
          · simpa [Submission.carrier, hopening] using hcall.carrier
        · exact fun hd => (h.attached hd).imp fun _ ho => ⟨ho.1, { ho.2 with }⟩
    · rename_i hattach
      have htarget : p.target.or c.target = p.target := by
        rw [hcall.target.mpr hattach, Option.or_none]
      split at hfill
      · cases hfill
        simpa only [htarget] using h
      · cases hfill
        have hc : c.downlink.isSome = true := hbuilt.downlink.mpr (by simp [hattach])
        refine ⟨h.ofKind, ?_, h.uplinkPath, h.flowPermit, ?_, h.uplinkGeneration, ?_, ?_, ?_⟩
        · simpa only [htarget] using h.target
        · simp [hc]
        · intro hnone
          rw [show c.downlink = none from hnone] at hc
          cases hc
        · intro hu
          obtain ⟨o, hlog, ho⟩ := h.opened hu
          exact ⟨o, hlog, { ho with target := by simpa only [htarget] using ho.target }⟩
        · intro _
          refine ⟨_, hcall.submitted, hattach, rfl, hmetadata.symm, rfl, rfl, rfl, ?_⟩
          simpa [Submission.carrier, hattach] using hcall.carrier
    · exact absurd ‹_› hrole

end Entry

/-! ## Pairs -/

variable {c : Submission} {log : List Event} {f : Frame}

/-- What `toPaired` takes from the entry and from the call. -/
theorem toPaired_ok {q : Pending} {c : Submission} {lease : FlowLease} {p : Paired}
    (h : q.toPaired c lease = .ok p) :
    (q.target = some p.target ∧ q.uplink = some p.uplink ∧ q.downlink = some p.downlink ∧
      q.uplinkPath = some p.uplinkPath ∧ q.downlinkPath = some p.downlinkPath) ∧
      p.kind = c.via ∧ p.flowId = c.header.flowId ∧ p.uplinkCarrier = q.metadata.uplink ∧
      p.downlinkCarrier = q.metadata.downlink ∧ p.lease = lease := by
  unfold Pending.toPaired at h
  split at h <;> cases h
  exact ⟨⟨‹_›, ‹_›, ‹_›, ‹_›, ‹_›⟩, rfl, rfl, rfl, rfl, rfl⟩

namespace Activates

variable {log : List Event} {a : Activation}

/-- None of the `expect`s on a complete entry fails. -/
theorem toPaired (h : Activates log a) (lease : FlowLease) :
    ∃ p, a.complete.toPaired a.call lease = .ok p := by
  have hcomplete := h.complete
  simp only [Pending.complete, Bool.and_eq_true] at hcomplete
  obtain ⟨target, htarget⟩ := Option.isSome_iff_exists.mp h.target
  obtain ⟨uplink, huplink⟩ := Option.isSome_iff_exists.mp hcomplete.1
  obtain ⟨downlink, hdownlink⟩ := Option.isSome_iff_exists.mp hcomplete.2
  obtain ⟨uplinkPath, huplinkPath⟩ := Option.isSome_iff_exists.mp h.uplinkPath
  obtain ⟨downlinkPath, hdownlinkPath⟩ := Option.isSome_iff_exists.mp h.downlinkPath
  simp [Pending.toPaired, htarget, huplink, hdownlink, huplinkPath, hdownlinkPath]

variable {lease : FlowLease} {p : Paired} {c : Submission}

theorem toPaired_ne_error (h : Activates log a) {message : String} :
    a.complete.toPaired a.call lease ≠ .error message := by
  obtain ⟨p, hp⟩ := h.toPaired lease
  rw [hp]
  exact fun heq => by cases heq

theorem pairFrom (h : Activates log a) (hrole : a.call.header.role ≠ .duplex)
    (hkey : lease.key = a.call.key) (hp : a.complete.toPaired a.call lease = .ok p) :
    ∃ o b, .submitted o ∈ log ∧ .submitted b ∈ log ∧ PairFrom p o b := by
  have hentry := h.split hrole
  obtain ⟨⟨htarget, huplink, hdownlink, huplinkPath, hdownlinkPath⟩, hkind, hflow, hup, hdown,
    hlease⟩ := toPaired_ok hp
  obtain ⟨o, holog, ho⟩ := hentry.opened (by simp [huplink])
  obtain ⟨b, hblog, hb⟩ := hentry.attached (by simp [hdownlink])
  have hmetadata : a.complete.metadata = ⟨p.kind, p.uplinkCarrier, p.downlinkCarrier⟩ := by
    rw [hkind, hup, hdown, ← hentry.ofKind]
  refine ⟨o, b, holog, hblog, ?_⟩
  exact {
    opening := ho.role
    attach := hb.role
    uplink := ho.uplink.trans huplink
    target := ho.target.trans htarget
    downlink := hb.downlink.trans hdownlink
    openKey := by rw [ho.key, hlease, hkey]
    attachKey := by rw [hb.key, hlease, hkey]
    flowId := by rw [hflow, hlease, hkey, Submission.key]
    openMetadata := ho.metadata.trans hmetadata
    attachMetadata := hb.metadata.trans hmetadata
    uplinkPath := Option.some.inj (ho.path.symm.trans huplinkPath)
    downlinkPath := Option.some.inj (hb.path.symm.trans hdownlinkPath) }

theorem duplexFrom (h : Activates log a) (hrole : a.call.header.role = .duplex)
    (hkey : lease.key = a.call.key) (hp : a.complete.toPaired a.call lease = .ok p) :
    ∃ o, .submitted o ∈ log ∧ DuplexFrom p o := by
  obtain ⟨o, holog, hcall, hcomplete⟩ := h.duplex hrole
  obtain ⟨⟨htarget, huplink, hdownlink, huplinkPath, hdownlinkPath⟩, hkind, hflow, hup, hdown,
    hlease⟩ := toPaired_ok hp
  have hcallKey : a.call.key = o.key := by rw [hcall]; rfl
  rw [hcomplete] at htarget huplink hdownlink huplinkPath hdownlinkPath hup hdown
  refine ⟨o, holog, ?_⟩
  exact {
    role := by rw [← hrole, hcall]; rfl
    uplink := huplink
    target := htarget
    downlink := hdownlink
    key := by rw [hlease, hkey, hcallKey]
    flowId := by rw [hflow, hlease, hkey, Submission.key]
    kind := by rw [hkind, hcall]; rfl
    metadata := by rw [hup, hdown]; rfl
    uplinkPath := Option.some.inj huplinkPath
    downlinkPath := Option.some.inj hdownlinkPath }

/-- The entry that an install block completed. -/
theorem of_split {p : Pending} (hcall : Call log c) (hrole : c.header.role ≠ .duplex)
    (hentry : Entry log c.via c.key p) (hcomplete : p.complete = true) :
    Activates log ⟨c.bare, p.epoch, p.generations, p.flowPermit, p⟩ where
  call := ⟨_, hcall.submitted, rfl⟩
  complete := hcomplete
  target := hentry.target.mpr (by simp_all [Pending.complete])
  uplinkPath := hentry.uplinkPath.mpr (by simp_all [Pending.complete])
  downlinkPath := hentry.downlinkPath.mpr (by simp_all [Pending.complete])
  generations := fun _ => Iff.rfl
  split := fun _ => hentry
  duplex := fun h => absurd h hrole

/-- The two halves of a DUPLEX. -/
theorem of_duplex (hcall : Call log c) (hbuilt : ({ c with permit := none } : Submission).Built)
    (hrole : c.header.role = .duplex) (epoch : Nat) :
    Activates log ⟨c.bare, epoch, c.link.quicGeneration.toList, c.permit, c.toPending epoch⟩ where
  call := ⟨_, hcall.submitted, rfl⟩
  complete := by
    have huplink : c.uplink.isSome = true := hbuilt.uplink.mpr (by simp [hrole])
    have hdownlink : c.downlink.isSome = true := hbuilt.downlink.mpr (by simp [hrole])
    simp [Pending.complete, Submission.toPending, huplink, hdownlink]
  target := by
    rw [Option.isSome_iff_ne_none]
    intro hnone
    have := hcall.target.mp hnone
    simp [hrole] at this
  uplinkPath := rfl
  downlinkPath := rfl
  generations := by simp [Pending.generations, Submission.toPending]
  split := fun h => absurd hrole h
  duplex := fun _ => ⟨_, hcall.submitted, rfl, rfl⟩

end Activates

/-! ## The invariant -/

/-- What a frame knows about the call it belongs to. -/
def Frame.Sound (log : List Event) : Frame → Prop
  | .submit c => .submitted c ∈ log
  | .terminalRejection c =>
    Call log c ∧ c.permit = none ∧
      (c.header.role = .duplex ∨ c.via = .udp ∧ c.header.role = .opening)
  | .acquireUdpPermit c | .tryAcquire c _ => Call log c ∧ c.via = .udp ∧ c.header.role ≠ .attach
  | .reserveDuplex c => Call log c ∧ c.Permitted ∧ c.header.role = .duplex
  | .installPending c | .installLinks c | .installSweep c _ _ | .installTombstone c _
  | .installReserve c _ => Call log c ∧ c.Permitted ∧ c.header.role ≠ .duplex
  | .installRefresh c | .installRefreshClaim c _ => ∃ o, .submitted o ∈ log ∧ c = o.bare
  | .activateLinks a | .activateClaims a => Activates log a
  | .lane g => g.carrier = .tlsTcp ∧ g.quicGeneration = none
  | .panic _ | .discard _ => False
  | _ => True

theorem Frame.Sound.of_cleanup (h : f.cleanup = true) :
    f.Sound log := by
  cases f <;> trivial

theorem Frame.Sound.mono {log log' : List Event} (hlog : log ⊆ log') (h : f.Sound log) :
    f.Sound log' := by
  cases f with
  | submit c => exact hlog h
  | terminalRejection c => exact ⟨h.1.mono hlog, h.2⟩
  | acquireUdpPermit c => exact ⟨h.1.mono hlog, h.2⟩
  | tryAcquire c budget => exact ⟨h.1.mono hlog, h.2⟩
  | reserveDuplex c => exact ⟨h.1.mono hlog, h.2⟩
  | installPending c => exact ⟨h.1.mono hlog, h.2⟩
  | installLinks c => exact ⟨h.1.mono hlog, h.2⟩
  | installSweep c active left => exact ⟨h.1.mono hlog, h.2⟩
  | installTombstone c active => exact ⟨h.1.mono hlog, h.2⟩
  | installReserve c active => exact ⟨h.1.mono hlog, h.2⟩
  | installRefresh c => exact h.imp fun _ ho => ⟨hlog ho.1, ho.2⟩
  | installRefreshClaim c epoch => exact h.imp fun _ ho => ⟨hlog ho.1, ho.2⟩
  | activateLinks a => exact Activates.mono hlog h
  | activateClaims a => exact Activates.mono hlog h
  | _ => exact h

/-- The provenance of everything in the registry. -/
structure Provenance (w : World) (fs : Multiset Frame) : Prop where
  frames : ∀ f ∈ fs, f.Sound w.log
  entries : ∀ kind key p, (w.pending kind).lookup key = some p → Entry w.log kind key p
  built : ∀ c, .submitted c ∈ w.log → c.Built ∧ c.id < w.nextSubmission
  unique : ((submissions w.log).map Submission.id).Nodup
  paired : ∀ call p, .paired call p ∈ w.log → call.header.role ≠ .duplex →
    ∃ o a, .submitted o ∈ w.log ∧ .submitted a ∈ w.log ∧ PairFrom p o a
  duplex : ∀ call p, .paired call p ∈ w.log → call.header.role = .duplex →
    ∃ o, .submitted o ∈ w.log ∧ DuplexFrom p o
  panicked : ∀ message, .panicked message ∉ w.log
  discarded : ∀ d, .dropped d .endOfCall ∉ w.log

/-- What the header checks establish. -/
theorem call_of_valid {links : Map SessionId LinkCounts}
    (hvalid : c.validateHeaderAndLink links = .ok ()) (hsubmitted : .submitted c ∈ log)
    (hbuilt : c.Built) : Call log c := by
  have hheader : c.validateHeader = .ok () := by
    unfold Submission.validateHeaderAndLink at hvalid
    split at hvalid
    · cases hvalid
    · assumption
  unfold Submission.validateHeader at hheader
  split at hheader
  · cases hheader
  split at hheader
  · cases hheader
  split at hheader
  · cases hheader
  split at hheader
  · cases hheader
  rename_i _ hmissing hattach hcarrier
  have hself : ({ c with permit := none } : Submission) = c := by
    rw [← hbuilt.permit]
  refine ⟨hself.symm ▸ hsubmitted, ⟨?_, ?_⟩, ?_⟩
  · intro hnone
    by_contra hrole
    exact hmissing ⟨hrole, hnone⟩
  · intro hrole
    by_contra hsome
    exact hattach ⟨hrole, hsome⟩
  · rw [ne_eq, not_not] at hcarrier
    rw [← hcarrier, decide_eq_true_eq]

namespace Provenance

variable {cfg : Config} {choice : Choice} {w : World} {f g : Frame} {others fs : Multiset Frame}
  {c : Submission} {r : Effect}

/-- Submissions are told apart by their numbers. -/
theorem submission_eq (h : Provenance w fs) {c c' : Submission} (hc : .submitted c ∈ w.log)
    (hc' : .submitted c' ∈ w.log) (hid : c.id = c'.id) : c = c' :=
  List.inj_on_of_nodup_map h.unique (mem_submissions.mpr hc) (mem_submissions.mpr hc') hid

/-- The next number is unused. -/
theorem unique_cons (h : Provenance w fs) (hid : c.id = w.nextSubmission) :
    ((submissions (.submitted c :: w.log)).map Submission.id).Nodup := by
  change (c.id :: (submissions w.log).map Submission.id).Nodup
  refine List.nodup_cons.mpr ⟨?_, h.unique⟩
  intro hmem
  obtain ⟨c', hc', hid'⟩ := List.mem_map.mp hmem
  have := (h.built c' (mem_submissions.mp hc')).2
  omega

theorem sound (h : Provenance w (f ::ₘ others)) : f.Sound w.log :=
  h.frames f (Multiset.mem_cons_self f others)

theorem built_call (h : Provenance w (f ::ₘ others)) (hcall : Call w.log c) :
    ({ c with permit := none } : Submission).Built :=
  (h.built _ hcall.submitted).1

/-- The entry as the install block finds or creates it, after it took the half of `c`. -/
theorem filled (h : Provenance w (f ::ₘ others)) (hcall : Call w.log c) (hpermit : c.Permitted)
    (hrole : c.header.role ≠ .duplex) {epoch : Nat} {active : Option Nat} {p : Pending}
    {misfit : Option Pending.Misfit} (hfill : c.FillsEntry w epoch active p misfit) :
    Entry w.log c.via c.key p := by
  have hbuilt := h.built_call hcall
  unfold Submission.FillsEntry entryOf at hfill
  cases hfound : (w.pending c.via).lookup c.key with
  | none =>
    rw [hfound, Option.getD_none, Pending.fill_fresh] at hfill
    exact (Entry.fresh w.log c epoch active hbuilt.via).fill hcall hbuilt hpermit hrole hfill
  | some q =>
    rw [hfound, Option.getD_some] at hfill
    exact (h.entries _ _ _ hfound).fill hcall hbuilt hpermit hrole hfill

/-- A DUPLEX has both halves. -/
theorem duplexPanic (h : Provenance w (f ::ₘ others)) (hc : (Frame.reserveDuplex c).Sound w.log)
    {message : String} :
    c.duplexPanic ≠ some message := by
  obtain ⟨hcall, _, hrole⟩ := hc
  have hbuilt := h.built_call hcall
  obtain ⟨u, hu⟩ := Option.isSome_iff_exists.mp (hbuilt.uplink.mpr (by simp [hrole]))
  obtain ⟨d, hd⟩ := Option.isSome_iff_exists.mp (hbuilt.downlink.mpr (by simp [hrole]))
  dsimp only at hu hd
  simp [Submission.duplexPanic, hu, hd]

/-- The frames that follow a sound frame are sound. -/
theorem next (h : Provenance w (f ::ₘ others)) (hnext : Next cfg w f g)
    (hsubmit : ∀ c, g ≠ .submit c) : g.Sound w.log := by
  have hf := h.sound
  cases hnext with
  | checkTombstone valid shape role =>
    have hbuilt := (h.built _ hf).1
    exact ⟨call_of_valid valid hf hbuilt, hbuilt.permit, role⟩
  | @install c valid shape role =>
    have hbuilt := (h.built _ hf).1
    refine ⟨call_of_valid valid hf hbuilt, ?_, ?_⟩
    · rcases role with hattach | ⟨htcp, _⟩
      · simp [Submission.Permitted, hbuilt.permit, hattach]
      · simp [Submission.Permitted, hbuilt.permit, htcp]
    · rcases role with hattach | ⟨_, hopening⟩
      · simp [hattach]
      · simp [hopening]
  | reserveDuplex via =>
    obtain ⟨hcall, hnone, hrole⟩ := hf
    refine ⟨hcall, ?_, ?_⟩
    · simp [Submission.Permitted, hnone, via]
    · rcases hrole with hrole | ⟨hudp, _⟩
      · exact hrole
      · simp [via] at hudp
  | acquireUdpPermit via =>
    obtain ⟨hcall, _, hrole⟩ := hf
    refine ⟨hcall, via, ?_⟩
    rcases hrole with hrole | ⟨_, hrole⟩ <;> simp [hrole]
  | tryAcquire budget => exact hf
  | reserveWithPermit role =>
    obtain ⟨hcall, hudp, hrole⟩ := hf
    exact ⟨{ hcall with }, by simp [Submission.Permitted, hudp, hrole], role⟩
  | installWithPermit role =>
    obtain ⟨hcall, hudp, hrole⟩ := hf
    exact ⟨{ hcall with }, by simp [Submission.Permitted, hudp, hrole], role⟩
  | installLinks => exact hf
  | installSweep current left => exact hf
  | installFresh current => exact hf
  | installTombstone => exact hf
  | installReserve => exact hf
  | installRefresh reserved filled waiting =>
    obtain ⟨hcall, _, _⟩ := hf
    exact ⟨_, hcall.submitted, rfl⟩
  | installRefreshClaim => exact hf
  | activateDuplex reserved halves =>
    obtain ⟨hcall, _, hrole⟩ := hf
    exact .of_duplex hcall (h.built_call hcall) hrole _
  | activate reserved filled complete =>
    obtain ⟨hcall, hpermit, hrole⟩ := hf
    exact .of_split hcall hrole (h.filled hcall hpermit hrole filled) complete
  | activateClaims current => exact hf
  | panicDuplex halves => exact absurd halves (h.duplexPanic hf)
  | unwindDuplex halves d => exact absurd halves (h.duplexPanic hf)
  | panicInstall role message => exact absurd role hf.2.2
  | unwindInstall role d => exact absurd role hf.2.2
  | panicActivate activated paired => exact absurd paired (Activates.toPaired_ne_error hf)
  | unwindActivate activated paired d => exact absurd paired (Activates.toPaired_ne_error hf)
  | @discard c active d role downlink =>
    have hbuilt := h.built_call hf.1
    have hsome : c.downlink.isSome = true := by simp [downlink]
    exact absurd role (hbuilt.downlink.mp hsome)
  | lane => exact ⟨rfl, rfl⟩
  | submitLane => exact absurd rfl (hsubmit _)
  | _ => trivial

/-- A submission is recorded before its call starts. -/
theorem exec_submit (hexec : exec cfg choice w f = some r) (hc : .submit c ∈ r.all) :
    .submitted c ∈ r.world.log := by
  rcases exec_next hexec _ hc with hclean | hnext
  · cases hclean
  · cases hnext with
    | submitLane =>
      simp only [exec] at hexec
      unfold laneStep at hexec
      split at hexec <;> cases hexec
      · simp only [Tasks.Effect.all, startSubmission, List.flatten_nil, List.append_nil,
          List.mem_singleton, Frame.submit.injEq] at hc
        rw [hc]
        exact List.mem_cons_self
      · simp [Tasks.Effect.all] at hc
      · simp [Tasks.Effect.all] at hc

/-- One step of a task keeps the provenance. -/
theorem exec (h : Provenance w (f ::ₘ others)) (hexec : exec cfg choice w f = some r) :
    Provenance r.world (↑r.all + others) := by
  have hchanges := exec_changes hexec
  have hf := h.sound
  have hle : w.nextSubmission ≤ r.world.nextSubmission := by
    rcases hchanges.submissions with ⟨hnext, _⟩ | ⟨_, _, _, hnext⟩ <;> omega
  constructor
  · intro g hg
    rcases Multiset.mem_add.mp hg with hg | hg
    · rcases exec_next hexec g hg with hclean | hnext
      · exact .of_cleanup hclean
      · by_cases hsubmit : ∃ c, g = .submit c
        · obtain ⟨c, rfl⟩ := hsubmit
          exact exec_submit hexec hg
        · exact (h.next hnext fun c hc => hsubmit ⟨c, hc⟩).mono hchanges.kept
    · exact (h.frames g (Multiset.mem_cons_of_mem hg)).mono hchanges.kept
  · intro kind key p hp
    cases hchanges.pending kind key p hp with
    | same found => exact (h.entries _ _ _ found).mono hchanges.kept
    | stale found left => exact ((h.entries _ _ _ found).clearStale _).mono hchanges.kept
    | filled reserved filled =>
      obtain ⟨hcall, hpermit, hrole⟩ := hf
      exact (h.filled hcall hpermit hrole filled).mono hchanges.kept
    | refreshed found => exact ((h.entries _ _ _ found).with_epoch _).mono hchanges.kept
  · intro c hc
    rcases hchanges.logged hc with hold | hnew
    · exact ⟨(h.built c hold).1, Nat.lt_of_lt_of_le (h.built c hold).2 hle⟩
    · cases hnew with
      | submitted =>
        refine ⟨built_tls w hf _ _ _, ?_⟩
        rcases hchanges.submissions with ⟨_, hold⟩ | ⟨c', hlog, _, hnext⟩
        · rw [← mem_submissions, hold, mem_submissions] at hc
          exact Nat.lt_of_lt_of_le (h.built _ hc).2 hle
        · rw [hnext]
          exact Nat.lt_succ_self _
  · rcases hchanges.submissions with ⟨_, hold⟩ | ⟨c, hlog, hid, _⟩
    · rw [hold]
      exact h.unique
    · rw [hlog]
      exact h.unique_cons hid
  · intro call p hp hrole
    rcases hchanges.logged hp with hold | hnew
    · obtain ⟨o, a, ho, ha, hpair⟩ := h.paired call p hold hrole
      exact ⟨o, a, hchanges.kept ho, hchanges.kept ha, hpair⟩
    · cases hnew with
      | paired activated paired =>
        obtain ⟨o, b, ho, hb, hpair⟩ := Activates.pairFrom hf hrole rfl paired
        exact ⟨o, b, hchanges.kept ho, hchanges.kept hb, hpair⟩
  · intro call p hp hrole
    rcases hchanges.logged hp with hold | hnew
    · obtain ⟨o, ho, hpair⟩ := h.duplex call p hold hrole
      exact ⟨o, hchanges.kept ho, hpair⟩
    · cases hnew with
      | paired activated paired =>
        obtain ⟨o, ho, hpair⟩ := Activates.duplexFrom hf hrole rfl paired
        exact ⟨o, hchanges.kept ho, hpair⟩
  · intro message hm
    rcases hchanges.logged hm with hold | hnew
    · exact h.panicked message hold
    · cases hnew
      exact hf
  · intro d hd
    rcases hchanges.logged hd with hold | hnew
    · exact h.discarded d hold
    · cases hnew
      exact hf

/-- A new call arrives. -/
theorem submit (h : Provenance w fs) (hbuilt : c.Built) (hid : c.id = w.nextSubmission) :
    Provenance (startSubmission w c).world (↑(startSubmission w c).all + fs) := by
  have hkept : w.log ⊆ .submitted c :: w.log := List.subset_cons_self _ _
  have hold {e : Event} (he : e ∈ Event.submitted c :: w.log) (hne : e ≠ .submitted c) :
      e ∈ w.log := (List.mem_cons.mp he).resolve_left hne
  constructor
  · intro g hg
    rcases Multiset.mem_add.mp hg with hg | hg
    · have hg' : g = .submit c := by simpa [Tasks.Effect.all, startSubmission] using hg
      subst hg'
      exact List.mem_cons_self
    · exact (h.frames g hg).mono hkept
  · exact fun kind key p hp => (h.entries kind key p hp).mono hkept
  · intro c' hc'
    rcases List.mem_cons.mp hc' with hc' | hc'
    · cases hc'
      refine ⟨hbuilt, ?_⟩
      rw [hid]
      exact Nat.lt_succ_self _
    · exact ⟨(h.built c' hc').1, Nat.lt_succ_of_lt (h.built c' hc').2⟩
  · exact h.unique_cons hid
  · intro call p hp hrole
    obtain ⟨o, a, ho, ha, hpair⟩ := h.paired call p (hold hp (by simp)) hrole
    exact ⟨o, a, hkept ho, hkept ha, hpair⟩
  · intro call p hp hrole
    obtain ⟨o, ho, hpair⟩ := h.duplex call p (hold hp (by simp)) hrole
    exact ⟨o, hkept ho, hpair⟩
  · exact fun message hm => h.panicked message (hold hm (by simp))
  · exact fun d hd => h.discarded d (hold hd (by simp))

/-- A new task that owns nothing yet. -/
theorem spawn (h : Provenance w fs) {f : Frame} (hf : f.Sound w.log) :
    Provenance w (↑(Tasks.Effect.all (W := World) ⟨w, [f], []⟩) + fs) :=
  { h with
    frames := by
      intro g hg
      rcases Multiset.mem_add.mp hg with hg | hg
      · have hg' : g = f := by simpa [Tasks.Effect.all] using hg
        exact hg' ▸ hf
      · exact h.frames g hg }

theorem boot (h : Provenance w fs) (b : Start) :
    Provenance (start b w).world (↑(start b w).all + fs) := by
  cases b with
  | stream s generation header target path =>
    exact h.submit (built_quic w s generation header target path) rfl
  | tick elapsed =>
    have hall : (start (.tick elapsed) w).all = [] := rfl
    rw [hall, Multiset.coe_nil, zero_add]
    exact { h with }
  | registerTcp s => exact h.spawn trivial
  | registerQuic s => exact h.spawn trivial
  | refuse key code => exact h.spawn trivial
  | cancelUdp key => exact h.spawn trivial
  | cancelAll => exact h.spawn trivial

theorem init : Provenance World.init 0 := by
  constructor <;> simp [World.init, submissions]

end Provenance

/-- **Provenance.** In every reachable registry every half comes from the submission it is
attributed to. -/
theorem provenance {cfg : Config} {cond : Choice → World → Frame → Prop} {p : Pool}
    (h : (portal cfg).Reach cond initial p) : Provenance p.world p.bag :=
  h.bag_invariant Provenance.init (fun _ b _ ih => ih.boot b)
    fun _ _ _ _ _ _ _ ih _ _ hexec => ih.exec hexec

end Nowhere.Portal
