import Nowhere.Portal.Outcomes

/-!
# What can follow a step

Inversion of `exec`, first part. `Next` lists, with the tests that lead there, the frames that
can follow a frame; the frames that only tidy up (`Frame.cleanup`) are left out of it, since
they carry nothing the invariants speak about. `exec_next` says that the list is complete.

The second part, what a step changes in the world, is `Nowhere.Portal.Changes`. The invariants
of the registry are derived from the two, so that little else looks into the step functions.
-/

namespace Nowhere.Portal

open Protocol Assoc

/-- Frames that write a rejection, return, release or abandon. -/
def Frame.cleanup : Frame → Bool
  | .linkGuardDrop _ | .hold _ | .rejectTcp .. | .writeReject .. | .returnErr .. | .permitDrop _
  | .abandonClaim .. => true
  | _ => false

attribute [local simp] Frame.cleanup

/-- The frames other than clean-up that a step of a frame leaves behind. -/
inductive Next (cfg : Config) (w : World) : Frame → Frame → Prop
  | checkTombstone {c : Submission} (valid : c.validateHeaderAndLink w.links = .ok ())
      (shape : c.shapeValid = true)
      (role : c.header.role = .duplex ∨ c.via = .udp ∧ c.header.role = .opening) :
      Next cfg w (.submit c) (.terminalRejection c)
  | install {c : Submission} (valid : c.validateHeaderAndLink w.links = .ok ())
      (shape : c.shapeValid = true)
      (role : c.header.role = .attach ∨ c.via = .tcp ∧ c.header.role = .opening) :
      Next cfg w (.submit c) (.installPending c)
  | reserveDuplex {c : Submission} (via : c.via = .tcp) :
      Next cfg w (.terminalRejection c) (.reserveDuplex c)
  | acquireUdpPermit {c : Submission} (via : c.via = .udp) :
      Next cfg w (.terminalRejection c) (.acquireUdpPermit c)
  | tryAcquire {c : Submission} (budget : Nat) :
      Next cfg w (.acquireUdpPermit c) (.tryAcquire c budget)
  | reserveWithPermit {c : Submission} {budget : Nat} (role : c.header.role = .duplex) :
      Next cfg w (.tryAcquire c budget) (.reserveDuplex { c with permit := some ⟨budget⟩ })
  | installWithPermit {c : Submission} {budget : Nat} (role : c.header.role ≠ .duplex) :
      Next cfg w (.tryAcquire c budget) (.installPending { c with permit := some ⟨budget⟩ })
  | installLinks {c : Submission} : Next cfg w (.installPending c) (.installLinks c)
  | installSweep {c : Submission} (current : linkCurrent w.links c.sessionId c.link = true)
      (left : Option (Option Target × List Nat)) :
      Next cfg w (.installLinks c)
        (.installSweep c (activeQuicGeneration w.links c.sessionId) left)
  | installFresh {c : Submission} (current : linkCurrent w.links c.sessionId c.link = true) :
      Next cfg w (.installLinks c)
        (.installTombstone c (activeQuicGeneration w.links c.sessionId))
  | installTombstone {c : Submission} {active : Option Nat}
      {left : Option (Option Target × List Nat)} :
      Next cfg w (.installSweep c active left) (.installTombstone c active)
  | installReserve {c : Submission} {active : Option Nat} :
      Next cfg w (.installTombstone c active) (.installReserve c active)
  | installRefresh {c : Submission} {active : Option Nat} {claims : Claims} {epoch : Nat}
      {created : Bool} {p : Pending}
      (reserved : c.Reserves cfg w claims (.ok (epoch, created)))
      (filled : c.FillsEntry w epoch active p none)
      (waiting : p.complete = false) :
      Next cfg w (.installReserve c active) (.installRefresh c.bare)
  | installRefreshClaim {c : Submission} :
      Next cfg w (.installRefresh c) (.installRefreshClaim c w.claims.nextEpoch)
  | timeout {c : Submission} {epoch : Nat} :
      Next cfg w (.installRefreshClaim c epoch)
        (.timeout c.via c.key epoch (w.now + cfg.timeout))
  | activateDuplex {c : Submission} {claims : Claims} {epoch : Nat}
      (reserved : c.Reserves cfg w claims (.ok (epoch, true)))
      (halves : c.duplexPanic = none) :
      Next cfg w (.reserveDuplex c) (.activateLinks ⟨c.bare, epoch,
        c.link.quicGeneration.toList, c.permit, c.toPending epoch⟩)
  | activate {c : Submission} {active : Option Nat} {claims : Claims} {epoch : Nat}
      {created : Bool} {p : Pending}
      (reserved : c.Reserves cfg w claims (.ok (epoch, created)))
      (filled : c.FillsEntry w epoch active p none)
      (complete : p.complete = true) :
      Next cfg w (.installReserve c active)
        (.activateLinks ⟨c.bare, p.epoch, p.generations, p.flowPermit, p⟩)
  | activateClaims {a : Activation}
      (current : ∀ g ∈ a.generations, activeQuicGeneration w.links a.call.sessionId = some g) :
      Next cfg w (.activateLinks a) (.activateClaims a)
  | relay {a : Activation} {claims : Claims} {cancel : Token} {p : Paired}
      (activated : w.claims.activateClaim a.call.key a.epoch a.generations =
        some (claims, cancel))
      (paired : a.complete.toPaired a.call ⟨a.call.key, a.epoch, cancel, a.permit⟩ = .ok p) :
      Next cfg w (.activateClaims a) (.relay p .dialing)
  | panicDuplex {c : Submission} {message : String} (halves : c.duplexPanic = some message) :
      Next cfg w (.reserveDuplex c) (.panic message)
  | unwindDuplex {c : Submission} {message : String} (halves : c.duplexPanic = some message)
      (d : Nat) : Next cfg w (.reserveDuplex c) (.discard d)
  | panicInstall {c : Submission} {active : Option Nat} (role : c.header.role = .duplex)
      (message : String) : Next cfg w (.installReserve c active) (.panic message)
  | unwindInstall {c : Submission} {active : Option Nat} (role : c.header.role = .duplex)
      (d : Nat) : Next cfg w (.installReserve c active) (.discard d)
  | panicActivate {a : Activation} {claims : Claims} {cancel : Token} {message : String}
      (activated : w.claims.activateClaim a.call.key a.epoch a.generations =
        some (claims, cancel))
      (paired : a.complete.toPaired a.call ⟨a.call.key, a.epoch, cancel, a.permit⟩ =
        .error message) : Next cfg w (.activateClaims a) (.panic message)
  | unwindLease {a : Activation} {claims : Claims} {cancel : Token} {message : String}
      (activated : w.claims.activateClaim a.call.key a.epoch a.generations =
        some (claims, cancel))
      (paired : a.complete.toPaired a.call ⟨a.call.key, a.epoch, cancel, a.permit⟩ =
        .error message) :
      Next cfg w (.activateClaims a) (.leaseDrop ⟨a.call.key, a.epoch, cancel, a.permit⟩)
  | unwindActivate {a : Activation} {claims : Claims} {cancel : Token} {message : String}
      (activated : w.claims.activateClaim a.call.key a.epoch a.generations =
        some (claims, cancel))
      (paired : a.complete.toPaired a.call ⟨a.call.key, a.epoch, cancel, a.permit⟩ =
        .error message) (d : Nat) : Next cfg w (.activateClaims a) (.discard d)
  | discard {c : Submission} {active : Option Nat} {d : Downlink} (role : c.header.role = .opening)
      (downlink : c.downlink = some d) : Next cfg w (.installReserve c active) (.discard d.source)
  | rejectUdp {key : FlowKey} {code : FlowErrorCode} :
      Next cfg w (.rejectTcp key code) (.rejectUdp key code)
  | rejectClaims {key : FlowKey} {code : FlowErrorCode} :
      Next cfg w (.rejectUdp key code) (.rejectClaims key code)
  | rejectUdpEntry {key : FlowKey} {code : FlowErrorCode}
      (inactive : (w.claims.map.lookup key).any FlowClaim.active = false) :
      Next cfg w (.rejectClaims key code) (.rejectUdpEntry key code
        (((w.pending .tcp).lookup key).bind Pending.downlink))
  | rejectFinish {key : FlowKey} {code : FlowErrorCode} {tcp : Option Downlink} :
      Next cfg w (.rejectUdpEntry key code tcp) (.rejectFinish key code tcp
        (((w.pending .udp).lookup key).bind Pending.downlink))
  | rejectTombstone {key : FlowKey} {code : FlowErrorCode} :
      Next cfg w (.rejectFinish key code none none)
        (.rejectTombstone key code (w.now + cfg.timeout))
  | cancelUdpClaim {key : FlowKey} : Next cfg w (.cancelUdp key) (.cancelUdpClaim key)
  | cancelToken {key : FlowKey} (token : Token) :
      Next cfg w (.cancelUdpClaim key) (.cancelToken token)
  | drainTcp : Next cfg w .cancelAll (.drainFlows .tcp)
  | drainUdp : Next cfg w (.drainFlows .tcp) (.drainFlows .udp)
  | drainRejections : Next cfg w (.drainFlows .udp) .drainRejections
  | drainClaims : Next cfg w .drainRejections .drainClaims
  | lane {s : SessionId} : Next cfg w (.registerTcp s) (.lane ⟨s, .tlsTcp, none⟩)
  | submitLane {g : LinkGuard} {header : FlowHeader} {target : Option Target} {path : LinkPath} :
      Next cfg w (.lane g) (.submit (w.newSubmission g.sessionId header target ⟨path, none⟩
        (tlsHalves w.nextSubmission g header.kind header.role)))
  | registerQuicLinks {s : SessionId} :
      Next cfg w (.registerQuic s) (.registerQuicLinks s w.nextQuicGeneration)
  | replace {s : SessionId} {generation previous : Nat}
      (displaced : activeQuicGeneration w.links s = some previous) :
      Next cfg w (.registerQuicLinks s generation)
        (.cancelGeneration s previous false (.register generation))
  | conn {s : SessionId} {generation : Nat} (first : activeQuicGeneration w.links s = none) :
      Next cfg w (.registerQuicLinks s generation) (.conn ⟨s, .quic, some generation⟩)
  | cancelGeneration {g : LinkGuard} {generation : Nat} (own : g.quicGeneration = some generation)
      (held : Bool) : Next cfg w (.linkGuardDrop g)
        (.cancelGeneration g.sessionId generation held .guardDrop)
  | purgeTcp {s : SessionId} {generation : Nat} {held : Bool} {next : AfterCancel} :
      Next cfg w (.cancelGeneration s generation held next) (.purgeTcp s generation next)
  | purgeUdp {s : SessionId} {generation : Nat} {next : AfterCancel} :
      Next cfg w (.purgeTcp s generation next)
        (.purgeUdp s generation next (staleKeys (w.pending .tcp) s generation))
  | purgeKeys {s : SessionId} {generation : Nat} {next : AfterCancel} {stale : List FlowKey}
      (more : List FlowKey) :
      Next cfg w (.purgeUdp s generation next stale) (.purgeKeys s generation next more)
  | purgeRest {s : SessionId} {generation : Nat} {next : AfterCancel} {stale : List FlowKey}
      (key : FlowKey) :
      Next cfg w (.purgeKeys s generation next stale)
        (.purgeKeys s generation next (stale.erase key))
  | purged {s : SessionId} {generation fresh : Nat} {stale : List FlowKey} :
      Next cfg w (.purgeKeys s generation (.register fresh) stale) (.conn ⟨s, .quic, some fresh⟩)
  | relayOn {p : Paired} {stage : RelayStage} (next : RelayStage) :
      Next cfg w (.relay p stage) (.relay p next)
  | leaseDrop {p : Paired} {stage : RelayStage} : Next cfg w (.relay p stage) (.leaseDrop p.lease)

/-! ## Lists of clean-up frames -/

def Tidy (fs : List Frame) : Prop := ∀ f ∈ fs, f.cleanup = true

namespace Tidy

theorem nil : Tidy [] := by simp [Tidy]

variable {fs : List Frame} {f : Frame}

@[simp]
theorem append {gs : List Frame} : Tidy (fs ++ gs) ↔ Tidy fs ∧ Tidy gs := by
  simp [Tidy, or_imp, forall_and]

@[simp]
theorem cons : Tidy (f :: fs) ↔ f.cleanup = true ∧ Tidy fs := by
  simp [Tidy]

@[simp]
theorem dropGuard (g : Option LinkGuard) : Tidy (dropGuard g) := by
  cases g <;> simp [Tidy, Portal.dropGuard]

@[simp]
theorem rejectDownlink (d : Option Downlink) (code : FlowErrorCode) :
    Tidy (rejectDownlink d code) := by
  cases d <;> simp [Tidy, Portal.rejectDownlink]

@[simp]
theorem permitDrop (p : Option Permit) : Tidy (p.toList.map .permitDrop) := by
  cases p <;> simp [Tidy]

theorem drops (c : Submission) : Tidy c.drops := by
  simp [Submission.drops]

theorem replyReject (c : Submission) (e : PairingError) : Tidy (c.replyReject e) := by
  simp [Submission.replyReject, drops]

theorem rejectEarly (c : Submission) (e : PairingError) : Tidy (c.rejectEarly e) := by
  simp only [Submission.rejectEarly, append, replyReject, and_true]
  split <;> simp [nil]

theorem lockedDrops (c : Submission) : Tidy c.lockedDrops := by
  unfold Submission.lockedDrops
  split <;> simp [nil]

theorem lateDrops (c : Submission) : Tidy c.lateDrops := by
  simp only [Submission.lateDrops, append, dropGuard, permitDrop, and_true]
  split <;> simp [nil]

theorem rejected (c : Submission) (e : PairingError) (abortPending : Bool) :
    Tidy (c.rejected e abortPending) := by
  simp only [Submission.rejected, append, cons, lockedDrops, lateDrops, rejectDownlink, and_true,
    true_and, Frame.cleanup]
  split <;> simp [nil]

theorem missingPermit (c : Submission) (p : Pending) : Tidy (missingPermit c p) := by
  simp [Portal.missingPermit]

theorem relayEnd {p : Paired} (h : f ∈ relayEnd p) :
    f.cleanup = true ∨ f = .leaseDrop p.lease := by
  have htidy : Tidy (Portal.dropGuard p.downlink.guard ++ Portal.dropGuard p.uplink.guard) := by
    simp
  rcases List.mem_cons.mp h with rfl | h
  · exact .inr rfl
  · exact .inl (htidy f h)

end Tidy

/-- The frames of `f`'s step are clean-up or listed by `Next`. -/
def Follows (cfg : Config) (w : World) (f : Frame) (r : Effect) : Prop :=
  ∀ g ∈ r.all, g.cleanup = true ∨ Next cfg w f g

variable {cfg : Config} {w w' : World} {f g : Frame} {fs : List Frame}

theorem Follows.of_tidy (h : Tidy fs) : Follows cfg w f ⟨w', fs, []⟩ := by
  intro g hg
  simp only [Tasks.Effect.all, List.flatten_nil, List.append_nil] at hg
  exact .inl (h g hg)

/-- A single successor. -/
theorem Follows.single (h : Next cfg w f g) :
    Follows cfg w f ⟨w', [g], []⟩ := by
  intro g' hg
  simp only [Tasks.Effect.all, List.flatten_nil, List.append_nil, List.mem_singleton] at hg
  exact .inr (hg ▸ h)

/-- Clean-up, then a single successor. -/
theorem Follows.snoc (hfs : Tidy fs) (h : Next cfg w f g) :
    Follows cfg w f ⟨w', fs ++ [g], []⟩ := by
  intro g' hg
  simp only [Tasks.Effect.all, List.flatten_nil, List.append_nil, List.mem_append,
    List.mem_singleton] at hg
  rcases hg with hg | rfl
  · exact .inl (hfs g' hg)
  · exact .inr h

section Inversion

variable {cfg : Config} {w : World}

theorem submitStep_next (c : Submission) : Follows cfg w (.submit c) (submitStep w c) := by
  unfold submitStep
  split
  · exact .of_tidy (Tidy.rejectEarly _ _)
  · rename_i hvalid
    split
    · rename_i hshape
      unfold Submission.afterChecks
      split
      · exact .single (.checkTombstone hvalid hshape (.inl ‹_›))
      · exact .single (.checkTombstone hvalid hshape (.inr ⟨‹_›, ‹_›⟩))
      · exact .single (.checkTombstone hvalid hshape (.inl ‹_›))
      · rename_i h₁ h₂ h₃
        refine .single (.install hvalid hshape ?_)
        cases hrole : c.header.role with
        | attach => exact .inl rfl
        | opening =>
          cases hvia : c.via with
          | tcp => exact .inr ⟨rfl, rfl⟩
          | udp => exact absurd hrole (h₂ hvia)
        | duplex =>
          cases hvia : c.via with
          | tcp => exact absurd hrole (h₁ hvia)
          | udp => exact absurd hrole (h₃ hvia)
    · exact .of_tidy (Tidy.rejectEarly _ _)

theorem terminalRejectionStep_next (c : Submission) :
    Follows cfg w (.terminalRejection c) (terminalRejectionStep w c) := by
  unfold terminalRejectionStep
  dsimp only
  split
  · exact .of_tidy (Tidy.replyReject _ _)
  · split
    · exact .single (.reserveDuplex ‹_›)
    · exact .single (.acquireUdpPermit ‹_›)

theorem acquireUdpPermitStep_next (c : Submission) :
    Follows cfg w (.acquireUdpPermit c) (acquireUdpPermitStep w c) := by
  unfold acquireUdpPermitStep
  split
  · exact .of_tidy (Tidy.rejectEarly _ _)
  · exact .single (.tryAcquire _)

theorem tryAcquireStep_next (c : Submission) (budget : Nat) :
    Follows cfg w (.tryAcquire c budget) (tryAcquireStep w c budget) := by
  unfold tryAcquireStep
  split
  · dsimp only
    split
    · exact .single (.reserveWithPermit ‹_›)
    · exact .single (.installWithPermit ‹_›)
  · exact .of_tidy (Tidy.rejectEarly _ _)

variable {c : Submission} {f : Frame} {r : Effect} {choice : Choice}

theorem mem_unwind (h : f ∈ c.unwind) :
    f.cleanup = true ∨ ∃ d, f = .discard d := by
  rcases List.mem_append.mp h with h | h
  · obtain ⟨d, _, rfl⟩ := List.mem_map.mp h
    exact .inr ⟨_, rfl⟩
  · exact .inl (Tidy.drops c f h)

theorem reserveDuplexStep_next (c : Submission) :
    Follows cfg w (.reserveDuplex c) (reserveDuplexStep cfg w c) := by
  unfold reserveDuplexStep
  generalize hres : w.claims.reserveClaim cfg c.key c.metadata c.target c.link.quicGeneration = res
  obtain ⟨claims, reserved⟩ := res
  dsimp only
  split
  · exact .of_tidy (Tidy.replyReject _ _)
  · exact .of_tidy (Tidy.replyReject _ _)
  · split
    · rename_i message hpanic
      intro g hg
      simp only [Tasks.Effect.all, List.flatten_nil, List.append_nil, List.mem_cons] at hg
      rcases hg with rfl | hg
      · exact .inr (.panicDuplex hpanic)
      · rcases mem_unwind hg with hg | ⟨d, rfl⟩
        · exact .inl hg
        · exact .inr (.unwindDuplex hpanic d)
    · exact .single (.activateDuplex hres ‹_›)

theorem installLinksStep_next (c : Submission) :
    Follows cfg w (.installLinks c) (installLinksStep w c) := by
  unfold installLinksStep
  split
  · exact .of_tidy (Tidy.rejected _ _ _)
  · rename_i hcurrent
    have hcurrent : linkCurrent w.links c.sessionId c.link = true := by
      unfold validateCurrentLinkLocked at hcurrent
      split at hcurrent
      · assumption
      · cases hcurrent
    dsimp only
    split
    · exact .single (.installFresh hcurrent)
    · exact .snoc (by simp) (.installSweep hcurrent _)

theorem installTombstoneStep_next (c : Submission) (active : Option Nat) :
    Follows cfg w (.installTombstone c active) (installTombstoneStep w c active) := by
  unfold installTombstoneStep
  dsimp only
  split
  · exact .of_tidy (Tidy.rejected _ _ _)
  · exact .single .installReserve

/-- Why `fill` refuses a half. -/
theorem fill_misfit {p p' : Pending} {m : Pending.Misfit} (h : p.fill c = (p', some m)) :
    (m = .uplink → c.header.role = .opening ∧ p.uplink.isSome = true) ∧
      (m = .downlink → c.header.role = .attach ∧ p.downlink.isSome = true) ∧
      (m = .duplex → c.header.role = .duplex) ∧ (m = .metadata → p.metadata ≠ c.metadata) := by
  unfold Pending.fill at h
  split at h
  · cases h
    simpa using ‹_›
  · dsimp only at h
    split at h
    · split at h <;> cases h
      exact ⟨fun _ => ⟨‹_›, ‹_›⟩, by simp, by simp, by simp⟩
    · split at h <;> cases h
      exact ⟨by simp, fun _ => ⟨‹_›, ‹_›⟩, by simp, by simp⟩
    · cases h
      simpa using ‹_›

theorem installReserveStep_next (c : Submission) (active : Option Nat) :
    Follows cfg w (.installReserve c active) (installReserveStep cfg w c active) := by
  have houtcome := installReserveStep_installs cfg w c active
  generalize installReserveStep cfg w c active = r at houtcome ⊢
  cases houtcome with
  | refused _ => exact .of_tidy (Tidy.rejected _ _ _)
  | missing _ _ _ _ _ => exact .of_tidy (Tidy.missingPermit _ _)
  | activates hres hfill hcomplete => exact .single (.activate hres hfill hcomplete)
  | waits hres hfill hcomplete => exact .single (.installRefresh hres hfill hcomplete)
  | @misfit _ _ _ _ m _ hfill =>
    obtain ⟨huplink, _, hduplex, _⟩ := fill_misfit hfill
    cases m with
    | metadata => exact .of_tidy (Tidy.rejected _ _ _)
    | downlink => exact .of_tidy (Tidy.rejected _ _ _)
    | uplink =>
      intro g hg
      simp only [Tasks.Effect.all, List.flatten_nil, List.append_nil, misfitFrames,
        Submission.rejectedUplink, List.mem_append, List.mem_cons, List.mem_map,
        Option.mem_toList] at hg
      rcases hg with (hg | rfl | rfl | ⟨d, hd, rfl⟩) | hg
      · exact .inl (Tidy.lockedDrops c g hg)
      · exact .inl rfl
      · exact .inl rfl
      · exact .inr (.discard (huplink rfl).1 hd)
      · exact .inl (Tidy.lateDrops c g hg)
    | duplex =>
      intro g hg
      simp only [Tasks.Effect.all, List.flatten_nil, List.append_nil, misfitFrames, List.mem_cons]
        at hg
      rcases hg with rfl | hg
      · exact .inr (.panicInstall (hduplex rfl) _)
      · rcases mem_unwind hg with hg | ⟨d, rfl⟩
        · exact .inl hg
        · exact .inr (.unwindInstall (hduplex rfl) d)

theorem installRefreshClaimStep_next (c : Submission) (epoch : Nat) :
    Follows cfg w (.installRefreshClaim c epoch) (installRefreshClaimStep cfg w c epoch) := by
  unfold installRefreshClaimStep
  dsimp only
  split
  · intro g hg
    simp only [Tasks.Effect.all, List.nil_append, List.flatten_cons, List.flatten_nil,
      List.append_nil, List.mem_singleton] at hg
    exact .inr (hg ▸ .timeout)
  · exact .of_tidy (by simp)

theorem activationFailed_next (f : Frame) (a : Activation) (e : PairingError) :
    Follows cfg w f (activationFailed w a e) :=
  .of_tidy (by simp)

theorem activateLinksStep_next (a : Activation) :
    Follows cfg w (.activateLinks a) (activateLinksStep w a) := by
  unfold activateLinksStep
  split
  · exact activationFailed_next _ a _
  · rename_i hstale
    refine .single (.activateClaims ?_)
    intro g hg
    simp only [List.any_eq_true, bne_iff_ne, not_exists, not_and, not_not] at hstale
    exact (hstale g hg).symm

theorem activateClaimsStep_next (a : Activation) :
    Follows cfg w (.activateClaims a) (activateClaimsStep w a) := by
  unfold activateClaimsStep
  split
  · exact activationFailed_next _ a _
  · rename_i claims cancel hact
    dsimp only
    split
    · rename_i p hpair
      intro g hg
      simp only [Tasks.Effect.all, List.nil_append, List.flatten_cons, List.flatten_nil,
        List.append_nil, List.mem_singleton] at hg
      exact .inr (hg ▸ .relay hact hpair)
    · rename_i message hpair
      intro g hg
      simp only [Tasks.Effect.all, List.flatten_nil, List.append_nil, List.mem_append,
        List.mem_cons, List.mem_map] at hg
      rcases hg with (((rfl | rfl | ⟨d, _, rfl⟩) | hg) | hg)
      · exact .inr (.panicActivate hact hpair)
      · exact .inr (.unwindLease hact hpair)
      · exact .inr (.unwindActivate hact hpair _)
      · exact .inl (Tidy.dropGuard _ g hg)
      · exact .inl (Tidy.dropGuard _ g hg)

theorem rejectClaimsStep_next (key : FlowKey) (code : FlowErrorCode) :
    Follows cfg w (.rejectClaims key code) (rejectClaimsStep w key code) := by
  unfold rejectClaimsStep
  split
  · exact .of_tidy Tidy.nil
  · rename_i hinactive
    exact .snoc (by simp) (.rejectUdpEntry (by simpa using hinactive))

theorem rejectFinishStep_next (key : FlowKey) (code : FlowErrorCode) (tcp udp : Option Downlink) :
    Follows cfg w (.rejectFinish key code tcp udp) (rejectFinishStep cfg w key code tcp udp) := by
  unfold rejectFinishStep
  split
  · rename_i hnone
    obtain ⟨rfl, rfl⟩ := hnone
    exact .single .rejectTombstone
  · exact .of_tidy (by simp)

theorem timeoutStep_next {kind : FlowKind} {key : FlowKey} {epoch deadline : Nat}
    (h : timeoutStep w kind key epoch deadline = some r) :
    Follows cfg w (.timeout kind key epoch deadline) r := by
  cases timeoutStep_timesOut h with
  | idle => exact .of_tidy Tidy.nil
  | uplink _ _ => exact .of_tidy (by simp [Tidy.nil])
  | other _ => exact .of_tidy (by cases kind <;> simp [timeoutFrames])

theorem cancelUdpStep_next (key : FlowKey) :
    Follows cfg w (.cancelUdp key) (cancelUdpStep w key) := by
  intro g hg
  simp only [cancelUdpStep, Tasks.Effect.all, List.flatten_nil, List.append_nil, List.mem_append,
    List.mem_cons, List.not_mem_nil, or_false] at hg
  rcases hg with (hg | hg) | rfl | rfl
  · exact .inl (Tidy.dropGuard _ g hg)
  · exact .inl (Tidy.dropGuard _ g hg)
  · exact .inl rfl
  · exact .inr .cancelUdpClaim

theorem cancelUdpClaimStep_next (key : FlowKey) :
    Follows cfg w (.cancelUdpClaim key) (cancelUdpClaimStep w key) := by
  unfold cancelUdpClaimStep
  split
  · exact .of_tidy Tidy.nil
  · split
    · exact .single (.cancelToken _)
    · exact .of_tidy (by simp [Tidy.nil])

theorem drainFlowsStep_next (kind : FlowKind) :
    Follows cfg w (.drainFlows kind) (drainFlowsStep w kind) := by
  intro g hg
  simp only [drainFlowsStep, Tasks.Effect.all, List.flatten_nil, List.append_nil, List.mem_append,
    List.mem_cons, List.mem_flatMap, List.not_mem_nil, or_false] at hg
  rcases hg with ⟨p, _, hg | hg⟩ | rfl | rfl
  · exact .inl (Tidy.dropGuard _ g hg)
  · exact .inl (Tidy.dropGuard _ g hg)
  · exact .inl rfl
  · cases kind with
    | tcp => exact .inr .drainUdp
    | udp => exact .inr .drainRejections

/-- The generation `register_quic_link` displaces is the active one. -/
theorem registerQuicLink_previous (cfg : Config) (w : World) (s : SessionId) (generation : Nat) :
    (registerQuicLink cfg w s generation).2 = activeQuicGeneration w.links s := by
  cases hlookup : w.links.lookup s <;>
    simp [registerQuicLink, countsOrNew, activeQuicGeneration, hlookup]

theorem registerQuicLinksStep_next (s : SessionId) (generation : Nat) :
    Follows cfg w (.registerQuicLinks s generation)
      (registerQuicLinksStep cfg w s generation) := by
  have hprevious := registerQuicLink_previous cfg w s generation
  unfold registerQuicLinksStep
  generalize registerQuicLink cfg w s generation = res at hprevious
  obtain ⟨w', previous⟩ := res
  cases previous with
  | some previous => exact .single (.replace hprevious.symm)
  | none => exact .single (.conn hprevious.symm)

/-- `LinkGuard::drop` cancels no other generation than its own. -/
theorem dropLink_exit (g : LinkGuard) :
    (dropLink w g).2 = g.quicGeneration.elim .done .cancelLocked ∨
      (dropLink w g).2 = g.quicGeneration.elim .done .cancel := by
  unfold dropLink
  dsimp only
  split
  · exact .inl rfl
  · split
    · exact .inr rfl
    · exact .inr rfl

theorem linkGuardDropStep_next (g : LinkGuard) :
    Follows cfg w (.linkGuardDrop g) (linkGuardDropStep w g) := by
  unfold linkGuardDropStep
  have hexit := dropLink_exit (w := w) g
  cases hgen : g.quicGeneration with
  | none =>
    simp only [hgen, Option.elim_none, or_self] at hexit
    simp only [hexit]
    exact .of_tidy Tidy.nil
  | some generation =>
    simp only [hgen, Option.elim_some] at hexit
    rcases hexit with hexit | hexit
    · simp only [hexit]
      exact .single (.cancelGeneration hgen true)
    · simp only [hexit]
      exact .single (.cancelGeneration hgen false)

theorem cancelGenerationStep_next (runtime : Bool) (s : SessionId) (generation : Nat)
    (held : Bool) (next : AfterCancel) :
    Follows cfg w (.cancelGeneration s generation held next)
      (cancelGenerationStep w runtime s generation next) := by
  unfold cancelGenerationStep
  cases next with
  | register fresh => exact .single .purgeTcp
  | guardDrop =>
    intro g hg
    cases runtime with
    | false => simp [Tasks.Effect.all] at hg
    | true =>
      simp only [Tasks.Effect.all, List.nil_append, if_true, List.flatten_cons, List.flatten_nil,
        List.append_nil, List.mem_singleton] at hg
      exact .inr (hg ▸ .purgeTcp)

theorem purgeKeysStep_next (pick : Nat) (s : SessionId) (generation : Nat) (next : AfterCancel)
    (stale : List FlowKey) :
    Follows cfg w (.purgeKeys s generation next stale)
      (purgeKeysStep w pick s generation next stale) := by
  unfold purgeKeysStep
  split
  · rename_i key _
    have htidy : Tidy [.rejectTcp key .sessionReplaced] := by simp [Tidy.nil]
    exact .snoc htidy (.purgeRest key)
  · cases next with
    | guardDrop => exact .of_tidy Tidy.nil
    | register fresh => exact .single .purged

theorem laneStep_next {g : LinkGuard} (h : laneStep w choice g = some r) :
    Follows cfg w (.lane g) r := by
  unfold laneStep at h
  split at h <;> cases h
  · exact .single .submitLane
  · exact .of_tidy (by simp [Tidy.nil])
  · exact .of_tidy (by simp [Tidy.nil])

theorem relayEnd_follows {w' : World} (p : Paired) (stage : RelayStage) :
    Follows cfg w (.relay p stage) ⟨w', relayEnd p, []⟩ := by
  intro g hg
  simp only [Tasks.Effect.all, List.flatten_nil, List.append_nil] at hg
  rcases Tidy.relayEnd hg with hg | rfl
  · exact .inl hg
  · exact .inr .leaseDrop

theorem relayStep_next {p : Paired} {stage : RelayStage} (h : relayStep w choice p stage = some r) :
    Follows cfg w (.relay p stage) r := by
  cases relayStep_outcome h with
  | closed _ | rejected _ _ => exact relayEnd_follows p _
  | moves _ _ | ready => exact .single (.relayOn _)

/-- **Inversion of a step.** Every frame a step creates is clean-up or listed by `Next`. -/
theorem exec_next (h : exec cfg choice w f = some r) : Follows cfg w f r := by
  cases f with
  | submit c =>
    cases h
    exact submitStep_next c
  | terminalRejection c =>
    cases h
    exact terminalRejectionStep_next c
  | acquireUdpPermit c =>
    cases h
    exact acquireUdpPermitStep_next c
  | tryAcquire c budget =>
    cases h
    exact tryAcquireStep_next c budget
  | reserveDuplex c =>
    cases h
    exact reserveDuplexStep_next c
  | installPending c =>
    cases h
    exact .single .installLinks
  | installLinks c =>
    cases h
    exact installLinksStep_next c
  | installSweep c active left =>
    cases h
    exact .single .installTombstone
  | installTombstone c active =>
    cases h
    exact installTombstoneStep_next c active
  | installReserve c active =>
    cases h
    exact installReserveStep_next c active
  | installRefresh c =>
    cases h
    exact .single .installRefreshClaim
  | installRefreshClaim c epoch =>
    cases h
    exact installRefreshClaimStep_next c epoch
  | activateLinks a =>
    cases h
    exact activateLinksStep_next a
  | activateClaims a =>
    cases h
    exact activateClaimsStep_next a
  | abandonClaim | writeReject | returnErr | discard | permitDrop | leaseDrop | hold | panic
  | cancelToken | drainClaims =>
    cases h
    exact .of_tidy Tidy.nil
  | rejectTcp key code =>
    cases h
    exact .single .rejectUdp
  | rejectUdp key code =>
    cases h
    exact .single .rejectClaims
  | rejectClaims key code =>
    cases h
    exact rejectClaimsStep_next key code
  | rejectUdpEntry key code tcp =>
    cases h
    exact .snoc (by simp) .rejectFinish
  | rejectFinish key code tcp udp =>
    cases h
    exact rejectFinishStep_next key code tcp udp
  | rejectTombstone key code expiresAt =>
    simp only [exec] at h
    split at h <;> cases h
    exact .of_tidy Tidy.nil
  | timeout kind key epoch deadline => exact timeoutStep_next h
  | cancelUdp key =>
    cases h
    exact cancelUdpStep_next key
  | cancelUdpClaim key =>
    cases h
    exact cancelUdpClaimStep_next key
  | cancelAll =>
    cases h
    exact .single .drainTcp
  | drainFlows kind =>
    cases h
    exact drainFlowsStep_next kind
  | drainRejections =>
    cases h
    exact .single .drainClaims
  | registerTcp s =>
    cases h
    exact .single .lane
  | lane g => exact laneStep_next h
  | registerQuic s =>
    cases h
    exact .single .registerQuicLinks
  | registerQuicLinks s generation =>
    cases h
    exact registerQuicLinksStep_next s generation
  | conn g =>
    simp only [exec] at h
    split at h <;> cases h
    exact .of_tidy (by simp [Tidy.nil])
  | linkGuardDrop g =>
    cases h
    exact linkGuardDropStep_next g
  | cancelGeneration s generation held next =>
    simp only [exec] at h
    split at h <;> cases h
    exact cancelGenerationStep_next _ s generation held next
  | purgeTcp s generation next =>
    cases h
    exact .single .purgeUdp
  | purgeUdp s generation next stale =>
    cases h
    exact .single (.purgeKeys _)
  | purgeKeys s generation next stale =>
    simp only [exec] at h
    split at h <;> cases h
    exact purgeKeysStep_next _ s generation next stale
  | relay p stage => exact relayStep_next h

end Inversion

end Nowhere.Portal
