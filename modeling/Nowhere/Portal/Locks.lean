import Nowhere.Portal.Guards

/-!
# Locks and stacks

What the frames that a step leaves behind hold. At most one of them keeps locks, and only locks
that the step took or that its task had; whatever runs above it are destructors, for which
`LockedDrop` gives the reason (`exec_shape`). Mutual exclusion of the registry's mutexes follows
(`exclusive`), and so do the two properties of stacks proved in `Nowhere.Portal.SelfLock` and
`Nowhere.Portal.LockOrder`.
-/

namespace Nowhere.Portal

open Protocol Assoc

/-! ## Frames that hold no lock -/

def Unlocked (fs : List Frame) : Prop := ∀ g ∈ fs, g.holds = []

namespace Unlocked

attribute [local simp] Frame.holds

theorem nil : Unlocked [] := by simp [Unlocked]

@[simp]
theorem append {fs gs : List Frame} : Unlocked (fs ++ gs) ↔ Unlocked fs ∧ Unlocked gs := by
  simp [Unlocked, or_imp, forall_and]

@[simp]
theorem cons {f : Frame} {fs : List Frame} : Unlocked (f :: fs) ↔ f.holds = [] ∧ Unlocked fs := by
  simp [Unlocked]

@[simp]
theorem dropGuard (g : Option LinkGuard) : Unlocked (dropGuard g) := by
  cases g <;> simp [Unlocked, Portal.dropGuard]

@[simp]
theorem rejectDownlink (d : Option Downlink) (code : FlowErrorCode) :
    Unlocked (rejectDownlink d code) := by
  cases d <;> simp [Unlocked, Portal.rejectDownlink]

@[simp]
theorem discard (d : Option Downlink) : Unlocked (d.toList.map fun d => .discard d.source) := by
  cases d <;> simp [Unlocked]

@[simp]
theorem permitDrop (p : Option Permit) : Unlocked (p.toList.map .permitDrop) := by
  cases p <;> simp [Unlocked]

theorem drops (c : Submission) : Unlocked c.drops := by
  simp [Submission.drops]

theorem unwind (c : Submission) : Unlocked c.unwind := by
  simp [Submission.unwind, drops]

theorem replyReject (c : Submission) (e : PairingError) : Unlocked (c.replyReject e) := by
  simp [Submission.replyReject, drops]

theorem rejectEarly (c : Submission) (e : PairingError) : Unlocked (c.rejectEarly e) := by
  simp only [Submission.rejectEarly, append, replyReject, and_true]
  split <;> simp [nil]

theorem lateDrops (c : Submission) : Unlocked c.lateDrops := by
  simp only [Submission.lateDrops, append, dropGuard, permitDrop, and_true]
  split <;> simp [nil]

end Unlocked

/-! ## Destructors under locks -/

/-- The step of a frame runs `above` before it releases `locks`. -/
inductive LockedDrop (cfg : Config) (w : World) : Frame → List Frame → List Lock → Prop
  | notCurrent {c : Submission} (via : c.via = .udp)
      (current : linkCurrent w.links c.sessionId c.link = false) :
      LockedDrop cfg w (.installLinks c) (dropGuard (c.uplink.bind Uplink.guard))
        [pendingLock c.via, .links]
  | stale {c : Submission} {p : Pending} (found : (w.pending c.via).lookup c.key = some p) :
      LockedDrop cfg w (.installLinks c)
        (dropGuard ((if p.uplinkStale (activeQuicGeneration w.links c.sessionId) = true then
            p.uplink else none).bind Uplink.guard) ++
          dropGuard ((if p.downlinkStale (activeQuicGeneration w.links c.sessionId) = true then
            p.downlink else none).bind Downlink.guard))
        [pendingLock c.via, .links]
  | tombstone {c : Submission} {active : Option Nat} {t : TerminalRejection} (via : c.via = .udp)
      (found : w.rejections.lookup c.key = some t) (live : w.now < t.expiresAt) :
      LockedDrop cfg w (.installTombstone c active) (dropGuard (c.uplink.bind Uplink.guard))
        [pendingLock c.via, .links]
  | refused {c : Submission} {active : Option Nat} {claims : Claims} {e : PairingError}
      (via : c.via = .udp)
      (reserved : c.Reserves cfg w claims (.error e)) :
      LockedDrop cfg w (.installReserve c active) (dropGuard (c.uplink.bind Uplink.guard))
        [pendingLock c.via, .links]
  | misfit {c : Submission} {active : Option Nat} {claims : Claims} {epoch : Nat} {created : Bool}
      {p : Pending} {m : Pending.Misfit} (via : c.via = .udp)
      (reserved : c.Reserves cfg w claims (.ok (epoch, created)))
      (filled : c.FillsEntry w epoch active p (some m)) :
      LockedDrop cfg w (.installReserve c active) (dropGuard (c.uplink.bind Uplink.guard))
        [pendingLock c.via, .links]
  | missingPermit {c : Submission} {active : Option Nat} {epoch : Nat} {p : Pending}
      (via : c.via = .udp)
      (filled : c.FillsEntry w epoch active p none)
      (complete : p.complete = true) (permit : p.flowPermit = none) :
      LockedDrop cfg w (.installReserve c active)
        (.abandonClaim c.key p.epoch :: dropGuard (p.uplink.bind Uplink.guard))
        [pendingLock c.via, .links]
  | refresh {c : Submission} {epoch : Nat} (missing : w.claims.map.lookup c.key = none) :
      LockedDrop cfg w (.installRefreshClaim c epoch)
        (dropGuard ((((w.pending c.via).lookup c.key).bind Pending.uplink).bind Uplink.guard))
        [pendingLock c.via, .links]
  | rejectTcp {key : FlowKey} {code : FlowErrorCode}
      (inactive : (w.claims.map.lookup key).any FlowClaim.active = false) :
      LockedDrop cfg w (.rejectClaims key code)
        (dropGuard ((((w.pending .tcp).lookup key).bind Pending.uplink).bind Uplink.guard))
        [.tcp, .udp, .claims]
  | rejectUdp {key : FlowKey} {code : FlowErrorCode} {tcp : Option Downlink} :
      LockedDrop cfg w (.rejectUdpEntry key code tcp)
        (dropGuard ((((w.pending .udp).lookup key).bind Pending.uplink).bind Uplink.guard))
        [.tcp, .udp, .claims]
  | cancelUdp {key : FlowKey} :
      LockedDrop cfg w (.cancelUdp key)
        (dropGuard ((((w.pending .udp).lookup key).bind Pending.uplink).bind Uplink.guard) ++
          dropGuard ((((w.pending .udp).lookup key).bind Pending.downlink).bind Downlink.guard))
        [.udp]
  | drain {kind : FlowKind} :
      LockedDrop cfg w (.drainFlows kind)
        (((w.pending kind).entries.map Sigma.snd).flatMap fun p =>
          dropGuard (p.uplink.bind Uplink.guard) ++ dropGuard (p.downlink.bind Downlink.guard))
        [pendingLock kind]

/-- The frames `fs` that replace `f`: at most one keeps locks, which `f` held or took, with
destructors above it. -/
inductive Shape (cfg : Config) (w : World) (f : Frame) : List Frame → Prop
  | free {fs : List Frame} (unlocked : Unlocked fs) : Shape cfg w f fs
  | keep {above below : List Frame} {g : Frame} (above_unlocked : Unlocked above)
      (below_unlocked : Unlocked below)
      (nodup : g.holds.Nodup) (kept : ∀ l ∈ g.holds, l ∈ f.holds ∨ f.wants = some l)
      (cause : above = [] ∨ LockedDrop cfg w f above g.holds) :
      Shape cfg w f (above ++ g :: below)

namespace Shape

attribute [local simp] Frame.holds Frame.wants

variable {cfg : Config} {w : World} {f : Frame}

/-- One frame that keeps locks. -/
theorem single {g : Frame} (nodup : g.holds.Nodup)
    (kept : ∀ l ∈ g.holds, l ∈ f.holds ∨ f.wants = some l) : Shape cfg w f [g] :=
  .keep Unlocked.nil Unlocked.nil nodup kept (.inl rfl)

theorem lock_nodup (c : Submission) : [pendingLock c.via, Lock.links].Nodup := by
  cases c.via <;> decide

/-- Leaving the install block: the half of a UDP call is dropped before the locks. -/
theorem lockedDrops {c : Submission} {tail : List Frame} (htail : Unlocked tail)
    (kept : ∀ l ∈ [pendingLock c.via, Lock.links], l ∈ f.holds ∨ f.wants = some l)
    (cause : c.via = .udp → LockedDrop cfg w f (dropGuard (c.uplink.bind Uplink.guard))
      [pendingLock c.via, .links]) : Shape cfg w f (c.lockedDrops ++ tail) := by
  unfold Submission.lockedDrops
  split
  · exact .free (by simpa using htail)
  · rename_i hvia
    rw [List.append_assoc, List.singleton_append]
    exact .keep (Unlocked.dropGuard _) htail (by simpa using lock_nodup c) kept
      (.inr (cause hvia))

theorem rejected {c : Submission} (e : PairingError) (abortPending : Bool)
    (kept : ∀ l ∈ [pendingLock c.via, Lock.links], l ∈ f.holds ∨ f.wants = some l)
    (cause : c.via = .udp → LockedDrop cfg w f (dropGuard (c.uplink.bind Uplink.guard))
      [pendingLock c.via, .links]) : Shape cfg w f (c.rejected e abortPending) := by
  unfold Submission.rejected
  rw [List.append_assoc, List.append_assoc]
  refine lockedDrops ?_ kept cause
  have habort : Unlocked (if abortPending then [.rejectTcp c.key e.code] else []) := by
    split <;> simp [Unlocked.nil]
  simp [habort, Unlocked.lateDrops]

theorem rejectedUplink {c : Submission} (e : PairingError)
    (kept : ∀ l ∈ [pendingLock c.via, Lock.links], l ∈ f.holds ∨ f.wants = some l)
    (cause : c.via = .udp → LockedDrop cfg w f (dropGuard (c.uplink.bind Uplink.guard))
      [pendingLock c.via, .links]) : Shape cfg w f (c.rejectedUplink e) := by
  unfold Submission.rejectedUplink
  rw [List.append_assoc]
  refine lockedDrops ?_ kept cause
  simp [Unlocked.lateDrops]

theorem submitStep (c : Submission) : Shape cfg w (.submit c) (submitStep w c).frames := by
  refine .free ?_
  unfold Portal.submitStep
  dsimp only
  split
  · exact Unlocked.rejectEarly _ _
  · split
    · unfold Submission.afterChecks
      split <;> simp [Unlocked.nil]
    · exact Unlocked.rejectEarly _ _

theorem terminalRejectionStep (c : Submission) :
    Shape cfg w (.terminalRejection c) (terminalRejectionStep w c).frames := by
  refine .free ?_
  unfold Portal.terminalRejectionStep
  dsimp only
  split
  · exact Unlocked.replyReject _ _
  · split <;> simp [Unlocked.nil]

theorem acquireUdpPermitStep (c : Submission) :
    Shape cfg w (.acquireUdpPermit c) (acquireUdpPermitStep w c).frames := by
  refine .free ?_
  unfold Portal.acquireUdpPermitStep
  dsimp only
  split
  · exact Unlocked.rejectEarly _ _
  · simp [Unlocked.nil]

theorem tryAcquireStep (c : Submission) (budget : Nat) :
    Shape cfg w (.tryAcquire c budget) (tryAcquireStep w c budget).frames := by
  refine .free ?_
  unfold Portal.tryAcquireStep
  split
  · dsimp only
    split <;> simp [Unlocked.nil]
  · exact Unlocked.rejectEarly _ _

theorem reserveDuplexStep (c : Submission) :
    Shape cfg w (.reserveDuplex c) (reserveDuplexStep cfg w c).frames := by
  refine .free ?_
  unfold Portal.reserveDuplexStep
  dsimp only
  split
  · exact Unlocked.replyReject _ _
  · exact Unlocked.replyReject _ _
  · split
    · simp [Unlocked.unwind]
    · simp [Unlocked.nil]

theorem installLinksStep (c : Submission) :
    Shape cfg w (.installLinks c) (installLinksStep w c).frames := by
  have hkept : ∀ l ∈ [pendingLock c.via, Lock.links],
      l ∈ (Frame.installLinks c).holds ∨ (Frame.installLinks c).wants = some l := by
    simp
  unfold Portal.installLinksStep
  split
  · rename_i hcurrent
    have hcurrent : linkCurrent w.links c.sessionId c.link = false := by
      unfold validateCurrentLinkLocked at hcurrent
      split at hcurrent
      · cases hcurrent
      · rename_i hstale
        exact Bool.eq_false_iff.mpr hstale
    exact rejected _ _ hkept fun hvia => .notCurrent hvia hcurrent
  · dsimp only
    split
    · exact .single (lock_nodup c) hkept
    · exact .keep (by simp) Unlocked.nil (lock_nodup c) hkept (.inr (.stale ‹_›))

theorem installTombstoneStep (c : Submission) (active : Option Nat) :
    Shape cfg w (.installTombstone c active) (installTombstoneStep w c active).frames := by
  have hkept : ∀ l ∈ [pendingLock c.via, Lock.links],
      l ∈ (Frame.installTombstone c active).holds ∨
        (Frame.installTombstone c active).wants = some l := by
    simp
  unfold Portal.installTombstoneStep
  dsimp only
  split
  · rename_i code hcode
    refine rejected _ _ hkept fun hvia => ?_
    simp only [terminalRejection, lookup_retain, Option.map_eq_some_iff,
      Option.filter_eq_some_iff, decide_eq_true_eq] at hcode
    obtain ⟨t, ⟨hfound, hlive⟩, _⟩ := hcode
    exact .tombstone hvia hfound hlive
  · exact .single (lock_nodup c) hkept

theorem installReserveStep (c : Submission) (active : Option Nat) :
    Shape cfg w (.installReserve c active) (installReserveStep cfg w c active).frames := by
  have hkept : ∀ l ∈ [pendingLock c.via, Lock.links],
      l ∈ (Frame.installReserve c active).holds ∨
        (Frame.installReserve c active).wants = some l := by
    simp
  have houtcome := installReserveStep_installs cfg w c active
  generalize Portal.installReserveStep cfg w c active = r at houtcome ⊢
  cases houtcome with
  | refused hres => exact rejected _ _ hkept fun hvia => .refused hvia hres
  | missing _ hfill hcomplete hvia hpermit =>
    unfold missingPermit
    rw [List.append_assoc, List.cons_append (a := Frame.hold _)]
    exact .keep (by simp) (by simp)
      (by simpa using lock_nodup c) hkept
      (.inr (.missingPermit hvia hfill hcomplete hpermit))
  | activates _ _ _ => exact .free (by simp [Unlocked.nil])
  | waits _ _ _ => exact .single (lock_nodup c) hkept
  | @misfit _ _ _ _ m hres hfill =>
    have hcause (hvia : c.via = .udp) : LockedDrop cfg w (.installReserve c active)
        (dropGuard (c.uplink.bind Uplink.guard)) [pendingLock c.via, .links] :=
      .misfit hvia hres hfill
    cases m with
    | metadata => exact rejected _ _ hkept hcause
    | downlink => exact rejected _ _ hkept hcause
    | uplink => exact rejectedUplink _ hkept hcause
    | duplex => exact .free (by simp [misfitFrames, Unlocked.unwind])

theorem installRefreshClaimStep (c : Submission) (epoch : Nat) :
    Shape cfg w (.installRefreshClaim c epoch) (installRefreshClaimStep cfg w c epoch).frames := by
  unfold Portal.installRefreshClaimStep
  dsimp only
  split
  · exact .free Unlocked.nil
  · rename_i hrefresh
    have hmissing : w.claims.map.lookup c.key = none := by
      simpa [Claims.refreshClaim] using hrefresh
    dsimp only
    rw [List.append_assoc, List.cons_append]
    exact .keep (Unlocked.dropGuard _) (by simp)
      (by simpa using lock_nodup c) (by simp)
      (.inr (.refresh hmissing))

theorem activateLinksStep (a : Activation) :
    Shape cfg w (.activateLinks a) (activateLinksStep w a).frames := by
  unfold Portal.activateLinksStep
  split
  · exact .free (by simp [activationFailed])
  · exact .single (by simp) (by simp)

theorem activateClaimsStep (a : Activation) :
    Shape cfg w (.activateClaims a) (activateClaimsStep w a).frames := by
  refine .free ?_
  unfold Portal.activateClaimsStep
  split
  · simp [activationFailed]
  · dsimp only
    split
    · exact Unlocked.nil
    · simp

theorem rejectClaimsStep (key : FlowKey) (code : FlowErrorCode) :
    Shape cfg w (.rejectClaims key code) (rejectClaimsStep w key code).frames := by
  unfold Portal.rejectClaimsStep
  split
  · exact .free Unlocked.nil
  · rename_i hinactive
    exact .keep (Unlocked.dropGuard _) Unlocked.nil (by simp)
      (by simp) (.inr (.rejectTcp (by simpa using hinactive)))

theorem rejectFinishStep (key : FlowKey) (code : FlowErrorCode) (tcp udp : Option Downlink) :
    Shape cfg w (.rejectFinish key code tcp udp)
      (rejectFinishStep cfg w key code tcp udp).frames := by
  unfold Portal.rejectFinishStep
  dsimp only
  split
  · exact .single (by simp) (by simp)
  · exact .free (by simp)

theorem timeoutStep {kind : FlowKind} {key : FlowKey} {epoch deadline : Nat} {r : Effect}
    (h : timeoutStep w kind key epoch deadline = some r) :
    Shape cfg w (.timeout kind key epoch deadline) r.frames := by
  refine .free ?_
  cases timeoutStep_timesOut h with
  | idle => exact Unlocked.nil
  | uplink _ _ => simp [Unlocked.nil]
  | other _ => cases kind <;> simp [timeoutFrames]

theorem drainFlowsStep (kind : FlowKind) :
    Shape cfg w (.drainFlows kind) (drainFlowsStep w kind).frames := by
  have habove : Unlocked (((w.pending kind).entries.map Sigma.snd).flatMap fun p =>
      dropGuard (p.uplink.bind Uplink.guard) ++ dropGuard (p.downlink.bind Downlink.guard)) := by
    intro g hg
    obtain ⟨p, _, hg⟩ := List.mem_flatMap.mp hg
    have hboth : Unlocked (dropGuard (p.uplink.bind Uplink.guard) ++
        dropGuard (p.downlink.bind Downlink.guard)) := by simp
    exact hboth g hg
  refine .keep habove ?_ (by simp) (by simp)
    (.inr .drain)
  cases kind <;> simp [Unlocked.nil]

theorem linkGuardDropStep (g : LinkGuard) :
    Shape cfg w (.linkGuardDrop g) (linkGuardDropStep w g).frames := by
  unfold Portal.linkGuardDropStep
  dsimp only
  split
  · exact .free Unlocked.nil
  · exact .single (by simp) (by simp)
  · exact .single (by simp) (by simp)

theorem relayStep {choice : Choice} {p : Paired} {stage : RelayStage} {r : Effect}
    (h : relayStep w choice p stage = some r) : Shape cfg w (.relay p stage) r.frames := by
  refine .free ?_
  cases relayStep_outcome h with
  | closed _ | rejected _ _ => simp [relayReject, relayEnd]
  | moves _ _ | ready => simp [Unlocked.nil]

end Shape

section Exec

attribute [local simp] Frame.holds Frame.wants

variable {cfg : Config} {choice : Choice} {w : World} {f : Frame} {r : Effect}

/-- **The frames a step leaves behind.** -/
theorem exec_shape (h : exec cfg choice w f = some r) : Shape cfg w f r.frames := by
  cases f with
  | submit c =>
    cases h
    exact .submitStep c
  | terminalRejection c =>
    cases h
    exact .terminalRejectionStep c
  | acquireUdpPermit c =>
    cases h
    exact .acquireUdpPermitStep c
  | tryAcquire c budget =>
    cases h
    exact .tryAcquireStep c budget
  | reserveDuplex c =>
    cases h
    exact .reserveDuplexStep c
  | installPending c =>
    cases h
    exact .single (by simp) (by simp)
  | installLinks c =>
    cases h
    exact .installLinksStep c
  | installSweep c active left =>
    cases h
    exact .single (Shape.lock_nodup c) (by simp)
  | installTombstone c active =>
    cases h
    exact .installTombstoneStep c active
  | installReserve c active =>
    cases h
    exact .installReserveStep c active
  | installRefresh c =>
    cases h
    exact .single (Shape.lock_nodup c) (by simp)
  | installRefreshClaim c epoch =>
    cases h
    exact .installRefreshClaimStep c epoch
  | activateLinks a =>
    cases h
    exact .activateLinksStep a
  | activateClaims a =>
    cases h
    exact .activateClaimsStep a
  | rejectTcp key code =>
    cases h
    exact .single (by simp) (by simp)
  | rejectUdp key code =>
    cases h
    exact .single (by simp) (by simp)
  | rejectClaims key code =>
    cases h
    exact .rejectClaimsStep key code
  | rejectUdpEntry key code tcp =>
    cases h
    exact .keep (Unlocked.dropGuard _) Unlocked.nil (by simp)
      (by simp) (.inr .rejectUdp)
  | rejectFinish key code tcp udp =>
    cases h
    exact .rejectFinishStep key code tcp udp
  | rejectTombstone key code expiresAt =>
    simp only [exec] at h
    split at h <;> cases h
    exact .free Unlocked.nil
  | timeout kind key epoch deadline => exact .timeoutStep h
  | cancelUdp key =>
    cases h
    exact .keep (by simp) (by simp [Unlocked.nil]) (by simp)
      (by simp) (.inr .cancelUdp)
  | cancelUdpClaim key =>
    cases h
    refine .free ?_
    unfold cancelUdpClaimStep
    dsimp only
    split
    · exact Unlocked.nil
    · split <;> simp [Unlocked.nil]
  | drainFlows kind =>
    cases h
    exact .drainFlowsStep kind
  | lane g =>
    simp only [exec, laneStep] at h
    split at h <;> cases h <;>
      exact .free (by simp [startSubmission, Unlocked.nil])
  | registerQuicLinks s generation =>
    cases h
    unfold registerQuicLinksStep
    dsimp only
    split <;> exact .free (by simp [Unlocked.nil])
  | conn g =>
    simp only [exec] at h
    split at h <;> cases h
    exact .free (by simp [Unlocked.nil])
  | linkGuardDrop g =>
    cases h
    exact .linkGuardDropStep g
  | cancelGeneration s generation held next =>
    simp only [exec] at h
    split at h <;> cases h
    unfold cancelGenerationStep
    cases next <;> exact .free (by simp [Unlocked.nil])
  | purgeKeys s generation next stale =>
    simp only [exec] at h
    split at h <;> cases h
    unfold purgeKeysStep
    split
    · exact .free (by simp [Unlocked.nil])
    · cases next <;> exact .free (by simp [Unlocked.nil])
  | relay p stage => exact .relayStep h
  | abandonClaim | writeReject | returnErr | discard | permitDrop | leaseDrop | hold | panic
  | cancelToken | drainClaims =>
    cases h
    exact .free Unlocked.nil
  | cancelAll | drainRejections | registerTcp | registerQuic | purgeTcp | purgeUdp =>
    cases h
    exact .free (Unlocked.cons.mpr ⟨rfl, Unlocked.nil⟩)

/-- Only three kinds of steps spawn a task: the timeout of an installed flow, the relay of a
pair, and the purge of a generation. -/
theorem exec_spawned (h : exec cfg choice w f = some r) {t : List Frame} (ht : t ∈ r.spawned) :
    (∃ kind key epoch deadline, t = [.timeout kind key epoch deadline]) ∨
      (∃ p, t = [.relay p .dialing]) ∨ ∃ s generation, t = [.purgeTcp s generation .guardDrop] := by
  cases f with
  | installLinks c =>
    cases h
    simp only [installLinksStep] at ht
    split at ht
    · cases ht
    · split at ht <;> cases ht
  | installReserve c active =>
    cases h
    simp only [installReserveStep] at ht
    split at ht <;> cases ht
  | installRefreshClaim c epoch =>
    cases h
    simp only [installRefreshClaimStep] at ht
    split at ht
    · simp only [List.mem_singleton] at ht
      exact .inl ⟨_, _, _, _, ht⟩
    · cases ht
  | activateClaims a =>
    cases h
    simp only [activateClaimsStep] at ht
    split at ht
    · cases ht
    · split at ht
      · simp only [List.mem_singleton] at ht
        exact .inr (.inl ⟨_, ht⟩)
      · cases ht
  | cancelGeneration s generation held next =>
    simp only [exec] at h
    split at h <;> cases h
    cases next with
    | register fresh => cases ht
    | guardDrop =>
      simp only [cancelGenerationStep] at ht
      split at ht
      · simp only [List.mem_singleton] at ht
        exact .inr (.inr ⟨_, _, ht⟩)
      · cases ht
  | tryAcquire c budget =>
    cases h
    simp only [tryAcquireStep] at ht
    split at ht <;> cases ht
  | activateLinks a =>
    cases h
    simp only [activateLinksStep] at ht
    split at ht <;> cases ht
  | rejectClaims key code =>
    cases h
    simp only [rejectClaimsStep] at ht
    split at ht <;> cases ht
  | rejectTombstone key code expiresAt =>
    simp only [exec] at h
    split at h <;> cases h
    cases ht
  | timeout kind key epoch deadline =>
    simp only [exec, timeoutStep] at h
    split at h
    · cases h
    · split at h
      · cases h
        cases ht
      · split at h <;> cases h <;> cases ht
  | lane g =>
    simp only [exec, laneStep] at h
    split at h <;> cases h <;> cases ht
  | registerQuicLinks s generation =>
    cases h
    simp only [registerQuicLinksStep] at ht
    split at ht <;> cases ht
  | conn g =>
    simp only [exec] at h
    split at h <;> cases h
    cases ht
  | purgeKeys s generation next stale =>
    simp only [exec] at h
    split at h <;> cases h
    simp only [purgeKeysStep] at ht
    split at ht
    · cases ht
    · cases next <;> cases ht
  | relay p stage =>
    simp only [exec, relayStep] at h
    split at h
    · cases h
      cases ht
    · split at h <;> cases h
      cases ht
    · cases h
      cases ht
    · cases h
      cases ht
    · cases h
      cases ht
    · cases h
      cases ht
    · split at h <;> cases h <;> cases ht
    · cases h
  | _ =>
    cases h
    cases ht

end Exec

/-! ## Mutual exclusion -/

theorem countP_unlocked {fs : List Frame} (h : Unlocked fs) (l : Lock) :
    (fs.countP fun g => l ∈ g.holds) = 0 := by
  rw [List.countP_eq_zero]
  intro g hg
  simp [h g hg]

/-- The registry takes every lock through its mutex. -/
theorem disciplined (cfg : Config) : (portal cfg).Disciplined where
  boot := by
    intro b w g hg
    cases b <;> simp [portal, start, startSubmission, Tasks.Effect.all] at hg <;> subst hg <;> rfl
  frames := by
    intro choice w f r h l
    change (r.frames.countP fun g => l ∈ g.holds) ≤
      (if l ∈ f.holds then 1 else 0) + if f.wants = some l then 1 else 0
    have hshape := exec_shape h
    generalize r.frames = fs at hshape ⊢
    cases hshape with
    | free unlocked =>
      rw [countP_unlocked unlocked]
      exact Nat.zero_le _
    | @keep above below g above_unlocked below_unlocked nodup kept cause =>
      rw [List.countP_append, List.countP_cons, countP_unlocked above_unlocked,
        countP_unlocked below_unlocked]
      by_cases hl : l ∈ g.holds
      · rcases kept l hl with hheld | hwanted
        · simp [hl, hheld]
        · simp [hl, hwanted]
      · simp [hl]
  spawned := by
    intro choice w f r h t ht g hg
    rcases exec_spawned h ht with ⟨_, _, _, _, rfl⟩ | ⟨_, rfl⟩ | ⟨_, _, rfl⟩ <;>
      · simp only [List.mem_singleton] at hg
        subst hg
        rfl

/-- **Mutual exclusion.** At most one frame of a reachable registry holds each lock. -/
theorem exclusive {cfg : Config} {cond : Choice → World → Frame → Prop} {p : Pool}
    (h : (portal cfg).Reach cond initial p) : (portal cfg).Exclusive p.bag :=
  (disciplined cfg).exclusive (by simp [Tasks.System.Exclusive, initial, Tasks.Pool.bag,
    Tasks.Pool.frames]) h

end Nowhere.Portal
