import Nowhere.Portal.Leases
import Nowhere.Portal.Ledger

/-!
# UDP flow permits

The pools of flow permits as a ledger. A permit is free in its pool, or it is held by a call, by
a pending entry, by an activation or by a lease. Every pool by itself is conserved: what is free
and what is held never exceeds the size it was created with (`permits_ledger`).
-/

namespace Nowhere.Portal

open Protocol Assoc

/-! ## What is held of one pool -/

/-- Whether a permit is one of pool `b`, as a number. -/
def permitWeight (b : Nat) (p : Option Permit) : Nat :=
  p.elim 0 fun p => if p.budget = b then 1 else 0

/-- The permit a frame owns. -/
def Frame.permit : Frame → Option Permit
  | .submit c | .terminalRejection c | .acquireUdpPermit c | .tryAcquire c _ | .reserveDuplex c
  | .installPending c | .installLinks c | .installSweep c _ _ | .installTombstone c _
  | .installReserve c _ => c.permit
  | .activateLinks a | .activateClaims a => a.permit
  | .permitDrop p => some p
  | .relay p _ => p.lease.udpPermit
  | .leaseDrop l => l.udpPermit
  | _ => none

attribute [local simp] Frame.permit

/-- The permits of pool `b` that frames own. -/
def permits (b : Nat) (fs : List Frame) : Nat := (fs.map fun f => permitWeight b f.permit).sum

/-- The permits of pool `b` that are free or held by a pending entry. -/
def stock (b : Nat) (w : World) : Nat :=
  w.permits.available b + entriesTotal (fun p => permitWeight b p.flowPermit) w.pending

/-- The size of pool `b`, which is 0 before its creation. -/
def capacity (cfg : Config) (b : Nat) (t : Permits) : Nat :=
  if b < t.nextBudget then cfg.maxUdpFlows else 0

/-- A step of `f` creates no permits but those of a new pool. -/
def Conserves (cfg : Config) (b : Nat) (w : World) (f : Frame) (r : Effect) : Prop :=
  permits b r.all + stock b r.world + capacity cfg b w.permits ≤
    permitWeight b f.permit + stock b w + capacity cfg b r.world.permits

section Lists

variable {b : Nat}

@[simp]
theorem permitWeight_none : permitWeight b none = 0 := rfl

@[simp]
theorem permits_nil : permits b [] = 0 := rfl

@[simp]
theorem permits_cons (f : Frame) (fs : List Frame) :
    permits b (f :: fs) = permitWeight b f.permit + permits b fs := by
  simp [permits]

@[simp]
theorem permits_append (fs gs : List Frame) :
    permits b (fs ++ gs) = permits b fs + permits b gs := by
  simp [permits]

@[simp]
theorem permits_dropGuard (g : Option LinkGuard) : permits b (dropGuard g) = 0 := by
  cases g <;> rfl

@[simp]
theorem permits_rejectDownlink (d : Option Downlink) (code : FlowErrorCode) :
    permits b (rejectDownlink d code) = 0 := by
  cases d <;> rfl

@[simp]
theorem permits_discard (d : Option Downlink) :
    permits b (d.toList.map fun d => .discard d.source) = 0 := by
  cases d <;> rfl

@[simp]
theorem permits_permitDrop (p : Option Permit) :
    permits b (p.toList.map .permitDrop) = permitWeight b p := by
  cases p <;> simp

variable (c : Submission)

@[simp]
theorem permits_drops : permits b c.drops = permitWeight b c.permit := by
  simp [Submission.drops]

@[simp]
theorem permits_unwind : permits b c.unwind = permitWeight b c.permit := by
  simp [Submission.unwind]

@[simp]
theorem permits_replyReject (e : PairingError) :
    permits b (c.replyReject e) = permitWeight b c.permit := by
  simp [Submission.replyReject]

@[simp]
theorem permits_rejectEarly (e : PairingError) :
    permits b (c.rejectEarly e) = permitWeight b c.permit := by
  rw [Submission.rejectEarly, permits_append, permits_replyReject]
  split <;> simp

@[simp]
theorem permits_lockedDrops : permits b c.lockedDrops = 0 := by
  unfold Submission.lockedDrops
  split <;> simp

@[simp]
theorem permits_lateDrops : permits b c.lateDrops = permitWeight b c.permit := by
  unfold Submission.lateDrops
  split <;> simp

@[simp]
theorem permits_rejected (e : PairingError) (abortPending : Bool) :
    permits b (c.rejected e abortPending) = permitWeight b c.permit := by
  unfold Submission.rejected
  cases abortPending <;> simp

@[simp]
theorem permits_rejectedUplink (e : PairingError) :
    permits b (c.rejectedUplink e) = permitWeight b c.permit := by
  simp [Submission.rejectedUplink]

@[simp]
theorem permits_missingPermit (p : Pending) : permits b (missingPermit c p) = 0 := by
  simp [missingPermit]

end Lists

/-! ## Pools through a step -/

namespace Permits

variable (t : Permits) (b : Nat)

theorem available_release (p : Option Permit) :
    (t.release p).available b = t.available b + permitWeight b p := by
  cases p with
  | none => rfl
  | some p =>
    by_cases h : b = p.budget
    · subst h
      simp [release, permitWeight]
    · simp [release, permitWeight, Function.update_of_ne h, Ne.symm h]

theorem nextBudget_release (p : Option Permit) : (t.release p).nextBudget = t.nextBudget := by
  cases p <;> rfl

theorem releaseAll_eq (ps : List Permit) :
    (t.releaseAll ps).available b =
        t.available b + (ps.map fun p => permitWeight b (some p)).sum ∧
      (t.releaseAll ps).nextBudget = t.nextBudget := by
  induction ps generalizing t with
  | nil => exact ⟨rfl, rfl⟩
  | cons p ps ih =>
    obtain ⟨havailable, hnext⟩ := ih (t.release (some p))
    refine ⟨?_, hnext⟩
    rw [List.map_cons, List.sum_cons, ← Nat.add_assoc, ← available_release]
    exact havailable

theorem available_create (n : Nat) :
    (t.create n).available b = if b = t.nextBudget then n else t.available b := by
  by_cases h : b = t.nextBudget
  · rw [if_pos h, h]
    exact Function.update_self ..
  · rw [if_neg h]
    exact Function.update_of_ne h ..

end Permits

section Conserves

variable {cfg : Config} {b : Nat} {w : World} {f : Frame} {r : Effect} {choice : Choice}

/-- A step that gives back the permit `p`. -/
theorem Conserves.of_release {r : Effect} (p : Option Permit)
    (hpermits : r.world.permits = w.permits.release p)
    (hle : permits b r.all + permitWeight b p +
        entriesTotal (fun p => permitWeight b p.flowPermit) r.world.pending ≤
      permitWeight b f.permit + entriesTotal (fun p => permitWeight b p.flowPermit) w.pending) :
    Conserves cfg b w f r := by
  have hcapacity : capacity cfg b r.world.permits = capacity cfg b w.permits := by
    rw [capacity, hpermits, Permits.nextBudget_release, capacity]
  have havailable := Permits.available_release w.permits b p
  rw [← hpermits] at havailable
  unfold Conserves stock
  omega

/-- A step that only rearranges frames. -/
theorem Conserves.of_eq {w' : World} {fs : List Frame} (hpending : w'.pending = w.pending)
    (hpermits : w'.permits = w.permits) (hle : permits b fs ≤ permitWeight b f.permit) :
    Conserves cfg b w f ⟨w', fs, []⟩ := by
  refine .of_release none hpermits ?_
  simp only [Tasks.Effect.all, List.flatten_nil, List.append_nil, permitWeight_none, hpending]
  omega

theorem permits_afterChecks (c : Submission) :
    permits b c.afterChecks = permitWeight b c.permit := by
  unfold Submission.afterChecks
  split <;> simp

theorem submitStep_conserves (c : Submission) :
    Conserves cfg b w (.submit c) (submitStep w c) := by
  refine .of_eq rfl rfl ?_
  split
  · exact (permits_rejectEarly c _).le
  · split
    · exact (permits_afterChecks c).le
    · exact (permits_rejectEarly c _).le

theorem terminalRejectionStep_conserves (c : Submission) :
    Conserves cfg b w (.terminalRejection c) (terminalRejectionStep w c) := by
  refine .of_eq rfl rfl ?_
  split
  · exact (permits_replyReject c _).le
  · split <;> simp

/-- The permit that a call takes is no longer free. -/
theorem tryAcquireStep_conserves (c : Submission) (budget : Nat) :
    Conserves cfg b w (.tryAcquire c budget) (tryAcquireStep w c budget) := by
  unfold tryAcquireStep
  split
  · rename_i hfree
    have hframe : permits b [if c.header.role = .duplex then
          Frame.reserveDuplex { c with permit := some ⟨budget⟩ }
        else .installPending { c with permit := some ⟨budget⟩ }] =
        permitWeight b (some ⟨budget⟩) := by
      split <;> simp
    simp only [Conserves, stock, Tasks.Effect.all, List.flatten_nil, List.append_nil, hframe]
    have hcapacity : capacity cfg b (w.permits.acquire budget) = capacity cfg b w.permits := rfl
    rw [hcapacity]
    by_cases hb : b = budget
    · subst hb
      simp only [Permits.acquire, Function.update_self, permitWeight, Option.elim_some, if_true]
      omega
    · simp only [Permits.acquire, Function.update_of_ne hb, permitWeight, Option.elim_some,
        if_neg (Ne.symm hb)]
      omega
  · exact .of_eq rfl rfl (permits_rejectEarly c _).le

theorem reserveDuplexStep_conserves (c : Submission) :
    Conserves cfg b w (.reserveDuplex c) (reserveDuplexStep cfg w c) := by
  unfold reserveDuplexStep
  generalize w.claims.reserveClaim cfg c.key c.metadata c.target c.link.quicGeneration = res
  obtain ⟨claims, reserved⟩ := res
  refine .of_eq rfl rfl ?_
  split
  · exact (permits_replyReject c _).le
  · exact (permits_replyReject c _).le
  · split
    · simp
    · simp

theorem installLinksStep_conserves (c : Submission) :
    Conserves cfg b w (.installLinks c) (installLinksStep w c) := by
  unfold installLinksStep
  split
  · exact .of_eq rfl rfl (permits_rejected c _ _).le
  · dsimp only
    split
    · exact .of_eq rfl rfl (by simp)
    · rename_i p hfound
      refine .of_release _ rfl ?_
      simp only [Tasks.Effect.all, List.flatten_nil, List.append_nil, permits_append,
        permits_dropGuard, permits_cons, permits_nil, Frame.permit]
      have herase := entriesTotal_erase (fun p => permitWeight b p.flowPermit) w.pending c.via c.key
      have hinsert := entriesTotal_insert (fun p => permitWeight b p.flowPermit) w.pending c.via
        c.key (p.clearStale (activeQuicGeneration w.links c.sessionId))
      rw [hfound, Option.elim_some] at herase hinsert
      -- the entry keeps its permit exactly if it keeps its uplink
      have hkept : permitWeight b
            (p.clearStale (activeQuicGeneration w.links c.sessionId)).flowPermit +
          permitWeight b (if p.uplinkStale (activeQuicGeneration w.links c.sessionId) = true then
            p.flowPermit else none) = permitWeight b p.flowPermit := by
        unfold Pending.clearStale
        dsimp only
        split <;> simp
      generalize (if p.uplinkStale (activeQuicGeneration w.links c.sessionId) = true then
        p.flowPermit else none) = lost at hkept ⊢
      split <;> omega

/-- A half that fits brings the permit of its call into the entry. -/
theorem permitWeight_fill {p p' : Pending} {c : Submission} {misfit : Option Pending.Misfit}
    (hfill : p.fill c = (p', misfit)) :
    permitWeight b p'.flowPermit ≤ permitWeight b p.flowPermit +
      if misfit = none then permitWeight b c.permit else 0 := by
  unfold Pending.fill at hfill
  split at hfill
  · cases hfill
    exact Nat.le_add_right _ _
  · dsimp only at hfill
    split at hfill
    · split at hfill <;> cases hfill
      · exact Nat.le_add_right _ _
      · exact Nat.le_add_left _ _
    · split at hfill <;> cases hfill
      · exact Nat.le_add_right _ _
      · exact Nat.le_add_right _ _
    · cases hfill
      exact Nat.le_add_right _ _

theorem permits_misfitFrames (c : Submission) (m : Pending.Misfit) :
    permits b (misfitFrames c m) = permitWeight b c.permit := by
  cases m <;> simp only [misfitFrames, permits_cons, permits_unwind, permits_rejected,
    permits_rejectedUplink, Frame.permit, permitWeight_none, Nat.zero_add]

theorem installReserveStep_conserves (c : Submission) (active : Option Nat) :
    Conserves cfg b w (.installReserve c active) (installReserveStep cfg w c active) := by
  have hinsert (p : Pending) :=
    entriesTotal_insert (fun p => permitWeight b p.flowPermit) w.pending c.via c.key p
  have herase := entriesTotal_erase (fun p => permitWeight b p.flowPermit) w.pending c.via c.key
  have hentry (epoch : Nat) : permitWeight b (((w.pending c.via).lookup c.key).getD
      (.fresh c epoch active)).flowPermit =
      ((w.pending c.via).lookup c.key).elim 0 fun p => permitWeight b p.flowPermit := by
    cases (w.pending c.via).lookup c.key <;> rfl
  have hweight {epoch : Nat} {p : Pending} {misfit : Option Pending.Misfit}
      (hfill : c.FillsEntry w epoch active p misfit) := permitWeight_fill (b := b) hfill
  simp only [hentry] at hweight
  have houtcome := installReserveStep_installs cfg w c active
  generalize installReserveStep cfg w c active = r at houtcome ⊢
  cases houtcome with
  | refused _ => exact .of_eq rfl rfl (permits_rejected c _ _).le
  | @misfit _ _ _ p m _ hfill =>
    have hfilled := hweight hfill
    have hinserted := hinsert p
    simp only [reduceCtorEq, if_false] at hfilled
    refine .of_release none rfl ?_
    simp only [Tasks.Effect.all, List.flatten_nil, List.append_nil, permitWeight_none, Frame.permit,
      permits_misfitFrames]
    omega
  | @missing _ _ _ p _ hfill _ _ _ =>
    have hfilled := hweight hfill
    simp only [if_true] at hfilled
    refine .of_release none rfl ?_
    simp only [Tasks.Effect.all, List.flatten_nil, List.append_nil, permitWeight_none, Frame.permit,
      permits_missingPermit]
    omega
  | @activates _ _ _ p _ hfill _ =>
    have hfilled := hweight hfill
    simp only [if_true] at hfilled
    refine .of_release none rfl ?_
    simp only [Tasks.Effect.all, List.flatten_nil, List.append_nil, permitWeight_none, Frame.permit,
      permits_cons, permits_nil]
    omega
  | @waits _ _ _ p _ hfill _ =>
    have hfilled := hweight hfill
    have hinserted := hinsert p
    simp only [if_true] at hfilled
    refine .of_release none rfl ?_
    simp only [Tasks.Effect.all, List.flatten_nil, List.append_nil, permitWeight_none, Frame.permit,
      permits_cons, permits_nil]
    omega

theorem installRefreshClaimStep_conserves (c : Submission) (epoch : Nat) :
    Conserves cfg b w (.installRefreshClaim c epoch) (installRefreshClaimStep cfg w c epoch) := by
  unfold installRefreshClaimStep
  dsimp only
  split
  · refine .of_release none rfl ?_
    cases hfound : (w.pending c.via).lookup c.key with
    | none => simp [Tasks.Effect.all]
    | some p =>
      have hinsert := entriesTotal_insert (fun p => permitWeight b p.flowPermit) w.pending c.via
        c.key { p with epoch }
      rw [hfound, Option.elim_some] at hinsert
      dsimp only at hinsert
      simp only [Tasks.Effect.all, List.nil_append, List.flatten_cons, List.flatten_nil,
        List.append_nil, permits_cons, permits_nil, Option.elim_some, Frame.permit,
        permitWeight_none]
      omega
  · have herase := entriesTotal_erase (fun p => permitWeight b p.flowPermit) w.pending c.via c.key
    refine .of_release _ rfl ?_
    simp only [Tasks.Effect.all, List.flatten_nil, List.append_nil, permits_append,
      permits_dropGuard, permits_rejectDownlink, permits_cons, Frame.permit, permitWeight_none]
    generalize (w.pending c.via).lookup c.key = p at herase ⊢
    cases p <;> simp only [Option.elim_none, Option.elim_some, Option.bind_none, Option.bind_some,
      permitWeight_none] at herase ⊢ <;> omega

theorem activationFailed_conserves (a : Activation) (e : PairingError)
    (hpermit : f.permit = a.permit) : Conserves cfg b w f (activationFailed w a e) := by
  refine .of_release a.permit rfl ?_
  rw [hpermit]
  simp only [activationFailed, Tasks.Effect.all, List.flatten_nil, List.append_nil, permits_append,
    permits_cons, permits_dropGuard, permits_rejectDownlink, Frame.permit, permitWeight_none]
  omega

theorem activateLinksStep_conserves (a : Activation) :
    Conserves cfg b w (.activateLinks a) (activateLinksStep w a) := by
  unfold activateLinksStep
  split
  · exact activationFailed_conserves a _ rfl
  · exact .of_eq rfl rfl (by simp)

theorem activateClaimsStep_conserves (a : Activation) :
    Conserves cfg b w (.activateClaims a) (activateClaimsStep w a) := by
  unfold activateClaimsStep
  split
  · exact activationFailed_conserves a _ rfl
  · dsimp only
    split
    · rename_i p hpair
      have hlease := (toPaired_ok hpair).2.2.2.2.2
      refine .of_release none rfl ?_
      simp only [Tasks.Effect.all, List.nil_append, List.flatten_cons, List.flatten_nil,
        List.append_nil, permits_cons, permits_nil, Frame.permit, permitWeight_none, hlease]
      omega
    · refine .of_eq rfl rfl ?_
      simp

/-- An entry that leaves the map gives its permit back. -/
theorem rejectEntry_conserves (kind : FlowKind) (key : FlowKey) (next : Option Downlink → Frame)
    (hnext : ∀ d, (next d).permit = none) : Conserves cfg b w f (rejectEntry w kind key next) := by
  have herase := entriesTotal_erase (fun p => permitWeight b p.flowPermit) w.pending kind key
  refine .of_release _ rfl ?_
  simp only [rejectEntry, Tasks.Effect.all, List.flatten_nil, List.append_nil, permits_append,
    permits_dropGuard, permits_cons, permits_nil, hnext, permitWeight_none]
  generalize (w.pending kind).lookup key = p at herase ⊢
  cases p <;> simp only [Option.elim_none, Option.elim_some, Option.bind_none, Option.bind_some,
    permitWeight_none] at herase ⊢ <;> omega

theorem timeoutStep_conserves {kind : FlowKind} {key : FlowKey} {epoch deadline : Nat}
    (h : timeoutStep w kind key epoch deadline = some r) : Conserves cfg b w f r := by
  have herase := entriesTotal_erase (fun p => permitWeight b p.flowPermit) w.pending kind key
  cases timeoutStep_timesOut h with
  | idle => exact .of_eq rfl rfl (Nat.zero_le _)
  | uplink hfound _ =>
    rw [hfound, Option.elim_some] at herase
    refine .of_release _ rfl ?_
    simp only [Tasks.Effect.all, List.flatten_nil, List.append_nil, timedOut, permits_append,
      permits_dropGuard, permits_cons, permits_nil, Frame.permit, permitWeight_none]
    omega
  | other hfound =>
    rw [hfound, Option.elim_some] at herase
    refine .of_release _ rfl ?_
    cases kind <;> simp only [Tasks.Effect.all, List.flatten_nil, List.append_nil, timedOut,
      timeoutFrames, permits_append, permits_dropGuard, permits_rejectDownlink, permits_cons,
      Frame.permit, permitWeight_none] <;> omega

theorem cancelUdpStep_conserves (key : FlowKey) :
    Conserves cfg b w f (cancelUdpStep w key) := by
  have herase := entriesTotal_erase (fun p => permitWeight b p.flowPermit) w.pending .udp key
  refine .of_release _ rfl ?_
  simp only [cancelUdpStep, Tasks.Effect.all, List.flatten_nil, List.append_nil, permits_append,
    permits_dropGuard, permits_cons, permits_nil, Frame.permit, permitWeight_none]
  generalize (w.pending .udp).lookup key = p at herase ⊢
  cases p <;> simp only [Option.elim_none, Option.elim_some, Option.bind_none, Option.bind_some,
    permitWeight_none] at herase ⊢ <;> omega

/-- The permits of all entries of a map that is cleared. -/
theorem permits_drain (es : List (Sigma fun _ : FlowKey => Pending)) :
    (((es.map Sigma.snd).filterMap Pending.flowPermit).map fun p => permitWeight b (some p)).sum =
        (es.map fun e => permitWeight b e.2.flowPermit).sum ∧
      permits b ((es.map Sigma.snd).flatMap fun p => dropGuard (p.uplink.bind Uplink.guard) ++
        dropGuard (p.downlink.bind Downlink.guard)) = 0 := by
  induction es with
  | nil => exact ⟨rfl, rfl⟩
  | cons e es ih =>
    obtain ⟨hpermits, hframes⟩ := ih
    constructor
    · rw [List.map_cons, List.filterMap_cons, List.map_cons, List.sum_cons, ← hpermits]
      cases e.2.flowPermit <;> simp
    · simp only [List.map_cons, List.flatMap_cons, permits_append, permits_dropGuard, hframes]

theorem drainFlowsStep_conserves (kind : FlowKind) :
    Conserves cfg b w f (drainFlowsStep w kind) := by
  obtain ⟨hsum, hframes⟩ := permits_drain (b := b) (w.pending kind).entries
  have hupdate := entriesTotal_update (fun p => permitWeight b p.flowPermit) w.pending kind ∅
  rw [total_empty, Nat.add_zero, total] at hupdate
  obtain ⟨havailable, hnext⟩ := w.permits.releaseAll_eq b
    (((w.pending kind).entries.map Sigma.snd).filterMap Pending.flowPermit)
  have hload : permits b (drainFlowsStep w kind).all = 0 := by
    cases kind <;> simp [drainFlowsStep, Tasks.Effect.all, hframes]
  unfold Conserves
  rw [hload]
  simp only [stock, drainFlowsStep, capacity, hnext, havailable, hsum]
  omega

/-- A new pool starts with its whole capacity. -/
theorem countsOrNew_conserves (cfg : Config) (b : Nat) (links : Map SessionId LinkCounts)
    (t : Permits) (s : SessionId) : (countsOrNew cfg links t s).2.available b + capacity cfg b t ≤
      t.available b + capacity cfg b (countsOrNew cfg links t s).2 := by
  unfold countsOrNew
  split
  · exact Nat.le_refl _
  · dsimp only
    rw [Permits.available_create]
    have hnext : (t.create cfg.maxUdpFlows).nextBudget = t.nextBudget + 1 := rfl
    unfold capacity
    rw [hnext]
    rcases Nat.lt_trichotomy b t.nextBudget with hlt | heq | hgt
    · rw [if_neg (by omega), if_pos hlt, if_pos (by omega)]
    · rw [if_pos heq, if_neg (by omega), if_pos (by omega)]
      omega
    · rw [if_neg (by omega), if_neg (by omega), if_neg (by omega)]

theorem registerQuicLinksStep_conserves (s : SessionId) (generation : Nat) :
    Conserves cfg b w f (registerQuicLinksStep cfg w s generation) := by
  have hpool := countsOrNew_conserves cfg b w.links w.permits s
  unfold registerQuicLinksStep
  dsimp only
  split <;>
    simp only [Conserves, stock, World.emit, registerQuicLink, Tasks.Effect.all,
      List.flatten_nil, List.append_nil, permits_cons, permits_nil, Frame.permit,
      permitWeight_none] <;> omega

theorem linkGuardDropStep_conserves (g : LinkGuard) :
    Conserves cfg b w f (linkGuardDropStep w g) := by
  obtain ⟨stats, hdrop⟩ := dropLink_world w g
  have hpending : (dropLink w g).1.pending = w.pending := by rw [hdrop]
  have hpermits : (dropLink w g).1.permits = w.permits := by rw [hdrop]
  refine .of_eq hpending hpermits ?_
  split <;> simp

theorem cancelGenerationStep_conserves (runtime : Bool) (s : SessionId) (generation : Nat)
    (next : AfterCancel) :
    Conserves cfg b w f (cancelGenerationStep w runtime s generation next) := by
  unfold cancelGenerationStep
  cases next with
  | register fresh => exact .of_eq rfl rfl (by simp)
  | guardDrop =>
    refine .of_release none rfl ?_
    cases runtime <;> simp [Tasks.Effect.all]

theorem purgeKeysStep_conserves (pick : Nat) (s : SessionId) (generation : Nat)
    (next : AfterCancel) (stale : List FlowKey) :
    Conserves cfg b w f (purgeKeysStep w pick s generation next stale) := by
  unfold purgeKeysStep
  split
  · exact .of_eq rfl rfl (by simp)
  · cases next with
    | guardDrop => exact .of_eq rfl rfl (Nat.zero_le _)
    | register fresh => exact .of_eq rfl rfl (by simp)

theorem laneStep_conserves {g : LinkGuard} (h : laneStep w choice g = some r) :
    Conserves cfg b w f r := by
  unfold laneStep at h
  split at h <;> cases h
  · exact .of_eq rfl rfl (by simp [World.newSubmission])
  · exact .of_eq rfl rfl (by simp)
  · exact .of_eq rfl rfl (by simp)

theorem permits_relayEnd (p : Paired) :
    permits b (relayEnd p) = permitWeight b p.lease.udpPermit := by
  simp [relayEnd]

theorem relayStep_conserves {p : Paired} {stage : RelayStage}
    (h : relayStep w choice p stage = some r) : Conserves cfg b w (.relay p stage) r := by
  cases relayStep_outcome h with
  | closed _ | rejected _ _ => exact .of_eq rfl rfl (permits_relayEnd p).le
  | moves _ _ | ready => exact .of_eq rfl rfl (by simp)

/-- No step makes a permit. -/
theorem exec_conserves (h : exec cfg choice w f = some r) :
    Conserves cfg b w f r := by
  cases f with
  | submit c =>
    cases h
    exact submitStep_conserves c
  | terminalRejection c =>
    cases h
    exact terminalRejectionStep_conserves c
  | acquireUdpPermit c =>
    cases h
    refine .of_eq rfl rfl ?_
    split
    · exact (permits_rejectEarly c _).le
    · simp
  | tryAcquire c budget =>
    cases h
    exact tryAcquireStep_conserves c budget
  | reserveDuplex c =>
    cases h
    exact reserveDuplexStep_conserves c
  | installLinks c =>
    cases h
    exact installLinksStep_conserves c
  | installTombstone c active =>
    cases h
    refine .of_eq rfl rfl ?_
    split
    · exact (permits_rejected c _ _).le
    · simp
  | installReserve c active =>
    cases h
    exact installReserveStep_conserves c active
  | installRefreshClaim c epoch =>
    cases h
    exact installRefreshClaimStep_conserves c epoch
  | activateLinks a =>
    cases h
    exact activateLinksStep_conserves a
  | activateClaims a =>
    cases h
    exact activateClaimsStep_conserves a
  | rejectClaims key code =>
    cases h
    unfold rejectClaimsStep
    split
    · exact .of_eq rfl rfl (Nat.zero_le _)
    · exact rejectEntry_conserves .tcp key _ fun _ => rfl
  | rejectUdpEntry key code tcp =>
    cases h
    exact rejectEntry_conserves .udp key _ fun _ => rfl
  | rejectFinish key code tcp udp =>
    cases h
    refine .of_eq rfl rfl ?_
    split <;> simp
  | rejectTombstone key code expiresAt =>
    simp only [exec] at h
    split at h <;> cases h
    exact .of_eq rfl rfl (Nat.zero_le _)
  | permitDrop p =>
    cases h
    refine .of_release (some p) rfl ?_
    simp only [Tasks.Effect.all, List.flatten_nil, List.append_nil, permits_nil, Frame.permit]
    omega
  | leaseDrop l =>
    cases h
    refine .of_release l.udpPermit rfl ?_
    simp only [Tasks.Effect.all, List.flatten_nil, List.append_nil, permits_nil, Frame.permit]
    omega
  | timeout kind key epoch deadline => exact timeoutStep_conserves h
  | cancelUdp key =>
    cases h
    exact cancelUdpStep_conserves key
  | cancelUdpClaim key =>
    cases h
    refine .of_eq rfl rfl ?_
    split
    · exact Nat.zero_le _
    · split <;> exact Nat.zero_le _
  | drainFlows kind =>
    cases h
    exact drainFlowsStep_conserves kind
  | registerTcp s =>
    cases h
    have hpool := countsOrNew_conserves cfg b w.links w.permits s
    simp only [Conserves, stock, registerTcpLink, Tasks.Effect.all, List.flatten_nil,
      List.append_nil, permits_cons, permits_nil, Frame.permit, permitWeight_none]
    omega
  | lane g => exact laneStep_conserves h
  | registerQuicLinks s generation =>
    cases h
    exact registerQuicLinksStep_conserves s generation
  | conn g =>
    simp only [exec] at h
    split at h <;> cases h
    exact .of_eq rfl rfl (by simp)
  | linkGuardDrop g =>
    cases h
    exact linkGuardDropStep_conserves g
  | cancelGeneration s generation held next =>
    simp only [exec] at h
    split at h <;> cases h
    exact cancelGenerationStep_conserves _ s generation next
  | purgeKeys s generation next stale =>
    simp only [exec] at h
    split at h <;> cases h
    exact purgeKeysStep_conserves _ s generation next stale
  | relay p stage => exact relayStep_conserves h
  | installPending | installSweep | installRefresh | abandonClaim | rejectTcp | rejectUdp
  | writeReject | returnErr | discard | hold | panic | cancelToken | cancelAll | drainRejections
  | drainClaims | registerQuic | purgeTcp | purgeUdp =>
    cases h
    exact .of_eq rfl rfl (by simp)

end Conserves

/-- The permits of pool `b` that the frames of a bag own. -/
def permitsHeld (b : Nat) (fs : Multiset Frame) : Nat :=
  (fs.map fun f => permitWeight b f.permit).sum

theorem permitsHeld_cons (b : Nat) (f : Frame) (fs : Multiset Frame) :
    permitsHeld b (f ::ₘ fs) = permitWeight b f.permit + permitsHeld b fs := by
  simp [permitsHeld]

theorem permitsHeld_add (b : Nat) (fs : List Frame) (gs : Multiset Frame) :
    permitsHeld b (↑fs + gs) = permits b fs + permitsHeld b gs := by
  simp [permitsHeld, permits]

theorem start_permits (b : Nat) (op : Start) (w : World) :
    permits b (start op w).all = 0 ∧ (start op w).world.permits = w.permits ∧
      (start op w).world.pending = w.pending := by
  cases op <;> exact ⟨rfl, rfl, rfl⟩

/-- **A pool is conserved.** Free permits and held permits together never exceed its size. -/
theorem permits_ledger {cfg : Config} {cond : Choice → World → Frame → Prop} {p : Pool} (b : Nat)
    (h : (portal cfg).Reach cond initial p) :
    permitsHeld b p.bag + stock b p.world ≤ capacity cfg b p.world.permits := by
  refine h.bag_invariant (I := fun w fs => permitsHeld b fs + stock b w ≤
    capacity cfg b w.permits) (Nat.zero_le _) ?_ ?_
  · intro p op _ ih
    obtain ⟨hframes, hpermits, hpending⟩ := start_permits b op p.world
    change permitsHeld b (↑(start op p.world).all + p.bag) + stock b (start op p.world).world ≤
      capacity cfg b (start op p.world).world.permits
    rw [permitsHeld_add, hframes, stock, hpermits, hpending, Nat.zero_add]
    exact ih
  · intro p choice f others r _ _ ih _ _ hexec
    have hstep : Conserves cfg b p.world f r := exec_conserves hexec
    unfold Conserves at hstep
    rw [permitsHeld_cons] at ih
    rw [permitsHeld_add]
    omega

end Nowhere.Portal
