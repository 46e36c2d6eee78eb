import Nowhere.Portal.KindInstall

/-!
# TCP and UDP flows are paired alike

`submit_tcp` and `submit_udp`, the two timeouts and the operations on carriers, on corresponding
registries. Every sequence of atomic operations whose submissions are well formed has the same
outcomes for both kinds of flow and leaves corresponding registries (`kinds_agree`), as long as the
install block refuses no OPEN that came with the guard of a TLS lane. Where it refuses one, the two
paths part (`duplicateOpen_diverges`): `submit_tcp` answers, and `submit_udp` drops the guard
inside the block and waits for the lock of `links` that it holds.
-/

namespace Nowhere.Portal

open Protocol Assoc

section Calls

variable {cfg : Config} {ties : Ties} {wt wu : World} {c : Submission} {permit : Option Permit}

/-! ### The whole call -/

variable {e : PairingError} {links : Map SessionId LinkCounts} {w w' : World}
  {rejections : Map FlowKey TerminalRejection} {claims : Claims} {epoch : Nat}

/-- An error before the install block. -/
theorem tail_replyReject (hc : c.BuiltTcp) (permit : Option Permit) {e' : PairingError}
    (hcode : e'.code = e.code) :
    Tail (c.replyReject e) (Submission.replyReject { c.asUdp with permit } e') := by
  have hframes : c.replyReject e = rejectDownlink c.downlink e.code ++ .returnErr c.id e ::
      (dropGuard (c.uplink.bind Uplink.guard) ++ dropGuard (c.downlink.bind Downlink.guard)) := by
    simp [Submission.replyReject, Submission.drops, hc.permit]
  have hframes' : Submission.replyReject { c.asUdp with permit } e' =
      rejectDownlink c.downlink e.code ++ .returnErr c.id e' ::
        (dropGuard (c.uplink.bind Uplink.guard) ++ dropGuard (c.downlink.bind Downlink.guard) ++
          permit.toList.map .permitDrop) := by
    change rejectDownlink c.asUdp.downlink e'.code ++ .returnErr c.id e' ::
      (dropGuard (c.asUdp.uplink.bind Uplink.guard) ++
        dropGuard (c.asUdp.downlink.bind Downlink.guard) ++ permit.toList.map .permitDrop) = _
    rw [uplinkGuard_of_rel hc.uplink_rel, rejectDownlink_of_rel hc.downlink_rel,
      downlinkGuard_of_rel hc.downlink_rel, hcode]
  rw [hframes, hframes']
  refine .append (plain_rejectDownlink _ _) (.returnErr _ hcode ?_)
  have hplain := List.forall_mem_append.mpr ⟨hc.plain_uplink, hc.plain_downlink⟩
  simpa only [List.append_nil] using Tail.append hplain (.permits permit)

theorem asUdp_eq (hc : c.BuiltTcp) : c.asUdp = { c.asUdp with permit := none } := by
  have hpermit : c.asUdp.permit = none := hc.permit
  rw [← hpermit]

theorem Agree.rejectEarly (h : Steady wt wu) (hc : c.BuiltTcp) (e : PairingError) :
    Agree cfg ties (wt, c.rejectEarly e) (wu, c.asUdp.rejectEarly e) := by
  have htail : Tail (c.replyReject e) (c.asUdp.replyReject e) := by
    rw [asUdp_eq hc]
    exact tail_replyReject hc none rfl
  change Agree cfg ties
    (wt, (if c.header.role = .opening then [.rejectTcp c.key e.code] else []) ++ c.replyReject e)
    (wu, (if c.header.role = .opening then [.rejectTcp c.key e.code] else []) ++
      c.asUdp.replyReject e)
  split
  · exact .reject h _ _ htail.lockless.1 htail.lockless.2 fun _ _ h' => .tail h' htail
  · exact .tail h htail

theorem asUdp_validateHeader (hc : c.BuiltTcp) : c.asUdp.validateHeader = c.validateHeader := by
  unfold Submission.validateHeader
  rw [if_neg (not_not.mpr hc.via.symm), if_neg (by simp [Submission.asUdp])]
  rfl

theorem asUdp_validateHeaderAndLink (hc : c.BuiltTcp) (links : Map SessionId LinkCounts) :
    c.asUdp.validateHeaderAndLink links = c.validateHeaderAndLink links := by
  unfold Submission.validateHeaderAndLink
  rw [asUdp_validateHeader hc]
  rfl

/-- Well-formed halves fit the role, for either kind. -/
theorem shapeValid_of_built (hc : c.BuiltTcp) :
    c.shapeValid = true ∧ c.asUdp.shapeValid = true := by
  have hup := hc.uplink
  have hdown := hc.downlink
  unfold Submission.shapeValid
  rw [hc.kind]
  cases hr : c.header.role <;> simp_all [Submission.asUdp]

/-- A valid call runs on a current link: the header check has looked at a QUIC link, a TLS link
is registered. -/
theorem linkCurrent_of_valid (hvalid : c.validateHeaderAndLink links = .ok ())
    (hlink : c.link.quicGeneration = none → linkCurrent links c.sessionId c.link = true) :
    linkCurrent links c.sessionId c.link = true := by
  cases hquic : c.link.quicGeneration with
  | none => exact hlink hquic
  | some generation =>
    unfold Submission.validateHeaderAndLink at hvalid
    split at hvalid
    · cases hvalid
    · split at hvalid
      · cases hvalid
      · rename_i hactive
        simp only [hquic, Option.any_some, bne_iff_ne, ne_eq, not_not] at hactive
        simp [linkCurrent, hquic, hactive]

theorem lookup_of_linkCurrent {s : SessionId} {link : LinkHalf}
    (h : linkCurrent links s link = true) : ∃ counts, links.lookup s = some counts := by
  cases hs : links.lookup s with
  | some counts => exact ⟨counts, rfl⟩
  | none =>
    unfold linkCurrent activeQuicGeneration at h
    rw [hs] at h
    split at h <;> cases h

/-- The permit of an OPEN or a DUPLEX, which is there to be taken. -/
theorem Agree.acquire {x : World × List Frame}
    (hcurrent : linkCurrent wu.links c.sessionId c.link = true)
    (hpermits : ∀ counts, wu.links.lookup c.sessionId = some counts →
      0 < wu.permits.available counts.udpFlowBudget)
    (next : ∀ permits permit, permits.nextBudget = wu.permits.nextBudget →
      Agree cfg ties x ({ wu with permits }, [if c.header.role = .duplex then
        .reserveDuplex { c.asUdp with permit := some permit }
        else .installPending { c.asUdp with permit := some permit }])) :
    Agree cfg ties x (wu, [.acquireUdpPermit c.asUdp]) := by
  have hnil : Lockless [] := List.forall_mem_nil _
  obtain ⟨counts, hcounts⟩ := lookup_of_linkCurrent hcurrent
  have hacquire : acquireUdpPermitStep wu c.asUdp =
      ⟨wu, [.tryAcquire c.asUdp counts.udpFlowBudget], []⟩ := by
    have hsession : wu.links.lookup c.asUdp.sessionId = some counts := hcounts
    rw [acquireUdpPermitStep, hsession]
  have htry : tryAcquireStep wu c.asUdp counts.udpFlowBudget =
      ⟨{ wu with permits := wu.permits.acquire counts.udpFlowBudget },
        [if c.header.role = .duplex then
          .reserveDuplex { c.asUdp with permit := some ⟨counts.udpFlowBudget⟩ }
          else .installPending { c.asUdp with permit := some ⟨counts.udpFlowBudget⟩ }], []⟩ :=
    if_pos (hpermits counts hcounts)
  exact .right (congrArg some hacquire) (clear_of_lockless hnil)
    (.right (congrArg some htry) (clear_of_lockless hnil) (next _ _ rfl))

theorem terminalRejectionStep_found {w : World} {rejections : Map FlowKey TerminalRejection}
    {code : FlowErrorCode}
    (h : terminalRejection w.now w.rejections c.key (decide (c.header.role = .duplex)) =
      (rejections, some code)) :
    terminalRejectionStep w c = ⟨{ w with rejections },
      c.replyReject ⟨code, "portal::pairing: terminal flow rejection"⟩, []⟩ := by
  simp only [terminalRejectionStep, h]

theorem terminalRejectionStep_none {w : World} {rejections : Map FlowKey TerminalRejection}
    (h : terminalRejection w.now w.rejections c.key (decide (c.header.role = .duplex)) =
      (rejections, none)) :
    terminalRejectionStep w c = ⟨{ w with rejections },
      [if c.via = .tcp then .reserveDuplex c else .acquireUdpPermit c], []⟩ := by
  simp only [terminalRejectionStep, h]
  cases c.via <;> rfl

theorem reserveDuplexStep_error (h : c.Reserves cfg w claims (.error e)) :
    reserveDuplexStep cfg w c = ⟨{ w with claims }, c.replyReject e, []⟩ := by
  simp only [reserveDuplexStep, h]

theorem reserveDuplexStep_duplicate (h : c.Reserves cfg w claims (.ok (epoch, false))) :
    reserveDuplexStep cfg w c = ⟨{ w with claims },
      c.replyReject ⟨.metadataConflict, "portal::pairing: duplicate " ++ kindName c.via ++
        " flow id"⟩, []⟩ := by
  simp only [reserveDuplexStep, h]

theorem reserveDuplexStep_created (h : c.Reserves cfg w claims (.ok (epoch, true)))
    (hpanic : c.duplexPanic = none) :
    reserveDuplexStep cfg w c = ⟨{ w with claims }, [.activateLinks ⟨c.bare, epoch,
      c.link.quicGeneration.toList, c.permit, c.toPending epoch⟩], []⟩ := by
  simp only [reserveDuplexStep, h, hpanic]

theorem duplexPanic_none (hup : c.uplink.isSome = true) (hdown : c.downlink.isSome = true) :
    c.duplexPanic = none := by
  obtain ⟨u, hu⟩ := Option.isSome_iff_exists.mp hup
  obtain ⟨d, hd⟩ := Option.isSome_iff_exists.mp hdown
  rw [Submission.duplexPanic, hu, hd]

theorem Agree.reserveDuplex (h : Steady wt wu) (hc : c.BuiltTcp)
    (hrole : c.header.role = .duplex) (permit : Option Permit) :
    Agree cfg ties (wt, [.reserveDuplex c]) (wu, [.reserveDuplex { c.asUdp with permit }]) := by
  obtain ⟨ct, cu, reserved, ht, hu, hsteady⟩ := h.reserveClaim cfg hc permit
  cases reserved with
  | error e =>
    refine .last (congrArg some (reserveDuplexStep_error ht))
      (congrArg some (reserveDuplexStep_error hu)) ?_
    exact .tail hsteady (tail_replyReject hc permit rfl)
  | ok x =>
    obtain ⟨epoch, created⟩ := x
    cases created with
    | false =>
      refine .last (congrArg some (reserveDuplexStep_duplicate ht))
        (congrArg some (reserveDuplexStep_duplicate hu)) ?_
      exact .tail hsteady (tail_replyReject hc permit rfl)
    | true =>
      have hup : c.uplink.isSome = true := hc.uplink.mpr (by rw [hrole]; simp)
      have hdown : c.downlink.isSome = true := hc.downlink.mpr (by rw [hrole]; simp)
      have hstep := reserveDuplexStep_created ht (duplexPanic_none hup hdown)
      have hstep' := reserveDuplexStep_created hu
        (duplexPanic_none ((isSome_of_rel hc.uplink_rel).trans hup)
          ((isSome_of_rel hc.downlink_rel).trans hdown))
      refine .last (congrArg some hstep) (congrArg some hstep') ?_
      refine .activateLinks hsteady ⟨hc.kind, rfl, rfl, rfl, hc.toPending permit epoch, ?_, ?_⟩
      · intro g hg
        rw [(hc.uplinkGuard g hg).1]
      · intro g hg
        rw [(hc.downlinkGuard g hg).1]

theorem Agree.duplex (h : Steady wt wu) (hc : c.BuiltTcp) (hrole : c.header.role = .duplex)
    (hcurrent : linkCurrent wt.links c.sessionId c.link = true)
    (hpermits : ∀ counts, wu.links.lookup c.sessionId = some counts →
      0 < wu.permits.available counts.udpFlowBudget) :
    Agree cfg ties (wt, [.terminalRejection c]) (wu, [.terminalRejection c.asUdp]) := by
  have hsteady := h.terminalRejection c.key (decide (c.header.role = .duplex))
  have hresult : terminalRejection wu.now wu.rejections c.key (decide (c.header.role = .duplex)) =
      terminalRejection wt.now wt.rejections c.key (decide (c.header.role = .duplex)) := by
    rw [h.now, h.rejections]
  generalize hfound' : terminalRejection wu.now wu.rejections c.key
    (decide (c.header.role = .duplex)) = found' at hsteady hresult
  generalize hfound : terminalRejection wt.now wt.rejections c.key
    (decide (c.header.role = .duplex)) = found at hsteady hresult
  subst hresult
  obtain ⟨rejections, code⟩ := found'
  cases code with
  | some code =>
    have hstep' := @terminalRejectionStep_found c.asUdp wu rejections code hfound'
    refine .last (congrArg some (terminalRejectionStep_found hfound)) (congrArg some hstep') ?_
    rw [asUdp_eq hc]
    exact .tail hsteady (tail_replyReject hc none rfl)
  | none =>
    have hstep := terminalRejectionStep_none hfound
    rw [if_pos hc.kind] at hstep
    have hstep' := @terminalRejectionStep_none c.asUdp wu rejections hfound'
    rw [if_neg (by simp [Submission.asUdp])] at hstep'
    refine .last (congrArg some hstep) (congrArg some hstep') ?_
    refine .acquire (by rw [h.links]; exact hcurrent) hpermits ?_
    intro permits permit hbudget
    rw [if_pos hrole]
    exact .reserveDuplex (hsteady.takePermit hbudget) hc hrole _

/-- A TCP call drops its halves after the install block, like everywhere else. -/
theorem rejected_eq_replyReject (hvia : c.via = .tcp) (e : PairingError) :
    c.rejected e false = c.replyReject e := by
  simp [Submission.rejected, Submission.replyReject, Submission.lockedDrops, Submission.lateDrops,
    Submission.drops, hvia]

/-- Every OPEN that owns the guard of its lane and finds no tombstone is taken by the claim and by
the entry of its key. -/
def OpenFits (cfg : Config) (w : World) (c : Submission) : Prop :=
  c.header.role = .opening → (c.uplink.bind Uplink.guard).isSome = true →
    (terminalRejection w.now w.rejections c.key false).2 = none →
    ClaimAdmits cfg (swept w c) c ∧ EntryAdmits (swept w c) c

theorem claimAdmits_congr (h : w.claims = w'.claims) :
    ClaimAdmits cfg w c ↔ ClaimAdmits cfg w' c := by
  unfold ClaimAdmits
  rw [h]

theorem entryAdmits_congr (h : w.pending = w'.pending) :
    EntryAdmits w c ↔ EntryAdmits w' c := by
  unfold EntryAdmits
  rw [h]

/-- The install block of both kinds, from its first lock to the return of the call. -/
theorem Agree.install (h : Steady wt wu) (hc : c.BuiltTcp)
    (hcarrier : c.carrier = .quic ↔ c.link.quicGeneration.isSome = true)
    (hcurrent : linkCurrent wt.links c.sessionId c.link = true) (hrole : c.header.role ≠ .duplex)
    (hpermit : c.header.role = .opening → permit.isSome = true)
    {m : Map FlowKey TerminalRejection}
    (hm : retain m (fun _ r => decide (wt.now < r.expiresAt)) =
      retain wt.rejections (fun _ r => decide (wt.now < r.expiresAt)))
    (hopen : c.header.role = .opening →
      (terminalRejection wt.now wt.rejections c.key false).2 = none)
    (hfits : OpenFits cfg wt c) :
    Agree cfg ties (wt, [.installPending c])
      ({ wu with rejections := m }, [.installPending { c.asUdp with permit }]) := by
  refine .installPending h hc m hcurrent ?_
  intro wt₁ wu₁ active h₁ hrejections hnow hclaims hpending
  refine .installTombstone h₁ hc ?_ hrole ?_ ?_
  · rw [hnow, hrejections]
    exact hm
  · rw [hnow, hrejections]
    exact hopen
  · intro wt₂ wu₂ h₂ hclaims₂ hpending₂ hmissing
    refine .installReserve h₂ hc hcarrier hrole hpermit hmissing ?_ active
    intro hguard
    have hopening : c.header.role = .opening := by
      cases hr : c.header.role with
      | opening => rfl
      | duplex => exact absurd hr hrole
      | attach =>
        rw [hc.unguarded_of_attach hr] at hguard
        cases hguard
    rw [claimAdmits_congr (hclaims₂.trans hclaims), entryAdmits_congr (hpending₂.trans hpending)]
    exact hfits hopening hguard (hopen hopening)

theorem Agree.opening (h : Steady wt wu) (hc : c.BuiltTcp)
    (hcarrier : c.carrier = .quic ↔ c.link.quicGeneration.isSome = true)
    (hcurrent : linkCurrent wt.links c.sessionId c.link = true)
    (hrole : c.header.role = .opening)
    (hpermits : ∀ counts, wu.links.lookup c.sessionId = some counts →
      0 < wu.permits.available counts.udpFlowBudget) (hfits : OpenFits cfg wt c) :
    Agree cfg ties (wt, [.installPending c]) (wu, [.terminalRejection c.asUdp]) := by
  have hnil : Lockless [] := List.forall_mem_nil _
  have hconsume : decide (c.header.role = .duplex) = false := by simp [hrole]
  have hattach : decide (c.header.role = .attach) = false := by simp [hrole]
  have hsteady := h.terminalRejection c.key false
  have hresult : terminalRejection wu.now wu.rejections c.key false =
      terminalRejection wt.now wt.rejections c.key false := by
    rw [h.now, h.rejections]
  rw [hresult] at hsteady
  cases hcode : (terminalRejection wt.now wt.rejections c.key false).2 with
  | some code =>
    -- a flow with a tombstone is not pending: the TCP call gets to the same lookup
    have hmissing : (wt.pending c.via).lookup c.key = none := by
      obtain ⟨r, hr, _⟩ := Option.map_eq_some_iff.mp hcode
      rw [lookup_retain] at hr
      rw [hc.kind]
      exact h.apart c.key r (Option.filter_eq_some_iff.mp hr).1
    have hfound : terminalRejection wt.now wt.rejections c.key (decide (c.header.role = .attach)) =
        ((terminalRejection wt.now wt.rejections c.key false).1, some code) := by
      rw [hattach, ← hcode]
    have hfound' : terminalRejection wu.now wu.rejections c.key
        (decide (c.header.role = .duplex)) =
        ((terminalRejection wt.now wt.rejections c.key false).1, some code) := by
      rw [hconsume, hresult, ← hcode]
    have hstep' := @terminalRejectionStep_found c.asUdp wu _ code hfound'
    have htail : Tail (c.rejected ⟨code, "portal::pairing: terminal flow rejection"⟩ false)
        (c.asUdp.replyReject ⟨code, "portal::pairing: terminal flow rejection"⟩) := by
      rw [rejected_eq_replyReject hc.kind, asUdp_eq hc]
      exact tail_replyReject hc none rfl
    exact .left rfl (clear_of_lockless hnil)
      (.left (congrArg some (installLinksStep_none hcurrent hmissing)) (clear_of_lockless hnil)
        (.last (congrArg some (installTombstoneStep_eq _ hfound)) (congrArg some hstep')
          (.tail hsteady htail)))
  | none =>
    have hnone : terminalRejection wu.now wu.rejections c.key (decide (c.header.role = .duplex)) =
        ((terminalRejection wt.now wt.rejections c.key false).1, none) := by
      rw [hconsume, hresult, ← hcode]
    have hstep' := @terminalRejectionStep_none c.asUdp wu _ hnone
    rw [if_neg (by simp [Submission.asUdp])] at hstep'
    refine .right (congrArg some hstep') (clear_of_lockless hnil) ?_
    refine .acquire (by rw [h.links]; exact hcurrent) hpermits ?_
    intro permits permit hbudget
    rw [if_neg (by simp [hrole])]
    refine .install (h.takePermit hbudget) hc hcarrier hcurrent (by simp [hrole]) (fun _ => rfl) ?_
      (fun _ => hcode) hfits
    -- what the early lookup has swept is expired
    exact retain_retain wt.rejections fun _ r => decide (wt.now < r.expiresAt)

/-- A submission with well-formed halves whose TLS lane is registered, while a UDP permit is free
in the pool of its session. -/
structure Submission.Legal (wt wu : World) (c : Submission) : Prop extends c.BuiltTcp where
  lane : c.link.quicGeneration = none → linkCurrent wt.links c.sessionId c.link = true
  permits : ∀ counts, wu.links.lookup c.sessionId = some counts →
    0 < wu.permits.available counts.udpFlowBudget

theorem submitStep_error (h : c.validateHeaderAndLink w.links = .error e) :
    submitStep w c = ⟨w, c.rejectEarly e, []⟩ := by
  rw [submitStep, h]

theorem submitStep_ok {w : World} (h : c.validateHeaderAndLink w.links = .ok ())
    (hshape : c.shapeValid = true) : submitStep w c = ⟨w, c.afterChecks, []⟩ := by
  rw [submitStep, h]
  simp only [hshape, if_true]

theorem afterChecks_tcp (h : c.via = .tcp) : c.afterChecks =
    if c.header.role = .duplex then [.terminalRejection c] else [.installPending c] := by
  unfold Submission.afterChecks
  rw [h]
  cases c.header.role <;> rfl

theorem afterChecks_udp (h : c.via = .udp) : c.afterChecks =
    if c.header.role = .attach then [.installPending c] else [.terminalRejection c] := by
  unfold Submission.afterChecks
  rw [h]
  cases c.header.role <;> rfl

theorem Agree.submit (h : Steady wt wu) (hlegal : c.Legal wt wu) (hfits : OpenFits cfg wt c) :
    Agree cfg ties (wt, [.submit c]) (wu, [.submit c.asUdp]) := by
  have hc := hlegal.toBuiltTcp
  have hvalid' : c.asUdp.validateHeaderAndLink wu.links = c.validateHeaderAndLink wt.links := by
    rw [asUdp_validateHeaderAndLink hc, h.links]
  cases hvalid : c.validateHeaderAndLink wt.links with
  | error e =>
    refine .last (congrArg some (submitStep_error hvalid))
      (congrArg some (submitStep_error (hvalid'.trans hvalid))) ?_
    exact .rejectEarly h hc e
  | ok =>
    obtain ⟨hshape, hshape'⟩ := shapeValid_of_built hc
    have hcarrier := (call_of_valid hvalid (List.mem_singleton_self _) hc.toBuilt).carrier
    have hcurrent := linkCurrent_of_valid hvalid hlegal.lane
    refine .last (congrArg some (submitStep_ok hvalid hshape))
      (congrArg some (submitStep_ok (hvalid'.trans hvalid) hshape')) ?_
    simp only [afterChecks_tcp hc.kind, afterChecks_udp (c := c.asUdp) rfl]
    change Agree cfg ties (wt, if c.header.role = .duplex then _ else _)
      (wu, if c.header.role = .attach then _ else _)
    cases hrole : c.header.role with
    | opening => exact .opening h hc hcarrier hcurrent hrole hlegal.permits hfits
    | duplex => exact .duplex h hc hrole hcurrent hlegal.permits
    | attach =>
      have hagree := @Agree.install cfg ties wt wu c none h hc hcarrier hcurrent
        (by rw [hrole]; decide) (by rw [hrole]; rintro ⟨⟩) wu.rejections (by rw [h.rejections])
        (by rw [hrole]; rintro ⟨⟩) hfits
      rw [asUdp_eq hc]
      exact hagree

/-! ### Timeouts -/

section Timeout

variable {w : World} {kind : FlowKind} {key : FlowKey} {epoch : Nat} {p : Pending}

theorem timeoutStep_none (h : (w.pending kind).lookup key = none) :
    timeoutStep w kind key epoch 0 = some ⟨w, [], []⟩ := by
  simp only [timeoutStep, Nat.not_lt_zero, if_false, h]

theorem timeoutStep_other (h : (w.pending kind).lookup key = some p) (hepoch : p.epoch ≠ epoch) :
    timeoutStep w kind key epoch 0 = some ⟨w, [], []⟩ := by
  simp only [timeoutStep, Nat.not_lt_zero, if_false, h, ne_eq, hepoch, not_false_eq_true, if_true]

theorem timeoutStep_uplink (h : (w.pending kind).lookup key = some p) (hepoch : p.epoch = epoch)
    (hup : p.uplink.isSome = true) (hdown : p.downlink = none) :
    timeoutStep w kind key epoch 0 = some ⟨timedOut w kind key p,
      dropGuard (p.uplink.bind Uplink.guard) ++ [.rejectTcp key .pairTimeout], []⟩ := by
  simp [timeoutStep, timedOut, h, hepoch, hup, hdown]

theorem timeoutStep_tcp (h : (w.pending .tcp).lookup key = some p) (hepoch : p.epoch = epoch)
    (hup : p.uplink = none) :
    timeoutStep w .tcp key epoch 0 = some ⟨timedOut w .tcp key p,
      rejectDownlink p.downlink .pairTimeout ++ .abandonClaim key epoch ::
        dropGuard (p.downlink.bind Downlink.guard), []⟩ := by
  simp [timeoutStep, timedOut, h, hepoch, hup, dropGuard]

theorem timeoutStep_udp (h : (w.pending .udp).lookup key = some p) (hepoch : p.epoch = epoch)
    (hup : p.uplink = none) :
    timeoutStep w .udp key epoch 0 = some ⟨timedOut w .udp key p,
      rejectDownlink p.downlink .pairTimeout ++ (dropGuard (p.downlink.bind Downlink.guard) ++
        [.abandonClaim key epoch]), []⟩ := by
  simp [timeoutStep, timedOut, h, hepoch, hup, dropGuard]

theorem dropLink_setClaims (w : World) (claims : Claims) (g : LinkGuard) :
    dropLink { w with claims } g = ({ (dropLink w g).1 with claims }, (dropLink w g).2) := by
  unfold dropLink
  dsimp only
  cases w.links.lookup g.sessionId with
  | none => rfl
  | some counts =>
    dsimp only
    cases counts.without g <;> rfl

/-- The two timeouts drop the downlink and abandon the claim in different order. -/
theorem Agree.abandon (h : Steady wt wu) (key : FlowKey) (epoch : Nat) {g : Option LinkGuard}
    (hg : ∀ x, g = some x → x.quicGeneration = none) :
    Agree cfg ties (wt, .abandonClaim key epoch :: dropGuard g)
      (wu, dropGuard g ++ [.abandonClaim key epoch]) := by
  have hnil : Lockless [] := List.forall_mem_nil _
  cases g with
  | none => exact .tail h (.same trivial .nil)
  | some g =>
    have hframes {w : World} := linkGuardDropStep_frames (w := w) (hg g rfl)
    have hdrop := (h.dropLink g).1
    refine .left rfl (clear_of_lockless (hnil.cons rfl)) (.left rfl (clear_of_lockless hnil) ?_)
    refine .right rfl (clear_of_lockless (hnil.cons rfl)) ?_
    rw [hframes, hframes]
    refine .right rfl (clear_of_lockless hnil) (.done ?_)
    change Steady (dropLink { wt with claims := wt.claims.abandonClaim key epoch } g).1
      { (dropLink wu g).1 with claims := (dropLink wu g).1.claims.abandonClaim key epoch }
    rw [dropLink_setClaims]
    obtain ⟨stats, hworld⟩ := dropLink_world wu g
    rw [hworld] at hdrop ⊢
    exact hdrop.setClaims (h.claims.abandonClaim key epoch)

theorem Agree.timeout (h : Steady wt wu) (key : FlowKey) (epoch : Nat) :
    Agree cfg ties (wt, [.timeout .tcp key epoch 0]) (wu, [.timeout .udp key epoch 0]) := by
  have hnil : Lockless [] := List.forall_mem_nil _
  have hlookup := h.entries.lookup key
  cases hp : (wt.pending .tcp).lookup key with
  | none =>
    rw [hp] at hlookup
    cases hq : (wu.pending .udp).lookup key with
    | some q =>
      rw [hq] at hlookup
      cases hlookup
    | none =>
      exact .last (timeoutStep_none hp) (timeoutStep_none hq) (.done h)
  | some p =>
    rw [hp] at hlookup
    obtain ⟨q, hq, hpq⟩ : ∃ q, (wu.pending .udp).lookup key = some q ∧ p.Corresponds q := by
      generalize (wu.pending .udp).lookup key = found' at hlookup
      cases hlookup with
      | some hpq => exact ⟨_, rfl, hpq⟩
    obtain ⟨hwaiting, hguards⟩ := h.waiting key p hp
    have hdown := fun g hg => (hguards.downlink g hg).1
    by_cases hepoch : p.epoch = epoch
    · have hepoch' : q.epoch = epoch := hpq.epoch.trans hepoch
      have herased := (h.erasePending key).release p.flowPermit q.flowPermit
      cases hup : p.uplink with
      | some u =>
        have hmissing : p.downlink = none := by
          simpa [Pending.complete, hup] using hwaiting
        have hup' : p.uplink.isSome = true := by rw [hup]; rfl
        have hmissing' : q.downlink = none :=
          Option.isNone_iff_eq_none.mp ((isNone_of_rel hpq.downlink).trans (by rw [hmissing]; rfl))
        refine .last (timeoutStep_uplink hp hepoch hup' hmissing)
          (timeoutStep_uplink hq hepoch' ((isSome_of_rel hpq.uplink).trans hup') hmissing') ?_
        simp only [uplinkGuard_of_rel hpq.uplink]
        have hplain := plain_dropGuard fun g hg => (hguards.uplink g hg).1
        refine .plains hplain (hnil.cons rfl) (hnil.cons rfl) ?_ herased
        exact fun _ _ h' => .reject h' key .pairTimeout hnil hnil fun _ _ => .done
      | none =>
        have hup' : q.uplink = none :=
          Option.isNone_iff_eq_none.mp ((isNone_of_rel hpq.uplink).trans (by rw [hup]; rfl))
        refine .last (timeoutStep_tcp hp hepoch hup) (timeoutStep_udp hq hepoch' hup') ?_
        simp only [rejectDownlink_of_rel hpq.downlink,
          downlinkGuard_of_rel hpq.downlink]
        have hlockless : Lockless (dropGuard (p.downlink.bind Downlink.guard)) :=
          fun f hf => (plain_dropGuard hdown f hf).holds
        exact .plains (plain_rejectDownlink _ _) (hlockless.cons rfl)
          (hlockless.append (hnil.cons rfl)) (fun _ _ h' => .abandon h' key epoch hdown) herased
    · have hepoch' : q.epoch ≠ epoch := fun he => hepoch (hpq.epoch.symm.trans he)
      exact .last (timeoutStep_other hp hepoch) (timeoutStep_other hq hepoch') (.done h)

end Timeout

/-! ### Carriers -/

/-- The same pending flows first saw a generation. -/
theorem staleKeys_of_related {m m' : Map FlowKey Pending}
    (h : Related Pending.Corresponds m m') (s : SessionId) (generation : Nat) :
    staleKeys m' s generation = staleKeys m s generation := by
  let test (key : FlowKey) (p : Pending) : Bool :=
    decide (key.sessionId = s ∧ p.quicSnapshot = some generation)
  have hkept : Related Pending.Corresponds (retain m test) (retain m' test) := by
    refine h.retain fun key p q hpq => ?_
    simp only [test, hpq.quicSnapshot]
  have hkeys : (retain m test).entries.map Sigma.fst = (retain m' test).entries.map Sigma.fst :=
    @Related.map_entries _ _ _ _ _ _ _ hkept (fun key _ => key) (fun key _ => key)
      fun _ _ _ _ => rfl
  exact hkeys.symm

/-- A registration has returned the guard of its carrier. -/
theorem Agree.conn (h : Steady wt wu) (g : LinkGuard) :
    Agree cfg ties (wt, [.conn g]) (wu, [.conn g]) :=
  Tasks.System.Joint.done (Tasks.System.alone_eq_none rfl) (Tasks.System.alone_eq_none rfl)
    ⟨h, rfl, rfl⟩

theorem Agree.lane (h : Steady wt wu) (g : LinkGuard) :
    Agree cfg ties (wt, [.lane g]) (wu, [.lane g]) :=
  Tasks.System.Joint.done (Tasks.System.alone_eq_none rfl) (Tasks.System.alone_eq_none rfl)
    ⟨h, rfl, rfl⟩

theorem Agree.purgeKeys {wt wu : World} (h : Steady wt wu) (s : SessionId) (generation : Nat)
    (after : AfterCancel) (stale : List FlowKey) :
    Agree cfg ties (wt, [.purgeKeys s generation after stale])
      (wu, [.purgeKeys s generation after stale]) := by
  have hnil : Lockless [] := List.forall_mem_nil _
  refine .last rfl rfl ?_
  unfold purgeKeysStep
  cases hkey : stale[ties.pick (.purgeKeys s generation after stale) % stale.length]? with
  | none =>
    cases after with
    | guardDrop => exact .done h
    | register fresh => exact .conn (h.emit (.cons (.registeredQuic _ _ _) .nil)) _
  | some key =>
    -- the visited key leaves the set
    have hshorter : (stale.erase key).length < stale.length := by
      have hmem := List.mem_of_getElem? hkey
      rw [List.length_erase_of_mem hmem]
      exact Nat.sub_lt (List.length_pos_of_mem hmem) Nat.one_pos
    exact .reject h key .sessionReplaced (hnil.cons rfl) (hnil.cons rfl) fun _ _ h' =>
      .purgeKeys h' s generation after (stale.erase key)
termination_by stale.length

theorem Agree.purge (h : Steady wt wu) (s : SessionId) (generation : Nat) (after : AfterCancel) :
    Agree cfg ties (wt, [.purgeTcp s generation after]) (wu, [.purgeTcp s generation after]) := by
  have hnil : Lockless [] := List.forall_mem_nil _
  refine .left rfl (clear_of_lockless hnil) (.left rfl (clear_of_lockless hnil) ?_)
  refine .right rfl (clear_of_lockless hnil) (.right rfl (clear_of_lockless hnil) ?_)
  have hempty : staleKeys ∅ s generation = [] := rfl
  unfold purgeUdpStep
  rw [h.noUdp, h.noTcp, hempty, staleKeys_of_related h.entries]
  simp only [List.filter_nil, List.append_nil, List.nil_append, List.not_mem_nil,
    not_false_eq_true, decide_true, List.filter_true]
  exact .purgeKeys h s generation after _

theorem Agree.cancelGeneration (h : Steady wt wu) (s : SessionId) (generation : Nat) (held : Bool)
    (after : AfterCancel) :
    Agree cfg ties (wt, [.cancelGeneration s generation held after])
      (wu, [.cancelGeneration s generation held after]) := by
  refine .last rfl rfl ?_
  have htokens := h.claims.tokens (fun key claim =>
    decide (key.sessionId = s) && claim.active && decide (generation ∈ claim.quicGenerations))
    fun _ _ _ => rfl
  have hcancelled : Steady
      { wt with
        cancelled := _ ++ wt.cancelled
        log := .cancelledGeneration s generation :: wt.log }
      { wu with
        cancelled := _ ++ wu.cancelled
        log := .cancelledGeneration s generation :: wu.log } :=
    { h with
      cancelled := congrArg₂ (· ++ ·) htokens h.cancelled
      log := .cons (.cancelledGeneration s generation) h.log }
  cases after with
  | guardDrop => exact .done hcancelled
  | register fresh => exact .purge hcancelled s generation _

theorem Agree.dropLink (h : Steady wt wu) (g : LinkGuard) :
    Agree cfg ties (wt, [.linkGuardDrop g]) (wu, [.linkGuardDrop g]) := by
  refine .last rfl rfl ?_
  obtain ⟨hsteady, hexit⟩ := h.dropLink g
  unfold linkGuardDropStep
  dsimp only
  rw [hexit]
  cases (Portal.dropLink wt g).2 with
  | done => exact .done hsteady
  | cancel generation => exact .cancelGeneration hsteady _ _ _ _
  | cancelLocked generation => exact .cancelGeneration hsteady _ _ _ _

theorem Agree.registerTcp (h : Steady wt wu) (s : SessionId) :
    Agree cfg ties (wt, [.registerTcp s]) (wu, [.registerTcp s]) := by
  exact .last rfl rfl (.lane (h.registerTcpLink cfg s) _)

theorem Agree.registerQuic (h : Steady wt wu) (s : SessionId) :
    Agree cfg ties (wt, [.registerQuic s]) (wu, [.registerQuic s]) := by
  have hnil : Lockless [] := List.forall_mem_nil _
  have hnext : Steady { wt with nextQuicGeneration := wt.nextQuicGeneration + 1 }
      { wu with nextQuicGeneration := wu.nextQuicGeneration + 1 } :=
    { h with nextQuicGeneration := congrArg (· + 1) h.nextQuicGeneration }
  refine .left rfl (clear_of_lockless hnil) (.left rfl (clear_of_lockless hnil) ?_)
  refine .right rfl (clear_of_lockless hnil) (.right rfl (clear_of_lockless hnil) ?_)
  have hregister := hnext.registerQuicLink cfg s wt.nextQuicGeneration
  unfold registerQuicLinksStep
  dsimp only
  rw [h.nextQuicGeneration] at hregister ⊢
  obtain ⟨hsteady, hprevious⟩ := hregister
  rw [hprevious]
  cases (Portal.registerQuicLink cfg
    { wt with nextQuicGeneration := wt.nextQuicGeneration + 1 } s wt.nextQuicGeneration).2 with
  | none => exact .conn (hsteady.emit (.cons (.registeredQuic _ _ _) .nil)) _
  | some previous => exact .cancelGeneration hsteady _ _ _ _

/-! ## Every operation, every sequence -/

/-- What an operation needs: its submission is legal. -/
def Op.Legal (wt wu : World) : Op → Prop
  | .submit c => c.Legal wt wu
  | _ => True

/-- The install block refuses no OPEN that owns the guard of its lane. -/
def Op.Fits (cfg : Config) (wt _wu : World) : Op → Prop
  | .submit c => OpenFits cfg wt c
  | _ => True

theorem Agree.op (h : Steady wt wu) {op : Op} (hlegal : op.Legal wt wu)
    (hfits : op.Fits cfg wt wu) :
    Agree cfg ties (op.begin .tcp wt) (op.begin .udp wu) := by
  have hnil : Lockless [] := List.forall_mem_nil _
  cases op with
  | registerTcp s => exact .registerTcp h s
  | registerQuic s => exact .registerQuic h s
  | dropLink g => exact .dropLink h g
  | purge s generation => exact .purge h s generation _
  | submit c => exact .submit h hlegal hfits
  | timeout key epoch => exact .timeout h key epoch
  | reject key code => exact .reject h key code hnil hnil fun _ _ => .done
  | dropLease lease => exact .tail h (.leaseDrop ⟨rfl, rfl, rfl⟩ .nil)
  | wait elapsed => exact .done { h with now := congrArg (· + elapsed) h.now }

end Calls

/-- `P` holds of every operation of a sequence, at the registries in which it begins. -/
def Along (P : World → World → Op → Prop) (cfg : Config) : World → World → List Atomic → Prop
  | _, _, [] => True
  | wt, wu, a :: as => P wt wu a.op ∧ ∀ wt' wu', Performs cfg .tcp a wt wt' →
      Performs cfg .udp a wu wu' → Along P cfg wt' wu' as

theorem steady_init : Steady .init .init where
  entries := .empty _
  noUdp := rfl
  noTcp := rfl
  claims := ⟨.empty _, rfl, rfl⟩
  rejections := rfl
  links := rfl
  nextQuicGeneration := rfl
  now := rfl
  cancelled := rfl
  nextBudget := rfl
  stats := rfl
  log := .nil
  apart := fun _ _ h => by cases h
  waiting := fun _ _ h => by cases h
  permitted := fun _ _ h => by cases h

variable {cfg : Config} {wt wu : World}

theorem Steady.performs (h : Steady wt wu) {a : Atomic} (hlegal : a.op.Legal wt wu)
    (hfits : a.op.Fits cfg wt wu) :
    ∃ wt' wu', Performs cfg .tcp a wt wt' ∧ Performs cfg .udp a wu wu' ∧ Steady wt' wu' := by
  have hagree : Agree cfg a.ties (a.op.begin .tcp wt) (a.op.begin .udp wu) := .op h hlegal hfits
  obtain ⟨⟨wt', left⟩, ht, ⟨wu', left'⟩, hu, hsteady, rfl, hreturned⟩ := hagree
  exact ⟨wt', wu', ⟨_, ht, hreturned⟩, ⟨_, hu, hreturned⟩, hsteady⟩

theorem Steady.run {as : List Atomic} (h : Steady wt wu)
    (has : Along (fun wt wu op => op.Legal wt wu ∧ op.Fits cfg wt wu) cfg wt wu as) :
    ∃ wts wus, Run cfg .tcp wt as wts ∧ Run cfg .udp wu as wus ∧
      List.Forall₂ Mirrors wts wus := by
  induction as generalizing wt wu with
  | nil => exact ⟨[], [], .nil wt, .nil wu, .nil⟩
  | cons a as ih =>
    obtain ⟨⟨hlegal, hfits⟩, hnext⟩ := has
    obtain ⟨wt', wu', ht, hu, h'⟩ := h.performs hlegal hfits
    obtain ⟨wts, wus, hts, hus, hall⟩ := ih h' (hnext wt' wu' ht hu)
    exact ⟨wt' :: wts, wu' :: wus, .cons ht hts, .cons hu hus, .cons h'.toMirrors hall⟩

/-! ## Computed outcomes -/

section Computed

variable {cfg : Config} {kind : FlowKind} {a : Atomic} {w : World}

/-- The operation after at most `n` steps. -/
def Atomic.finish (cfg : Config) (kind : FlowKind) (n : Nat) (a : Atomic) (w : World) :
    World × List Frame :=
  (portal cfg).finish a.ties.choice n (a.op.begin kind w)

/-- The operation has come to its end. -/
def Atomic.ended (cfg : Config) (kind : FlowKind) (n : Nat) (a : Atomic) (w : World) : Bool :=
  ((portal cfg).alone a.ties.choice (a.finish cfg kind n w)).isNone

variable {n : Nat} {wt wu : World} {c : Submission}

theorem performs_finish (hend : a.ended cfg kind n w = true)
    (hreturned : returned (a.finish cfg kind n w).2 = true) :
    Performs cfg kind a w (a.finish cfg kind n w).1 :=
  ⟨_, Tasks.System.finish_mem_eval hend, hreturned⟩

theorem Performs.eq_finish {w' : World} (h : Performs cfg kind a w w')
    (hend : a.ended cfg kind n w = true) :
    w' = (a.finish cfg kind n w).1 ∧ returned (a.finish cfg kind n w).2 = true := by
  obtain ⟨left, hleft, hreturned⟩ := h
  have heq : (w', left) = a.finish cfg kind n w :=
    Part.mem_unique hleft (Tasks.System.finish_mem_eval hend)
  exact ⟨congrArg Prod.fst heq, by rw [← heq]; exact hreturned⟩

theorem Along.computed {P : World → World → Op → Prop} {wt wu : World} {as : List Atomic} (n : Nat)
    (hP : P wt wu a.op) (ht : a.ended cfg .tcp n wt = true) (hu : a.ended cfg .udp n wu = true)
    (hrest : returned (a.finish cfg .udp n wu).2 = true →
      Along P cfg (a.finish cfg .tcp n wt).1 (a.finish cfg .udp n wu).1 as) :
    Along P cfg wt wu (a :: as) := by
  refine ⟨hP, fun wt' wu' ht' hu' => ?_⟩
  obtain ⟨rfl, _⟩ := ht'.eq_finish ht
  obtain ⟨rfl, hreturned⟩ := hu'.eq_finish hu
  exact hrest hreturned

theorem Submission.Legal.computed {wt wu : World} {c : Submission} (hc : c.BuiltTcp)
    (hlane : linkCurrent wt.links c.sessionId c.link = true)
    (hpermits : (wu.links.lookup c.sessionId).all
      (fun counts => decide (0 < wu.permits.available counts.udpFlowBudget)) = true) :
    c.Legal wt wu where
  toBuiltTcp := hc
  lane := fun _ => hlane
  permits := by
    intro counts hcounts
    rw [hcounts] at hpermits
    exact of_decide_eq_true hpermits

/-- The first OPEN of a key fits. -/
theorem openFits_of_first (hclaim : (w.claims.map.lookup c.key).isNone = true)
    (hentry : ((w.pending c.via).lookup c.key).isNone = true)
    (hroom : w.claims.pendingCount c.sessionId < cfg.maxPending) : OpenFits cfg w c := by
  intro _ _ _
  rw [Option.isNone_iff_eq_none] at hclaim hentry
  have hswept : swept w c = w := by
    unfold swept
    rw [hentry]
  rw [hswept]
  constructor
  · unfold ClaimAdmits
    rw [hclaim]
    exact hroom
  · intro p hp
    rw [hentry] at hp
    cases hp

end Computed

/-- Histories of flows of either kind agree: each operation returns on both registries, with
corresponding outcomes, rejections, entries, claims and tombstones. -/
theorem kinds_agree (cfg : Config) (as : List Atomic)
    (h : Along (fun wt wu op => op.Legal wt wu ∧ op.Fits cfg wt wu) cfg .init .init as) :
    ∃ wts wus, Run cfg .tcp .init as wts ∧ Run cfg .udp .init as wus ∧
      List.Forall₂ Mirrors wts wus :=
  steady_init.run h

namespace Sample

def ties : Ties := ⟨fun _ => 0, true⟩

/-- An OPEN on a TLS lane. -/
def openCall (id : Nat) : Submission where
  id := id
  via := .tcp
  sessionId := session
  header := openTcp
  target := some target
  link := ⟨path, none⟩
  uplink := some (.tcp ⟨id, some ⟨session, .tlsTcp, none⟩⟩)
  downlink := none
  liveness := none
  permit := none

/-- An ATTACH on the first QUIC connection. -/
def attachCall (id : Nat) : Submission where
  id := id
  via := .tcp
  sessionId := session
  header := attachTcp
  target := none
  link := ⟨path, some 1⟩
  uplink := none
  downlink := some (.tcp ⟨id, none⟩)
  liveness := none
  permit := none

theorem openCall_built (id : Nat) : (openCall id).BuiltTcp where
  toBuilt := by constructor <;> simp [openCall, openTcp, Uplink.source, Uplink.guard]
  kind := rfl
  reader := by simp [openCall]
  writer := by simp [openCall]

theorem attachCall_built (id : Nat) : (attachCall id).BuiltTcp where
  toBuilt := by
    constructor <;>
      simp [attachCall, attachTcp, Downlink.source, Downlink.guard, Downlink.writer]
  kind := rfl
  reader := by simp [attachCall]
  writer := by simp [attachCall]

/-- An OPEN and its ATTACH, the end of their flow, and a second ATTACH that is rejected. -/
def pairing : List Atomic :=
  [.registerTcp session, .registerQuic session, .submit (openCall 0), .submit (attachCall 1),
    .dropLease ⟨key, 2, 0, some ⟨0⟩⟩, .submit (attachCall 2),
    .reject key .invalidRequest].map (⟨·, ties⟩)

/-- Two OPENs of one flow on two of three registered lanes. -/
def openTwice : List Atomic :=
  [.registerTcp session, .registerTcp session, .registerTcp session, .submit (openCall 0),
    .submit (openCall 1)].map (⟨·, ties⟩)

end Sample

/-- The call returned an error with the given code. -/
def Event.failed (id : Nat) (code : FlowErrorCode) : Event → Bool
  | .returned id' (some e) => decide (id' = id ∧ e.code = code)
  | _ => false

open Sample

theorem kinds_agree_pairing :
    Along (fun wt wu op => op.Legal wt wu ∧ op.Fits config wt wu) config .init .init pairing ∧
      ∃ wts wus, Run config .tcp .init pairing wts ∧ Run config .udp .init pairing wus ∧
        List.Forall₂ Mirrors wts wus := by
  have h : Along (fun wt wu op => op.Legal wt wu ∧ op.Fits config wt wu) config .init .init
      pairing := by
    refine .computed 20 ⟨trivial, trivial⟩ (by decide +kernel) (by decide +kernel) fun _ => ?_
    refine .computed 20 ⟨trivial, trivial⟩ (by decide +kernel) (by decide +kernel) fun _ => ?_
    refine .computed 20 ⟨.computed (openCall_built 0) (by decide +kernel) (by decide +kernel),
      openFits_of_first (by decide +kernel) (by decide +kernel) (by decide +kernel)⟩
      (by decide +kernel) (by decide +kernel) fun _ => ?_
    refine .computed 20 ⟨.computed (attachCall_built 1) (by decide +kernel) (by decide +kernel),
      by rintro ⟨⟩⟩ (by decide +kernel) (by decide +kernel) fun _ => ?_
    refine .computed 20 ⟨trivial, trivial⟩ (by decide +kernel) (by decide +kernel) fun _ => ?_
    refine .computed 20 ⟨.computed (attachCall_built 2) (by decide +kernel) (by decide +kernel),
      by rintro ⟨⟩⟩ (by decide +kernel) (by decide +kernel) fun _ => ?_
    exact .computed 20 ⟨trivial, trivial⟩ (by decide +kernel) (by decide +kernel) fun _ => trivial
  exact ⟨h, kinds_agree config pairing h⟩

/-- A duplicate OPEN on a registered lane, with permits to spare: `submit_tcp` returns
`MetadataConflict`, `submit_udp` does not return. -/
theorem duplicateOpen_diverges :
    Along Op.Legal config .init .init openTwice ∧
      (∃ wts w, Run config .tcp .init openTwice wts ∧ wts.getLast? = some w ∧
        w.log.any (Event.failed 1 .metadataConflict) = true) ∧
      ¬ ∃ wus, Run config .udp .init openTwice wus := by
  refine ⟨?_, ?_, ?_⟩
  · refine .computed 20 trivial (by decide +kernel) (by decide +kernel) fun _ => ?_
    refine .computed 20 trivial (by decide +kernel) (by decide +kernel) fun _ => ?_
    refine .computed 20 trivial (by decide +kernel) (by decide +kernel) fun _ => ?_
    refine .computed 20 (.computed (openCall_built 0) (by decide +kernel) (by decide +kernel))
      (by decide +kernel) (by decide +kernel) fun _ => ?_
    exact .computed 20 (.computed (openCall_built 1) (by decide +kernel) (by decide +kernel))
      (by decide +kernel) (by decide +kernel) fun _ => trivial
  · refine ⟨_, _, .cons (performs_finish (n := 20) (by decide +kernel) (by decide +kernel))
      (.cons (performs_finish (n := 20) (by decide +kernel) (by decide +kernel))
      (.cons (performs_finish (n := 20) (by decide +kernel) (by decide +kernel))
      (.cons (performs_finish (n := 20) (by decide +kernel) (by decide +kernel))
      (.cons (performs_finish (n := 20) (by decide +kernel) (by decide +kernel)) (.nil _))))),
      rfl, ?_⟩
    decide +kernel
  · rintro ⟨wus, hrun⟩
    -- the first four operations have one outcome each, the fifth ends with a frame that has not run
    obtain _ | ⟨h₁, hrun⟩ := hrun
    obtain _ | ⟨h₂, hrun⟩ := hrun
    obtain _ | ⟨h₃, hrun⟩ := hrun
    obtain _ | ⟨h₄, hrun⟩ := hrun
    obtain _ | ⟨h₅, _⟩ := hrun
    obtain ⟨rfl, _⟩ := h₁.eq_finish (n := 20) (by decide +kernel)
    obtain ⟨rfl, _⟩ := h₂.eq_finish (n := 20) (by decide +kernel)
    obtain ⟨rfl, _⟩ := h₃.eq_finish (n := 20) (by decide +kernel)
    obtain ⟨rfl, _⟩ := h₄.eq_finish (n := 20) (by decide +kernel)
    have hreturned := (h₅.eq_finish (n := 20) (by decide +kernel)).2
    revert hreturned
    decide +kernel

end Nowhere.Portal
