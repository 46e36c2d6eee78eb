import Nowhere.TcpExchangeRuns

/-!
# What a TCP flow delivers

In every run the target gets the front of what the client sent and the client the front of what the
target sent, behind its SOCKS reply. When both relays have ended in order, it is everything. The
setup result that Vector reads is the one Portal wrote.
-/

namespace Nowhere.TcpExchange

open Protocol Relay Common.Socks Nowhere.Vector

section Sound

variable {c : Config} {w : World}

theorem Sound.up_isPrefix (h : Sound c w) : w.targetUp.written <+: w.clientUp.taken :=
  h.portalUp.isPrefix.trans (w.laneUp.taken_isPrefix.trans h.vectorUp.isPrefix)

/-- Until Vector relays, nothing goes up. -/
theorem Sound.up_idle (h : Sound c w) (hleg : w.vectorLeg ≠ .relaying) :
    w.targetUp.written = [] := by
  have htaken := h.up_isPrefix
  rw [(h.vectorIdle hleg).2] at htaken
  exact List.prefix_nil.mp htaken

/-- What Portal's relay has written to the lane behind `READY`. -/
theorem Sound.lane_down (h : Sound c w) (hleg : w.portalLeg = .relaying) :
    ∃ passed, w.laneDown.written = encodeFlowResult .ready ++ passed ∧
      passed <+: w.targetDown.taken :=
  (h.portalRelays hleg).2.1.passed

/-- What Vector knows of the flow decides what its client has been sent. -/
theorem Sound.client (h : Sound c w) :
    (w.setup = none ∧ w.vectorLeg ≠ .relaying ∧ w.clientDown.written = []) ∨
    (∃ result, Refused w result ∧ w.vectorLeg ≠ .relaying ∧
      w.clientDown.written <+: reply (OpenFlowError.setup result).socksReply) ∨
    (Ready w ∧ ∃ passed, encodeFlowResult .ready ++ passed <+: w.laneDown.written ∧
      w.clientDown.written <+: reply replySucceeded ++ passed) := by
  have hdown := h.vectorDown
  unfold VectorDown at hdown
  cases hleg : w.vectorLeg with
  | awaiting =>
    rw [hleg] at hdown
    exact .inl ⟨hdown.1, nofun, hdown.2.2.1⟩
  | replying rest =>
    rw [hleg] at hdown
    obtain ⟨hready, htaken, hwritten, _⟩ := hdown
    refine .inr (.inr ⟨hready, [], ?_, rest, ?_⟩)
    · rw [List.append_nil, ← htaken]
      exact w.laneDown.taken_isPrefix
    · rw [hwritten, List.append_nil]
  | refusing result rest =>
    rw [hleg] at hdown
    exact .inr (.inl ⟨result, hdown.1, nofun, rest, hdown.2.1⟩)
  | relaying =>
    rw [hleg] at hdown
    obtain ⟨passed, hwritten, htaken⟩ := hdown.2.1.passed
    refine .inr (.inr ⟨hdown.1, passed, htaken.trans w.laneDown.taken_isPrefix, ?_⟩)
    rw [← hwritten]
    exact List.prefix_refl _
  | returned =>
    rw [hleg] at hdown
    rcases hdown.2 with ⟨hsetup, hwritten⟩ | ⟨hready, hwritten⟩ | ⟨result, hrefused, hwritten⟩
    · exact .inl ⟨hsetup, nofun, hwritten⟩
    · obtain ⟨passed, hlane, _⟩ := h.lane_down hready.2
      refine .inr (.inr ⟨hready, [], ?_, ?_⟩)
      · rw [hlane, List.append_nil]
        exact List.prefix_append _ _
      · rwa [List.append_nil]
    · exact .inr (.inl ⟨result, hrefused, nofun, hwritten⟩)

/-- A client that has its success reply gets what Portal has relayed. -/
theorem Sound.down_ready (h : Sound c w) (hready : Ready w) {passed : List UInt8}
    (hpassed : encodeFlowResult .ready ++ passed <+: w.laneDown.written) :
    passed <+: w.targetDown.written := by
  obtain ⟨passed', hlane, htarget⟩ := h.lane_down hready.2
  rw [hlane, List.prefix_append_right_inj] at hpassed
  exact hpassed.trans (htarget.trans w.targetDown.taken_isPrefix)

end Sound

/-! ## Order -/

/-- A flow in which both ends send and close: the pieces are cut differently on each hop. -/
def transfer : List Event :=
  [.portal .dialed, .portal .committed, .portal (.wrote 1), .vector .result, .vector (.wrote 4),
    .vector (.wrote 6), .clientWrites [1, 2, 3, 4, 5], .clientCloses, .vector (.up (.read 4)),
    .vector (.up (.wrote 3)), .vector (.up (.wrote 1)), .portal (.up (.read 3)),
    .portal (.up .waited), .portal (.up (.wrote 3)), .portal (.up .flushed),
    .vector (.up (.read 1)), .vector (.up (.wrote 1)), .portal (.up (.read 2)),
    .portal (.up .waited), .portal (.up (.wrote 2)), .portal (.up .flushed),
    .vector (.up (.read 0)), .vector (.up .closed), .portal (.up (.read 0)),
    .portal (.up .closed), .targetWrites [9], .portal (.down (.read 1)), .portal (.down .waited),
    .portal (.down (.wrote 1)), .portal (.down .flushed), .vector (.down (.read 1)),
    .vector (.down (.wrote 1)), .targetCloses, .portal (.down (.read 0)), .portal (.down .closed),
    .vector (.down (.read 0)), .vector (.down .closed)]

/-- Vector's buffer holds four bytes, Portal's three, and Portal has a rate limiter. -/
def transferConfig : Config := ⟨4, false, 3, true⟩

/-- The state after the transfer. -/
def transferred (w : World) : Bool :=
  decide (w.setup.map Except.isOk = some true ∧ w.targetUp.written = [1, 2, 3, 4, 5] ∧
    w.targetDown.written = [9] ∧ w.targetUp.closed = some .shutdown ∧
    w.laneUp.closed = some .shutdown ∧ w.clientDown.closed = some .shutdown ∧
    w.laneDown.closed = some .shutdown)

theorem exists_transferred :
    ∃ w, Machine.Reachable (step transferConfig) .start w ∧ transferred w = true :=
  Machine.exists_reachable_of_run
    (show (Machine.run (step transferConfig) .start transfer).any transferred = true by
      decide +kernel)

/-- **Nothing is lost, reordered or made up in between.** At every moment of every run, what the
target was sent is the front of what the client wrote. The client has been sent nothing as long as
the flow's setup is open; the front of one SOCKS reply, which is not a success, if it failed, and
then the target has been sent nothing at all; and otherwise the front of the success reply with the
front of what the target wrote behind it. -/
theorem tcp_exchange_in_order {c : Config} {w : World}
    (h : Machine.Reachable (step c) .start w) :
    w.targetUp.written <+: w.clientUp.written ∧
    (w.setup = none → w.targetUp.written = [] ∧ w.clientDown.written = []) ∧
    (∀ result, w.setup = some (.error result) → w.targetUp.written = [] ∧
      (OpenFlowError.setup result).socksReply ≠ replySucceeded ∧
      w.clientDown.written <+: reply (OpenFlowError.setup result).socksReply) ∧
    (w.setup = some (.ok ()) → ∃ passed, passed <+: w.targetDown.written ∧
      w.clientDown.written <+: reply replySucceeded ++ passed) := by
  have hsound := sound_of_reachable h
  refine ⟨hsound.up_isPrefix.trans w.clientUp.taken_isPrefix, ?_⟩
  rcases hsound.client with ⟨hsetup, hleg, hwritten⟩ | ⟨result, hrefused, hleg, hwritten⟩ |
    ⟨hready, passed, hpassed, hwritten⟩
  · refine ⟨fun _ => ⟨hsound.up_idle hleg, hwritten⟩, ?_, ?_⟩ <;> simp [hsetup]
  · refine ⟨by simp [hrefused.1], ?_, by simp [hrefused.1]⟩
    intro result' hsetup
    cases hrefused.1.symm.trans hsetup
    exact ⟨hsound.up_idle hleg, OpenFlowError.socksReply_ne_succeeded _, hwritten⟩
  · refine ⟨by simp [hready.1], by simp [hready.1], fun _ => ⟨passed, ?_, hwritten⟩⟩
    exact hsound.down_ready hready hpassed

theorem tcp_exchange_in_order_transfer :
    ∃ w, Machine.Reachable (step transferConfig) .start w ∧ w.targetUp.written = [1, 2, 3, 4, 5] ∧
      w.targetUp.written <+: w.clientUp.written := by
  obtain ⟨w, hw, htransferred⟩ := exists_transferred
  have hdone := of_decide_eq_true htransferred
  exact ⟨w, hw, hdone.2.1, (tcp_exchange_in_order hw).1⟩

/-! ## Setup -/

/-- **One setup result, and both sides agree on it.** Portal writes nothing to the downlink lane,
one `REJECT` and nothing else, or `READY`, and that only after it has reached the target. Vector has
opened the flow only if Portal relays; and an error that is not Vector's own is the one that Portal
wrote. -/
theorem tcp_setup_agrees {c : Config} {w : World} (h : Machine.Reachable (step c) .start w) :
    (w.laneDown.written = [] ∨
      (∃ code, w.laneDown.written = encodeFlowResult (.reject code)) ∨
      (w.connected = true ∧ w.portalLeg = .relaying ∧
        encodeFlowResult .ready <+: w.laneDown.written)) ∧
    (w.setup = some (.ok ()) → w.connected = true ∧ w.portalLeg = .relaying) ∧
    (∀ result, w.setup = some (.error result) → result = .internalError ∨
      ∃ code, result = .ofErrorCode code ∧
        w.laneDown.written = encodeFlowResult (.reject code)) := by
  have hsound := sound_of_reachable h
  refine ⟨hsound.portalDown.result, ?_, ?_⟩
  · intro hsetup
    rcases hsound.client with ⟨hnone, _⟩ | ⟨result, hrefused, _⟩ | ⟨hready, _⟩
    · cases hnone.symm.trans hsetup
    · cases hrefused.1.symm.trans hsetup
    · exact ⟨(hsound.portalRelays hready.2).1, hready.2⟩
  · intro result hsetup
    rcases hsound.client with ⟨hnone, _⟩ | ⟨result', hrefused, _⟩ | ⟨hready, _⟩
    · cases hnone.symm.trans hsetup
    · cases hrefused.1.symm.trans hsetup
      exact hrefused.2
    · cases hready.1.symm.trans hsetup

theorem tcp_setup_agrees_transfer :
    ∃ w, Machine.Reachable (step transferConfig) .start w ∧ w.setup.isSome = true ∧
      (w.setup = some (.ok ()) → w.connected = true ∧ w.portalLeg = .relaying) := by
  obtain ⟨w, hw, htransferred⟩ := exists_transferred
  have hsetup := (of_decide_eq_true htransferred).1
  refine ⟨w, hw, ?_, (tcp_setup_agrees hw).2.1⟩
  rw [← Option.isSome_map (f := Except.isOk), hsetup]
  rfl

/-! ## Completeness -/

section Complete

variable {c : Config} {w : World}

/-- A loop that has shut its target down has ended. -/
theorem Sound.down_ended (h : Sound c w) (hclosed : w.clientDown.closed = some .shutdown) :
    w.vectorLeg = .relaying ∧ w.vectorDown.leg.Ended = true := by
  have hdown := h.vectorDown
  unfold VectorDown at hdown
  cases hleg : w.vectorLeg with
  | awaiting => rw [hleg] at hdown; cases hdown.2.2.2.symm.trans hclosed
  | replying rest => rw [hleg] at hdown; cases hdown.2.2.2.symm.trans hclosed
  | refusing result rest => rw [hleg] at hdown; cases hdown.2.2.symm.trans hclosed
  | relaying => rw [hleg] at hdown; exact ⟨rfl, hdown.2.2.shuts.mp hclosed⟩
  | returned => rw [hleg] at hdown; exact absurd hclosed hdown.1

theorem Sound.up_complete (h : Sound c w) (hvector : 0 < c.vectorBuffer)
    (hportal : 0 < c.portalBuffer) (htarget : w.targetUp.closed = some .shutdown)
    (hlane : w.laneUp.closed = some .shutdown) :
    w.targetUp.written = w.clientUp.written ∧ w.clientUp.AtEnd := by
  have hended := Leg.finishing_of_ended (h.portalUpGuarded.shuts.mp htarget)
  have hended' := Leg.finishing_of_ended (h.vectorUpGuarded.shuts.mp hlane)
  obtain ⟨_, passed, hsource, hwritten⟩ := h.portalUp.complete hended hportal
  obtain ⟨hend, passed', hsource', hwritten'⟩ := h.vectorUp.complete hended' hvector
  rw [show w.targetUp.written = passed from hwritten,
    ← show w.laneUp.written = passed from hsource, show w.laneUp.written = passed' from hwritten',
    ← show w.clientUp.written = passed' from hsource']
  exact ⟨rfl, hend⟩

theorem Sound.down_complete (h : Sound c w) (hvector : 0 < c.vectorBuffer)
    (hportal : 0 < c.portalBuffer) (hclient : w.clientDown.closed = some .shutdown)
    (hlane : w.laneDown.closed = some .shutdown) :
    w.clientDown.written = reply replySucceeded ++ w.targetDown.written ∧ w.targetDown.AtEnd := by
  obtain ⟨hleg, hended⟩ := h.down_ended hclient
  obtain ⟨hready, hkept, _⟩ := h.vectorRelays hleg
  obtain ⟨_, hkept', hguarded⟩ := h.portalRelays hready.2
  have hended' := Leg.finishing_of_ended (hguarded.shuts.mp hlane)
  obtain ⟨_, passed, hsource, hwritten⟩ := hkept.complete (Leg.finishing_of_ended hended) hvector
  obtain ⟨hend, passed', hsource', hwritten'⟩ := hkept'.complete hended' hportal
  have hsame : passed = passed' := List.append_cancel_left
    ((show w.laneDown.written = _ from hsource).symm.trans hwritten')
  subst hsame
  rw [show w.clientDown.written = _ from hwritten,
    ← show w.targetDown.written = passed from hsource']
  exact ⟨rfl, hend⟩

end Complete

/-- **An orderly end means that everything has arrived.** With buffers that hold at least one byte:
when Portal has shut down its connection to the target and Vector the uplink lane, the client has
ended its stream and all of it was written to the target; and when Vector has shut down its client's
stream and Portal the downlink lane, the target has ended its stream and all of it was written to
the client. -/
theorem tcp_orderly_end_complete {c : Config} {w : World} (hvector : 0 < c.vectorBuffer)
    (hportal : 0 < c.portalBuffer) (h : Machine.Reachable (step c) .start w) :
    (w.targetUp.closed = some .shutdown → w.laneUp.closed = some .shutdown →
      w.clientUp.closed ≠ none ∧ w.targetUp.written = w.clientUp.written) ∧
    (w.clientDown.closed = some .shutdown → w.laneDown.closed = some .shutdown →
      w.targetDown.closed ≠ none ∧
      w.clientDown.written = reply replySucceeded ++ w.targetDown.written) := by
  have hsound := sound_of_reachable h
  constructor
  · intro htarget hlane
    obtain ⟨hwritten, hend⟩ := hsound.up_complete hvector hportal htarget hlane
    exact ⟨hend.2, hwritten⟩
  · intro hclient hlane
    obtain ⟨hwritten, hend⟩ := hsound.down_complete hvector hportal hclient hlane
    exact ⟨hend.2, hwritten⟩

theorem tcp_orderly_end_complete_transfer :
    ∃ w, Machine.Reachable (step transferConfig) .start w ∧
      w.clientUp.written = [1, 2, 3, 4, 5] ∧
      w.clientDown.written = reply replySucceeded ++ [9] := by
  obtain ⟨w, hw, htransferred⟩ := exists_transferred
  obtain ⟨_, hup, hdown, htarget, hlane, hclient, hlane'⟩ := of_decide_eq_true htransferred
  have hcomplete := tcp_orderly_end_complete (by decide) (by decide) hw
  exact ⟨w, hw, (hcomplete.1 htarget hlane).2 ▸ hup, hdown ▸ (hcomplete.2 hclient hlane').2⟩

end Nowhere.TcpExchange
