import Nowhere.Portal.Session

/-!
# How the steps of a session end

`exec_outcome` goes through every step function of `Nowhere.Portal.Session` once. A step either
leaves the world alone and only moves its task on (`Moves`), or it is one of the changes listed
in `Outcome`. Every invariant of the session is proved from these two, never from `exec`.
-/

namespace Nowhere.Portal.Session

open Protocol Common Assoc

/-- The steps that leave the world alone: the frames that replace the frame, and new tasks. -/
inductive Moves (w : World) : Frame → List Frame → List (List Frame) → Prop
  | refuse (flowId : FlowId) : Moves w (.installUdpUplink flowId) [] []
  | installFlows {flowId : FlowId} (open_ : w.closed = false) :
      Moves w (.installUdpUplink flowId) [.installFlows flowId] []
  | refuseLocked (flowId : FlowId) : Moves w (.installFlows flowId) [] []
  | installInsert {flowId : FlowId} (open_ : w.closed = false)
      (free : w.udpFlows.lookup flowId = none) :
      Moves w (.installFlows flowId) [.installInsert flowId] []
  | submitFailed (flowId : FlowId) (route : Nat) :
      Moves w (.submitUdp flowId route)
        [.dropReceiver flowId route, .removeUdpUplink flowId (.failure route)] []
  | submitAborted (flowId : FlowId) (route : Nat) :
      Moves w (.submitUdp flowId route) [.dropReceiver flowId route] []
  | submitPending (flowId : FlowId) (route : Nat) :
      Moves w (.submitUdp flowId route) [] [[.pairing flowId route]]
  | submitPaired (flowId : FlowId) (route : Nat) :
      Moves w (.submitUdp flowId route) [] [[.relay flowId route .dialing]]
  | pairingDropped (flowId : FlowId) (route : Nat) :
      Moves w (.pairing flowId route) [.dropReceiver flowId route] []
  | pairingPaired (flowId : FlowId) (route : Nat) :
      Moves w (.pairing flowId route) [.relay flowId route .dialing] []
  | dropReceiver (flowId : FlowId) (route : Nat) :
      Moves w (.dropReceiver flowId route)
        [.removeUdpUplink flowId (.receiver route), .closeChannel route] []
  | removeUdpUplink (flowId : FlowId) (cause : Cause) :
      Moves w (.removeUdpUplink flowId cause) [.removeReassembly flowId cause] []
  | closeAgain : Moves w .close [] []
  | closeFlows : Moves w .closeFlows [.closeReassembly] []
  | noLoop : Moves w .datagramLoop [] []
  | cleanup : Moves w .select [.expire, .select] []
  | drainOn (route deadline : Nat) :
      Moves w (.commitCheck route deadline) [.commitUdpReady route deadline] []
  | invalid (d : Datagram) (installed : Nat) : Moves w (.handleDatagram d installed) [] []
  | data {d : Datagram} {flowId : FlowId} {payload : List UInt8} (installed : Nat)
      (decoded : decodeUdpFrameOwned d.data = .ok (.data flowId payload)) :
      Moves w (.handleDatagram d installed) [.handleUnfragmentedUdp d.number flowId payload] []
  | fragment {d : Datagram} {flowId : FlowId} {fragment : UdpFragment} (installed : Nat)
      (decoded : decodeUdpFrameOwned d.data = .ok (.fragment flowId fragment)) :
      Moves w (.handleDatagram d installed) [.handleUdpFragment d.number flowId fragment] []
  | closeFrame {d : Datagram} {flowId : FlowId} (installed : Nat)
      (decoded : decodeUdpFrameOwned d.data = .ok (.close flowId)) :
      Moves w (.handleDatagram d installed) [.removeUdpUplink flowId (.closeFrame installed)] []
  | noRouteForData (number : Nat) (flowId : FlowId) (payload : List UInt8) :
      Moves w (.handleUnfragmentedUdp number flowId payload) [] []
  | noRouteForFragment (number : Nat) (flowId : FlowId) (fragment : UdpFragment) :
      Moves w (.handleUdpFragment number flowId fragment) [] []
  | pushFragment {flowId : FlowId} {route : Nat} (number : Nat) (fragment : UdpFragment)
      (ready : w.readyRoute flowId = some route) :
      Moves w (.handleUdpFragment number flowId fragment)
        [.pushFragment number flowId fragment route] []
  | relayEnds {stage : RelayStage} (flowId : FlowId) (route : Nat)
      (stage_ne : stage ≠ .activating) :
      Moves w (.relay flowId route stage) [.dropReceiver flowId route] []
  | dialed (flowId : FlowId) (route : Nat) :
      Moves w (.relay flowId route .dialing) [.relay flowId route .preparing] []
  | prepared {route : Nat} (flowId : FlowId) (acknowledged : w.acknowledged route = some true) :
      Moves w (.relay flowId route .awaiting) [.relay flowId route .committing] []

/-- The frame that a datagram loop goes on with after the DATAGRAM it has just read. -/
inductive Reads : Frame → Frame → Prop
  | select : Reads .select .select
  | drain (route deadline : Nat) :
      Reads (.commitUdpReady route deadline) (.commitCheck route deadline)

/-- The datagram loop answers the ready request of a route. -/
inductive Answers (w : World) (route : Nat) : Frame → Bool → Prop
  | drained (deadline : Nat) (empty : w.datagrams = []) (connected : w.disconnected = false) :
      Answers w route (.commitUdpReady route deadline) true
  | disconnected (deadline : Nat) : Answers w route (.commitUdpReady route deadline) false
  | cutShort (deadline : Nat) : Answers w route (.commitCheck route deadline) false

/-- A step of `f` and what it does, for every step there is. -/
inductive Outcome (cfg : Config) (w : World) : Frame → Effect → Prop
  | quiet {f : Frame} {frames : List Frame} {spawned : List (List Frame)}
      (moves : Moves w f frames spawned) : Outcome cfg w f ⟨w, frames, spawned⟩
  | install (flowId : FlowId) : Outcome cfg w (.installInsert flowId) (installInsertStep w flowId)
  | closeChannel (route : Nat) : Outcome cfg w (.closeChannel route) (closeChannelStep w route)
  | remove (flowId : FlowId) (cause : Cause) :
      Outcome cfg w (.removeReassembly flowId cause) (removeReassemblyStep w flowId)
  | closing : Outcome cfg w .close ⟨{ w with closed := true }, [.closeFlows], []⟩
  | clear : Outcome cfg w .closeReassembly (closeReassemblyStep w)
  | loopStart (untaken : w.udpReadyRx = .untaken) :
      Outcome cfg w .datagramLoop ⟨{ w with udpReadyRx := .taken }, [.select], []⟩
  | loopEnd : Outcome cfg w .select (loopEnd w)
  | loopAbort {f : Frame} {route : Nat} (answers : Answers w route f false) :
      Outcome cfg w f (Session.loopEnd (w.acknowledge route false))
  | request {route : Nat} {requests : List Nat} (pending : w.requests = route :: requests) :
      Outcome cfg w .select
        ⟨{ w with requests }, [.commitUdpReady route (w.now + cfg.handshakeTimeout)], []⟩
  | received {f g : Frame} {d : Datagram} {datagrams : List Datagram} (reads : Reads f g)
      (pending : w.datagrams = d :: datagrams) :
      Outcome cfg w f ⟨{ w with datagrams }, [.handleDatagram d w.nextRoute, g], []⟩
  | answered {f : Frame} {route : Nat} {ok : Bool} (answers : Answers w route f ok) :
      Outcome cfg w f ⟨w.acknowledge route ok, [.select], []⟩
  | expire : Outcome cfg w .expire (expireStep w)
  | dataRefused {flowId : FlowId} {route : Nat} (number : Nat) (payload : List UInt8)
      (ready : w.readyRoute flowId = some route) :
      Outcome cfg w (.handleUnfragmentedUdp number flowId payload)
        ⟨{ w with log := w.log ++ [.data flowId route number payload false] }, [], []⟩
  | dataEnqueued {flowId : FlowId} {route : Nat} {payload : List UInt8} {permit : Reservation}
      {channel : Channel} (number budget : Nat) (ready : w.readyRoute flowId = some route)
      (sent : (w.channels route).trySend ⟨payload, permit⟩ = .ok channel) :
      Outcome cfg w (.handleUnfragmentedUdp number flowId payload)
        ⟨{ w with
            channels := Function.update w.channels route channel
            udpQueueBudget := budget
            log := w.log ++ [.data flowId route number payload true] }, [], []⟩
  | fragmentKept {flowId : FlowId} {fragment : UdpFragment} {route n : Nat}
      {e : Protocol.Effect Reservation} (number budget : Nat)
      (result : w.udpReassembler.apply
        (.push (fragmentPush w.udpReassembler w.udpQueueBudget w.now n flowId fragment)) = .ok e) :
      Outcome cfg w (.pushFragment number flowId fragment route)
        ⟨{ w with
            udpReassembler := e.state
            udpQueueBudget := budget
            log := w.log ++ [.fragment route number
              (fragmentPush w.udpReassembler w.udpQueueBudget w.now n flowId fragment) e false] },
          [], []⟩
  | fragmentEnqueued {flowId : FlowId} {fragment : UdpFragment} {route n : Nat}
      {e : Protocol.Effect Reservation} {payload : List UInt8} {reservation : Reservation}
      {evicted : Bool} {channel : Channel} (number budget : Nat)
      (result : w.udpReassembler.apply
        (.push (fragmentPush w.udpReassembler w.udpQueueBudget w.now n flowId fragment)) = .ok e)
      (complete : e.outcome = some (.complete payload reservation evicted))
      (sent : (w.channels route).trySend ⟨payload, reservation⟩ = .ok channel) :
      Outcome cfg w (.pushFragment number flowId fragment route)
        ⟨{ w with
            channels := Function.update w.channels route channel
            udpReassembler := e.state
            udpQueueBudget := budget
            log := w.log ++ [.fragment route number
              (fragmentPush w.udpReassembler w.udpQueueBudget w.now n flowId fragment) e true] },
          [], []⟩
  | rejected {stage : RelayStage} {code : FlowErrorCode} (flowId : FlowId) (route : Nat)
      (stage_ne : stage ≠ .activating)
      (refused : stage = .awaiting →
        w.acknowledged route = some false ∧ code = .internalError) :
      Outcome cfg w (.relay flowId route stage) (relayReject w flowId route code)
  | requested {route : Nat} (flowId : FlowId) :
      Outcome cfg w (.relay flowId route .preparing)
        ⟨{ w with requests := w.requests ++ [route] }, [.relay flowId route .awaiting], []⟩
  | committed {route : Nat} (flowId : FlowId) :
      Outcome cfg w (.relay flowId route .committing)
        ⟨{ w with results := (route, .ready) :: w.results },
          [.relay flowId route .activating], []⟩
  | activated (flowId : FlowId) (route : Nat) :
      Outcome cfg w (.relay flowId route .activating) (activateStep w flowId route)
  | relayed {route : Nat} {d : BudgetedDatagram} {queue : List BudgetedDatagram} (flowId : FlowId)
      (queued : (w.channels route).queue = d :: queue) :
      Outcome cfg w (.relay flowId route .running)
        ⟨{ w with
            channels := Function.update w.channels route { w.channels route with queue }
            udpQueueBudget := w.udpQueueBudget + d.permit.units },
          [.relay flowId route .running], []⟩

section Inversion

variable {cfg : Config} {choice : Choice} {w : World} {r : Effect}

theorem installUdpUplinkStep_moves (flowId : FlowId) :
    Outcome cfg w (.installUdpUplink flowId) (installUdpUplinkStep w flowId) := by
  unfold installUdpUplinkStep
  split
  · exact .quiet (.refuse flowId)
  · rename_i hopen
    exact .quiet (.installFlows (by simpa using hopen))

theorem installFlowsStep_moves (flowId : FlowId) :
    Outcome cfg w (.installFlows flowId) (installFlowsStep w flowId) := by
  unfold installFlowsStep
  split
  · exact .quiet (.refuseLocked flowId)
  · rename_i hfree
    simp only [Bool.or_eq_true, not_or, Bool.not_eq_true, Option.isSome_eq_false_iff,
      Option.isNone_iff_eq_none] at hfree
    exact .quiet (.installInsert hfree.1 hfree.2)

variable {flowId : FlowId} {route deadline : Nat}

theorem submitUdpStep_outcome (h : submitUdpStep w choice flowId route = some r) :
    Outcome cfg w (.submitUdp flowId route) r := by
  unfold submitUdpStep at h
  split at h
  · cases h
    exact .quiet (.submitFailed flowId route)
  · cases h
    exact .quiet (.submitAborted flowId route)
  · cases h
    exact .quiet (.submitPending flowId route)
  · cases h
    exact .quiet (.submitPaired flowId route)
  · cases h

theorem pairingStep_outcome (h : pairingStep w choice flowId route = some r) :
    Outcome cfg w (.pairing flowId route) r := by
  unfold pairingStep at h
  split at h
  · cases h
    exact .quiet (.pairingDropped flowId route)
  · cases h
    exact .quiet (.pairingPaired flowId route)
  · cases h

theorem closeStep_outcome : Outcome cfg w .close (closeStep w) := by
  unfold closeStep
  split
  · exact .quiet .closeAgain
  · exact .closing

theorem datagramLoopStep_outcome : Outcome cfg w .datagramLoop (datagramLoopStep w) := by
  unfold datagramLoopStep
  split
  · rename_i huntaken
    exact .loopStart huntaken
  · exact .quiet .noLoop

theorem selectStep_outcome (h : selectStep cfg w choice = some r) : Outcome cfg w .select r := by
  unfold selectStep at h
  split at h
  · split at h <;> cases h
    exact .loopEnd
  · cases h
    exact .quiet .cleanup
  · split at h <;> cases h
    rename_i hpending
    exact .request hpending
  · split at h
    · cases h
      rename_i hpending
      exact .received .select hpending
    · split at h <;> cases h
      exact .loopEnd
  · cases h
    exact .loopEnd
  · cases h

theorem commitUdpReadyStep_outcome (h : commitUdpReadyStep w choice route deadline = some r) :
    Outcome cfg w (.commitUdpReady route deadline) r := by
  unfold commitUdpReadyStep at h
  split at h
  · split at h
    · cases h
      rename_i hpending
      exact .received (.drain route deadline) hpending
    · cases h
      rename_i hempty
      apply Outcome.answered
      cases hdisconnected : w.disconnected with
      | false => exact .drained deadline hempty hdisconnected
      | true => exact .disconnected deadline
  · cases h
    exact .loopAbort (.disconnected deadline)
  · cases h

theorem commitCheckStep_outcome (h : commitCheckStep w choice route deadline = some r) :
    Outcome cfg w (.commitCheck route deadline) r := by
  unfold commitCheckStep at h
  split at h
  · split at h
    · cases h
      exact .answered (.cutShort deadline)
    · cases h
      exact .quiet (.drainOn route deadline)
  · cases h
    exact .loopAbort (.cutShort deadline)
  · cases h

theorem handleDatagramStep_outcome (d : Datagram) (installed : Nat) :
    Outcome cfg w (.handleDatagram d installed) (handleDatagramStep w d installed) := by
  unfold handleDatagramStep
  split
  · rename_i hdecoded
    exact .quiet (.data installed hdecoded)
  · rename_i hdecoded
    exact .quiet (.fragment installed hdecoded)
  · rename_i hdecoded
    exact .quiet (.closeFrame installed hdecoded)
  · exact .quiet (.invalid d installed)

theorem handleUnfragmentedUdpStep_outcome (number : Nat) (flowId : FlowId)
    (payload : List UInt8) :
    Outcome cfg w (.handleUnfragmentedUdp number flowId payload)
      (handleUnfragmentedUdpStep w number flowId payload) := by
  unfold handleUnfragmentedUdpStep
  split
  · exact .quiet (.noRouteForData number flowId payload)
  · rename_i hready
    dsimp only
    split
    · exact .dataRefused number payload hready
    · split
      · exact .dataRefused number payload hready
      · rename_i hsent
        exact .dataEnqueued number _ hready hsent

theorem handleUdpFragmentStep_outcome (number : Nat) (flowId : FlowId) (fragment : UdpFragment) :
    Outcome cfg w (.handleUdpFragment number flowId fragment)
      (handleUdpFragmentStep w number flowId fragment) := by
  unfold handleUdpFragmentStep
  split
  · exact .quiet (.noRouteForFragment number flowId fragment)
  · rename_i hready
    exact .quiet (.pushFragment number fragment hready)

theorem pushFragmentStep_outcome {number : Nat} {fragment : UdpFragment}
    (h : pushFragmentStep w choice number flowId fragment route = some r) :
    Outcome cfg w (.pushFragment number flowId fragment route) r := by
  unfold pushFragmentStep at h
  split at h
  · dsimp only at h
    split at h
    · cases h
    · rename_i hresult
      split at h
      · rename_i hcomplete
        split at h
        · cases h
          exact .fragmentKept number _ hresult
        · cases h
          rename_i hsent
          exact .fragmentEnqueued number _ hresult hcomplete hsent
      · cases h
        exact .fragmentKept number _ hresult
  · cases h

theorem relayStep_outcome {flowId : FlowId} {route : Nat} {stage : RelayStage}
    (h : relayStep w choice flowId route stage = some r) :
    Outcome cfg w (.relay flowId route stage) r := by
  unfold relayStep at h
  split at h
  · cases h
    exact .activated flowId route
  · cases h
  · cases h
    rename_i hstage
    exact .quiet (.relayEnds flowId route (by simpa using hstage))
  · cases h
    exact .rejected flowId route (by simp) (by simp)
  · cases h
    exact .rejected flowId route (by simp) (by simp)
  · cases h
    exact .quiet (.dialed flowId route)
  · split at h
    · cases h
      exact .rejected flowId route (by simp) (by simp)
    · split at h <;> cases h
      exact .requested flowId
  · split at h <;> cases h
    · rename_i hacknowledged
      exact .quiet (.prepared flowId hacknowledged)
    · rename_i hacknowledged
      exact .rejected flowId route (by simp) fun _ => ⟨hacknowledged, rfl⟩
  · cases h
    exact .rejected flowId route (by simp) (by simp)
  · cases h
    exact .quiet (.relayEnds flowId route (by simp))
  · cases h
    exact .committed flowId
  · split at h <;> cases h
    rename_i hqueued
    exact .relayed flowId hqueued
  · cases h
    exact .quiet (.relayEnds flowId route (by simp))
  · cases h

theorem exec_outcome {f : Frame} (h : exec cfg choice w f = some r) : Outcome cfg w f r := by
  cases f with
  | installUdpUplink flowId =>
    cases h
    exact installUdpUplinkStep_moves flowId
  | installFlows flowId =>
    cases h
    exact installFlowsStep_moves flowId
  | installInsert flowId =>
    cases h
    exact .install flowId
  | submitUdp flowId route => exact submitUdpStep_outcome h
  | pairing flowId route => exact pairingStep_outcome h
  | dropReceiver flowId route =>
    cases h
    exact .quiet (.dropReceiver flowId route)
  | closeChannel route =>
    cases h
    exact .closeChannel route
  | removeUdpUplink flowId cause =>
    cases h
    exact .quiet (.removeUdpUplink flowId cause)
  | removeReassembly flowId cause =>
    cases h
    exact .remove flowId cause
  | close =>
    cases h
    exact closeStep_outcome
  | closeFlows =>
    cases h
    exact .quiet .closeFlows
  | closeReassembly =>
    cases h
    exact .clear
  | datagramLoop =>
    cases h
    exact datagramLoopStep_outcome
  | select => exact selectStep_outcome h
  | expire =>
    cases h
    exact .expire
  | commitUdpReady route deadline => exact commitUdpReadyStep_outcome h
  | commitCheck route deadline => exact commitCheckStep_outcome h
  | handleDatagram d installed =>
    cases h
    exact handleDatagramStep_outcome d installed
  | handleUnfragmentedUdp number flowId payload =>
    cases h
    exact handleUnfragmentedUdpStep_outcome number flowId payload
  | handleUdpFragment number flowId fragment =>
    cases h
    exact handleUdpFragmentStep_outcome number flowId fragment
  | pushFragment number flowId fragment route => exact pushFragmentStep_outcome h
  | relay flowId route stage => exact relayStep_outcome h

end Inversion

end Nowhere.Portal.Session
