import Nowhere.Common.DatagramQueue
import Nowhere.Lib.Tasks
import Nowhere.Protocol.Routing

/-!
# The datagram side of an authenticated session

`PortalSession` of `src/portal/conn/session.rs` and `src/portal/conn/session_datagram.rs`, with
the receivers of `src/portal/pairing/state.rs` and the relays of `src/portal/conn/relay_uot.rs`
as far as they act on it.

One installation makes the channel and the ready flag that `UdpState` and `QuicUdpReceiver`
share; both are known by the number of the installation, the route. A receiver is owned by the
submission that made it, then by the pairing registry or a relay. When the owner lets go of it
is up to the environment here. Waiting for `udp_flows`, for `udp_reassembler`, for an
acknowledgement and for a place in a channel are steps of their own, so that everything another
task may do in between is covered. The two locks are always taken in this order; what is done
while both are held is one step.

The history `log` records what happened to the routes, first event first.
-/

namespace Nowhere.Portal.Session

open Protocol Common Assoc

inductive Lock
  | flows
  | reassembler
  deriving DecidableEq, Repr

/-- The sender and the ready flag of a route. -/
structure UdpState where
  route : Nat
  deriving DecidableEq, Repr

/-- Who holds the receiving end of the ready requests: nobody yet, `datagram_loop`, or nobody
any more. -/
inductive ReadyReceiver
  | untaken
  | taken
  | dropped
  deriving DecidableEq, Repr

structure Config where
  queueBytes : Nat
  handshakeTimeout : Nat

def Config.reassembly (cfg : Config) : ReassemblyConfig := ⟨64, cfg.queueBytes, 10 * 10 ^ 9⟩

/-- Capacity of the channel of ready requests. -/
def readyRequests : Nat := 64

structure World where
  closed : Bool
  udpFlows : Map FlowId UdpState
  /-- The ready flags, by route. -/
  ready : Nat → Bool
  channels : Nat → Channel
  udpReassembler : DatagramReassembler Reservation
  udpQueueBudget : Nat
  nextRoute : Nat
  /-- The DATAGRAMs that `read_datagram` has not returned yet. -/
  datagrams : List Datagram
  nextDatagram : Nat
  disconnected : Bool
  shutdown : Bool
  now : Nat
  udpReadyRx : ReadyReceiver
  /-- Ready requests on their way to `datagram_loop`, by the route that asks. -/
  requests : List Nat
  /-- The answers to ready requests; a dropped `acknowledge` counts as `false`. -/
  acknowledged : Nat → Option Bool
  /-- The setup results that the relays wrote, latest first. -/
  results : List (Nat × FlowResult)
  log : List (Table.Event Reservation)

def World.init (cfg : Config) : World where
  closed := false
  udpFlows := ∅
  ready := fun _ => false
  channels := fun _ => .new
  udpReassembler := .new cfg.reassembly
  udpQueueBudget := cfg.queueBytes
  nextRoute := 0
  datagrams := []
  nextDatagram := 0
  disconnected := false
  shutdown := false
  now := 0
  udpReadyRx := .untaken
  requests := []
  acknowledged := fun _ => none
  results := []
  log := []

/-- On whose behalf `remove_udp_uplink` is called: for a CLOSE that was read when `installed`
routes had been installed, by the receiver of a route, or after the submission of a route
failed. -/
inductive Cause
  | closeFrame (installed : Nat)
  | receiver (route : Nat)
  | failure (route : Nat)
  deriving DecidableEq, Repr

/-- How far `relay_paired_udp` has come. -/
inductive RelayStage
  | dialing
  | preparing
  | awaiting
  | committing
  | activating
  | running
  deriving DecidableEq, Repr

inductive Frame
  -- `handle_buffered_stream` for a UDP OPEN or DUPLEX, with `install_udp_uplink`
  | installUdpUplink (flowId : FlowId)
  | installFlows (flowId : FlowId)
  | installInsert (flowId : FlowId)
  | submitUdp (flowId : FlowId) (route : Nat)
  -- a receiver in the pairing registry, and the end of a receiver
  | pairing (flowId : FlowId) (route : Nat)
  | dropReceiver (flowId : FlowId) (route : Nat)
  | closeChannel (route : Nat)
  -- `remove_udp_uplink`
  | removeUdpUplink (flowId : FlowId) (cause : Cause)
  | removeReassembly (flowId : FlowId) (cause : Cause)
  -- `close`
  | close
  | closeFlows
  | closeReassembly
  -- `datagram_loop`
  | datagramLoop
  | select
  | expire
  | commitUdpReady (route deadline : Nat)
  | commitCheck (route deadline : Nat)
  | handleDatagram (d : Datagram) (installed : Nat)
  | handleUnfragmentedUdp (number : Nat) (flowId : FlowId) (payload : List UInt8)
  | handleUdpFragment (number : Nat) (flowId : FlowId) (fragment : UdpFragment)
  | pushFragment (number : Nat) (flowId : FlowId) (fragment : UdpFragment) (route : Nat)
  -- `relay_paired_udp`
  | relay (flowId : FlowId) (route : Nat) (stage : RelayStage)

namespace Frame

/-- The lock taken before the frame runs. -/
def wants : Frame → Option Lock
  | .installFlows _ | .removeUdpUplink .. | .closeFlows | .handleUnfragmentedUdp ..
  | .handleUdpFragment .. => some .flows
  | .removeReassembly .. | .closeReassembly | .expire | .pushFragment .. => some .reassembler
  | _ => none

/-- The locks the task keeps until the frame has run. -/
def holds : Frame → List Lock
  | .installInsert _ | .removeReassembly .. | .closeReassembly | .pushFragment .. => [.flows]
  | _ => []

end Frame

/-- What the environment decides during a step. -/
inductive Choice
  | go
  | pick (n : Nat)
  -- how `submit_udp` ends, or what becomes of a receiver in the registry
  | failed
  | pending
  | paired
  | dropped
  -- a task is aborted at an await point
  | abort
  -- the branch that `select!` takes
  | shutdown
  | cleanup
  | request
  | datagram
  -- the course of a relay
  | dialed
  | dialFailed
  | cancelled
  | written
  | writeFailed
  | recv
  | finish

abbrev Effect := Tasks.Effect World Frame

section Steps

variable (cfg : Config) (w : World)

/-! ## Routes -/

/-- Without a receiver the stream is rejected. -/
def installUdpUplinkStep (flowId : FlowId) : Effect :=
  ⟨w, if w.closed then [] else [.installFlows flowId], []⟩

def installFlowsStep (flowId : FlowId) : Effect :=
  ⟨w, if w.closed || (w.udpFlows.lookup flowId).isSome then [] else [.installInsert flowId], []⟩

def installInsertStep (flowId : FlowId) : Effect :=
  let route := w.nextRoute
  ⟨{ w with
      udpFlows := w.udpFlows.insert flowId ⟨route⟩
      ready := Function.update w.ready route false
      channels := Function.update w.channels route .new
      nextRoute := route + 1
      log := w.log ++ [.install flowId route] }, [.submitUdp flowId route], []⟩

/-- A failed submission drops its half before it returns the error. -/
def submitUdpStep (choice : Choice) (flowId : FlowId) (route : Nat) : Option Effect :=
  match choice with
  | .failed =>
    some ⟨w, [.dropReceiver flowId route, .removeUdpUplink flowId (.failure route)], []⟩
  | .abort => some ⟨w, [.dropReceiver flowId route], []⟩
  | .pending => some ⟨w, [], [[.pairing flowId route]]⟩
  | .paired => some ⟨w, [], [[.relay flowId route .dialing]]⟩
  | _ => none

def pairingStep (choice : Choice) (flowId : FlowId) (route : Nat) : Option Effect :=
  match choice with
  | .dropped => some ⟨w, [.dropReceiver flowId route], []⟩
  | .paired => some ⟨w, [.relay flowId route .dialing], []⟩
  | _ => none

/-- `QuicUdpReceiver::drop` runs `on_drop` before the channel goes with the other fields. -/
def dropReceiverStep (flowId : FlowId) (route : Nat) : Effect :=
  ⟨w, [.removeUdpUplink flowId (.receiver route), .closeChannel route], []⟩

def closeChannelStep (route : Nat) : Effect :=
  ⟨{ w with
      channels := Function.update w.channels route (w.channels route).close
      udpQueueBudget := w.udpQueueBudget + (w.channels route).units }, [], []⟩

/-- `remove_udp_uplink` with both locks. -/
def removeReassemblyStep (flowId : FlowId) : Effect :=
  let removed := w.udpReassembler.removeFlow flowId
  ⟨{ w with
      udpFlows := w.udpFlows.erase flowId
      ready := (w.udpFlows.lookup flowId).elim w.ready fun state =>
        Function.update w.ready state.route false
      udpReassembler := removed.state
      udpQueueBudget := w.udpQueueBudget + released removed.dropped
      log := w.log ++ [.remove flowId] }, [], []⟩

def closeStep : Effect :=
  if w.closed then ⟨w, [], []⟩ else ⟨{ w with closed := true }, [.closeFlows], []⟩

/-- `close` with both locks. -/
def closeReassemblyStep : Effect :=
  ⟨{ w with
      udpFlows := ∅
      ready := fun route =>
        w.ready route && !(w.udpFlows.entries.any fun e => decide (e.2.route = route))
      udpReassembler := w.udpReassembler.clear.state
      udpQueueBudget := w.udpQueueBudget + released w.udpReassembler.clear.dropped
      log := w.log ++ [.clear] }, [], []⟩

/-! ## The datagram loop -/

def World.acknowledge (route : Nat) (ok : Bool) : World :=
  { w with acknowledged := Function.update w.acknowledged route (some ok) }

/-- The loop drops the receiving end of the ready requests, and the requests still in it. -/
def loopEnd : Effect :=
  ⟨{ w with
      udpReadyRx := .dropped
      requests := []
      acknowledged := fun route =>
        if route ∈ w.requests then some false else w.acknowledged route }, [], []⟩

def datagramLoopStep : Effect :=
  if w.udpReadyRx = .untaken then ⟨{ w with udpReadyRx := .taken }, [.select], []⟩
  else ⟨w, [], []⟩

def selectStep (choice : Choice) : Option Effect :=
  match choice with
  | .shutdown => if w.shutdown then some (loopEnd w) else none
  | .cleanup => some ⟨w, [.expire, .select], []⟩
  | .request => match w.requests with
    | route :: requests =>
      some ⟨{ w with requests }, [.commitUdpReady route (w.now + cfg.handshakeTimeout)], []⟩
    | [] => none
  | .datagram => match w.datagrams with
    | d :: datagrams =>
      some ⟨{ w with datagrams }, [.handleDatagram d w.nextRoute, .select], []⟩
    | [] => if w.disconnected then some (loopEnd w) else none
  | .abort => some (loopEnd w)
  | _ => none

def expireStep : Effect :=
  let swept := w.udpReassembler.expire w.now
  ⟨{ w with
      udpReassembler := swept.state
      udpQueueBudget := w.udpQueueBudget + released swept.dropped
      log := w.log ++ [.expire w.now] }, [], []⟩

/-- One poll of `read_datagram` in `commit_udp_ready`. -/
def commitUdpReadyStep (choice : Choice) (route deadline : Nat) : Option Effect :=
  match choice with
  | .go => match w.datagrams with
    | d :: datagrams =>
      some ⟨{ w with datagrams },
        [.handleDatagram d w.nextRoute, .commitCheck route deadline], []⟩
    | [] => some ⟨w.acknowledge route (!w.disconnected), [.select], []⟩
  | .abort => some (loopEnd (w.acknowledge route false))
  | _ => none

/-- The checks after a drained DATAGRAM. -/
def commitCheckStep (choice : Choice) (route deadline : Nat) : Option Effect :=
  match choice with
  | .go =>
    if w.shutdown || decide (deadline ≤ w.now) then
      some ⟨w.acknowledge route false, [.select], []⟩
    else some ⟨w, [.commitUdpReady route deadline], []⟩
  | .abort => some (loopEnd (w.acknowledge route false))
  | _ => none

def handleDatagramStep (d : Datagram) (installed : Nat) : Effect :=
  ⟨w, match decodeUdpFrameOwned d.data with
    | .ok (.data flowId payload) => [.handleUnfragmentedUdp d.number flowId payload]
    | .ok (.fragment flowId fragment) => [.handleUdpFragment d.number flowId fragment]
    | .ok (.close flowId) => [.removeUdpUplink flowId (.closeFrame installed)]
    | .error _ => [], []⟩

/-- The route that takes frames of the flow now. -/
def World.readyRoute (flowId : FlowId) : Option Nat :=
  ((w.udpFlows.lookup flowId).map UdpState.route).filter w.ready

def handleUnfragmentedUdpStep (number : Nat) (flowId : FlowId) (payload : List UInt8) : Effect :=
  match w.readyRoute flowId with
  | none => ⟨w, [], []⟩
  | some route =>
    let refused : World := { w with log := w.log ++ [.data flowId route number payload false] }
    match reserveUdpBudget w.udpQueueBudget payload.length with
    | none => ⟨refused, [], []⟩
    | some permit => match (w.channels route).trySend ⟨payload, permit⟩ with
      | .error _ => ⟨refused, [], []⟩
      | .ok channel =>
        ⟨{ w with
            channels := Function.update w.channels route channel
            udpQueueBudget := w.udpQueueBudget - permit.units
            log := w.log ++ [.data flowId route number payload true] }, [], []⟩

def handleUdpFragmentStep (number : Nat) (flowId : FlowId) (fragment : UdpFragment) : Effect :=
  ⟨w, match w.readyRoute flowId with
    | none => []
    | some route => [.pushFragment number flowId fragment route], []⟩

/-- `handle_udp_fragment` with both locks. The reassembler never panics on what a session does
with it, so there is no step for that. -/
def pushFragmentStep (choice : Choice) (number : Nat) (flowId : FlowId) (fragment : UdpFragment)
    (route : Nat) : Option Effect :=
  match choice with
  | .pick n =>
    let push := fragmentPush w.udpReassembler w.udpQueueBudget w.now n flowId fragment
    match w.udpReassembler.apply (.push push) with
    | .error _ => none
    | .ok e =>
      let budget := w.udpQueueBudget + released e.dropped - granted e.reserved
      let kept : World := { w with
        udpReassembler := e.state
        udpQueueBudget := budget
        log := w.log ++ [.fragment route number push e false] }
      match e.outcome with
      | some (.complete payload reservation _) =>
        match (w.channels route).trySend ⟨payload, reservation⟩ with
        | .error _ => some ⟨{ kept with udpQueueBudget := budget + reservation.units }, [], []⟩
        | .ok channel =>
          some ⟨{ kept with
            channels := Function.update w.channels route channel
            log := w.log ++ [.fragment route number push e true] }, [], []⟩
      | _ => some ⟨kept, [], []⟩
  | _ => none

/-! ## Relays -/

/-- The relay ends with a setup result, and lets go of its receiver. -/
def relayReject (flowId : FlowId) (route : Nat) (code : FlowErrorCode) : Effect :=
  ⟨{ w with results := (route, .reject code) :: w.results }, [.dropReceiver flowId route], []⟩

/-- READY has been queued, and the relay activates the route: `receiver.activate()`. The history
has an event for it if the flow still has this route. -/
def activateStep (flowId : FlowId) (route : Nat) : Effect :=
  ⟨{ w with
      ready := Function.update w.ready route true
      log := if w.udpFlows.lookup flowId = some ⟨route⟩ then w.log ++ [.activate flowId route]
        else w.log }, [.relay flowId route .running], []⟩

def relayStep (choice : Choice) (flowId : FlowId) (route : Nat) (stage : RelayStage) :
    Option Effect :=
  match stage, choice with
  -- there is no await point between READY and the activation
  | .activating, .go => some (activateStep w flowId route)
  | .activating, _ => none
  | _, .abort => some ⟨w, [.dropReceiver flowId route], []⟩
  | .dialing, .cancelled => some (relayReject w flowId route .sessionReplaced)
  | .dialing, .dialFailed => some (relayReject w flowId route .dialFailed)
  | .dialing, .dialed => some ⟨w, [.relay flowId route .preparing], []⟩
  | .preparing, .go =>
    -- `send` waits for a place in the channel, and fails when the loop has ended
    if w.udpReadyRx = .dropped then some (relayReject w flowId route .internalError)
    else if w.requests.length < readyRequests then
      some ⟨{ w with requests := w.requests ++ [route] }, [.relay flowId route .awaiting], []⟩
    else none
  | .awaiting, .go => match w.acknowledged route with
    | some true => some ⟨w, [.relay flowId route .committing], []⟩
    | some false => some (relayReject w flowId route .internalError)
    | none => none
  | .committing, .cancelled => some (relayReject w flowId route .sessionReplaced)
  | .committing, .writeFailed => some ⟨w, [.dropReceiver flowId route], []⟩
  | .committing, .written =>
    some ⟨{ w with results := (route, .ready) :: w.results },
      [.relay flowId route .activating], []⟩
  | .running, .recv => match (w.channels route).queue with
    | [] => none
    | d :: queue =>
      some ⟨{ w with
        channels := Function.update w.channels route { w.channels route with queue }
        udpQueueBudget := w.udpQueueBudget + d.permit.units }, [.relay flowId route .running], []⟩
  | .running, .finish => some ⟨w, [.dropReceiver flowId route], []⟩
  | _, _ => none

end Steps

/-- One step of a frame. -/
def exec (cfg : Config) (choice : Choice) (w : World) : Frame → Option Effect
  | .installUdpUplink flowId => some (installUdpUplinkStep w flowId)
  | .installFlows flowId => some (installFlowsStep w flowId)
  | .installInsert flowId => some (installInsertStep w flowId)
  | .submitUdp flowId route => submitUdpStep w choice flowId route
  | .pairing flowId route => pairingStep w choice flowId route
  | .dropReceiver flowId route => some (dropReceiverStep w flowId route)
  | .closeChannel route => some (closeChannelStep w route)
  | .removeUdpUplink flowId cause => some ⟨w, [.removeReassembly flowId cause], []⟩
  | .removeReassembly flowId _ => some (removeReassemblyStep w flowId)
  | .close => some (closeStep w)
  | .closeFlows => some ⟨w, [.closeReassembly], []⟩
  | .closeReassembly => some (closeReassemblyStep w)
  | .datagramLoop => some (datagramLoopStep w)
  | .select => selectStep cfg w choice
  | .expire => some (expireStep w)
  | .commitUdpReady route deadline => commitUdpReadyStep w choice route deadline
  | .commitCheck route deadline => commitCheckStep w choice route deadline
  | .handleDatagram d installed => some (handleDatagramStep w d installed)
  | .handleUnfragmentedUdp number flowId payload =>
    some (handleUnfragmentedUdpStep w number flowId payload)
  | .handleUdpFragment number flowId fragment =>
    some (handleUdpFragmentStep w number flowId fragment)
  | .pushFragment number flowId fragment route =>
    pushFragmentStep w choice number flowId fragment route
  | .relay flowId route stage => relayStep w choice flowId route stage

/-- What the environment may start at any time: a stream opens a UDP flow, the connection
handler starts the loop or closes the session, a DATAGRAM arrives, the connection is lost, the
portal shuts down, time passes. -/
inductive Start
  | openUdp (flowId : FlowId)
  | datagramLoop
  | close
  | arrive (data : List UInt8)
  | disconnect
  | shutdown
  | tick (elapsed : Nat)

def start (b : Start) (w : World) : Effect :=
  match b with
  | .openUdp flowId => ⟨w, [.installUdpUplink flowId], []⟩
  | .datagramLoop => ⟨w, [.datagramLoop], []⟩
  | .close => ⟨w, [.close], []⟩
  | .arrive data =>
    ⟨{ w with
        datagrams := w.datagrams ++ [⟨w.nextDatagram, data⟩]
        nextDatagram := w.nextDatagram + 1 }, [], []⟩
  | .disconnect => ⟨{ w with disconnected := true }, [], []⟩
  | .shutdown => ⟨{ w with shutdown := true }, [], []⟩
  | .tick elapsed => ⟨{ w with now := w.now + elapsed }, [], []⟩

/-- A session as a system of tasks. -/
def session (cfg : Config) : Tasks.System World Frame Lock Choice Start where
  wants := Frame.wants
  holds := Frame.holds
  exec := exec cfg
  boot := start

abbrev Pool := Tasks.Pool World Frame

/-- A session that was just authenticated. -/
def initial (cfg : Config) : Pool := ⟨.init cfg, []⟩

end Nowhere.Portal.Session
