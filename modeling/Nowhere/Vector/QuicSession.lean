import Nowhere.Common.DatagramQueue
import Nowhere.Lib.Tasks
import Nowhere.Protocol.Routing

/-!
# The datagram side of Vector's QUIC session

`QuicSession` of `src/vector/session.rs`: the routes of the UDP flows whose downlink is QUIC, the
reassembler, and the loop that reads the connection's DATAGRAMs. `register_udp`, `activate_udp`
and `remove_udp` may be called at any time and for any flow id; so may the receiver of a route be
read or dropped. As on the other side, a route is known by the number of its registration, and
`log` records what happened to the routes.

`routes` is always locked before `reassembler`. Where the code removes a route and then waits for
`reassembler`, still holding `routes`, the removal is a part of the step that has both: only
tasks that hold `routes` could tell the difference.
-/

namespace Nowhere.Vector.QuicSession

open Protocol Common Assoc

inductive Lock
  | routes
  | reassembler
  deriving DecidableEq, Repr

/-- The sender of a route is known by the route's number. -/
structure UdpRoute where
  sender : Nat
  ready : Bool
  deriving DecidableEq, Repr

structure Config where
  queueBytes : Nat

def Config.reassembly (cfg : Config) : ReassemblyConfig := ⟨64, cfg.queueBytes, 10 * 10 ^ 9⟩

structure World where
  routes : Map FlowId UdpRoute
  channels : Nat → Channel
  reassembler : DatagramReassembler Reservation
  queueBudget : Nat
  nextRoute : Nat
  /-- The DATAGRAMs that `read_datagram` has not returned yet. -/
  datagrams : List Datagram
  nextDatagram : Nat
  disconnected : Bool
  shutdown : Bool
  now : Nat
  log : List (Table.Event Reservation)

def World.init (cfg : Config) : World where
  routes := ∅
  channels := fun _ => .new
  reassembler := .new cfg.reassembly
  queueBudget := cfg.queueBytes
  nextRoute := 0
  datagrams := []
  nextDatagram := 0
  disconnected := false
  shutdown := false
  now := 0
  log := []

inductive Frame
  | registerUdp (flowId : FlowId)
  | activateUdp (flowId : FlowId)
  -- `remove_udp`, and what `receive_data` does about a closed channel
  | removeUdp (flowId : FlowId)
  | removeFlow (flowId : FlowId)
  | clearUdp
  | clearReassembler
  -- the loop of `spawn_datagram_loop`
  | select
  | expire
  | receiveData (number : Nat) (flowId : FlowId) (payload : List UInt8)
  | receiveFragment (number : Nat) (flowId : FlowId) (fragment : UdpFragment)
  | pushFragment (number : Nat) (flowId : FlowId) (fragment : UdpFragment) (route : Nat)
  -- what `receive_fragment` does about a closed channel
  | removeClosed (flowId : FlowId)

namespace Frame

/-- The lock taken before the frame runs. -/
def wants : Frame → Option Lock
  | .registerUdp _ | .activateUdp _ | .removeUdp _ | .clearUdp | .receiveData ..
  | .receiveFragment .. => some .routes
  | .removeFlow _ | .clearReassembler | .expire | .pushFragment .. => some .reassembler
  | _ => none

/-- The locks the task keeps until the frame has run. -/
def holds : Frame → List Lock
  | .removeFlow _ | .clearReassembler | .pushFragment .. => [.routes]
  | .removeClosed _ => [.routes, .reassembler]
  | _ => []

end Frame

/-- What the environment decides during a step. -/
inductive Choice
  | go
  | pick (n : Nat)
  -- the branch that `select!` takes
  | shutdown
  | cleanup
  | datagram

abbrev Effect := Tasks.Effect World Frame

section Steps

variable (w : World)

def registerUdpStep (flowId : FlowId) : Effect :=
  if (w.routes.lookup flowId).isSome then ⟨w, [], []⟩
  else
    let route := w.nextRoute
    ⟨{ w with
        routes := w.routes.insert flowId ⟨route, false⟩
        channels := Function.update w.channels route .new
        nextRoute := route + 1
        log := w.log ++ [.install flowId route] }, [], []⟩

/-- The caller learns when the route is gone. -/
def activateUdpStep (flowId : FlowId) : Effect :=
  match w.routes.lookup flowId with
  | none => ⟨w, [], []⟩
  | some route =>
    ⟨{ w with
        routes := w.routes.insert flowId { route with ready := true }
        log := w.log ++ [.activate flowId route.sender] }, [], []⟩

/-- `routes` and `reassembler` let go of a flow. -/
def removeFlowStep (flowId : FlowId) : Effect :=
  let removed := w.reassembler.removeFlow flowId
  ⟨{ w with
      routes := w.routes.erase flowId
      reassembler := removed.state
      queueBudget := w.queueBudget + released removed.dropped
      log := w.log ++ [.remove flowId] }, [], []⟩

def clearReassemblerStep : Effect :=
  ⟨{ w with
      routes := ∅
      reassembler := w.reassembler.clear.state
      queueBudget := w.queueBudget + released w.reassembler.clear.dropped
      log := w.log ++ [.clear] }, [], []⟩

/-- A DATAGRAM that does not decode is ignored. -/
def dispatch (d : Datagram) : List Frame :=
  match decodeUdpFrameOwned d.data with
  | .ok (.data flowId payload) => [.receiveData d.number flowId payload]
  | .ok (.fragment flowId fragment) => [.receiveFragment d.number flowId fragment]
  | .ok (.close flowId) => [.removeUdp flowId]
  | .error _ => []

def selectStep (choice : Choice) : Option Effect :=
  match choice with
  | .shutdown => if w.shutdown then some ⟨w, [.clearUdp], []⟩ else none
  | .cleanup => some ⟨w, [.expire, .select], []⟩
  | .datagram => match w.datagrams with
    | d :: datagrams => some ⟨{ w with datagrams }, dispatch d ++ [.select], []⟩
    | [] => if w.disconnected then some ⟨w, [.clearUdp], []⟩ else none
  | _ => none

def expireStep : Effect :=
  let swept := w.reassembler.expire w.now
  ⟨{ w with
      reassembler := swept.state
      queueBudget := w.queueBudget + released swept.dropped
      log := w.log ++ [.expire w.now] }, [], []⟩

/-- The route that takes frames of the flow now. -/
def World.readyRoute (flowId : FlowId) : Option Nat :=
  ((w.routes.lookup flowId).filter UdpRoute.ready).map UdpRoute.sender

/-- Only a closed channel ends the route; a packet that finds it full is dropped. -/
def receiveDataStep (number : Nat) (flowId : FlowId) (payload : List UInt8) : Effect :=
  match w.readyRoute flowId with
  | none => ⟨w, [], []⟩
  | some route =>
    let refused : World := { w with log := w.log ++ [.data flowId route number payload false] }
    match reserveUdpBudget w.queueBudget payload.length with
    | none => ⟨refused, [], []⟩
    | some permit => match (w.channels route).trySend ⟨payload, permit⟩ with
      | .error .full => ⟨refused, [], []⟩
      | .error .closed => ⟨refused, [.removeFlow flowId], []⟩
      | .ok channel =>
        ⟨{ w with
            channels := Function.update w.channels route channel
            queueBudget := w.queueBudget - permit.units
            log := w.log ++ [.data flowId route number payload true] }, [], []⟩

def receiveFragmentStep (number : Nat) (flowId : FlowId) (fragment : UdpFragment) : Effect :=
  ⟨w, match w.readyRoute flowId with
    | none => []
    | some route => [.pushFragment number flowId fragment route], []⟩

/-- `receive_fragment` with both locks. The reassembler never panics on what a session does
with it, so there is no step for that. -/
def pushFragmentStep (choice : Choice) (number : Nat) (flowId : FlowId) (fragment : UdpFragment)
    (route : Nat) : Option Effect :=
  match choice with
  | .pick n =>
    let push := fragmentPush w.reassembler w.queueBudget w.now n flowId fragment
    match w.reassembler.apply (.push push) with
    | .error _ => none
    | .ok e =>
      let budget := w.queueBudget + released e.dropped - granted e.reserved
      let kept : World := { w with
        reassembler := e.state
        queueBudget := budget
        log := w.log ++ [.fragment route number push e false] }
      match e.outcome with
      | some (.complete payload reservation _) =>
        match (w.channels route).trySend ⟨payload, reservation⟩ with
        | .error .full => some ⟨{ kept with queueBudget := budget + reservation.units }, [], []⟩
        | .error .closed =>
          some ⟨{ kept with queueBudget := budget + reservation.units }, [.removeClosed flowId], []⟩
        | .ok channel =>
          some ⟨{ kept with
            channels := Function.update w.channels route channel
            log := w.log ++ [.fragment route number push e true] }, [], []⟩
      | _ => some ⟨kept, [], []⟩
  | _ => none

end Steps

/-- One step of a frame. -/
def exec (choice : Choice) (w : World) : Frame → Option Effect
  | .registerUdp flowId => some (registerUdpStep w flowId)
  | .activateUdp flowId => some (activateUdpStep w flowId)
  | .removeUdp flowId => some ⟨w, [.removeFlow flowId], []⟩
  | .removeFlow flowId => some (removeFlowStep w flowId)
  | .clearUdp => some ⟨w, [.clearReassembler], []⟩
  | .clearReassembler => some (clearReassemblerStep w)
  | .select => selectStep w choice
  | .expire => some (expireStep w)
  | .receiveData number flowId payload => some (receiveDataStep w number flowId payload)
  | .receiveFragment number flowId fragment => some (receiveFragmentStep w number flowId fragment)
  | .pushFragment number flowId fragment route =>
    pushFragmentStep w choice number flowId fragment route
  | .removeClosed flowId => some (removeFlowStep w flowId)

/-- What the environment may start at any time. -/
inductive Start
  | registerUdp (flowId : FlowId)
  | activateUdp (flowId : FlowId)
  | removeUdp (flowId : FlowId)
  | datagramLoop
  -- the owner of a receiver takes a packet, or drops the receiver
  | recv (route : Nat)
  | dropReceiver (route : Nat)
  | arrive (data : List UInt8)
  | disconnect
  | shutdown
  | tick (elapsed : Nat)

def start (b : Start) (w : World) : Effect :=
  match b with
  | .registerUdp flowId => ⟨w, [.registerUdp flowId], []⟩
  | .activateUdp flowId => ⟨w, [.activateUdp flowId], []⟩
  | .removeUdp flowId => ⟨w, [.removeUdp flowId], []⟩
  | .datagramLoop => ⟨w, [.select], []⟩
  | .recv route => match (w.channels route).queue with
    | [] => ⟨w, [], []⟩
    | d :: queue =>
      ⟨{ w with
          channels := Function.update w.channels route { w.channels route with queue }
          queueBudget := w.queueBudget + d.permit.units }, [], []⟩
  | .dropReceiver route =>
    ⟨{ w with
        channels := Function.update w.channels route (w.channels route).close
        queueBudget := w.queueBudget + (w.channels route).units }, [], []⟩
  | .arrive data =>
    ⟨{ w with
        datagrams := w.datagrams ++ [⟨w.nextDatagram, data⟩]
        nextDatagram := w.nextDatagram + 1 }, [], []⟩
  | .disconnect => ⟨{ w with disconnected := true }, [], []⟩
  | .shutdown => ⟨{ w with shutdown := true }, [], []⟩
  | .tick elapsed => ⟨{ w with now := w.now + elapsed }, [], []⟩

/-- A session as a system of tasks. -/
def session : Tasks.System World Frame Lock Choice Start where
  wants := Frame.wants
  holds := Frame.holds
  exec := exec
  boot := start

abbrev Pool := Tasks.Pool World Frame

/-- A session that was just connected. -/
def initial (cfg : Config) : Pool := ⟨.init cfg, []⟩

end Nowhere.Vector.QuicSession
