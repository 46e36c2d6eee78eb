import Nowhere.Common.SocksRequest
import Nowhere.Lib.Assoc
import Nowhere.Lib.Machine
import Nowhere.Lib.Relay
import Nowhere.Portal.Admission

/-!
# A SOCKS UDP association

`run_udp_association` of `src/vector/socks/server.rs` with the tasks it spawns, one for each target
(`open_and_relay_udp_target`, `relay_udp_target`). The loop takes one datagram of its socket at a
time; it pins the first endpoint it accepts, pays for the datagram from the budget that all
associations of the process share, and puts it into the queue of the flow for its target, which it
opens if there is none. A task is followed as far as the association sees it: which packets it
takes from its queue, what it replies to the client, and when it drops its end of the queue. What
happens to a packet in the tunnel is up to the environment.
-/

namespace Nowhere.Vector.Association

open Assoc Protocol Relay Common.Socks
open Nowhere.Portal (IpAddr)

/-- `SocketAddr::ip`. -/
def ipOf : SocketAddr → IpAddr
  | .v4 ip _ => .v4 ip
  | .v6 ip _ _ _ => .v6 ip

/-- `SocketAddr::new`. -/
def socketAddr : IpAddr → UInt16 → SocketAddr
  | .v4 ip, port => .v4 ip port
  | .v6 ip, port => .v6 ip port 0 0

def isUnspecified : IpAddr → Bool
  | .v4 ip => ip = 0
  | .v6 ip => ip = 0

/-- The client may announce the port that it will send from, and nothing but its own address. -/
def validateUdpSourceRequest (requested : SocksAddress) (peerIp : IpAddr) :
    Result (Option UInt16) :=
  match requested with
  | .ip address =>
    if ¬ isUnspecified (ipOf address) ∧ ipOf address ≠ peerIp then
      .error (.bail "UDP source IP differs from control peer")
    else .ok (if requested.port ≠ 0 then some requested.port else none)
  | .domain _ _ => .error (.bail "domain UDP source constraint unsupported")

/-- Whether a datagram from `source` is accepted, and the endpoint afterwards. -/
def acceptUdpSource (endpoint : Option SocketAddr) (peerIp : IpAddr) (source : SocketAddr) :
    Bool × Option SocketAddr :=
  if ipOf source ≠ peerIp then (false, endpoint)
  else
    match endpoint with
    | some expected => (expected = source, endpoint)
    | none => (true, some source)

/-! ## The state -/

/-- `peer` is the client's end of the control connection; `flowLimit` is what the environment
variable says, and `budget` all there is of the process's queue budget. -/
structure Config where
  peer : SocketAddr
  requested : SocksAddress
  flowLimit : Nat
  budget : Nat

def Config.maxFlows (c : Config) : Nat := min (max c.flowLimit 1) 256

/-- The capacity of a flow's queue. -/
def queueCapacity : Nat := 64

/-- Where the task of a flow is. It has dropped its end of the queue when it has returned. -/
inductive TaskLeg
  | opening
  | waiting
  | sending (payload : List UInt8)
  | replying (endpoint : SocketAddr) (packet : List UInt8)
  | closing
  | returned
  | joined
  deriving DecidableEq

structure Task where
  target : SocksAddress
  outbound : Pipe (List UInt8)
  leg : TaskLeg

def Task.isOpen (k : Task) : Bool := k.leg ≠ .returned && k.leg ≠ .joined

/-- The permits that a queued packet holds. -/
def cost (payload : List UInt8) : Nat := max payload.length 1

def queueCost (payloads : List (List UInt8)) : Nat := (payloads.map cost).sum

/-- The permits of the packets that a task has in its queue and at hand. -/
def Task.held (k : Task) : Nat :=
  queueCost k.outbound.queue +
    match k.leg with
    | .sending payload => cost payload
    | _ => 0

inductive Phase
  | looping
  | ending
  | ended
  deriving DecidableEq

/-- `flows` is the map of the senders, with the place of their task; `others` are the permits that
other associations hold. `arrived` are all datagrams that the socket has received. -/
structure World where
  phase : Phase
  endpoint : Option SocketAddr
  flows : Map SocksAddress Nat
  tasks : List Task
  available : Nat
  others : Nat
  arrived : List (SocketAddr × List UInt8)
  clientDown : List (SocketAddr × List UInt8)

/-- The loop is entered. -/
def World.start (c : Config) (requestedPort : Option UInt16) : World where
  phase := .looping
  endpoint := requestedPort.map fun port => socketAddr (ipOf c.peer) port
  flows := ∅
  tasks := []
  available := c.budget
  others := 0
  arrived := []
  clientDown := []

/-! ## A datagram arrives -/

/-- `Sender::try_send`. -/
inductive TrySend
  | sent (k : Task)
  | full
  | closed

def Task.trySend (k : Task) (payload : List UInt8) : TrySend :=
  if ¬ k.isOpen then .closed
  else if k.outbound.queue.length < queueCapacity then
    .sent { k with outbound := k.outbound.push [payload] }
  else .full

def World.trySend (w : World) (i : Nat) (payload : List UInt8) : TrySend :=
  match w.tasks[i]? with
  | some k => k.trySend payload
  | none => .closed

/-- A new flow, unless there are too many. Its first packet is in the queue when its task starts. -/
def World.openFlow (c : Config) (w : World) (target : SocksAddress) (payload : List UInt8) :
    World :=
  if c.maxFlows ≤ w.flows.entries.length then w
  else
    { w with
      flows := w.flows.insert target w.tasks.length
      tasks := w.tasks ++ [⟨target, Pipe.empty.push [payload], .opening⟩]
      available := w.available - cost payload }

/-- The packet is paid for and put into the queue of its flow. -/
def World.enqueue (c : Config) (w : World) (target : SocksAddress) (payload : List UInt8) :
    World :=
  if w.available < cost payload then w
  else
    match w.flows.lookup target with
    | none => w.openFlow c target payload
    | some i =>
      match w.trySend i payload with
      | .sent k => { w with tasks := w.tasks.set i k, available := w.available - cost payload }
      | .full => w
      | .closed => { w with flows := w.flows.erase target }.openFlow c target payload

def World.receive (c : Config) (w : World) (source : SocketAddr) (packet : List UInt8) : World :=
  if ipOf source ≠ ipOf c.peer then w
  else
    match decodeUdpPacket packet with
    | .error _ => w
    | .ok (target, fragment, payload) =>
      if fragment ≠ 0 ∨ target.port = 0 then w
      else
        let accepted := acceptUdpSource w.endpoint (ipOf c.peer) source
        if accepted.1 then { w with endpoint := accepted.2 }.enqueue c target payload
        else { w with endpoint := accepted.2 }

/-! ## The tasks -/

/-- How an `await` of a task ends. `stops` is the token, the idle timer, an operation that failed,
or the end of the tunnel. -/
inductive TaskEvent
  | opened
  | takes
  | outboundEnds
  | sent
  | received (payload : List UInt8)
  | replied
  | stops
  | closed

/-- What a step of a task leaves: the task, the permits it has given back, and what it has sent to
the client. -/
structure TaskStep where
  task : Task
  released : Nat
  replies : List (SocketAddr × List UInt8)

/-- The task goes on without giving anything back. -/
def Task.goes (k : Task) (leg : TaskLeg) : TaskStep := ⟨{ k with leg := leg }, 0, []⟩

/-- The task returns, and its queue is dropped with the packets in it. -/
def Task.returns (k : Task) : TaskStep :=
  ⟨{ k with leg := .returned, outbound := { k.outbound with queue := [] } },
    queueCost k.outbound.queue, []⟩

def taskStep (endpoint : Option SocketAddr) (k : Task) (e : TaskEvent) : Option TaskStep :=
  match k.leg, e with
  | .opening, .opened => some (k.goes .waiting)
  | .opening, .stops => some k.returns
  | .waiting, .takes =>
    match k.outbound.queue with
    | [] => none
    | payload :: _ => some ({ k with outbound := k.outbound.take 1 }.goes (.sending payload))
  | .waiting, .outboundEnds => if k.outbound.AtEnd then some (k.goes .closing) else none
  | .waiting, .received payload =>
    -- a packet is skipped without an endpoint or without an encoding
    match endpoint, encodeUdpPacketInto [] k.target payload with
    | some endpoint, .ok packet => some (k.goes (.replying endpoint packet))
    | _, _ => some (k.goes .waiting)
  | .waiting, .stops => some (k.goes .closing)
  | .sending payload, .sent => some ⟨{ k with leg := .waiting }, cost payload, []⟩
  | .sending payload, .stops => some ⟨{ k with leg := .closing }, cost payload, []⟩
  | .replying endpoint packet, .replied =>
    some ⟨{ k with leg := .waiting }, 0, [(endpoint, packet)]⟩
  | .replying _ _, .stops => some (k.goes .closing)
  | .closing, .closed => some k.returns
  | _, _ => none

/-! ## The whole -/

/-- `stops` is what ends the loop: the token, or anything on the control connection. -/
inductive Event
  | datagram (source : SocketAddr) (packet : List UInt8)
  | task (i : Nat) (e : TaskEvent)
  | joined (i : Nat)
  | stops
  | ends
  | othersTake (n : Nat)
  | othersReturn (n : Nat)

def World.isOpenAt (w : World) (i : Nat) : Bool := (w.tasks[i]?).any Task.isOpen

/-- A task that has returned is joined, and the loop forgets the flows whose queue is closed. -/
def World.join (w : World) (i : Nat) : Option World :=
  match w.tasks[i]? with
  | none => none
  | some k =>
    if k.leg = .returned then
      some { w with
        tasks := w.tasks.set i { k with leg := .joined }
        flows := retain w.flows fun _ j => w.isOpenAt j }
    else none

def step (c : Config) (w : World) : Event → Option World
  | .datagram source packet =>
    if w.phase = .looping then
      some ({ w with arrived := w.arrived ++ [(source, packet)] }.receive c source packet)
    else none
  | .task i e =>
    match w.tasks[i]? with
    | none => none
    | some k =>
      (taskStep w.endpoint k e).map fun s =>
        { w with
          tasks := w.tasks.set i s.task
          available := w.available + s.released
          clientDown := w.clientDown ++ s.replies }
  | .joined i => w.join i
  | .stops =>
    if w.phase = .looping then
      some { w with
        phase := .ending
        flows := ∅
        tasks := w.tasks.map fun k => { k with outbound := k.outbound.close .dropped } }
    else none
  | .ends =>
    if w.phase = .ending ∧ w.tasks.all fun k => k.leg = .joined then
      some { w with phase := .ended }
    else none
  | .othersTake n =>
    if n ≤ w.available then some { w with available := w.available - n, others := w.others + n }
    else none
  | .othersReturn n =>
    if n ≤ w.others then some { w with available := w.available + n, others := w.others - n }
    else none

end Nowhere.Vector.Association
