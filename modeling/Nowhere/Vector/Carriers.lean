import Nowhere.Lib.Machine
import Nowhere.OpeningEnvelope
import Nowhere.Vector.OpenFlow
import Nowhere.Vector.UdpFlow

/-!
# The carriers of Vector

The pool of authenticated TLS connections and the shared QUIC session (`src/vector/session.rs`), and
the flows that open their lanes on them (`open_tcp`, `open_lane` and `PhysicalLane` of
`src/vector/flow.rs`, `open_udp` of `src/vector/udp_flow.rs`). Lanes are moved between the pool, the
tasks that connect and the flows as in the source, and each has with it what was written to its
stream; a stream that nobody has any more is among the `dropped` ones. Every `await` may take any
time, fail, or be where the future is dropped.
-/

namespace Nowhere.Vector.Carriers

open Protocol Common.Socks
open UdpFlow (CarrierMode)

def carrier : CarrierMode → Carrier
  | .tcp => .tlsTcp
  | .udp => .quic

/-- `pool` is the number of connections that are kept ready. Times are in milliseconds. -/
structure Config where
  hmac : HmacSha256
  authKey : AuthKey
  sessionId : SessionId
  up : CarrierMode
  down : CarrierMode
  pool : Nat
  serviceCooldown : Nat

def warmLaneTtl : Nat := 30000

/-! ## Lanes -/

/-- What a lane runs on: a TLS connection, or a stream of a QUIC session. -/
inductive Source
  | tls (exporter : TlsExporter)
  | quic (session : Nat) (exporter : TlsExporter) (stream : Nat)
  deriving DecidableEq

def Source.carrier : Source → Carrier
  | .tls _ => .tlsTcp
  | .quic _ _ _ => .quic

/-- What the first frame of the source is bound to. Only the first stream of a QUIC session has
one. -/
def Source.context (c : Config) : Source → Option AuthContext
  | .tls exporter => some ⟨c.authKey, .tlsTcp, exporter⟩
  | .quic _ exporter 0 => some ⟨c.authKey, .quic, exporter⟩
  | .quic _ _ (_ + 1) => none

def Source.auth (c : Config) (source : Source) : Option AuthFrame :=
  (source.context c).map fun context => context.frame c.hmac c.sessionId

/-- The sending side of a stream. -/
structure Wire where
  source : Source
  written : List UInt8
  deriving DecidableEq

def Wire.write (wire : Wire) (bytes : List UInt8) : Wire :=
  { wire with written := wire.written ++ bytes }

structure TlsLane where
  exporter : TlsExporter
  written : List UInt8
  pendingAuth : Option AuthFrame
  createdAt : Nat
  deriving DecidableEq

def TlsLane.wire (lane : TlsLane) : Wire := ⟨.tls lane.exporter, lane.written⟩

def TlsLane.expired (now : Nat) (lane : TlsLane) : Bool := warmLaneTtl ≤ now - lane.createdAt

structure PhysicalLane where
  wire : Wire
  pendingAuth : Option AuthFrame
  pendingQuicAuth : Bool
  deriving DecidableEq

/-- `into_parts`, and the lane that `open_lane` makes of them. -/
def TlsLane.intoParts (lane : TlsLane) : PhysicalLane := ⟨lane.wire, lane.pendingAuth, false⟩

def PhysicalLane.isTls (lane : PhysicalLane) : Bool := lane.wire.source.carrier = .tlsTcp

/-- The session that is closed when the lane is dropped. -/
def PhysicalLane.abandons (lane : PhysicalLane) : Option Nat :=
  match lane.wire.source with
  | .quic session _ _ => if lane.pendingQuicAuth then some session else none
  | .tls _ => none

/-! ## The parts of the program -/

/-- A task that `maintain` has spawned: `connect_lane(true)`. -/
inductive Connector
  | dialing
  | authenticating (exporter : TlsExporter) (written rest : List UInt8)
  | ready (lane : TlsLane)
  | failed
  deriving DecidableEq

/-- Where `maintain` is. -/
inductive MaintainLeg
  | checking
  | clearing
  | retaining
  | counting
  | joining (connectFailed : Bool)
  | storing (lane : TlsLane) (connectFailed : Bool)
  | cooling
  | waiting
  | returned
  | aborted
  deriving DecidableEq

/-- Where `open_lane` is: in `TlsPool::acquire`, in `QuicManager::get` or in
`QuicSession::open_bi`. -/
inductive LaneLeg
  | acquiring
  | dialing
  | looking
  | queued
  -- from here to `storing` the connect lock is held
  | rechecking
  | sleeping
  | connecting
  | connected (session : Nat)
  | storing (session : Nat)
  | opening (session : Nat)
  | opened (lane : PhysicalLane)
  | failed
  deriving DecidableEq

def LaneLeg.holdsLock : LaneLeg → Bool
  | .rechecking | .sleeping | .connecting | .connected _ | .storing _ => true
  | _ => false

/-- Whether the lane is inside `TlsPool::acquire`. -/
def LaneLeg.acquires : LaneLeg → Bool
  | .acquiring | .dialing => true
  | _ => false

def LaneLeg.lane : LaneLeg → Option PhysicalLane
  | .opened lane => some lane
  | _ => none

/-- Where a flow is. `writing` has the place of the lane, and what of its request is not written. -/
inductive FlowLeg
  | opening
  | writing (i : Nat) (rest : List UInt8)
  | shutting
  | awaiting
  | tunnel
  | dropped
  deriving DecidableEq

structure Flow where
  id : FlowId
  kind : FlowKind
  target : Target
  lanes : List LaneLeg
  leg : FlowLeg

def Flow.opened (f : Flow) : List PhysicalLane := f.lanes.filterMap LaneLeg.lane

/-- `firstStream` says whether the first stream has not been handed out; `streams` counts all that
were opened. -/
structure Session where
  exporter : TlsExporter
  firstStream : Bool
  streams : Nat
  closed : Bool
  deriving DecidableEq

/-- A call of `connect`, with the time when it failed. -/
structure Attempt where
  started : Nat
  failed : Option Nat
  deriving DecidableEq

/-- `attempts` and `missed` are only remembered: the calls of `connect`, and whether an `acquire`
has ended without a lane since `maintain` last counted. -/
structure World where
  now : Nat
  cancelled : Bool
  idle : List TlsLane
  preparing : Nat
  notified : Bool
  linkTcp : Nat
  maintain : MaintainLeg
  connectors : List Connector
  sessions : List Session
  state : Option Nat
  retryAfter : Option Nat
  flows : List Flow
  dropped : List Wire
  attempts : List Attempt
  missed : Bool

/-- `maintain` is only started for a pool. -/
def World.start (c : Config) : World where
  now := 0
  cancelled := false
  idle := []
  preparing := 0
  notified := false
  linkTcp := 0
  maintain := if c.pool = 0 then .returned else .checking
  connectors := []
  sessions := []
  state := none
  retryAfter := none
  flows := []
  dropped := []
  attempts := []
  missed := false

def closeSessions (numbers : List Nat) (sessions : List Session) : List Session :=
  sessions.mapIdx fun q s => if q ∈ numbers then { s with closed := true } else s

/-- TLS lanes are dropped. -/
def World.dropTls (w : World) (lanes : List TlsLane) : World :=
  { w with
    linkTcp := w.linkTcp - lanes.length
    dropped := w.dropped ++ lanes.map TlsLane.wire }

/-- `PhysicalLane::drop`. A session whose authentication is abandoned is closed. -/
def World.dropLanes (w : World) (lanes : List PhysicalLane) : World :=
  { w with
    linkTcp := w.linkTcp - lanes.countP PhysicalLane.isTls
    sessions := closeSessions (lanes.filterMap PhysicalLane.abandons) w.sessions
    dropped := w.dropped ++ lanes.map PhysicalLane.wire }

def World.isLive (w : World) (q : Nat) : Bool := (w.sessions[q]?).any fun s => !s.closed

/-- `live_session`. -/
def World.liveSession (w : World) : Option Nat := w.state.filter w.isLive

def World.isLocked (w : World) : Bool := w.flows.any fun f => f.lanes.any LaneLeg.holdsLock

/-! ## The pool -/

inductive ConnectorEvent
  | dialed (exporter : TlsExporter)
  | wrote (n : Nat)
  | ready
  | fails

/-- A step of a task that connects for the pool. -/
def connectorStep (c : Config) (w : World) (k : Connector) (e : ConnectorEvent) :
    Option (World × Connector) :=
  match k, e with
  | .dialing, .dialed exporter =>
    some (w, .authenticating exporter []
      (AuthContext.frame ⟨c.authKey, .tlsTcp, exporter⟩ c.hmac c.sessionId).1)
  | .dialing, .fails => some (w, .failed)
  | .authenticating exporter written rest, .wrote n =>
    some (w, .authenticating exporter (written ++ rest.take n) (rest.drop n))
  | .authenticating exporter written rest, .ready =>
    if rest = [] then
      some ({ w with linkTcp := w.linkTcp + 1 }, .ready ⟨exporter, written, none, w.now⟩)
    else none
  | .authenticating exporter written _, .fails =>
    some ({ w with dropped := w.dropped ++ [⟨.tls exporter, written⟩] }, .failed)
  | _, _ => none

/-- A task that is done is joined. -/
def joinStep (w : World) (i : Nat) : Option World :=
  match w.maintain, w.connectors[i]? with
  | .joining connectFailed, some (.ready lane) =>
    some { w with
      connectors := w.connectors.eraseIdx i
      preparing := w.preparing - 1
      maintain := .storing lane connectFailed }
  | .joining _, some .failed =>
    some { w with
      connectors := w.connectors.eraseIdx i
      preparing := w.preparing - 1
      maintain := .joining true }
  | _, _ => none

/-- `maintain` goes on where it does not wait for an event. -/
def maintainStep (c : Config) (w : World) : Option World :=
  match w.maintain with
  | .checking => some { w with maintain := if w.cancelled then .clearing else .retaining }
  | .clearing => some ({ w with idle := [], maintain := .returned }.dropTls w.idle)
  | .retaining =>
    let fresh := { w with
      idle := w.idle.filter fun lane => !lane.expired w.now
      maintain := .counting }
    some (fresh.dropTls (w.idle.filter fun lane => lane.expired w.now))
  | .counting =>
    let missing := c.pool - (w.idle.length + w.preparing)
    if 0 < missing then
      some { w with
        preparing := w.preparing + missing
        connectors := List.replicate missing .dialing
        maintain := .joining false
        missed := false }
    else some { w with maintain := .waiting, missed := false }
  | .joining connectFailed =>
    if w.connectors = [] then
      some { w with maintain := if connectFailed then .cooling else .waiting }
    else none
  | .storing lane connectFailed =>
    if w.idle.length < c.pool ∧ w.cancelled = false then
      some { w with idle := w.idle ++ [lane], maintain := .joining connectFailed }
    else some ({ w with maintain := .joining connectFailed }.dropTls [lane])
  | _ => none

/-- The lanes of `maintain` and of its tasks. -/
def MaintainLeg.lanes : MaintainLeg → List TlsLane
  | .storing lane _ => [lane]
  | _ => []

def Connector.lanes : Connector → List TlsLane
  | .ready lane => [lane]
  | _ => []

/-- A connection that is not a lane yet. -/
def Connector.wires : Connector → List Wire
  | .authenticating exporter written _ => [⟨.tls exporter, written⟩]
  | _ => []

/-- `maintain` is aborted, and its tasks with it. -/
def abortStep (w : World) : Option World :=
  match w.maintain with
  | .returned | .aborted => none
  | leg =>
    let lanes := leg.lanes ++ w.connectors.flatMap Connector.lanes
    let left := { w with
      maintain := .aborted
      connectors := []
      dropped := w.dropped ++ w.connectors.flatMap Connector.wires }
    some (left.dropTls lanes)

/-! ## Opening a lane -/

inductive LaneEvent
  | takes (usable : Bool)
  | dialed (exporter : TlsExporter)
  | looks
  | locks
  | rechecks
  | wakes
  | connects (exporter : TlsExporter)
  | clears
  | stores
  | opensBi
  | fails

/-- `acquire` looks at the oldest lane of the pool. -/
def World.takeIdle (w : World) (usable : Bool) : World × LaneLeg :=
  match w.idle with
  | [] => (w, .dialing)
  | lane :: rest =>
    if lane.expired w.now = false ∧ usable = true then
      ({ w with idle := rest, notified := true }, .opened lane.intoParts)
    else ({ w with idle := rest }.dropTls [lane], .acquiring)

/-- `connect` is called. -/
def World.beginConnect (w : World) : World × LaneLeg :=
  ({ w with attempts := w.attempts ++ [⟨w.now, none⟩] }, .connecting)

def World.failConnect (c : Config) (w : World) : World × LaneLeg :=
  ({ w with
      retryAfter := some (w.now + c.serviceCooldown)
      attempts := w.attempts.modify (w.attempts.length - 1) fun a =>
        { a with failed := some w.now } },
    .failed)

def World.openBi (c : Config) (w : World) (q : Nat) : Option (World × LaneLeg) :=
  match w.sessions[q]? with
  | none => none
  | some s =>
    if s.firstStream then
      let source : Source := .quic q s.exporter 0
      some ({ w with sessions := w.sessions.set q { s with firstStream := false } },
        .opened ⟨⟨source, []⟩, source.auth c, true⟩)
    else if s.closed = false then
      some ({ w with sessions := w.sessions.set q { s with streams := s.streams + 1 } },
        .opened ⟨⟨.quic q s.exporter s.streams, []⟩, none, false⟩)
    else none

def laneStep (c : Config) (w : World) (leg : LaneLeg) (e : LaneEvent) :
    Option (World × LaneLeg) :=
  match leg, e with
  | .acquiring, .takes usable => some (w.takeIdle usable)
  | .dialing, .dialed exporter =>
    let source : Source := .tls exporter
    some ({ w with linkTcp := w.linkTcp + 1, notified := true },
      .opened ⟨⟨source, []⟩, source.auth c, false⟩)
  | .dialing, .fails => some ({ w with missed := true }, .failed)
  | .looking, .looks => some (w, (w.liveSession).elim .queued .opening)
  | .queued, .locks => if w.isLocked then none else some (w, .rechecking)
  | .rechecking, .rechecks =>
    match w.liveSession, w.retryAfter with
    | some q, _ => some (w, .opening q)
    | none, some _ => some (w, .sleeping)
    | none, none => some w.beginConnect
  | .sleeping, .wakes => if w.retryAfter.all (· ≤ w.now) then some w.beginConnect else none
  | .sleeping, .fails => if w.cancelled then some (w, .failed) else none
  | .connecting, .connects exporter =>
    some ({ w with sessions := w.sessions ++ [⟨exporter, true, 1, false⟩] },
      .connected w.sessions.length)
  | .connecting, .fails => some (w.failConnect c)
  | .connected q, .clears => some ({ w with retryAfter := none }, .storing q)
  | .storing q, .stores => some ({ w with state := some q }, .opening q)
  | .opening q, .opensBi => w.openBi c q
  | .opening q, .fails =>
    if (w.sessions[q]?).any Session.firstStream then none else some (w, .failed)
  | _, _ => none

/-! ## A flow -/

/-- The lanes of a flow, the uplink first. -/
def Config.plan (c : Config) : List (CarrierMode × FlowRole) :=
  if c.up = c.down then [(c.up, .duplex)] else [(c.up, .opening), (c.down, .attach)]

def startLane : CarrierMode → LaneLeg
  | .tcp => .acquiring
  | .udp => .looking

def Flow.header (c : Config) (f : Flow) (role : FlowRole) : FlowHeader :=
  ⟨role, f.id, f.kind, carrier c.up, carrier c.down⟩

/-- The other half of a split flow has no target. -/
def Flow.targetFor (f : Flow) (role : FlowRole) : Option Target :=
  if role = .attach then none else some f.target

/-- The request of a lane is made, with the authentication frame if that is still to be sent. -/
def Flow.begin (c : Config) (f : Flow) (i : Nat) : Option Flow :=
  match c.plan[i]?, f.lanes[i]? with
  | some (_, role), some (.opened lane) =>
    match writeOpening lane.pendingAuth (f.header c role) (f.targetFor role) with
    | .ok bytes =>
      some { f with
        lanes := f.lanes.set i (.opened { lane with pendingAuth := none })
        leg := .writing i bytes }
    | .error _ => none
  | _, _ => none

def LaneLeg.map (change : PhysicalLane → PhysicalLane) : LaneLeg → LaneLeg
  | .opened lane => .opened (change lane)
  | leg => leg

/-- The lane at a place is changed. -/
def Flow.onLane (f : Flow) (i : Nat) (change : PhysicalLane → PhysicalLane) : Flow :=
  { f with lanes := f.lanes.modify i (LaneLeg.map change) }

/-- UDP flows end the sending side of a lane that carries no packets. -/
def Flow.shuts (c : Config) (f : Flow) : Bool :=
  f.kind = .udp && (c.up = .udp || c.down = .udp)

/-- Whether the relay writes to the uplink lane. -/
def Flow.writesUp (c : Config) (f : Flow) : Bool := !(f.kind = .udp && c.up = .udp)

inductive FlowEvent
  | begins
  | wrote (n : Nat)
  | flushed
  | shut
  | ready
  | relays (bytes : List UInt8)

/-- What a step makes of a flow; `none` inside means that it ends with an error. -/
def flowStep (c : Config) (f : Flow) (e : FlowEvent) : Option (Option Flow) :=
  match f.leg, e with
  | .opening, .begins =>
    if f.lanes.all fun leg => leg.lane.isSome then some (f.begin c 0)
    else if f.lanes.all fun leg => leg.lane.isSome || leg = .failed then some none
    else none
  | .writing i rest, .wrote n =>
    some (some { f.onLane i fun lane =>
      { lane with wire := lane.wire.write (rest.take n) } with leg := .writing i (rest.drop n) })
  | .writing i rest, .flushed =>
    if rest = [] then
      let sent := f.onLane i fun lane => { lane with pendingQuicAuth := false }
      if i + 1 < f.lanes.length then some (sent.begin c (i + 1))
      else some (some { sent with leg := if f.shuts c then .shutting else .awaiting })
    else none
  | .shutting, .shut => some (some { f with leg := .awaiting })
  | .awaiting, .ready => some (some { f with leg := .tunnel })
  | .tunnel, .relays bytes =>
    if f.writesUp c then
      some (some (f.onLane 0 fun lane => { lane with wire := lane.wire.write bytes }))
    else none
  | _, _ => none

/-- A flow has returned, or its future was dropped. -/
def World.dropFlow (w : World) (i : Nat) (f : Flow) : World :=
  let left := { w with
    flows := w.flows.set i { f with lanes := [], leg := .dropped }
    missed := w.missed || f.lanes.any LaneLeg.acquires }
  left.dropLanes f.opened

/-! ## The whole -/

inductive Event
  | tick (n : Nat)
  | shutdown
  | sessionCloses (q : Nat)
  | managerCloses
  | maintain
  | wakes
  | notified
  | abort
  | connector (i : Nat) (e : ConnectorEvent)
  | joined (i : Nat)
  | start (kind : FlowKind) (id : FlowId) (address : SocksAddress)
  | lane (f i : Nat) (e : LaneEvent)
  | flow (f : Nat) (e : FlowEvent)
  | drops (f : Nat)

def World.setLane (w : World) (k i : Nat) (f : Flow) (leg : LaneLeg) : World :=
  { w with flows := w.flows.set k { f with lanes := f.lanes.set i leg } }

/-- A step of one lane of a flow that opens its lanes. -/
def openLaneStep (c : Config) (w : World) (k i : Nat) (e : LaneEvent) : Option World :=
  match w.flows[k]? with
  | none => none
  | some f =>
    match f.leg, f.lanes[i]? with
    | .opening, some leg =>
      (laneStep c w leg e).map fun s => s.1.setLane k i f s.2
    | _, _ => none

def step (c : Config) (w : World) : Event → Option World
  | .tick n => some { w with now := w.now + n }
  | .shutdown => some { w with cancelled := true }
  | .sessionCloses q => some { w with sessions := closeSessions [q] w.sessions }
  | .managerCloses =>
    some { w with state := none, sessions := closeSessions w.state.toList w.sessions }
  | .maintain => maintainStep c w
  | .wakes =>
    if w.maintain = .cooling ∨ w.maintain = .waiting then some { w with maintain := .checking }
    else none
  | .notified =>
    if w.maintain = .waiting ∧ w.notified = true then
      some { w with maintain := .checking, notified := false }
    else none
  | .abort => abortStep w
  | .connector i e =>
    match w.connectors[i]? with
    | none => none
    | some k =>
      (connectorStep c w k e).map fun s => { s.1 with connectors := w.connectors.set i s.2 }
  | .joined i => joinStep w i
  | .start kind id address =>
    match toTarget address with
    | .error _ => some w
    | .ok target =>
      some { w with
        flows := w.flows ++
          [⟨id, kind, target, c.plan.map fun lane => startLane lane.1, .opening⟩] }
  | .lane k i e => openLaneStep c w k i e
  | .flow k e =>
    match w.flows[k]? with
    | none => none
    | some f =>
      (flowStep c f e).map fun
        | some f' => { w with flows := w.flows.set k f' }
        | none => w.dropFlow k f
  | .drops k => (w.flows[k]?).map fun f => w.dropFlow k f

end Nowhere.Vector.Carriers
