import Nowhere.Lib.Machine
import Nowhere.Lib.Relay
import Nowhere.Vector.OpenFlow

/-!
# A TCP flow from end to end

One `CONNECT` from the client of Vector's SOCKS server to the target of Portal's dial, from the
moment both lanes are paired. Portal's side is `relay_paired_tcp` of `src/portal/conn/relay_tcp.rs`
with `relay_stream` of `src/portal/conn/relay_stream.rs`; Vector's side is the end of `open_tcp`
and `relay_tcp` of `src/vector/flow.rs` with the reply that `handle_client` of
`src/vector/socks/server.rs` writes in between. Six pipes join the client, Vector, Portal and the
target, and either side takes its steps when it likes.

The request has been read from the uplink lane; `laneUp` is what follows it. A relay that is dropped
or returns gives up the pipes it writes to. What the reader of such a pipe sees then, an end or an
error, is left to the environment: `Answer.read 0` and `Answer.failed` are both possible.
-/

namespace Nowhere.TcpExchange

open Protocol Relay Common.Socks Nowhere.Vector

/-- The sizes of the relay buffers, and whether there is a rate limiter. -/
structure Config where
  vectorBuffer : Nat
  vectorLimited : Bool
  portalBuffer : Nat
  portalLimited : Bool

section Loops

variable (c : Config)

/-- `client_to_portal` of `relay_tcp`. -/
def clientToPortal : Loop := ⟨c.vectorBuffer, c.vectorLimited, false, false⟩

/-- `portal_to_client` of `relay_tcp`. -/
def portalToClient : Loop := ⟨c.vectorBuffer, c.vectorLimited, false, false⟩

/-- `client_to_target` of `relay_stream`, which counts a piece before it waits for the limiter. -/
def clientToTarget : Loop := ⟨c.portalBuffer, c.portalLimited, true, true⟩

/-- `target_to_client` of `relay_stream`. -/
def targetToClient : Loop := ⟨c.portalBuffer, c.portalLimited, false, true⟩

end Loops

/-! ## The state -/

/-- Where `handle_client` is. `returned` is a return without a relay. -/
inductive VectorLeg
  | awaiting
  | replying (rest : List UInt8)
  | refusing (result : SetupResult) (rest : List UInt8)
  | relaying
  | returned
  deriving DecidableEq

/-- Where `relay_paired_tcp` is. `returned` is a return without a relay. -/
inductive PortalLeg
  | dialing
  | dialed
  | rejecting (code : FlowErrorCode) (rest : List UInt8)
  | finishing (code : FlowErrorCode)
  | readying (rest : List UInt8)
  | relaying
  | returned
  deriving DecidableEq

/-- `cancelled` is the token of the flow's lease; `connected` says that Portal has dialed the
target; `setup` is what `read_ready` has returned. -/
structure World where
  clientUp : Pipe UInt8
  laneUp : Pipe UInt8
  targetUp : Pipe UInt8
  targetDown : Pipe UInt8
  laneDown : Pipe UInt8
  clientDown : Pipe UInt8
  cancelled : Bool
  connected : Bool
  setup : Option (Except SetupResult Unit)
  vectorLeg : VectorLeg
  vector : Exchange UInt8 Failure
  portalLeg : PortalLeg
  portal : Exchange UInt8 Failure

def World.start : World where
  clientUp := .empty
  laneUp := .empty
  targetUp := .empty
  targetDown := .empty
  laneDown := .empty
  clientDown := .empty
  cancelled := false
  connected := false
  setup := none
  vectorLeg := .awaiting
  vector := .start
  portalLeg := .dialing
  portal := .start

namespace World

variable (w : World)

/-! The four loops between their pipes. -/

def vectorUp : Hop UInt8 Failure := w.vector.up.between w.clientUp w.laneUp

def portalUp : Hop UInt8 Failure := w.portal.up.between w.laneUp w.targetUp

def portalDown : Hop UInt8 Failure := w.portal.down.between w.targetDown w.laneDown

def vectorDown : Hop UInt8 Failure := w.vector.down.between w.laneDown w.clientDown

/-- The client's stream and the writer of the uplink lane are dropped. -/
def dropVector : World :=
  { w with laneUp := w.laneUp.close .dropped, clientDown := w.clientDown.close .dropped }

/-- The connection to the target and the writer of the downlink lane are dropped. -/
def dropPortal : World :=
  { w with targetUp := w.targetUp.close .dropped, laneDown := w.laneDown.close .dropped }

/-- What Vector's relay owns is dropped when it is over. -/
def endVector : World := if w.vector.phase.isOver then w.dropVector else w

def endPortal : World := if w.portal.phase.isOver then w.dropPortal else w

end World

/-! ## Vector -/

/-- The reply of `handle_client`. -/
def reply (code : UInt8) : List UInt8 := commandBytes code .unspecified

theorem replyMessage_unspecified (code : UInt8) :
    replyMessage code .unspecified = .ok (reply code) :=
  encodeAddress_command (show SocksAddress.unspecified.Encodable from trivial) code

/-- How an `await` of `handle_client` ends. -/
inductive VectorEvent
  | result
  | resultFails
  | wrote (n : Nat)
  | writeFails
  | up (a : Answer Failure)
  | down (a : Answer Failure)
  | drained
  | dropped

/-- `open_tcp` returns, and `handle_client` goes on with its reply. -/
def World.opened (w : World) (result : Except SetupResult Unit) : World :=
  { w with
    setup := some result
    vectorLeg :=
      match result with
      | .ok () => .replying (reply replySucceeded)
      | .error result => .refusing result (reply (OpenFlowError.setup result).socksReply) }

def vectorStep (c : Config) (w : World) (e : VectorEvent) : Option World :=
  match w.vectorLeg, e with
  | .awaiting, .result =>
    match w.laneDown.queue with
    | [] => none
    | byte :: _ =>
      some ({ w with laneDown := w.laneDown.take 1 }.opened
        (readReady (decodeSetupResult [byte] >>= FlowResult.ofSetup)))
  | .awaiting, .resultFails => some (w.opened (.error .internalError))
  | .replying rest, .wrote n =>
    if 0 < n ∧ n ≤ rest.length then
      some { w with
        clientDown := w.clientDown.push (rest.take n)
        vectorLeg := if n < rest.length then .replying (rest.drop n) else .relaying }
    else none
  | .refusing result rest, .wrote n =>
    if 0 < n ∧ n ≤ rest.length then
      let w := { w with clientDown := w.clientDown.push (rest.take n) }
      if n < rest.length then some { w with vectorLeg := .refusing result (rest.drop n) }
      else some { w with vectorLeg := .returned }.dropVector
    else none
  | .replying _, .writeFails | .refusing _ _, .writeFails =>
    some { w with vectorLeg := .returned }.dropVector
  | .relaying, .up a =>
    if w.vector.phase.polls .up then
      ((clientToPortal c).step w.vectorUp a).map fun h =>
        { w with
          vector := { w.vector with up := h.copy, phase := w.vector.phase.after .up h.leg }
          clientUp := h.source
          laneUp := h.target }.endVector
    else none
  | .relaying, .down a =>
    if w.vector.phase.polls .down then
      ((portalToClient c).step w.vectorDown a).map fun h =>
        { w with
          vector := { w.vector with down := h.copy, phase := w.vector.phase.after .down h.leg }
          laneDown := h.source
          clientDown := h.target }.endVector
    else none
  | .relaying, .drained =>
    match w.vector.phase with
    | .draining _ =>
      some { w with vector := { w.vector with phase := .finished (some (.ok ())) } }.dropVector
    | _ => none
  | .relaying, .dropped =>
    if w.vector.phase.isOver then none
    else some { w with vector := { w.vector with phase := .finished none } }.dropVector
  | .awaiting, .dropped | .replying _, .dropped | .refusing _ _, .dropped =>
    some { w with vectorLeg := .returned }.dropVector
  | _, _ => none

/-! ## Portal -/

/-- How an `await` of `relay_paired_tcp` ends. -/
inductive PortalEvent
  | cancelNoticed
  | dialed
  | dialFailed
  | committed
  | wrote (n : Nat)
  | finished
  | resultFails
  | up (a : Answer Failure)
  | down (a : Answer Failure)
  | drained
  | downlinkClosed
  | dropped

/-- A `REJECT` is about to be written. -/
def World.reject (w : World) (code : FlowErrorCode) : World :=
  { w with portalLeg := .rejecting code (encodeFlowResult (.reject code)) }

/-- The relay is dropped before it has ended. -/
def World.overPortal (w : World) : Option World :=
  if w.portal.phase.isOver then none
  else some { w with portal := { w.portal with phase := .finished none } }.dropPortal

def portalStep (c : Config) (w : World) (e : PortalEvent) : Option World :=
  match w.portalLeg, e with
  | .dialing, .cancelNoticed => if w.cancelled then some (w.reject .sessionReplaced) else none
  | .dialing, .dialed => some { w with portalLeg := .dialed, connected := true }
  | .dialing, .dialFailed =>
    some (w.reject (if w.cancelled then .sessionReplaced else .dialFailed))
  | .dialed, .committed =>
    if w.cancelled then some (w.reject .sessionReplaced)
    else some { w with portalLeg := .readying (encodeFlowResult .ready) }
  | .rejecting code rest, .wrote n =>
    if 0 < n ∧ n ≤ rest.length then
      some { w with
        laneDown := w.laneDown.push (rest.take n)
        portalLeg := if n < rest.length then .rejecting code (rest.drop n) else .finishing code }
    else none
  | .finishing _, .finished =>
    some { w with portalLeg := .returned, laneDown := w.laneDown.close .shutdown }.dropPortal
  | .readying rest, .wrote n =>
    if 0 < n ∧ n ≤ rest.length then
      some { w with
        laneDown := w.laneDown.push (rest.take n)
        portalLeg := if n < rest.length then .readying (rest.drop n) else .relaying }
    else none
  | .rejecting _ _, .resultFails | .finishing _, .resultFails | .readying _, .resultFails =>
    some { w with portalLeg := .returned }.dropPortal
  | .relaying, .up a =>
    if w.portal.phase.polls .up then
      ((clientToTarget c).step w.portalUp a).map fun h =>
        { w with
          portal := { w.portal with up := h.copy, phase := w.portal.phase.after .up h.leg }
          laneUp := h.source
          targetUp := h.target }.endPortal
    else none
  | .relaying, .down a =>
    if w.portal.phase.polls .down then
      ((targetToClient c).step w.portalDown a).map fun h =>
        { w with
          portal := { w.portal with down := h.copy, phase := w.portal.phase.after .down h.leg }
          targetDown := h.source
          laneDown := h.target }.endPortal
    else none
  | .relaying, .drained =>
    match w.portal.phase with
    | .draining _ =>
      some { w with portal := { w.portal with phase := .finished (some (.ok ())) } }.dropPortal
    | _ => none
  | .relaying, .cancelNoticed => if w.cancelled then w.overPortal else none
  | .relaying, .downlinkClosed => w.overPortal
  | .relaying, .dropped => w.overPortal
  | .dialing, .dropped | .dialed, .dropped | .rejecting _ _, .dropped | .finishing _, .dropped
  | .readying _, .dropped => some { w with portalLeg := .returned }.dropPortal
  | _, _ => none

/-! ## The whole -/

/-- The client and the target read and write at their ends; `cancel` is a newer session. -/
inductive Event
  | clientWrites (bytes : List UInt8)
  | clientCloses
  | clientReads (n : Nat)
  | targetWrites (bytes : List UInt8)
  | targetCloses
  | targetReads (n : Nat)
  | cancel
  | vector (e : VectorEvent)
  | portal (e : PortalEvent)

def step (c : Config) (w : World) : Event → Option World
  | .clientWrites bytes =>
    if w.clientUp.closed = none then some { w with clientUp := w.clientUp.push bytes } else none
  | .clientCloses => some { w with clientUp := w.clientUp.close .shutdown }
  | .clientReads n => some { w with clientDown := w.clientDown.take n }
  | .targetWrites bytes =>
    if w.connected ∧ w.targetDown.closed = none then
      some { w with targetDown := w.targetDown.push bytes }
    else none
  | .targetCloses =>
    if w.connected then some { w with targetDown := w.targetDown.close .shutdown } else none
  | .targetReads n => if w.connected then some { w with targetUp := w.targetUp.take n } else none
  | .cancel => some { w with cancelled := true }
  | .vector e => vectorStep c w e
  | .portal e => portalStep c w e

end Nowhere.TcpExchange
