import Nowhere.Lib.Assoc
import Nowhere.Protocol.Flow

/-!
# Pairing registry state

The types of `src/portal/pairing/state.rs` and `src/portal/pairing/link.rs`, and the registry
of `src/portal/pairing.rs` as one shared world.

A stream half is known by the submission that brought it and by the link guard it owns, which
is all the registry ever does with it: it moves the half, drops it, or writes one setup result
to it. Instants and durations are numbers, tokens and permit pools are numbered in the order of
their creation, and the counters of the source, which are 64 bits wide, do not wrap.

The source has one map of pending flows for each kind, with entry types `PendingTcp` and
`PendingUdp` that differ in one field each: `downlinkLiveness` is set for TCP only, `flowPermit`
for UDP only. They are one type here and the maps are indexed by the kind.
-/

namespace Nowhere.Portal

open Protocol Assoc

structure FlowKey where
  sessionId : SessionId
  flowId : FlowId
  deriving DecidableEq

structure Metadata where
  kind : FlowKind
  uplink : Carrier
  downlink : Carrier
  deriving DecidableEq

structure LinkPath where
  peer : String
  localAddr : String
  deriving DecidableEq

/-- The lane a half arrived on; a QUIC lane names its connection generation. -/
structure LinkHalf where
  path : LinkPath
  quicGeneration : Option Nat
  deriving DecidableEq

/-- A registered carrier. Dropping it (`LinkGuard::drop`) locks `links`. -/
structure LinkGuard where
  sessionId : SessionId
  carrier : Carrier
  quicGeneration : Option Nat
  deriving DecidableEq

/-- One permit of the numbered pool of UDP flow permits (`OwnedSemaphorePermit`). -/
structure Permit where
  budget : Nat
  deriving DecidableEq

/-- A cancellation token. -/
abbrev Token := Nat

/-! ## Stream halves -/

/-- `BoxReader`: the receiving side of a stream, with the submission that brought it. -/
structure Reader where
  source : Nat
  guard : Option LinkGuard
  deriving DecidableEq

/-- `BoxWriter`: the sending side of a stream. -/
structure Writer where
  source : Nat
  guard : Option LinkGuard
  deriving DecidableEq

inductive UdpUp
  | tlsTcp (reader : Reader)
  | quic (source : Nat)
  deriving DecidableEq

inductive UdpDown
  | tlsTcp (writer : Writer) (liveness : Option Reader)
  | quic (control : Writer)
  deriving DecidableEq

/-- The uplink half of either kind of flow. -/
inductive Uplink
  | tcp (reader : Reader)
  | udp (up : UdpUp)
  deriving DecidableEq

/-- The downlink half of either kind of flow. -/
inductive Downlink
  | tcp (writer : Writer)
  | udp (down : UdpDown)
  deriving DecidableEq

namespace Uplink

/-- The submission that brought the half. -/
def source : Uplink → Nat
  | .tcp r => r.source
  | .udp (.tlsTcp r) => r.source
  | .udp (.quic s) => s

def guard : Uplink → Option LinkGuard
  | .tcp r => r.guard
  | .udp (.tlsTcp r) => r.guard
  | .udp (.quic _) => none

/-- Does the relay have to prepare a DATAGRAM route before READY? -/
def isQuicUdp : Uplink → Bool
  | .udp (.quic _) => true
  | _ => false

end Uplink

namespace Downlink

def writer : Downlink → Writer
  | .tcp w => w
  | .udp (.tlsTcp w _) => w
  | .udp (.quic w) => w

def source (d : Downlink) : Nat := d.writer.source

def guard (d : Downlink) : Option LinkGuard := d.writer.guard

end Downlink

/-! ## Registry entries -/

/-- `PendingTcp` and `PendingUdp`: a split flow of which one half is still missing. -/
structure Pending where
  epoch : Nat
  metadata : Metadata
  /-- Active QUIC generation when this split flow first became pending. -/
  quicSnapshot : Option Nat
  target : Option Target
  uplink : Option Uplink
  downlink : Option Downlink
  downlinkLiveness : Option Reader
  flowPermit : Option Permit
  uplinkPath : Option LinkPath
  downlinkPath : Option LinkPath
  uplinkGeneration : Option Nat
  downlinkGeneration : Option Nat

structure FlowClaim where
  epoch : Nat
  metadata : Metadata
  target : Option Target
  active : Bool
  cancel : Token
  quicGenerations : List Nat

structure FlowLease where
  key : FlowKey
  epoch : Nat
  cancel : Token
  udpPermit : Option Permit
  deriving DecidableEq

/-- The registered carriers of one session: the number of TLS lanes, the generation of the
current QUIC connection, and the session's pool of UDP flow permits. -/
structure LinkCounts where
  tcp : Nat
  udp : Option Nat
  udpFlowBudget : Nat

structure TerminalRejection where
  code : FlowErrorCode
  expiresAt : Nat
  deriving DecidableEq

structure PairingError where
  code : FlowErrorCode
  message : String
  deriving DecidableEq

/-- `PairedTcp` and `PairedUdp`. -/
structure Paired where
  kind : FlowKind
  flowId : FlowId
  target : Target
  uplink : Uplink
  downlink : Downlink
  downlinkLiveness : Option Reader
  uplinkCarrier : Carrier
  downlinkCarrier : Carrier
  uplinkPath : LinkPath
  downlinkPath : LinkPath
  lease : FlowLease

/-- One call of `submit_tcp` or `submit_udp` (`via`), with the halves and the permit that the
call still owns. The two TCP streams and the parts of a `UdpHalf` are kept in `uplink` and
`downlink`. -/
structure Submission where
  id : Nat
  via : FlowKind
  sessionId : SessionId
  header : FlowHeader
  target : Option Target
  link : LinkHalf
  uplink : Option Uplink
  downlink : Option Downlink
  liveness : Option Reader
  permit : Option Permit

namespace Submission

def key (c : Submission) : FlowKey := ⟨c.sessionId, c.header.flowId⟩

def metadata (c : Submission) : Metadata := ⟨c.header.kind, c.header.uplink, c.header.downlink⟩

end Submission

/-! ## Halves as the ingress handlers build them -/

/-- The halves `handle_tcp_incoming` builds on a TLS lane with guard `g`: the guard goes with
the reader of an OPEN and with the writer of an ATTACH or a DUPLEX. -/
def tlsHalves (id : Nat) (g : LinkGuard) (kind : FlowKind) (role : FlowRole) :
    Option Uplink × Option Downlink × Option Reader :=
  match kind, role with
  | .tcp, .opening => (some (.tcp ⟨id, some g⟩), none, none)
  | .tcp, .attach => (none, some (.tcp ⟨id, some g⟩), some ⟨id, none⟩)
  | .tcp, .duplex => (some (.tcp ⟨id, none⟩), some (.tcp ⟨id, some g⟩), none)
  | .udp, .opening => (some (.udp (.tlsTcp ⟨id, some g⟩)), none, none)
  | .udp, .attach => (none, some (.udp (.tlsTcp ⟨id, some g⟩ (some ⟨id, none⟩))), none)
  | .udp, .duplex =>
    (some (.udp (.tlsTcp ⟨id, none⟩)), some (.udp (.tlsTcp ⟨id, some g⟩ none)), none)

/-- The halves `handle_buffered_stream` builds on a stream of a QUIC connection. -/
def quicHalves (id : Nat) (kind : FlowKind) (role : FlowRole) :
    Option Uplink × Option Downlink × Option Reader :=
  match kind, role with
  | .tcp, .opening => (some (.tcp ⟨id, none⟩), none, none)
  | .tcp, .attach => (none, some (.tcp ⟨id, none⟩), none)
  | .tcp, .duplex => (some (.tcp ⟨id, none⟩), some (.tcp ⟨id, none⟩), none)
  | .udp, .opening => (some (.udp (.quic id)), none, none)
  | .udp, .attach => (none, some (.udp (.quic ⟨id, none⟩)), none)
  | .udp, .duplex => (some (.udp (.quic id)), some (.udp (.quic ⟨id, none⟩)), none)

/-! ## The shared world -/

/-- The claims map with the counters that number its epochs and tokens. -/
structure Claims where
  map : Map FlowKey FlowClaim
  nextEpoch : Nat
  nextToken : Token

/-- The pools of UDP flow permits: how many are free in each, and the next unused number. -/
structure Permits where
  available : Nat → Nat
  nextBudget : Nat

/-- `Stats`: the carrier counters. -/
structure Stats where
  linkTcp : Int
  linkUdp : Int
  linkPairs : Int

/-- Why a downlink was dropped without a setup result. -/
inductive DropReason
  | cancelUdp
  | drainPending
  | staleQuic
  | endOfCall
  deriving DecidableEq

/-- What the registry and the relays do that their callers and peers can see. -/
inductive Event
  | submitted (c : Submission)
  | returned (id : Nat) (error : Option PairingError)
  | paired (call : Submission) (p : Paired)
  | wrote (downlink : Nat) (result : FlowResult)
  | relayed (downlink : Nat) (result : FlowResult)
  | dropped (downlink : Nat) (reason : DropReason)
  | cancelledGeneration (sessionId : SessionId) (generation : Nat)
  | registeredQuic (sessionId : SessionId) (generation : Nat) (previous : Option Nat)
  | panicked (message : String)

/-- The limits a registry is created with. -/
structure Config where
  maxPending : Nat
  timeout : Nat
  maxUdpFlows : Nat

/-- The registry with everything it shares: the clock, the cancelled tokens, the permit pools,
the carrier counters, and the history of what became visible (latest first). -/
structure World where
  pending : FlowKind → Map FlowKey Pending
  links : Map SessionId LinkCounts
  claims : Claims
  rejections : Map FlowKey TerminalRejection
  nextQuicGeneration : Nat
  now : Nat
  cancelled : List Token
  permits : Permits
  stats : Stats
  nextSubmission : Nat
  log : List Event

/-- `PairingRegistry::new`, before anything happened. -/
def World.init : World where
  pending := fun _ => ∅
  links := ∅
  claims := ⟨∅, 1, 0⟩
  rejections := ∅
  nextQuicGeneration := 1
  now := 0
  cancelled := []
  permits := ⟨fun _ => 0, 0⟩
  stats := ⟨0, 0, 0⟩
  nextSubmission := 0
  log := []

end Nowhere.Portal
