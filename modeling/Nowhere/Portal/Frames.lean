import Nowhere.Lib.Tasks
import Nowhere.Portal.Registry

/-!
# Operations of the registry as stacks of critical sections

Every operation is a task whose frames are its critical sections in program order. A frame
names the lock it has to take before it runs and the locks its task keeps between two
sections. Destructors are frames too: a value that owns a `LinkGuard` and is dropped inside a
critical section leaves a `linkGuardDrop` frame above the frame that holds the locks.

`submit_tcp` and `submit_udp` follow the same course, so they share their frames, and
`Submission.via` says which of the two runs. They differ where the source differs: which calls
look for a tombstone before the install block, the permit of a UDP flow, and the place where a
rejected UDP half is dropped (`Submission.lockedDrops`).
-/

namespace Nowhere.Portal

open Protocol Assoc

inductive Lock
  | tcp
  | udp
  | links
  | claims
  | rejections
  deriving DecidableEq, Repr

/-- The lock of a map of pending flows. -/
def pendingLock : FlowKind → Lock
  | .tcp => .tcp
  | .udp => .udp

/-- What follows the cancellation of a generation: `register_quic_link` goes on to purge it and
returns, `LinkGuard::drop` leaves the purge to a task of its own. -/
inductive AfterCancel
  | register (generation : Nat)
  | guardDrop
  deriving DecidableEq

inductive RelayStage
  | dialing
  | preparing
  | committing
  | running
  deriving DecidableEq

/-- A flow whose halves are complete, between the reservation of its claim and its activation. -/
structure Activation where
  call : Submission
  epoch : Nat
  generations : List Nat
  permit : Option Permit
  complete : Pending

inductive Frame
  -- `submit_tcp`, `submit_udp`
  | submit (c : Submission)
  | terminalRejection (c : Submission)
  | acquireUdpPermit (c : Submission)
  | tryAcquire (c : Submission) (budget : Nat)
  | reserveDuplex (c : Submission)
  | installPending (c : Submission)
  | installLinks (c : Submission)
  | installSweep (c : Submission) (active : Option Nat)
      (left : Option (Option Target × List Nat))
  | installTombstone (c : Submission) (active : Option Nat)
  | installReserve (c : Submission) (active : Option Nat)
  | installRefresh (c : Submission)
  | installRefreshClaim (c : Submission) (epoch : Nat)
  -- `activate_claim`, `abandon_claim`
  | activateLinks (a : Activation)
  | activateClaims (a : Activation)
  | abandonClaim (key : FlowKey) (epoch : Nat)
  -- `reject_flow_setup`
  | rejectTcp (key : FlowKey) (code : FlowErrorCode)
  | rejectUdp (key : FlowKey) (code : FlowErrorCode)
  | rejectClaims (key : FlowKey) (code : FlowErrorCode)
  | rejectUdpEntry (key : FlowKey) (code : FlowErrorCode) (tcp : Option Downlink)
  | rejectFinish (key : FlowKey) (code : FlowErrorCode) (tcp udp : Option Downlink)
  | rejectTombstone (key : FlowKey) (code : FlowErrorCode) (expiresAt : Nat)
  -- results, returns and drops outside every lock
  | writeReject (downlink : Nat) (code : FlowErrorCode)
  | returnErr (id : Nat) (error : PairingError)
  | discard (downlink : Nat)
  | permitDrop (permit : Permit)
  | leaseDrop (lease : FlowLease)
  | hold (locks : List Lock)
  | panic (message : String)
  -- `spawn_tcp_timeout`, `spawn_udp_timeout`
  | timeout (kind : FlowKind) (key : FlowKey) (epoch deadline : Nat)
  -- `cancel_udp`, `cancel_all`
  | cancelUdp (key : FlowKey)
  | cancelUdpClaim (key : FlowKey)
  | cancelToken (token : Token)
  | cancelAll
  | drainFlows (kind : FlowKind)
  | drainRejections
  | drainClaims
  -- carriers
  | registerTcp (s : SessionId)
  | lane (g : LinkGuard)
  | registerQuic (s : SessionId)
  | registerQuicLinks (s : SessionId) (generation : Nat)
  | conn (g : LinkGuard)
  | linkGuardDrop (g : LinkGuard)
  | cancelGeneration (s : SessionId) (generation : Nat) (held : Bool) (next : AfterCancel)
  | purgeTcp (s : SessionId) (generation : Nat) (next : AfterCancel)
  | purgeUdp (s : SessionId) (generation : Nat) (next : AfterCancel) (stale : List FlowKey)
  | purgeKeys (s : SessionId) (generation : Nat) (next : AfterCancel) (stale : List FlowKey)
  -- `relay_paired_tcp`, `relay_paired_udp`
  | relay (p : Paired) (stage : RelayStage)

namespace Frame

/-- The lock taken before the frame runs. -/
def wants : Frame → Option Lock
  | .submit c => if c.readsLinks then some .links else none
  | .terminalRejection _ => some .rejections
  | .acquireUdpPermit _ => some .links
  | .reserveDuplex _ => some .claims
  | .installPending c => some (pendingLock c.via)
  | .installLinks _ => some .links
  | .installSweep .. => some .claims
  | .installTombstone .. => some .rejections
  | .installReserve .. => some .claims
  | .installRefreshClaim .. => some .claims
  | .activateLinks _ => some .links
  | .activateClaims _ => some .claims
  | .abandonClaim .. => some .claims
  | .rejectTcp .. => some .tcp
  | .rejectUdp .. => some .udp
  | .rejectClaims .. => some .claims
  | .rejectTombstone .. => some .rejections
  | .leaseDrop _ => some .claims
  | .timeout kind .. => some (pendingLock kind)
  | .cancelUdp _ => some .udp
  | .cancelUdpClaim _ => some .claims
  | .cancelAll => some .claims
  | .drainFlows kind => some (pendingLock kind)
  | .drainRejections => some .rejections
  | .drainClaims => some .claims
  | .registerTcp _ => some .links
  | .registerQuicLinks .. => some .links
  | .linkGuardDrop _ => some .links
  | .cancelGeneration .. => some .claims
  | .purgeTcp .. => some .tcp
  | .purgeUdp .. => some .udp
  | _ => none

/-- The locks the task keeps until the frame has run. -/
def holds : Frame → List Lock
  | .installLinks c => [pendingLock c.via]
  | .installSweep c .. => [pendingLock c.via, .links]
  | .installTombstone c _ => [pendingLock c.via, .links]
  | .installReserve c _ => [pendingLock c.via, .links]
  | .installRefresh c => [pendingLock c.via, .links]
  | .installRefreshClaim c _ => [pendingLock c.via, .links]
  | .activateClaims _ => [.links]
  | .rejectUdp .. => [.tcp]
  | .rejectClaims .. => [.tcp, .udp]
  | .rejectUdpEntry .. => [.tcp, .udp, .claims]
  | .rejectFinish .. => [.tcp, .udp, .claims]
  | .rejectTombstone .. => [.tcp, .udp, .claims]
  | .cancelGeneration _ _ held _ => if held then [.links] else []
  | .hold locks => locks
  | _ => []

end Frame

/-- What the environment decides during a step: which of several equally good candidates comes
first, what a lane's peer sends, how the relay's dialing ends. -/
inductive Choice
  | go
  | pick (n : Nat)
  | runtime (present : Bool)
  | flow (header : FlowHeader) (target : Option Target) (path : LinkPath)
  | refuse (flowId : FlowId)
  | close
  | cancelSeen
  | dialFailed
  | dialed
  | prepared (ok : Bool)

abbrev Effect := Tasks.Effect World Frame

def World.emit (w : World) (events : List Event) : World := { w with log := events ++ w.log }

/-- The destructor of a guard that may be there. -/
def dropGuard (g : Option LinkGuard) : List Frame := g.toList.map .linkGuardDrop

/-- Write `Reject(code)` to a downlink that may be there. -/
def rejectDownlink (d : Option Downlink) (code : FlowErrorCode) : List Frame :=
  d.toList.map fun d => .writeReject d.source code

/-! ## Submissions -/

namespace Submission

/-- The call after its halves and its permit have moved elsewhere. -/
def bare (c : Submission) : Submission :=
  { c with uplink := none, downlink := none, liveness := none, permit := none }

/-- What a call still owns is dropped when it returns. -/
def drops (c : Submission) : List Frame :=
  dropGuard (c.uplink.bind Uplink.guard) ++ dropGuard (c.downlink.bind Downlink.guard) ++
    c.permit.toList.map .permitDrop

/-- A panicking call drops everything it owns. -/
def unwind (c : Submission) : List Frame :=
  (c.downlink.toList.map fun d => .discard d.source) ++ c.drops

/-- Write the error to the call's own downlink and return it. -/
def replyReject (c : Submission) (e : PairingError) : List Frame :=
  rejectDownlink c.downlink e.code ++ .returnErr c.id e :: c.drops

/-- An OPEN that fails before the install block also terminates the setup attempt. -/
def rejectEarly (c : Submission) (e : PairingError) : List Frame :=
  (if c.header.role = .opening then [.rejectTcp c.key e.code] else []) ++ c.replyReject e

/-- A rejected UDP half is taken apart inside the install block (`udp_half_downlink`), so its
uplink is dropped under the locks. The TCP reader stays with the call. -/
def lockedDrops (c : Submission) : List Frame :=
  match c.via with
  | .tcp => []
  | .udp => dropGuard (c.uplink.bind Uplink.guard) ++ [.hold [pendingLock c.via, .links]]

/-- What is left to drop after `lockedDrops`. -/
def lateDrops (c : Submission) : List Frame :=
  (match c.via with
    | .tcp => dropGuard (c.uplink.bind Uplink.guard)
    | .udp => []) ++
  dropGuard (c.downlink.bind Downlink.guard) ++ c.permit.toList.map .permitDrop

/-- Leaving the install block with `Rejected`. -/
def rejected (c : Submission) (e : PairingError) (abortPending : Bool) : List Frame :=
  c.lockedDrops ++ (if abortPending then [.rejectTcp c.key e.code] else []) ++
    rejectDownlink c.downlink e.code ++ .returnErr c.id e :: c.lateDrops

/-- A duplicate OPEN names no downlink in its outcome. -/
def rejectedUplink (c : Submission) (e : PairingError) : List Frame :=
  c.lockedDrops ++ .rejectTcp c.key e.code :: .returnErr c.id e ::
    (c.downlink.toList.map fun d => .discard d.source) ++ c.lateDrops

/-- The section of `submit_tcp` or `submit_udp` that follows the checks of the header. -/
def afterChecks (c : Submission) : List Frame :=
  match c.via, c.header.role with
  | .tcp, .duplex | .udp, .opening | .udp, .duplex => [.terminalRejection c]
  | _, _ => [.installPending c]

/-- The panic of a DUPLEX that lacks a half. -/
def duplexPanic (c : Submission) : Option String :=
  match c.via, c.uplink, c.downlink with
  | _, some _, some _ => none
  | .tcp, none, _ => some "duplex TCP reader validated"
  | .tcp, some _, none => some "duplex TCP writer validated"
  | .udp, _, _ => some "internal error: entered unreachable code: duplex UDP shape validated"

/-- A DUPLEX brings both halves of its flow. -/
def toPending (c : Submission) (epoch : Nat) : Pending where
  epoch := epoch
  metadata := c.metadata
  quicSnapshot := none
  target := c.target
  uplink := c.uplink
  downlink := c.downlink
  downlinkLiveness := c.liveness
  flowPermit := none
  uplinkPath := some c.link.path
  downlinkPath := some c.link.path
  uplinkGeneration := c.link.quicGeneration
  downlinkGeneration := c.link.quicGeneration

end Submission

section Steps

variable (cfg : Config) (w : World)

def submitStep (c : Submission) : Effect :=
  ⟨w, match c.validateHeaderAndLink w.links with
    | .error e => c.rejectEarly e
    | .ok () => if c.shapeValid then c.afterChecks else c.rejectEarly c.shapeError, []⟩

/-- The tombstone lookup before the install block. -/
def terminalRejectionStep (c : Submission) : Effect :=
  let (rejections, code) :=
    terminalRejection w.now w.rejections c.key (decide (c.header.role = .duplex))
  ⟨{ w with rejections }, match code with
    | some code => c.replyReject ⟨code, "portal::pairing: terminal flow rejection"⟩
    | none => match c.via with
      | .tcp => [.reserveDuplex c]
      | .udp => [.acquireUdpPermit c], []⟩

def acquireUdpPermitStep (c : Submission) : Effect :=
  ⟨w, match w.links.lookup c.sessionId with
    | none => c.rejectEarly ⟨.sessionReplaced, "portal::pairing: missing authenticated session"⟩
    | some counts => [.tryAcquire c counts.udpFlowBudget], []⟩

def tryAcquireStep (c : Submission) (budget : Nat) : Effect :=
  if 0 < w.permits.available budget then
    let c := { c with permit := some ⟨budget⟩ }
    ⟨{ w with permits := w.permits.acquire budget },
      [if c.header.role = .duplex then .reserveDuplex c else .installPending c], []⟩
  else
    ⟨w, c.rejectEarly ⟨.flowLimit, "portal::pairing: UDP flow limit reached"⟩, []⟩

def reserveDuplexStep (c : Submission) : Effect :=
  let (claims, reserved) :=
    w.claims.reserveClaim cfg c.key c.metadata c.target c.link.quicGeneration
  ⟨{ w with claims }, match reserved with
    | .error e => c.replyReject e
    | .ok (_, false) =>
      c.replyReject ⟨.metadataConflict, "portal::pairing: duplicate " ++ kindName c.via ++
        " flow id"⟩
    | .ok (epoch, true) => match c.duplexPanic with
      | some message => .panic message :: c.unwind
      | none => [.activateLinks ⟨c.bare, epoch, c.link.quicGeneration.toList, c.permit,
          c.toPending epoch⟩], []⟩

/-! ## The install block -/

def installLinksStep (c : Submission) : Effect :=
  match validateCurrentLinkLocked w.links c.sessionId c.link with
  | .error e => ⟨w, c.rejected e (decide (c.header.role = .opening)), []⟩
  | .ok () =>
    let active := activeQuicGeneration w.links c.sessionId
    let flows := w.pending c.via
    match flows.lookup c.key with
    | none => ⟨w, [.installTombstone c active], []⟩
    | some p =>
      let p' := p.clearStale active
      let gone := p'.uplink.isNone && p'.downlink.isNone
      let lostUplink := if p.uplinkStale active then p.uplink else none
      let lostDownlink := if p.downlinkStale active then p.downlink else none
      ⟨{ w with
          pending := Function.update w.pending c.via
            (if gone then flows.erase c.key else flows.insert c.key p')
          permits := w.permits.release (if p.uplinkStale active then p.flowPermit else none)
          log := (lostDownlink.toList.map fun d => .dropped d.source .staleQuic) ++ w.log },
        dropGuard (lostUplink.bind Uplink.guard) ++
          dropGuard (lostDownlink.bind Downlink.guard) ++
          [.installSweep c active (if gone then none else some (p'.target, p'.generations))], []⟩

def installSweepStep (c : Submission) (active : Option Nat)
    (left : Option (Option Target × List Nat)) : Effect :=
  ⟨{ w with claims := w.claims.sweepClaim c.key left }, [.installTombstone c active], []⟩

def installTombstoneStep (c : Submission) (active : Option Nat) : Effect :=
  let (rejections, code) :=
    terminalRejection w.now w.rejections c.key (decide (c.header.role = .attach))
  ⟨{ w with rejections }, match code with
    | some code => c.rejected ⟨code, "portal::pairing: terminal flow rejection"⟩ false
    | none => [.installReserve c active], []⟩

/-- A complete UDP entry without its permit: the claim is abandoned and the entry dropped while
the locks are held. -/
def missingPermit (c : Submission) (p : Pending) : List Frame :=
  let e : PairingError := ⟨.internalError, "portal::pairing: missing UDP flow permit"⟩
  .abandonClaim c.key p.epoch :: dropGuard (p.uplink.bind Uplink.guard) ++
    .hold [pendingLock c.via, .links] :: rejectDownlink p.downlink e.code ++
    .returnErr c.id e :: dropGuard (p.downlink.bind Downlink.guard)

def installReserveStep (c : Submission) (active : Option Nat) : Effect :=
  let (claims, reserved) :=
    w.claims.reserveClaim cfg c.key c.metadata c.target c.link.quicGeneration
  match reserved with
  | .error e => ⟨{ w with claims }, c.rejected e true, []⟩
  | .ok (epoch, _) =>
    let flows := w.pending c.via
    let (p, misfit) := ((flows.lookup c.key).getD (.fresh c epoch active)).fill c
    let paired := misfit.isNone && p.complete
    ⟨{ w with
        claims
        pending := Function.update w.pending c.via
          (if paired then flows.erase c.key else flows.insert c.key p) },
      match misfit with
      | some .duplex => .panic (Pending.Misfit.duplex.error c.via).message :: c.unwind
      | some .uplink => c.rejectedUplink (Pending.Misfit.uplink.error c.via)
      | some m => c.rejected (m.error c.via) true
      | none =>
        if p.complete then
          if c.via = .udp ∧ p.flowPermit = none then missingPermit c p
          else [.activateLinks ⟨c.bare, p.epoch, p.generations, p.flowPermit, p⟩]
        else [.installRefresh c.bare], []⟩

/-- `refresh_claim` takes its epoch before it locks `claims`. -/
def installRefreshStep (c : Submission) : Effect :=
  ⟨{ w with claims := { w.claims with nextEpoch := w.claims.nextEpoch + 1 } },
    [.installRefreshClaim c w.claims.nextEpoch], []⟩

def installRefreshClaimStep (c : Submission) (epoch : Nat) : Effect :=
  let flows := w.pending c.via
  match w.claims.refreshClaim c.key epoch, flows.lookup c.key with
  | some claims, p =>
    ⟨{ w with
        claims
        pending := Function.update w.pending c.via
          (p.elim flows fun p => flows.insert c.key { p with epoch })
        log := .returned c.id none :: w.log }, [],
      [[.timeout c.via c.key epoch (w.now + cfg.timeout)]]⟩
  | none, p =>
    -- the entry leaves the map inside the block, so its uplink is dropped under the locks
    let e : PairingError := ⟨.internalError, "portal::pairing: missing pending flow claim"⟩
    let downlink := p.bind Pending.downlink
    ⟨{ w with
        pending := Function.update w.pending c.via (flows.erase c.key)
        permits := w.permits.release (p.bind Pending.flowPermit) },
      dropGuard ((p.bind Pending.uplink).bind Uplink.guard) ++
        .hold [pendingLock c.via, .links] :: .rejectTcp c.key e.code ::
        rejectDownlink downlink e.code ++
        .returnErr c.id e :: dropGuard (downlink.bind Downlink.guard), []⟩

/-! ## Activation -/

/-- A failed activation abandons the claim, then rejects the downlink. -/
def activationFailed (a : Activation) (e : PairingError) : Effect :=
  ⟨{ w with permits := w.permits.release a.permit },
    .abandonClaim a.call.key a.epoch :: dropGuard (a.complete.uplink.bind Uplink.guard) ++
      rejectDownlink a.complete.downlink e.code ++
      .returnErr a.call.id e :: dropGuard (a.complete.downlink.bind Downlink.guard), []⟩

def activateLinksStep (a : Activation) : Effect :=
  if a.generations.any fun g => some g != activeQuicGeneration w.links a.call.sessionId then
    activationFailed w a
      ⟨.sessionReplaced, "portal::pairing: QUIC generation replaced before activation"⟩
  else ⟨w, [.activateClaims a], []⟩

def activateClaimsStep (a : Activation) : Effect :=
  match w.claims.activateClaim a.call.key a.epoch a.generations with
  | none => activationFailed w a ⟨.internalError, "portal::pairing: missing flow claim"⟩
  | some (claims, cancel) =>
    let lease : FlowLease := ⟨a.call.key, a.epoch, cancel, a.permit⟩
    match a.complete.toPaired a.call lease with
    | .ok p => ⟨{ w with claims, log := .paired a.call p :: w.log }, [], [[.relay p .dialing]]⟩
    | .error message =>
      ⟨{ w with claims }, .panic message :: .leaseDrop lease ::
        (a.complete.downlink.toList.map fun d => .discard d.source) ++
        dropGuard (a.complete.uplink.bind Uplink.guard) ++
        dropGuard (a.complete.downlink.bind Downlink.guard), []⟩

/-! ## `reject_flow_setup` -/

/-- Remove the key's pending entry and keep its downlink; the rest is dropped under the locks. -/
def rejectEntry (kind : FlowKind) (key : FlowKey) (next : Option Downlink → Frame) : Effect :=
  let flows := w.pending kind
  let p := flows.lookup key
  ⟨{ w with
      pending := Function.update w.pending kind (flows.erase key)
      permits := w.permits.release (p.bind Pending.flowPermit) },
    dropGuard ((p.bind Pending.uplink).bind Uplink.guard) ++ [next (p.bind Pending.downlink)], []⟩

def rejectClaimsStep (key : FlowKey) (code : FlowErrorCode) : Effect :=
  if (w.claims.map.lookup key).any FlowClaim.active then ⟨w, [], []⟩
  else rejectEntry w .tcp key (.rejectUdpEntry key code)

def rejectFinishStep (key : FlowKey) (code : FlowErrorCode) (tcp udp : Option Downlink) : Effect :=
  ⟨{ w with claims := { w.claims with map := w.claims.map.erase key } },
    if tcp = none ∧ udp = none then [.rejectTombstone key code (w.now + cfg.timeout)]
    else rejectDownlink tcp code ++ rejectDownlink udp code ++
      dropGuard (udp.bind Downlink.guard) ++ dropGuard (tcp.bind Downlink.guard), []⟩

def rejectTombstoneStep (pick : Nat) (key : FlowKey) (code : FlowErrorCode) (expiresAt : Nat) :
    Effect :=
  ⟨{ w with rejections := insertRejection cfg w.now pick w.rejections key ⟨code, expiresAt⟩ },
    [], []⟩

/-! ## Timeouts, CLOSE and shutdown -/

def timeoutStep (kind : FlowKind) (key : FlowKey) (epoch deadline : Nat) : Option Effect :=
  if w.now < deadline then none
  else
    let flows := w.pending kind
    match flows.lookup key with
    | none => some ⟨w, [], []⟩
    | some p =>
      if p.epoch ≠ epoch then some ⟨w, [], []⟩
      else
        let up := dropGuard (p.uplink.bind Uplink.guard)
        let down := dropGuard (p.downlink.bind Downlink.guard)
        some ⟨{ w with
            pending := Function.update w.pending kind (flows.erase key)
            permits := w.permits.release p.flowPermit },
          if p.uplink.isSome && p.downlink.isNone then up ++ [.rejectTcp key .pairTimeout]
          else match kind with
            | .tcp => rejectDownlink p.downlink .pairTimeout ++
                .abandonClaim key epoch :: up ++ down
            | .udp => rejectDownlink p.downlink .pairTimeout ++ down ++
                .abandonClaim key epoch :: up, []⟩

def cancelUdpStep (key : FlowKey) : Effect :=
  let flows := w.pending .udp
  let p := flows.lookup key
  let downlink := p.bind Pending.downlink
  ⟨{ w with
      pending := Function.update w.pending .udp (flows.erase key)
      permits := w.permits.release (p.bind Pending.flowPermit)
      log := (downlink.toList.map fun d => .dropped d.source .cancelUdp) ++ w.log },
    dropGuard ((p.bind Pending.uplink).bind Uplink.guard) ++
      dropGuard (downlink.bind Downlink.guard) ++ [.hold [.udp], .cancelUdpClaim key], []⟩

def cancelUdpClaimStep (key : FlowKey) : Effect :=
  ⟨w, match w.claims.map.lookup key with
    | none => []
    | some claim =>
      if claim.active then [.cancelToken claim.cancel] else [.abandonClaim key claim.epoch], []⟩

def cancelAllStep : Effect :=
  ⟨{ w with cancelled := w.claims.tokens (fun _ _ => true) ++ w.cancelled },
    [.drainFlows .tcp], []⟩

def drainFlowsStep (kind : FlowKind) : Effect :=
  let ps := (w.pending kind).entries.map Sigma.snd
  ⟨{ w with
      pending := Function.update w.pending kind ∅
      permits := w.permits.releaseAll (ps.filterMap Pending.flowPermit)
      log := ((ps.filterMap Pending.downlink).map fun d => .dropped d.source .drainPending) ++
        w.log },
    (ps.flatMap fun p => dropGuard (p.uplink.bind Uplink.guard) ++
        dropGuard (p.downlink.bind Downlink.guard)) ++
      [.hold [pendingLock kind], match kind with
        | .tcp => .drainFlows .udp
        | .udp => .drainRejections], []⟩

/-! ## Carriers -/

def registerQuicLinksStep (s : SessionId) (generation : Nat) : Effect :=
  let (w', previous) := registerQuicLink cfg w s generation
  match previous with
  | some previous => ⟨w', [.cancelGeneration s previous false (.register generation)], []⟩
  | none =>
    ⟨w'.emit [.registeredQuic s generation none], [.conn ⟨s, .quic, some generation⟩], []⟩

def linkGuardDropStep (g : LinkGuard) : Effect :=
  let (w', exit) := dropLink w g
  ⟨w', match exit with
    | .done => []
    | .cancel generation => [.cancelGeneration g.sessionId generation false .guardDrop]
    | .cancelLocked generation => [.cancelGeneration g.sessionId generation true .guardDrop], []⟩

/-- `cancel_active_quic_generation`, then the purge. A guard dropped outside the runtime starts
no purge. -/
def cancelGenerationStep (runtime : Bool) (s : SessionId) (generation : Nat)
    (next : AfterCancel) : Effect :=
  let tokens := w.claims.tokens fun key claim =>
    decide (key.sessionId = s) && claim.active && decide (generation ∈ claim.quicGenerations)
  let w := { w with
    cancelled := tokens ++ w.cancelled
    log := .cancelledGeneration s generation :: w.log }
  match next with
  | .register _ => ⟨w, [.purgeTcp s generation next], []⟩
  | .guardDrop => ⟨w, [], if runtime then [[.purgeTcp s generation next]] else []⟩

/-- Keys of the pending flows that first saw the generation. -/
def staleKeys (flows : Map FlowKey Pending) (s : SessionId) (generation : Nat) : List FlowKey :=
  (flows.entries.filter fun e =>
    decide (e.1.sessionId = s ∧ e.2.quicSnapshot = some generation)).map Sigma.fst

def purgeUdpStep (s : SessionId) (generation : Nat) (next : AfterCancel) (stale : List FlowKey) :
    Effect :=
  let more := (staleKeys (w.pending .udp) s generation).filter fun k => decide (k ∉ stale)
  ⟨w, [.purgeKeys s generation next (stale ++ more)], []⟩

/-- The set of stale keys is visited in an unspecified order. -/
def purgeKeysStep (pick : Nat) (s : SessionId) (generation : Nat) (next : AfterCancel)
    (stale : List FlowKey) : Effect :=
  match stale[pick % stale.length]? with
  | some key =>
    ⟨w, [.rejectTcp key .sessionReplaced, .purgeKeys s generation next (stale.erase key)], []⟩
  | none => match next with
    | .guardDrop => ⟨w, [], []⟩
    | .register fresh =>
      ⟨w.emit [.registeredQuic s fresh (some generation)], [.conn ⟨s, .quic, some fresh⟩], []⟩

/-! ## Ingress and relays -/

/-- A new submission with the halves its lane provides. -/
def World.newSubmission (s : SessionId) (header : FlowHeader) (target : Option Target)
    (link : LinkHalf) (halves : Option Uplink × Option Downlink × Option Reader) : Submission :=
  ⟨w.nextSubmission, header.kind, s, header, target, link, halves.1, halves.2.1, halves.2.2, none⟩

def startSubmission (c : Submission) : Effect :=
  ⟨{ w with nextSubmission := w.nextSubmission + 1, log := .submitted c :: w.log },
    [.submit c], []⟩

/-- A TLS lane opens one flow, terminates a malformed OPEN, or ends without a flow. -/
def laneStep (choice : Choice) (g : LinkGuard) : Option Effect :=
  match choice with
  | .flow header target path =>
    some (startSubmission w (w.newSubmission g.sessionId header target ⟨path, none⟩
      (tlsHalves w.nextSubmission g header.kind header.role)))
  | .refuse flowId =>
    some ⟨w, [.rejectTcp ⟨g.sessionId, flowId⟩ .invalidRequest, .linkGuardDrop g], []⟩
  | .close => some ⟨w, [.linkGuardDrop g], []⟩
  | _ => none

def relayEnd (p : Paired) : List Frame :=
  .leaseDrop p.lease :: dropGuard p.downlink.guard ++ dropGuard p.uplink.guard

/-- Write the setup result to the pair's downlink and finish. -/
def relayReject (p : Paired) (code : FlowErrorCode) : Effect :=
  ⟨w.emit [.relayed p.downlink.source (.reject code)], relayEnd p, []⟩

def relayStep (choice : Choice) (p : Paired) (stage : RelayStage) : Option Effect :=
  let cancelled : Bool := decide (p.lease.cancel ∈ w.cancelled)
  match stage, choice with
  | _, .close => some ⟨w, relayEnd p, []⟩
  | .dialing, .cancelSeen => if cancelled then some (relayReject w p .sessionReplaced) else none
  | .dialing, .dialFailed =>
    some (relayReject w p (if cancelled then .sessionReplaced else .dialFailed))
  | .dialing, .dialed =>
    some ⟨w, [.relay p (if p.uplink.isQuicUdp then .preparing else .committing)], []⟩
  | .preparing, .prepared true => some ⟨w, [.relay p .committing], []⟩
  | .preparing, .prepared false => some (relayReject w p .internalError)
  | .committing, .go =>
    if cancelled then some (relayReject w p .sessionReplaced)
    else some ⟨w.emit [.relayed p.downlink.source .ready], [.relay p .running], []⟩
  | _, _ => none

end Steps

/-- One step of a frame. -/
def exec (cfg : Config) (choice : Choice) (w : World) : Frame → Option Effect
  | .submit c => some (submitStep w c)
  | .terminalRejection c => some (terminalRejectionStep w c)
  | .acquireUdpPermit c => some (acquireUdpPermitStep w c)
  | .tryAcquire c budget => some (tryAcquireStep w c budget)
  | .reserveDuplex c => some (reserveDuplexStep cfg w c)
  | .installPending c => some ⟨w, [.installLinks c], []⟩
  | .installLinks c => some (installLinksStep w c)
  | .installSweep c active left => some (installSweepStep w c active left)
  | .installTombstone c active => some (installTombstoneStep w c active)
  | .installReserve c active => some (installReserveStep cfg w c active)
  | .installRefresh c => some (installRefreshStep w c)
  | .installRefreshClaim c epoch => some (installRefreshClaimStep cfg w c epoch)
  | .activateLinks a => some (activateLinksStep w a)
  | .activateClaims a => some (activateClaimsStep w a)
  | .abandonClaim key epoch =>
    some ⟨{ w with claims := w.claims.abandonClaim key epoch }, [], []⟩
  | .rejectTcp key code => some ⟨w, [.rejectUdp key code], []⟩
  | .rejectUdp key code => some ⟨w, [.rejectClaims key code], []⟩
  | .rejectClaims key code => some (rejectClaimsStep w key code)
  | .rejectUdpEntry key code tcp => some (rejectEntry w .udp key (.rejectFinish key code tcp))
  | .rejectFinish key code tcp udp => some (rejectFinishStep cfg w key code tcp udp)
  | .rejectTombstone key code expiresAt =>
    match choice with
    | .pick n => some (rejectTombstoneStep cfg w n key code expiresAt)
    | _ => none
  | .writeReject d code => some ⟨w.emit [.wrote d (.reject code)], [], []⟩
  | .returnErr id e => some ⟨w.emit [.returned id (some e)], [], []⟩
  | .discard d => some ⟨w.emit [.dropped d .endOfCall], [], []⟩
  | .permitDrop p => some ⟨{ w with permits := w.permits.release (some p) }, [], []⟩
  | .leaseDrop l =>
    some ⟨{ w with
      claims := w.claims.finishFlow l.key l.epoch
      permits := w.permits.release l.udpPermit }, [], []⟩
  | .hold _ => some ⟨w, [], []⟩
  | .panic message => some ⟨w.emit [.panicked message], [], []⟩
  | .timeout kind key epoch deadline => timeoutStep w kind key epoch deadline
  | .cancelUdp key => some (cancelUdpStep w key)
  | .cancelUdpClaim key => some (cancelUdpClaimStep w key)
  | .cancelToken token => some ⟨{ w with cancelled := token :: w.cancelled }, [], []⟩
  | .cancelAll => some (cancelAllStep w)
  | .drainFlows kind => some (drainFlowsStep w kind)
  | .drainRejections => some ⟨{ w with rejections := ∅ }, [.drainClaims], []⟩
  | .drainClaims =>
    some ⟨{ w with claims := { w.claims with
      map := retain w.claims.map fun _ claim => claim.active } }, [], []⟩
  | .registerTcp s => some ⟨registerTcpLink cfg w s, [.lane ⟨s, .tlsTcp, none⟩], []⟩
  | .lane g => laneStep w choice g
  | .registerQuic s =>
    some ⟨{ w with nextQuicGeneration := w.nextQuicGeneration + 1 },
      [.registerQuicLinks s w.nextQuicGeneration], []⟩
  | .registerQuicLinks s generation => some (registerQuicLinksStep cfg w s generation)
  | .conn g =>
    match choice with
    | .close => some ⟨w, [.linkGuardDrop g], []⟩
    | _ => none
  | .linkGuardDrop g => some (linkGuardDropStep w g)
  | .cancelGeneration s generation _ next =>
    match choice with
    | .runtime present => some (cancelGenerationStep w present s generation next)
    | _ => none
  | .purgeTcp s generation next =>
    some ⟨w, [.purgeUdp s generation next (staleKeys (w.pending .tcp) s generation)], []⟩
  | .purgeUdp s generation next stale => some (purgeUdpStep w s generation next stale)
  | .purgeKeys s generation next stale =>
    match choice with
    | .pick n => some (purgeKeysStep w n s generation next stale)
    | _ => none
  | .relay p stage => relayStep w choice p stage

/-- What the environment may start at any time: a carrier registers, a stream of a QUIC
connection opens a flow, a handler refuses a malformed OPEN, a CLOSE arrives, the portal shuts
down, time passes. -/
inductive Start
  | registerTcp (s : SessionId)
  | registerQuic (s : SessionId)
  | stream (s : SessionId) (generation : Nat) (header : FlowHeader) (target : Option Target)
      (path : LinkPath)
  | refuse (key : FlowKey) (code : FlowErrorCode)
  | cancelUdp (key : FlowKey)
  | cancelAll
  | tick (elapsed : Nat)

def start (b : Start) (w : World) : Effect :=
  match b with
  | .registerTcp s => ⟨w, [.registerTcp s], []⟩
  | .registerQuic s => ⟨w, [.registerQuic s], []⟩
  | .stream s generation header target path =>
    startSubmission w (w.newSubmission s header target ⟨path, some generation⟩
      (quicHalves w.nextSubmission header.kind header.role))
  | .refuse key code => ⟨w, [.rejectTcp key code], []⟩
  | .cancelUdp key => ⟨w, [.cancelUdp key], []⟩
  | .cancelAll => ⟨w, [.cancelAll], []⟩
  | .tick elapsed => ⟨{ w with now := w.now + elapsed }, [], []⟩

/-- The portal's registry as a system of tasks. -/
def portal (cfg : Config) : Tasks.System World Frame Lock Choice Start where
  wants := Frame.wants
  holds := Frame.holds
  exec := exec cfg
  boot := start

abbrev Pool := Tasks.Pool World Frame

/-- A registry without carriers, flows or tasks. -/
def initial : Pool := ⟨.init, []⟩

/-! ## A small deployment, for concrete runs -/

namespace Sample

def config : Config := ⟨1024, 15, 4⟩

def session : SessionId := ⟨List.replicate 16 0, rfl⟩

def key : FlowKey := ⟨session, 1⟩

def path : LinkPath := ⟨"peer", "local"⟩

def target : Target := .domain [104] 53

/-- Task `i` registers a TLS lane, receives a flow header and takes `steps` further steps. -/
def lane (i : Nat) (header : FlowHeader) (target : Option Target) (steps : Nat) :
    List (Tasks.Act Choice Start) :=
  .boot (.registerTcp session) :: .run i .go :: .run i (.flow header target path) ::
    List.replicate steps (.run i .go)

/-- Task `i` registers the session's first QUIC connection. -/
def registerQuic (i : Nat) : List (Tasks.Act Choice Start) :=
  [.boot (.registerQuic session), .run i .go, .run i .go]

/-- Task `i` handles a stream of the first QUIC connection that carries no target, for `steps`
steps. -/
def stream (i : Nat) (header : FlowHeader) (steps : Nat) : List (Tasks.Act Choice Start) :=
  .boot (.stream session 1 header none path) :: List.replicate steps (.run i .go)

def openTcp : FlowHeader := ⟨.opening, 1, .tcp, .tlsTcp, .quic⟩

def attachTcp : FlowHeader := ⟨.attach, 1, .tcp, .tlsTcp, .quic⟩

end Sample

end Nowhere.Portal
