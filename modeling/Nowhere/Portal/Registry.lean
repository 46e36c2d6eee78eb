import Nowhere.Portal.State

/-!
# The critical sections of the registry

What `src/portal/pairing.rs` and `src/portal/pairing/link.rs` do while they hold one lock: the
link checks, the claim operations, the tombstones, the pending entries and the carrier counts.
Each definition is one such section as a function of the protected data. How the sections are
strung together by the public operations, and which locks are held meanwhile, is the subject of
`Nowhere.Portal.Frames`.
-/

namespace Nowhere.Portal

open Protocol Assoc

/-! ## Link checks -/

/-- `active_quic_generation`. -/
def activeQuicGeneration (links : Map SessionId LinkCounts) (s : SessionId) : Option Nat :=
  (links.lookup s).bind LinkCounts.udp

/-- The test of `validate_current_link_locked`. -/
def linkCurrent (links : Map SessionId LinkCounts) (s : SessionId) (link : LinkHalf) : Bool :=
  match link.quicGeneration with
  | some generation => activeQuicGeneration links s == some generation
  | none => (links.lookup s).any fun counts => decide (0 < counts.tcp)

def validateCurrentLinkLocked (links : Map SessionId LinkCounts) (s : SessionId)
    (link : LinkHalf) : Except PairingError Unit :=
  if linkCurrent links s link then .ok ()
  else .error ⟨.sessionReplaced, "portal::pairing: carrier replaced before flow installation"⟩

namespace Submission

/-- The carrier a lane of this role has to run on. -/
def carrier (c : Submission) : Carrier :=
  match c.header.role with
  | .opening | .duplex => c.header.uplink
  | .attach => c.header.downlink

/-- The checks of `validate_header_and_link` that do not look at the links. -/
def validateHeader (c : Submission) : Except PairingError Unit :=
  if c.header.kind ≠ c.via then
    .error ⟨.invalidRequest, "portal::pairing: flow kind mismatch"⟩
  else if c.header.role ≠ .attach ∧ c.target = none then
    .error ⟨.invalidRequest, "portal::pairing: missing target"⟩
  else if c.header.role = .attach ∧ c.target ≠ none then
    .error ⟨.invalidRequest, "portal::pairing: attach target"⟩
  else if decide (c.carrier = .quic) ≠ c.link.quicGeneration.isSome then
    .error ⟨.sessionReplaced, "portal::pairing: stale or missing QUIC generation"⟩
  else .ok ()

def validateHeaderAndLink (c : Submission) (links : Map SessionId LinkCounts) :
    Except PairingError Unit :=
  match c.validateHeader with
  | .error e => .error e
  | .ok () =>
    if c.link.quicGeneration.any fun g => activeQuicGeneration links c.sessionId != some g then
      .error ⟨.sessionReplaced, "portal::pairing: stale or missing QUIC generation"⟩
    else .ok ()

/-- Does `validate_header_and_link` get as far as locking `links`? -/
def readsLinks (c : Submission) : Bool :=
  c.validateHeader.isOk && c.link.quicGeneration.isSome

/-- The halves fit the role. A TCP lane may bring more than it needs, a `UdpHalf` may not. -/
def shapeValid (c : Submission) : Bool :=
  match c.via, c.header.role with
  | .tcp, .opening => c.uplink.isSome
  | .tcp, .attach => c.downlink.isSome
  | .tcp, .duplex => c.uplink.isSome && c.downlink.isSome
  | .udp, .opening => c.uplink.isSome && c.downlink.isNone
  | .udp, .attach => c.uplink.isNone && c.downlink.isSome
  | .udp, .duplex => c.uplink.isSome && c.downlink.isSome

def shapeError (c : Submission) : PairingError :=
  match c.via with
  | .tcp => ⟨.invalidRequest, "portal::pairing: missing TCP stream half"⟩
  | .udp => ⟨.invalidRequest, "portal::pairing: UDP half role mismatch"⟩

end Submission

/-! ## Claims -/

namespace Claims

/-- Claims of a session that are not active yet. -/
def pendingCount (t : Claims) (s : SessionId) : Nat :=
  t.map.entries.countP fun e => decide (e.1.sessionId = s) && !e.2.active

/-- Both targets are known and differ. -/
def targetConflict : Option Target → Option Target → Bool
  | some a, some b => a != b
  | _, _ => false

/-- `reserve_claim`. -/
def reserveClaim (cfg : Config) (t : Claims) (key : FlowKey) (metadata : Metadata)
    (target : Option Target) (generation : Option Nat) :
    Claims × Except PairingError (Nat × Bool) :=
  match t.map.lookup key with
  | some claim =>
    if claim.active = true ∨ claim.metadata ≠ metadata then
      (t, .error ⟨.metadataConflict, "portal::pairing: flow id metadata collision"⟩)
    else if targetConflict claim.target target then
      (t, .error ⟨.metadataConflict, "portal::pairing: conflicting flow target"⟩)
    else
      let generations := claim.quicGenerations ++
        generation.toList.filter fun g => decide (g ∉ claim.quicGenerations)
      ({ t with map := t.map.insert key { claim with
          target := claim.target.or target, quicGenerations := generations } },
        .ok (claim.epoch, false))
  | none =>
    if cfg.maxPending ≤ t.pendingCount key.sessionId then
      (t, .error ⟨.flowLimit, "portal::pairing: pending flow limit reached"⟩)
    else
      (⟨t.map.insert key ⟨t.nextEpoch, metadata, target, false, t.nextToken, generation.toList⟩,
          t.nextEpoch + 1, t.nextToken + 1⟩,
        .ok (t.nextEpoch, true))

/-- `refresh_claim` once it holds the lock; `none` when the claim is missing. -/
def refreshClaim (t : Claims) (key : FlowKey) (epoch : Nat) : Option Claims :=
  (t.map.lookup key).map fun claim => { t with map := t.map.insert key { claim with epoch } }

/-- `abandon_claim`. -/
def abandonClaim (t : Claims) (key : FlowKey) (epoch : Nat) : Claims :=
  match t.map.lookup key with
  | some claim =>
    if claim.active = false ∧ claim.epoch = epoch then { t with map := t.map.erase key } else t
  | none => t

/-- The part of `activate_claim` that holds `claims`: the claim takes the caller's epoch and
generations whatever it held before. -/
def activateClaim (t : Claims) (key : FlowKey) (epoch : Nat) (generations : List Nat) :
    Option (Claims × Token) :=
  (t.map.lookup key).map fun claim =>
    ({ t with map := t.map.insert key { claim with
        epoch, active := true, quicGenerations := generations } }, claim.cancel)

/-- `finish_flow`. -/
def finishFlow (t : Claims) (key : FlowKey) (epoch : Nat) : Claims :=
  match t.map.lookup key with
  | some claim =>
    if claim.active = true ∧ claim.epoch = epoch then { t with map := t.map.erase key } else t
  | none => t

/-- The claim update of the install block after it dropped stale halves: with no half left the
claim goes, otherwise it takes the target and generations that remain. -/
def sweepClaim (t : Claims) (key : FlowKey) (left : Option (Option Target × List Nat)) : Claims :=
  match t.map.lookup key with
  | some claim =>
    if claim.active = true then t
    else match left with
      | none => { t with map := t.map.erase key }
      | some (target, generations) =>
        { t with map := t.map.insert key { claim with target, quicGenerations := generations } }
  | none => t

/-- Tokens of the claims that satisfy `p`. -/
def tokens (t : Claims) (p : FlowKey → FlowClaim → Bool) : List Token :=
  (t.map.entries.filter fun e => p e.1 e.2).map fun e => e.2.cancel

end Claims

/-! ## Tombstones -/

/-- `terminal_rejection`: sweep the expired tombstones, then look the key up. -/
def terminalRejection (now : Nat) (m : Map FlowKey TerminalRejection) (key : FlowKey)
    (consume : Bool) : Map FlowKey TerminalRejection × Option FlowErrorCode :=
  let live := retain m fun _ r => decide (now < r.expiresAt)
  (if consume then live.erase key else live, (live.lookup key).map TerminalRejection.code)

/-- The tombstone insertion of `reject_flow_setup`: a full map gives up the tombstone that
expires first. -/
def insertRejection (cfg : Config) (now pick : Nat) (m : Map FlowKey TerminalRejection)
    (key : FlowKey) (r : TerminalRejection) : Map FlowKey TerminalRejection :=
  let live := retain m fun _ r => decide (now < r.expiresAt)
  let room :=
    if live.lookup key = none ∧ cfg.maxPending ≤ live.entries.length then
      match minKey live (fun _ r => r.expiresAt) pick with
      | some oldest => live.erase oldest
      | none => live
    else live
  room.insert key r

/-! ## Pending entries -/

def kindName : FlowKind → String
  | .tcp => "TCP"
  | .udp => "UDP"

namespace Pending

/-- Generations of the halves present. -/
def generations (p : Pending) : List Nat :=
  p.uplinkGeneration.toList ++ p.downlinkGeneration.toList

def uplinkStale (p : Pending) (active : Option Nat) : Bool :=
  decide (p.metadata.uplink = .quic ∧ p.uplinkGeneration ≠ active)

def downlinkStale (p : Pending) (active : Option Nat) : Bool :=
  decide (p.metadata.downlink = .quic ∧ p.downlinkGeneration ≠ active)

/-- Drop the QUIC halves that do not belong to the active generation. -/
def clearStale (p : Pending) (active : Option Nat) : Pending :=
  { p with
    uplink := if p.uplinkStale active then none else p.uplink
    target := if p.uplinkStale active then none else p.target
    flowPermit := if p.uplinkStale active then none else p.flowPermit
    uplinkPath := if p.uplinkStale active then none else p.uplinkPath
    uplinkGeneration := if p.uplinkStale active then none else p.uplinkGeneration
    downlink := if p.downlinkStale active then none else p.downlink
    downlinkLiveness := if p.downlinkStale active then none else p.downlinkLiveness
    downlinkPath := if p.downlinkStale active then none else p.downlinkPath
    downlinkGeneration := if p.downlinkStale active then none else p.downlinkGeneration }

/-- The entry `or_insert_with` creates. -/
def fresh (c : Submission) (epoch : Nat) (active : Option Nat) : Pending where
  epoch := epoch
  metadata := c.metadata
  quicSnapshot := active
  target := c.target
  uplink := none
  downlink := none
  downlinkLiveness := none
  flowPermit := none
  uplinkPath := none
  downlinkPath := none
  uplinkGeneration := none
  downlinkGeneration := none

/-- Why a half does not fit into the entry. -/
inductive Misfit
  | metadata
  | uplink
  | downlink
  | duplex
  deriving DecidableEq

def Misfit.error (kind : FlowKind) : Misfit → PairingError
  | .metadata =>
    ⟨.metadataConflict, "portal::pairing: conflicting " ++ kindName kind ++ " flow metadata"⟩
  | .uplink => ⟨.metadataConflict, "portal::pairing: duplicate " ++ kindName kind ++ " uplink"⟩
  | .downlink => ⟨.metadataConflict, "portal::pairing: duplicate " ++ kindName kind ++ " downlink"⟩
  | .duplex =>
    -- the code is never seen: this is the message of `unreachable!`
    ⟨.internalError, "internal error: entered unreachable code" ++
      if kind = .udp then ": split UDP shape validated" else ""⟩

/-- Put the half of `c` into the entry. The entry takes the target before the half is tested,
so it is returned in either case. -/
def fill (p : Pending) (c : Submission) : Pending × Option Misfit :=
  if p.metadata ≠ c.metadata then (p, some .metadata)
  else
    let p := { p with target := p.target.or c.target }
    match c.header.role with
    | .opening =>
      if p.uplink.isSome then (p, some .uplink)
      else ({ p with
        uplink := c.uplink
        flowPermit := c.permit
        uplinkPath := some c.link.path
        uplinkGeneration := c.link.quicGeneration }, none)
    | .attach =>
      if p.downlink.isSome then (p, some .downlink)
      else ({ p with
        downlink := c.downlink
        downlinkLiveness := c.liveness
        downlinkPath := some c.link.path
        downlinkGeneration := c.link.quicGeneration }, none)
    | .duplex => (p, some .duplex)

def complete (p : Pending) : Bool := p.uplink.isSome && p.downlink.isSome

/-- The pair that the call `c` makes of a complete entry; the error is the message of the
failing `expect`. -/
def toPaired (p : Pending) (c : Submission) (lease : FlowLease) : Except String Paired :=
  match p.target, p.uplink, p.downlink, p.uplinkPath, p.downlinkPath with
  | some target, some uplink, some downlink, some uplinkPath, some downlinkPath =>
    .ok ⟨c.via, c.header.flowId, target, uplink, downlink, p.downlinkLiveness,
      p.metadata.uplink, p.metadata.downlink, uplinkPath, downlinkPath, lease⟩
  | none, _, _, _, _ =>
    .error (if c.header.role = .duplex then "duplex target validated"
      else kindName c.via ++ " target paired")
  | _, none, _, _, _ => .error (kindName c.via ++ " uplink paired")
  | _, _, none, _, _ => .error (kindName c.via ++ " downlink paired")
  | _, _, _, none, _ => .error (kindName c.via ++ " uplink path paired")
  | _, _, _, _, none => .error (kindName c.via ++ " downlink path paired")

end Pending

/-! ## Carriers -/

namespace Permits

def acquire (t : Permits) (budget : Nat) : Permits :=
  { t with available := Function.update t.available budget (t.available budget - 1) }

def release (t : Permits) : Option Permit → Permits
  | some p =>
    { t with available := Function.update t.available p.budget (t.available p.budget + 1) }
  | none => t

def releaseAll (t : Permits) (ps : List Permit) : Permits :=
  ps.foldl (fun t p => t.release (some p)) t

/-- `Semaphore::new` for a new session entry. -/
def create (t : Permits) (permits : Nat) : Permits :=
  ⟨Function.update t.available t.nextBudget permits, t.nextBudget + 1⟩

end Permits

namespace LinkCounts

/-- Both carrier types are registered. -/
def isPaired (counts : LinkCounts) : Bool := decide (0 < counts.tcp) && counts.udp.isSome

end LinkCounts

/-- The session's counts, created on first use, with the pools after the creation. -/
def countsOrNew (cfg : Config) (links : Map SessionId LinkCounts) (permits : Permits)
    (s : SessionId) : LinkCounts × Permits :=
  match links.lookup s with
  | some counts => (counts, permits)
  | none => (⟨0, none, permits.nextBudget⟩, permits.create cfg.maxUdpFlows)

/-- The links section of `register_tcp_link`. -/
def registerTcpLink (cfg : Config) (w : World) (s : SessionId) : World :=
  let (counts, permits) := countsOrNew cfg w.links w.permits s
  let counts' := { counts with tcp := counts.tcp + 1 }
  { w with
    links := w.links.insert s counts'
    permits := permits
    stats := { w.stats with
      linkTcp := w.stats.linkTcp + 1
      linkPairs := w.stats.linkPairs +
        if counts.isPaired = false ∧ counts'.udp.isSome = true then 1 else 0 } }

/-- The links section of `register_quic_link`, with the displaced generation. -/
def registerQuicLink (cfg : Config) (w : World) (s : SessionId) (generation : Nat) :
    World × Option Nat :=
  let (counts, permits) := countsOrNew cfg w.links w.permits s
  let previous := counts.udp
  ({ w with
    links := w.links.insert s { counts with udp := some generation }
    permits := permits
    stats := if previous.isNone then
        { w.stats with
          linkUdp := w.stats.linkUdp + 1
          linkPairs := w.stats.linkPairs +
            if counts.isPaired = false ∧ 0 < counts.tcp then 1 else 0 }
      else w.stats }, previous)

/-- How `LinkGuard::drop` leaves its links section: nothing more to do, or a generation to
cancel, after releasing `links` or, for a session without entry, while still holding it. -/
inductive GuardExit
  | done
  | cancel (generation : Nat)
  | cancelLocked (generation : Nat)
  deriving DecidableEq

/-- The counts without one carrier of the guard, `none` when the guard no longer owns one. -/
def LinkCounts.without (counts : LinkCounts) (g : LinkGuard) : Option LinkCounts :=
  match g.carrier with
  | .tlsTcp => some { counts with tcp := counts.tcp - 1 }
  | .quic =>
    if g.quicGeneration.isSome ∧ counts.udp = g.quicGeneration then
      some { counts with udp := none }
    else none

/-- The links section of `LinkGuard::drop`. -/
def dropLink (w : World) (g : LinkGuard) : World × GuardExit :=
  let cancel := g.quicGeneration.elim GuardExit.done .cancel
  match w.links.lookup g.sessionId with
  | none => (w, g.quicGeneration.elim .done .cancelLocked)
  | some counts =>
    match counts.without g with
    | none => (w, cancel)
    | some counts' =>
      ({ w with
        links :=
          if counts'.tcp = 0 ∧ counts'.udp = none then w.links.erase g.sessionId
          else w.links.insert g.sessionId counts'
        stats :=
          { linkTcp := w.stats.linkTcp - if g.carrier = .tlsTcp then 1 else 0
            linkUdp := w.stats.linkUdp - if g.carrier = .quic then 1 else 0
            linkPairs := w.stats.linkPairs -
              if counts.isPaired = true ∧ counts'.isPaired = false then 1 else 0 } }, cancel)

end Nowhere.Portal
