import Nowhere.Portal.Frames

/-!
# The outcomes of the long blocks

Some steps have more than a test or two in them: the install block after the tombstones, the timeout
of an entry, and the stages of a relay. Their outcomes are listed here once, each with the tests
that lead to it, so that what is said about them elsewhere goes by these cases.
-/

namespace Nowhere.Portal

open Protocol Assoc

/-! ## The install block -/

/-- The frames of a half that does not fit the entry. -/
def misfitFrames (c : Submission) : Pending.Misfit → List Frame
  | .duplex => .panic (Pending.Misfit.duplex.error c.via).message :: c.unwind
  | .uplink => c.rejectedUplink (Pending.Misfit.uplink.error c.via)
  | .metadata => c.rejected (Pending.Misfit.metadata.error c.via) true
  | .downlink => c.rejected (Pending.Misfit.downlink.error c.via) true

/-- `reserve_claim`, called for the submission, leaves `claims` and answers with `result`. -/
abbrev Submission.Reserves (c : Submission) (cfg : Config) (w : World) (claims : Claims)
    (result : Except PairingError (Nat × Bool)) : Prop :=
  w.claims.reserveClaim cfg c.key c.metadata c.target c.link.quicGeneration = (claims, result)

/-- The entry that the install block fills. -/
abbrev entryOf (w : World) (c : Submission) (epoch : Nat) (active : Option Nat) : Pending :=
  ((w.pending c.via).lookup c.key).getD (.fresh c epoch active)

/-- Filled with the half of the submission, if it fits, the entry is `p`. -/
abbrev Submission.FillsEntry (c : Submission) (w : World) (epoch : Nat) (active : Option Nat)
    (p : Pending) (misfit : Option Pending.Misfit) : Prop :=
  (entryOf w c epoch active).fill c = (p, misfit)

section Install

variable (cfg : Config) (w : World) (c : Submission) (active : Option Nat)

/-- The claim is refused, the half does not fit, or the filled entry is complete or waits. -/
inductive Installs : Effect → Prop
  | refused {claims : Claims} {e : PairingError}
      (reserved : c.Reserves cfg w claims (.error e)) :
      Installs ⟨{ w with claims }, c.rejected e true, []⟩
  | misfit {claims : Claims} {epoch : Nat} {created : Bool} {p : Pending} {m : Pending.Misfit}
      (reserved : c.Reserves cfg w claims (.ok (epoch, created)))
      (fill : c.FillsEntry w epoch active p (some m)) :
      Installs ⟨{ w with
          claims
          pending := Function.update w.pending c.via ((w.pending c.via).insert c.key p) },
        misfitFrames c m, []⟩
  | missing {claims : Claims} {epoch : Nat} {created : Bool} {p : Pending}
      (reserved : c.Reserves cfg w claims (.ok (epoch, created)))
      (fill : c.FillsEntry w epoch active p none)
      (complete : p.complete = true) (via : c.via = .udp) (permit : p.flowPermit = none) :
      Installs ⟨{ w with
          claims
          pending := Function.update w.pending c.via ((w.pending c.via).erase c.key) },
        missingPermit c p, []⟩
  | activates {claims : Claims} {epoch : Nat} {created : Bool} {p : Pending}
      (reserved : c.Reserves cfg w claims (.ok (epoch, created)))
      (fill : c.FillsEntry w epoch active p none)
      (complete : p.complete = true) :
      Installs ⟨{ w with
          claims
          pending := Function.update w.pending c.via ((w.pending c.via).erase c.key) },
        [.activateLinks ⟨c.bare, p.epoch, p.generations, p.flowPermit, p⟩], []⟩
  | waits {claims : Claims} {epoch : Nat} {created : Bool} {p : Pending}
      (reserved : c.Reserves cfg w claims (.ok (epoch, created)))
      (fill : c.FillsEntry w epoch active p none)
      (complete : p.complete = false) :
      Installs ⟨{ w with
          claims
          pending := Function.update w.pending c.via ((w.pending c.via).insert c.key p) },
        [.installRefresh c.bare], []⟩

theorem installReserveStep_installs :
    Installs cfg w c active (installReserveStep cfg w c active) := by
  unfold installReserveStep
  generalize hres : w.claims.reserveClaim cfg c.key c.metadata c.target c.link.quicGeneration = res
  obtain ⟨claims, reserved⟩ := res
  dsimp only
  split
  · exact .refused hres
  · rename_i epoch created
    generalize hfill : (entryOf w c epoch active).fill c = q
    obtain ⟨p, misfit⟩ := q
    cases misfit with
    | none =>
      by_cases hcomplete : p.complete = true
      · simp only [hcomplete, if_true, Option.isNone_none, Bool.and_self]
        split
        · rename_i hmissing
          exact .missing hres hfill hcomplete hmissing.1 hmissing.2
        · exact .activates hres hfill hcomplete
      · rw [Bool.not_eq_true] at hcomplete
        simp only [hcomplete, Bool.and_false, Bool.false_eq_true, if_false]
        exact .waits hres hfill hcomplete
    | some m => cases m <;> exact .misfit hres hfill

end Install

/-! ## The timeout of an entry -/

/-- What the timeout of an entry leaves of the registry. -/
def timedOut (w : World) (kind : FlowKind) (key : FlowKey) (p : Pending) : World :=
  { w with
    pending := Function.update w.pending kind ((w.pending kind).erase key)
    permits := w.permits.release p.flowPermit }

/-- The frames of an entry that has timed out with its downlink. -/
def timeoutFrames (kind : FlowKind) (key : FlowKey) (epoch : Nat) (p : Pending) : List Frame :=
  let up := dropGuard (p.uplink.bind Uplink.guard)
  let down := dropGuard (p.downlink.bind Downlink.guard)
  match kind with
  | .tcp => rejectDownlink p.downlink .pairTimeout ++ .abandonClaim key epoch :: up ++ down
  | .udp => rejectDownlink p.downlink .pairTimeout ++ down ++ .abandonClaim key epoch :: up

section Timeout

variable {w : World} {kind : FlowKind} {key : FlowKey} {epoch deadline : Nat} {r : Effect}

/-- The entry is gone or has another epoch, it waits for its downlink, or it does not. -/
inductive TimesOut (w : World) (kind : FlowKind) (key : FlowKey) (epoch : Nat) : Effect → Prop
  | idle : TimesOut w kind key epoch ⟨w, [], []⟩
  | uplink {p : Pending} (found : (w.pending kind).lookup key = some p)
      (missing : p.downlink = none) :
      TimesOut w kind key epoch ⟨timedOut w kind key p,
        dropGuard (p.uplink.bind Uplink.guard) ++ [.rejectTcp key .pairTimeout], []⟩
  | other {p : Pending} (found : (w.pending kind).lookup key = some p) :
      TimesOut w kind key epoch ⟨timedOut w kind key p, timeoutFrames kind key epoch p, []⟩

theorem timeoutStep_timesOut (h : timeoutStep w kind key epoch deadline = some r) :
    TimesOut w kind key epoch r := by
  unfold timeoutStep at h
  split at h
  · cases h
  · dsimp only at h
    split at h
    · cases h
      exact .idle
    · rename_i p hfound
      split at h
      · cases h
        exact .idle
      · split at h
        · rename_i honly
          cases h
          exact .uplink hfound (by simp_all)
        · cases h
          exact .other hfound

end Timeout

/-! ## A relay -/

/-- The relay ends, it rejects the flow or goes on before READY, or it writes READY. -/
inductive Relays (w : World) (p : Paired) : RelayStage → Effect → Prop
  | closed (stage : RelayStage) : Relays w p stage ⟨w, relayEnd p, []⟩
  | rejected {stage : RelayStage} (code : FlowErrorCode) (early : stage ≠ .running) :
      Relays w p stage (relayReject w p code)
  | moves {stage next : RelayStage} (early : stage ≠ .running) (early' : next ≠ .running) :
      Relays w p stage ⟨w, [.relay p next], []⟩
  | ready : Relays w p .committing
      ⟨w.emit [.relayed p.downlink.source .ready], [.relay p .running], []⟩

theorem relayStep_outcome {w : World} {choice : Choice} {p : Paired} {stage : RelayStage}
    {r : Effect} (h : relayStep w choice p stage = some r) : Relays w p stage r := by
  unfold relayStep at h
  dsimp only at h
  split at h
  · cases h
    exact .closed _
  · split at h <;> cases h
    exact .rejected _ (by simp)
  · cases h
    exact .rejected _ (by simp)
  · cases h
    exact .moves (by simp) (by split <;> simp)
  · cases h
    exact .moves (by simp) (by simp)
  · cases h
    exact .rejected _ (by simp)
  · split at h <;> cases h
    · exact .rejected _ (by simp)
    · exact .ready
  · cases h

end Nowhere.Portal
