import Nowhere.Portal.Steps

/-!
# What a step changes

Inversion of `exec`, second part. `Changes` collects what a step of a frame may do to the world:
the claims, the links and the tombstones are given outright, a pending entry found afterwards is
traced back (`PendingFrom`), and so is an event of the history (`Logs`).
-/

namespace Nowhere.Portal

open Protocol Assoc

/-- The claims after a step of a frame. -/
def claimsAfter (cfg : Config) (w : World) : Frame → Claims
  | .reserveDuplex c | .installReserve c _ =>
    (w.claims.reserveClaim cfg c.key c.metadata c.target c.link.quicGeneration).1
  | .installSweep c _ left => w.claims.sweepClaim c.key left
  | .installRefresh _ => { w.claims with nextEpoch := w.claims.nextEpoch + 1 }
  | .installRefreshClaim c epoch => (w.claims.refreshClaim c.key epoch).getD w.claims
  | .activateClaims a =>
    ((w.claims.activateClaim a.call.key a.epoch a.generations).map Prod.fst).getD w.claims
  | .abandonClaim key epoch => w.claims.abandonClaim key epoch
  | .rejectFinish key .. => { w.claims with map := w.claims.map.erase key }
  | .leaseDrop l => w.claims.finishFlow l.key l.epoch
  | .drainClaims => { w.claims with map := retain w.claims.map fun _ claim => claim.active }
  | _ => w.claims

/-- The key whose claim a step of the frame may change. -/
def Frame.claimKey : Frame → Option FlowKey
  | .reserveDuplex c | .installReserve c _ | .installSweep c _ _ | .installRefreshClaim c _ =>
    some c.key
  | .activateClaims a => some a.call.key
  | .abandonClaim key _ | .rejectFinish key .. => some key
  | .leaseDrop l => some l.key
  | _ => none

/-- Where a claim found after a step comes from: it was there, it is not active, it received its
epoch, or it was activated. -/
inductive ClaimFrom (w : World) : Frame → FlowKey → FlowClaim → Prop
  | same {f : Frame} {key : FlowKey} {claim : FlowClaim}
      (found : w.claims.map.lookup key = some claim) : ClaimFrom w f key claim
  | inactive {f : Frame} {key : FlowKey} {claim : FlowClaim} (inactive : claim.active = false) :
      ClaimFrom w f key claim
  | refreshed {c : Submission} {epoch : Nat} {claim : FlowClaim}
      (found : w.claims.map.lookup c.key = some claim) :
      ClaimFrom w (.installRefreshClaim c epoch) c.key { claim with epoch }
  | activated {a : Activation} {claim : FlowClaim}
      (found : w.claims.map.lookup a.call.key = some claim) :
      ClaimFrom w (.activateClaims a) a.call.key
        { claim with epoch := a.epoch, active := true, quicGenerations := a.generations }

/-- The links after a step of a frame. -/
def linksAfter (cfg : Config) (w : World) : Frame → Map SessionId LinkCounts
  | .registerTcp s => (registerTcpLink cfg w s).links
  | .registerQuicLinks s generation => (registerQuicLink cfg w s generation).1.links
  | .linkGuardDrop g => (dropLink w g).1.links
  | _ => w.links

/-- The tombstones after a step of a frame. -/
def rejectionsAfter (cfg : Config) (choice : Choice) (w : World) :
    Frame → Map FlowKey TerminalRejection
  | .terminalRejection c =>
    (terminalRejection w.now w.rejections c.key (decide (c.header.role = .duplex))).1
  | .installTombstone c _ =>
    (terminalRejection w.now w.rejections c.key (decide (c.header.role = .attach))).1
  | .rejectTombstone key code expiresAt => match choice with
    | .pick n => insertRejection cfg w.now n w.rejections key ⟨code, expiresAt⟩
    | _ => w.rejections
  | .drainRejections => ∅
  | _ => w.rejections

/-- The generation counter after a step of a frame. -/
def generationAfter (w : World) : Frame → Nat
  | .registerQuic _ => w.nextQuicGeneration + 1
  | _ => w.nextQuicGeneration

/-- Where a pending entry found after a step comes from: it was there, it lost its stale
halves, it received a half, or it received its epoch. -/
inductive PendingFrom (cfg : Config) (w : World) : Frame → FlowKind → FlowKey → Pending → Prop
  | same {f : Frame} {kind : FlowKind} {key : FlowKey} {p : Pending}
      (found : (w.pending kind).lookup key = some p) : PendingFrom cfg w f kind key p
  | stale {c : Submission} {p : Pending} (found : (w.pending c.via).lookup c.key = some p)
      (left : ((p.clearStale (activeQuicGeneration w.links c.sessionId)).uplink.isNone &&
        (p.clearStale (activeQuicGeneration w.links c.sessionId)).downlink.isNone) = false) :
      PendingFrom cfg w (.installLinks c) c.via c.key
        (p.clearStale (activeQuicGeneration w.links c.sessionId))
  | filled {c : Submission} {active : Option Nat} {claims : Claims} {epoch : Nat}
      {created : Bool} {p : Pending} {misfit : Option Pending.Misfit}
      (reserved : c.Reserves cfg w claims (.ok (epoch, created)))
      (filled : c.FillsEntry w epoch active p misfit) :
      PendingFrom cfg w (.installReserve c active) c.via c.key p
  | refreshed {c : Submission} {epoch : Nat} {p : Pending}
      (found : (w.pending c.via).lookup c.key = some p) :
      PendingFrom cfg w (.installRefreshClaim c epoch) c.via c.key { p with epoch }

/-- The events a step of a frame adds to the history. -/
inductive Logs (cfg : Config) (w : World) : Frame → Event → Prop
  | submitted {g : LinkGuard} {header : FlowHeader} {target : Option Target} {path : LinkPath} :
      Logs cfg w (.lane g) (.submitted (w.newSubmission g.sessionId header target ⟨path, none⟩
        (tlsHalves w.nextSubmission g header.kind header.role)))
  | installed {c : Submission} {epoch : Nat} :
      Logs cfg w (.installRefreshClaim c epoch) (.returned c.id none)
  | failed {id : Nat} {e : PairingError} : Logs cfg w (.returnErr id e) (.returned id (some e))
  | paired {a : Activation} {claims : Claims} {cancel : Token} {p : Paired}
      (activated : w.claims.activateClaim a.call.key a.epoch a.generations =
        some (claims, cancel))
      (paired : a.complete.toPaired a.call ⟨a.call.key, a.epoch, cancel, a.permit⟩ = .ok p) :
      Logs cfg w (.activateClaims a) (.paired a.call p)
  | wrote {d : Nat} {code : FlowErrorCode} :
      Logs cfg w (.writeReject d code) (.wrote d (.reject code))
  | relayed {p : Paired} {stage : RelayStage} {result : FlowResult} :
      Logs cfg w (.relay p stage) (.relayed p.downlink.source result)
  | stale {c : Submission} {p : Pending} {d : Downlink}
      (found : (w.pending c.via).lookup c.key = some p)
      (stale : p.downlinkStale (activeQuicGeneration w.links c.sessionId) = true)
      (downlink : p.downlink = some d) :
      Logs cfg w (.installLinks c) (.dropped d.source .staleQuic)
  | closed {key : FlowKey} (d : Nat) : Logs cfg w (.cancelUdp key) (.dropped d .cancelUdp)
  | drained {kind : FlowKind} (d : Nat) : Logs cfg w (.drainFlows kind) (.dropped d .drainPending)
  | discarded {d : Nat} : Logs cfg w (.discard d) (.dropped d .endOfCall)
  | cancelled {s : SessionId} {generation : Nat} {held : Bool} {next : AfterCancel} :
      Logs cfg w (.cancelGeneration s generation held next) (.cancelledGeneration s generation)
  | registered {s : SessionId} {generation : Nat} :
      Logs cfg w (.registerQuicLinks s generation) (.registeredQuic s generation none)
  | replaced {s : SessionId} {generation fresh : Nat} {stale : List FlowKey} :
      Logs cfg w (.purgeKeys s generation (.register fresh) stale)
        (.registeredQuic s fresh (some generation))
  | panicked {message : String} : Logs cfg w (.panic message) (.panicked message)

def Event.submission : Event → Option Submission
  | .submitted c => some c
  | _ => none

/-- The submissions of a history. -/
def submissions (log : List Event) : List Submission := log.filterMap Event.submission

theorem mem_submissions {log : List Event} {c : Submission} :
    c ∈ submissions log ↔ .submitted c ∈ log := by
  simp only [submissions, List.mem_filterMap]
  constructor
  · rintro ⟨e, he, hc⟩
    cases e <;> cases hc
    exact he
  · exact fun h => ⟨_, h, rfl⟩

/-- What a step of `f` may change in the world. -/
structure Changes (cfg : Config) (choice : Choice) (w : World) (f : Frame) (w' : World) :
    Prop where
  claims : w'.claims = claimsAfter cfg w f
  links : w'.links = linksAfter cfg w f
  rejections : w'.rejections = rejectionsAfter cfg choice w f
  generation : w'.nextQuicGeneration = generationAfter w f
  now : w'.now = w.now
  pending : ∀ kind key p, (w'.pending kind).lookup key = some p → PendingFrom cfg w f kind key p
  cancelled : w.cancelled ⊆ w'.cancelled
  appended : ∃ es, w'.log = es ++ w.log ∧ ∀ e ∈ es, Logs cfg w f e
  submissions : w'.nextSubmission = w.nextSubmission ∧ submissions w'.log = submissions w.log ∨
    ∃ c, w'.log = .submitted c :: w.log ∧ c.id = w.nextSubmission ∧
      w'.nextSubmission = w.nextSubmission + 1

/-! ## Claims -/

section Claims

variable {cfg : Config} {w : World} {f : Frame} {key : FlowKey} {claim : FlowClaim}

theorem reserveClaim_of_ne {t : Claims} {key' : FlowKey} (h : key' ≠ key) (metadata : Metadata)
    (target : Option Target) (generation : Option Nat) :
    (t.reserveClaim cfg key metadata target generation).1.map.lookup key' =
      t.map.lookup key' := by
  unfold Claims.reserveClaim
  split
  · split
    · rfl
    · split
      · rfl
      · rw [Assoc.lookup_insert, if_neg h]
  · split
    · rfl
    · rw [Assoc.lookup_insert, if_neg h]

/-- A step changes the claim of one key, apart from the shutdown. -/
theorem claimsAfter_of_ne (hf : f.claimKey ≠ some key) (hdrain : f ≠ .drainClaims) :
    (claimsAfter cfg w f).map.lookup key = w.claims.map.lookup key := by
  have hne {key' : FlowKey} (h : some key' ≠ some key) : key ≠ key' := fun h' => h (by rw [h'])
  cases f with
  | reserveDuplex c => exact reserveClaim_of_ne (hne hf) _ _ _
  | installReserve c active => exact reserveClaim_of_ne (hne hf) _ _ _
  | installSweep c active left =>
    simp only [claimsAfter, Claims.sweepClaim]
    split
    · split
      · rfl
      · split
        · rw [Assoc.lookup_erase, if_neg (hne hf)]
        · rw [Assoc.lookup_insert, if_neg (hne hf)]
    · rfl
  | installRefreshClaim c epoch =>
    simp only [claimsAfter, Claims.refreshClaim]
    cases w.claims.map.lookup c.key with
    | none => rfl
    | some claim =>
      simp only [Option.map_some, Option.getD_some]
      rw [Assoc.lookup_insert, if_neg (hne hf)]
  | activateClaims a =>
    simp only [claimsAfter, Claims.activateClaim]
    cases w.claims.map.lookup a.call.key with
    | none => rfl
    | some claim =>
      simp only [Option.map_some, Option.getD_some]
      rw [Assoc.lookup_insert, if_neg (hne hf)]
  | abandonClaim key' epoch =>
    simp only [claimsAfter, Claims.abandonClaim]
    split
    · split
      · rw [Assoc.lookup_erase, if_neg (hne hf)]
      · rfl
    · rfl
  | rejectFinish key' code tcp udp =>
    simp only [claimsAfter]
    rw [Assoc.lookup_erase, if_neg (hne hf)]
  | leaseDrop l =>
    simp only [claimsAfter, Claims.finishFlow]
    split
    · split
      · rw [Assoc.lookup_erase, if_neg (hne hf)]
      · rfl
    · rfl
  | drainClaims => exact absurd rfl hdrain
  | _ => rfl

/-- `ClaimFrom` with the claim's token, and with the room that a new claim found. -/
inductive ClaimOrigin (cfg : Config) (w : World) : Frame → FlowKey → FlowClaim → Prop
  | same {f : Frame} {key : FlowKey} {claim : FlowClaim}
      (found : w.claims.map.lookup key = some claim) : ClaimOrigin cfg w f key claim
  | updated {f : Frame} {key : FlowKey} {old claim : FlowClaim}
      (found : w.claims.map.lookup key = some old) (inactive : old.active = false)
      (still : claim.active = false) (token : claim.cancel = old.cancel) :
      ClaimOrigin cfg w f key claim
  | created {f : Frame} {key : FlowKey} {claim : FlowClaim}
      (missing : w.claims.map.lookup key = none)
      (room : w.claims.pendingCount key.sessionId < cfg.maxPending)
      (inactive : claim.active = false) (token : claim.cancel = w.claims.nextToken) :
      ClaimOrigin cfg w f key claim
  | refreshed {c : Submission} {epoch : Nat} {claim : FlowClaim}
      (found : w.claims.map.lookup c.key = some claim) :
      ClaimOrigin cfg w (.installRefreshClaim c epoch) c.key { claim with epoch }
  | activated {a : Activation} {claim : FlowClaim}
      (found : w.claims.map.lookup a.call.key = some claim) :
      ClaimOrigin cfg w (.activateClaims a) a.call.key
        { claim with epoch := a.epoch, active := true, quicGenerations := a.generations }

/-- `reserve_claim` leaves an active claim alone and creates none. -/
theorem reserveClaim_origin {c : Submission}
    (hfound : (w.claims.reserveClaim cfg c.key c.metadata c.target
      c.link.quicGeneration).1.map.lookup c.key = some claim) :
    ClaimOrigin cfg w f c.key claim := by
  unfold Claims.reserveClaim at hfound
  split at hfound
  · rename_i claim' hclaim
    split at hfound
    · exact .same hfound
    · rename_i hpending
      have hinactive : claim'.active = false := by simpa using fun h => hpending (.inl h)
      split at hfound
      · exact .same hfound
      · rw [Assoc.lookup_insert, if_pos rfl] at hfound
        cases hfound
        exact .updated hclaim hinactive hinactive rfl
  · rename_i hmissing
    split at hfound
    · exact .same hfound
    · rename_i hroom
      rw [Assoc.lookup_insert, if_pos rfl] at hfound
      cases hfound
      exact .created hmissing (Nat.lt_of_not_le hroom) rfl rfl

theorem claim_origin (hfound : (claimsAfter cfg w f).map.lookup key = some claim) :
    ClaimOrigin cfg w f key claim := by
  by_cases hdrain : f = .drainClaims
  · subst hdrain
    simp only [claimsAfter, Assoc.lookup_retain, Option.filter_eq_some_iff] at hfound
    exact .same hfound.1
  by_cases hkey : f.claimKey ≠ some key
  · rw [claimsAfter_of_ne hkey hdrain] at hfound
    exact .same hfound
  rw [ne_eq, not_not] at hkey
  cases f with
  | reserveDuplex c =>
    cases hkey
    exact reserveClaim_origin hfound
  | installReserve c active =>
    cases hkey
    exact reserveClaim_origin hfound
  | installSweep c active left =>
    cases hkey
    simp only [claimsAfter, Claims.sweepClaim] at hfound
    split at hfound
    · split at hfound
      · exact .same hfound
      · rename_i claim' hclaim hactive
        split at hfound
        · rw [Assoc.lookup_erase, if_pos rfl] at hfound
          cases hfound
        · rw [Assoc.lookup_insert, if_pos rfl] at hfound
          cases hfound
          have hinactive : claim'.active = false := by simpa using hactive
          exact .updated hclaim hinactive hinactive rfl
    · exact .same hfound
  | installRefreshClaim c epoch =>
    cases hkey
    simp only [claimsAfter, Claims.refreshClaim] at hfound
    cases hclaim : w.claims.map.lookup c.key with
    | none =>
      simp [hclaim] at hfound
    | some claim' =>
      simp only [hclaim, Option.map_some, Option.getD_some, Assoc.lookup_insert, if_true] at hfound
      cases hfound
      exact .refreshed hclaim
  | activateClaims a =>
    cases hkey
    simp only [claimsAfter, Claims.activateClaim] at hfound
    cases hclaim : w.claims.map.lookup a.call.key with
    | none =>
      simp [hclaim] at hfound
    | some claim' =>
      simp only [hclaim, Option.map_some, Option.getD_some, Assoc.lookup_insert, if_true] at hfound
      cases hfound
      exact .activated hclaim
  | abandonClaim key' epoch =>
    cases hkey
    simp only [claimsAfter, Claims.abandonClaim] at hfound
    split at hfound
    · split at hfound
      · rw [Assoc.lookup_erase, if_pos rfl] at hfound
        cases hfound
      · exact .same hfound
    · exact .same hfound
  | rejectFinish key' code tcp udp =>
    cases hkey
    simp only [claimsAfter, Assoc.lookup_erase, if_true] at hfound
    cases hfound
  | leaseDrop l =>
    cases hkey
    simp only [claimsAfter, Claims.finishFlow] at hfound
    split at hfound
    · split at hfound
      · rw [Assoc.lookup_erase, if_pos rfl] at hfound
        cases hfound
      · exact .same hfound
    · exact .same hfound
  | _ => cases hkey

theorem claim_from (hfound : (claimsAfter cfg w f).map.lookup key = some claim) :
    ClaimFrom w f key claim := by
  cases claim_origin hfound with
  | same found => exact .same found
  | updated _ _ still _ => exact .inactive still
  | created _ _ inactive _ => exact .inactive inactive
  | refreshed found => exact .refreshed found
  | activated found => exact .activated found

/-- Tokens are numbered, and a claim keeps its token. -/
theorem claim_token (hfound : (claimsAfter cfg w f).map.lookup key = some claim) :
    (∃ old, w.claims.map.lookup key = some old ∧ old.cancel = claim.cancel) ∨
      w.claims.map.lookup key = none ∧ claim.cancel = w.claims.nextToken := by
  cases claim_origin hfound with
  | same found => exact .inl ⟨claim, found, rfl⟩
  | updated found _ _ token => exact .inl ⟨_, found, token.symm⟩
  | created missing _ _ token => exact .inr ⟨missing, token⟩
  | refreshed found => exact .inl ⟨_, found, rfl⟩
  | activated found => exact .inl ⟨_, found, rfl⟩

theorem reserveClaim_nextToken (t : Claims) (metadata : Metadata) (target : Option Target)
    (generation : Option Nat) :
    t.nextToken ≤ (t.reserveClaim cfg key metadata target generation).1.nextToken := by
  unfold Claims.reserveClaim
  split
  · split
    · exact Nat.le_refl _
    · split <;> exact Nat.le_refl _
  · split
    · exact Nat.le_refl _
    · exact Nat.le_succ _

theorem nextToken_le (cfg : Config) (w : World) (f : Frame) :
    w.claims.nextToken ≤ (claimsAfter cfg w f).nextToken := by
  cases f with
  | reserveDuplex c => exact reserveClaim_nextToken _ _ _ _
  | installReserve c active => exact reserveClaim_nextToken _ _ _ _
  | installSweep c active left =>
    simp only [claimsAfter, Claims.sweepClaim]
    split
    · split
      · exact Nat.le_refl _
      · split <;> exact Nat.le_refl _
    · exact Nat.le_refl _
  | installRefreshClaim c epoch =>
    simp only [claimsAfter, Claims.refreshClaim]
    cases w.claims.map.lookup c.key <;> exact Nat.le_refl _
  | activateClaims a =>
    simp only [claimsAfter, Claims.activateClaim]
    cases w.claims.map.lookup a.call.key <;> exact Nat.le_refl _
  | abandonClaim key epoch =>
    simp only [claimsAfter, Claims.abandonClaim]
    split
    · split <;> exact Nat.le_refl _
    · exact Nat.le_refl _
  | leaseDrop l =>
    simp only [claimsAfter, Claims.finishFlow]
    split
    · split <;> exact Nat.le_refl _
    · exact Nat.le_refl _
  | _ => exact Nat.le_refl _

/-- What ends or changes an active claim: its activation, its epoch's refresh, `reject_flow_setup`
and its lease. -/
theorem active_kept (hfound : w.claims.map.lookup key = some claim) (hactive : claim.active = true)
    (hactivate : ∀ a, f = .activateClaims a → a.call.key ≠ key)
    (hrefresh : ∀ c epoch, f = .installRefreshClaim c epoch → c.key ≠ key)
    (hreject : ∀ code tcp udp, f ≠ .rejectFinish key code tcp udp)
    (hlease : ∀ l, f = .leaseDrop l → l.key ≠ key) :
    (claimsAfter cfg w f).map.lookup key = some claim := by
  by_cases hdrain : f = .drainClaims
  · subst hdrain
    simp only [claimsAfter]
    rw [Assoc.lookup_retain, hfound, Option.filter_some, if_pos hactive]
  by_cases hkey : f.claimKey ≠ some key
  · rw [claimsAfter_of_ne hkey hdrain]
    exact hfound
  rw [ne_eq, not_not] at hkey
  cases f with
  | reserveDuplex c =>
    cases hkey
    simp [claimsAfter, Claims.reserveClaim, hfound, hactive]
  | installReserve c active =>
    cases hkey
    simp [claimsAfter, Claims.reserveClaim, hfound, hactive]
  | installSweep c active left =>
    cases hkey
    simp [claimsAfter, Claims.sweepClaim, hfound, hactive]
  | abandonClaim key' epoch =>
    cases hkey
    simp [claimsAfter, Claims.abandonClaim, hfound, hactive]
  | installRefreshClaim c epoch => exact absurd (Option.some.inj hkey) (hrefresh c epoch rfl)
  | activateClaims a => exact absurd (Option.some.inj hkey) (hactivate a rfl)
  | rejectFinish key' code tcp udp =>
    cases hkey
    exact absurd rfl (hreject code tcp udp)
  | leaseDrop l => exact absurd (Option.some.inj hkey) (hlease l rfl)
  | _ => cases hkey

end Claims

section Changes

variable {cfg : Config} {choice : Choice} {w w' : World} {f : Frame}

theorem Changes.kept (h : Changes cfg choice w f w') : w.log ⊆ w'.log := by
  obtain ⟨es, hlog, _⟩ := h.appended
  rw [hlog]
  exact List.subset_append_right es w.log

theorem Changes.logged (h : Changes cfg choice w f w') {e : Event} (he : e ∈ w'.log) :
    e ∈ w.log ∨ Logs cfg w f e := by
  obtain ⟨es, hlog, hlogs⟩ := h.appended
  rw [hlog] at he
  rcases List.mem_append.mp he with he | he
  · exact .inr (hlogs e he)
  · exact .inl he

/-- A step that adds `es` to the history. -/
theorem Changes.of_events (es : List Event) (claims : w'.claims = claimsAfter cfg w f)
    (links : w'.links = linksAfter cfg w f)
    (rejections : w'.rejections = rejectionsAfter cfg choice w f)
    (generation : w'.nextQuicGeneration = generationAfter w f) (now : w'.now = w.now)
    (pending : ∀ kind key p, (w'.pending kind).lookup key = some p →
      PendingFrom cfg w f kind key p)
    (cancelled : w.cancelled ⊆ w'.cancelled) (submissions : w'.nextSubmission = w.nextSubmission)
    (log : w'.log = es ++ w.log) (logs : ∀ e ∈ es, Logs cfg w f e ∧ e.submission = none) :
    Changes cfg choice w f w' where
  claims := claims
  links := links
  rejections := rejections
  generation := generation
  now := now
  pending := pending
  cancelled := cancelled
  appended := ⟨es, log, fun e he => (logs e he).1⟩
  submissions := by
    refine .inl ⟨submissions, ?_⟩
    rw [log, Portal.submissions, List.filterMap_append,
      List.filterMap_eq_nil_iff.mpr fun e he => (logs e he).2, List.nil_append, Portal.submissions]

/-- A step that leaves the pending flows, the tokens and the history alone. -/
theorem Changes.silent (claims : w'.claims = claimsAfter cfg w f)
    (links : w'.links = linksAfter cfg w f)
    (rejections : w'.rejections = rejectionsAfter cfg choice w f)
    (generation : w'.nextQuicGeneration = generationAfter w f) (now : w'.now = w.now)
    (pending : w'.pending = w.pending) (cancelled : w'.cancelled = w.cancelled)
    (submissions : w'.nextSubmission = w.nextSubmission) (log : w'.log = w.log) :
    Changes cfg choice w f w' :=
  .of_events [] claims links rejections generation now
    (fun _ _ _ h => .same (by rwa [pending] at h)) (by rw [cancelled]; exact List.Subset.refl _)
    submissions log (by simp)

/-- The same, where all of it is plain from the step. -/
theorem Changes.quiet
    (h : (w'.claims, w'.links, w'.rejections, w'.nextQuicGeneration, w'.now, w'.pending,
        w'.cancelled, w'.nextSubmission, w'.log) =
      (claimsAfter cfg w f, linksAfter cfg w f, rejectionsAfter cfg choice w f,
        generationAfter w f, w.now, w.pending, w.cancelled, w.nextSubmission, w.log)) :
    Changes cfg choice w f w' := by
  simp only [Prod.mk.injEq] at h
  obtain ⟨claims, links, rejections, generation, now, pending, cancelled, submissions, log⟩ := h
  exact .silent claims links rejections generation now pending cancelled submissions log

/-- A step that only adds one event. -/
theorem Changes.emit (e : Event) (claims : claimsAfter cfg w f = w.claims)
    (links : linksAfter cfg w f = w.links)
    (rejections : rejectionsAfter cfg choice w f = w.rejections)
    (generation : generationAfter w f = w.nextQuicGeneration) (logs : Logs cfg w f e)
    (quiet : e.submission = none) : Changes cfg choice w f (w.emit [e]) :=
  .of_events [e] claims.symm links.symm rejections.symm generation.symm rfl
    (fun _ _ _ h => .same h) (List.Subset.refl _) rfl rfl (by simp [logs, quiet])

variable {kind kind' : FlowKind} {key : FlowKey} {p : Pending} {r : Effect}

/-- An entry found after one map was replaced. -/
theorem lookup_update {flows : Map FlowKey Pending}
    (h : (Function.update w.pending kind' flows kind).lookup key = some p) :
    kind = kind' ∧ flows.lookup key = some p ∨ (w.pending kind).lookup key = some p := by
  by_cases hkind : kind = kind'
  · subst hkind
    rw [Function.update_self] at h
    exact .inl ⟨rfl, h⟩
  · rw [Function.update_of_ne hkind] at h
    exact .inr h

theorem PendingFrom.erase {kind kind' : FlowKind} {key key' : FlowKey} {p : Pending}
    (h : (Function.update w.pending kind' ((w.pending kind').erase key') kind).lookup key =
      some p) : PendingFrom cfg w f kind key p := by
  rcases lookup_update h with ⟨rfl, hfound⟩ | hfound
  · rw [Assoc.lookup_erase] at hfound
    split at hfound
    · cases hfound
    · exact .same hfound
  · exact .same hfound

/-- An entry found after one entry was replaced is an old one or the new one. -/
theorem PendingFrom.insert {kind kind' : FlowKind} {key key' : FlowKey} {p p' : Pending}
    (h : (Function.update w.pending kind' ((w.pending kind').insert key' p') kind).lookup key =
      some p) (hnew : PendingFrom cfg w f kind' key' p') : PendingFrom cfg w f kind key p := by
  rcases lookup_update h with ⟨rfl, hfound⟩ | hfound
  · rw [Assoc.lookup_insert] at hfound
    split at hfound
    · rename_i hkey
      subst hkey
      exact Option.some.inj hfound ▸ hnew
    · exact .same hfound
  · exact .same hfound

theorem installLinksStep_changes (c : Submission) :
    Changes cfg choice w (.installLinks c) (installLinksStep w c).world := by
  unfold installLinksStep
  split
  · exact .quiet rfl
  · dsimp only
    split
    · exact .quiet rfl
    · rename_i p hfound
      refine .of_events _ rfl rfl rfl rfl rfl ?_ (List.Subset.refl _) rfl rfl ?_
      · intro kind key p' h
        dsimp only at h
        split at h
        · exact .erase h
        · rename_i hleft
          exact .insert h (.stale hfound (Bool.eq_false_iff.mpr hleft))
      · intro e he
        simp only [List.mem_map, Option.mem_toList] at he
        obtain ⟨d, hd, rfl⟩ := he
        split at hd
        · exact ⟨.stale hfound ‹_› hd, rfl⟩
        · cases hd

theorem installReserveStep_changes (c : Submission) (active : Option Nat) :
    Changes cfg choice w (.installReserve c active) (installReserveStep cfg w c active).world := by
  have hclaims {claims : Claims} {reserved}
      (hres : c.Reserves cfg w claims reserved) :
      claims = claimsAfter cfg w (.installReserve c active) := by
    simp only [claimsAfter, hres]
  have houtcome := installReserveStep_installs cfg w c active
  generalize installReserveStep cfg w c active = r at houtcome ⊢
  cases houtcome with
  | refused hres => exact .silent (hclaims hres) rfl rfl rfl rfl rfl rfl rfl rfl
  | misfit hres hfill | waits hres hfill _ =>
    exact .of_events [] (hclaims hres) rfl rfl rfl rfl
      (fun _ _ _ h => .insert h (.filled hres hfill)) (List.Subset.refl _) rfl rfl (by simp)
  | missing hres _ _ _ _ | activates hres _ _ =>
    exact .of_events [] (hclaims hres) rfl rfl rfl rfl (fun _ _ _ h => .erase h)
      (List.Subset.refl _) rfl rfl (by simp)

theorem installRefreshClaimStep_changes (c : Submission) (epoch : Nat) :
    Changes cfg choice w (.installRefreshClaim c epoch)
      (installRefreshClaimStep cfg w c epoch).world := by
  unfold installRefreshClaimStep
  dsimp only
  split
  · rename_i claims hrefresh
    refine .of_events [.returned c.id none] (by simp [claimsAfter, hrefresh]) rfl rfl rfl rfl ?_
      (List.Subset.refl _) rfl rfl (by simpa [Event.submission] using Logs.installed)
    intro kind key p' h
    dsimp only at h
    cases hp : (w.pending c.via).lookup c.key with
    | none =>
      simp only [hp, Option.elim_none, Function.update_eq_self] at h
      exact .same h
    | some p =>
      simp only [hp, Option.elim_some] at h
      exact .insert h (.refreshed hp)
  · rename_i hrefresh
    exact .of_events [] (by simp [claimsAfter, hrefresh]) rfl rfl rfl rfl
      (fun _ _ _ h => .erase h) (List.Subset.refl _) rfl rfl (by simp)

theorem activateClaimsStep_changes (a : Activation) :
    Changes cfg choice w (.activateClaims a) (activateClaimsStep w a).world := by
  unfold activateClaimsStep
  split
  · rename_i hact
    exact .silent (by simp [claimsAfter, hact, activationFailed]) rfl rfl rfl rfl rfl rfl rfl rfl
  · rename_i claims cancel hact
    have hclaims : claims = claimsAfter cfg w (.activateClaims a) := by simp [claimsAfter, hact]
    dsimp only
    split
    · rename_i p hpair
      refine .of_events [.paired a.call p] hclaims rfl rfl rfl rfl
        (fun _ _ _ h => .same h) (List.Subset.refl _) rfl rfl ?_
      simpa [Event.submission] using Logs.paired hact hpair
    · exact .silent hclaims rfl rfl rfl rfl rfl rfl rfl rfl

theorem timeoutStep_changes {epoch deadline : Nat}
    (h : timeoutStep w kind key epoch deadline = some r) :
    Changes cfg choice w (.timeout kind key epoch deadline) r.world := by
  cases timeoutStep_timesOut h with
  | idle => exact .quiet rfl
  | uplink _ _ | other _ =>
    exact .of_events [] rfl rfl rfl rfl rfl (fun _ _ _ h => .erase h) (List.Subset.refl _)
      rfl rfl (by simp)

theorem cancelUdpStep_changes (key : FlowKey) :
    Changes cfg choice w (.cancelUdp key) (cancelUdpStep w key).world := by
  refine .of_events _ rfl rfl rfl rfl rfl (fun _ _ _ h => .erase h) (List.Subset.refl _) rfl rfl ?_
  intro e he
  obtain ⟨d, _, rfl⟩ := List.mem_map.mp he
  exact ⟨.closed _, rfl⟩

theorem drainFlowsStep_changes (kind : FlowKind) :
    Changes cfg choice w (.drainFlows kind) (drainFlowsStep w kind).world := by
  refine .of_events _ rfl rfl rfl rfl rfl ?_ (List.Subset.refl _) rfl rfl ?_
  · intro kind' key p h
    rcases lookup_update h with ⟨rfl, hfound⟩ | hfound
    · simp at hfound
    · exact .same hfound
  · intro e he
    obtain ⟨d, _, rfl⟩ := List.mem_map.mp he
    exact ⟨.drained _, rfl⟩

theorem registerQuicLinksStep_changes (s : SessionId) (generation : Nat) :
    Changes cfg choice w (.registerQuicLinks s generation)
      (registerQuicLinksStep cfg w s generation).world := by
  unfold registerQuicLinksStep
  cases hprevious : (registerQuicLink cfg w s generation).2 with
  | some previous =>
    simp only [hprevious]
    exact .quiet rfl
  | none =>
    simp only [hprevious]
    refine .of_events [.registeredQuic s generation none] rfl rfl rfl rfl rfl
      (fun _ _ _ h => .same h) (List.Subset.refl _) rfl rfl ?_
    simpa [Event.submission] using Logs.registered

/-- Besides the links, dropping a guard touches the counters only. -/
theorem dropLink_world (w : World) (g : LinkGuard) :
    ∃ stats, (dropLink w g).1 = { w with links := (dropLink w g).1.links, stats } := by
  unfold dropLink
  dsimp only
  split
  · exact ⟨w.stats, rfl⟩
  · split
    · exact ⟨w.stats, rfl⟩
    · exact ⟨_, rfl⟩

theorem linkGuardDropStep_changes (g : LinkGuard) :
    Changes cfg choice w (.linkGuardDrop g) (linkGuardDropStep w g).world := by
  have hworld : (linkGuardDropStep w g).world = (dropLink w g).1 := rfl
  obtain ⟨stats, hdrop⟩ := dropLink_world w g
  rw [hworld, hdrop]
  exact .quiet rfl

theorem laneStep_changes {g : LinkGuard} (h : laneStep w choice g = some r) :
    Changes cfg choice w (.lane g) r.world := by
  unfold laneStep at h
  split at h <;> cases h
  · exact {
      claims := rfl
      links := rfl
      rejections := rfl
      generation := rfl
      now := rfl
      pending := fun _ _ _ h => .same h
      cancelled := List.Subset.refl _
      appended := ⟨[_], rfl, by simpa using Logs.submitted⟩
      submissions := .inr ⟨_, rfl, rfl, rfl⟩ }
  · exact .quiet rfl
  · exact .quiet rfl

theorem relayStep_changes {p : Paired} {stage : RelayStage}
    (h : relayStep w choice p stage = some r) : Changes cfg choice w (.relay p stage) r.world := by
  cases relayStep_outcome h with
  | closed _ | moves _ _ => exact .quiet rfl
  | rejected _ _ | ready => exact .emit _ rfl rfl rfl rfl .relayed rfl

/-- **What a step changes.** -/
theorem exec_changes (h : exec cfg choice w f = some r) :
    Changes cfg choice w f r.world := by
  cases f with
  | tryAcquire c budget =>
    cases h
    unfold tryAcquireStep
    split <;> exact .quiet rfl
  | installLinks c =>
    cases h
    exact installLinksStep_changes c
  | installReserve c active =>
    cases h
    exact installReserveStep_changes c active
  | installRefreshClaim c epoch =>
    cases h
    exact installRefreshClaimStep_changes c epoch
  | activateLinks a =>
    cases h
    unfold activateLinksStep
    split <;> exact .quiet rfl
  | activateClaims a =>
    cases h
    exact activateClaimsStep_changes a
  | rejectClaims key code =>
    cases h
    unfold rejectClaimsStep
    split
    · exact .quiet rfl
    · exact .of_events [] rfl rfl rfl rfl rfl (fun _ _ _ h => .erase h) (List.Subset.refl _)
        rfl rfl (by simp)
  | rejectUdpEntry key code tcp =>
    cases h
    exact .of_events [] rfl rfl rfl rfl rfl (fun _ _ _ h => .erase h) (List.Subset.refl _)
      rfl rfl (by simp)
  | rejectTombstone key code expiresAt =>
    simp only [exec] at h
    split at h <;> cases h
    exact .quiet rfl
  | writeReject d code =>
    cases h
    exact .emit _ rfl rfl rfl rfl .wrote rfl
  | returnErr id e =>
    cases h
    exact .emit _ rfl rfl rfl rfl .failed rfl
  | discard d =>
    cases h
    exact .emit _ rfl rfl rfl rfl .discarded rfl
  | panic message =>
    cases h
    exact .emit _ rfl rfl rfl rfl .panicked rfl
  | timeout kind key epoch deadline => exact timeoutStep_changes h
  | cancelUdp key =>
    cases h
    exact cancelUdpStep_changes key
  | cancelToken token =>
    cases h
    exact .of_events [] rfl rfl rfl rfl rfl (fun _ _ _ h => .same h) (List.subset_cons_self _ _)
      rfl rfl (by simp)
  | cancelAll =>
    cases h
    exact .of_events [] rfl rfl rfl rfl rfl (fun _ _ _ h => .same h)
      (List.subset_append_right _ _) rfl rfl (by simp)
  | drainFlows kind =>
    cases h
    exact drainFlowsStep_changes kind
  | lane g => exact laneStep_changes h
  | registerQuicLinks s generation =>
    cases h
    exact registerQuicLinksStep_changes s generation
  | conn g =>
    simp only [exec] at h
    split at h <;> cases h
    exact .quiet rfl
  | linkGuardDrop g =>
    cases h
    exact linkGuardDropStep_changes g
  | cancelGeneration s generation held next =>
    simp only [exec] at h
    split at h <;> cases h
    cases next <;>
      exact .of_events [_] rfl rfl rfl rfl rfl (fun _ _ _ h => .same h)
        (List.subset_append_right _ _) rfl rfl (by simpa [Event.submission] using Logs.cancelled)
  | purgeKeys s generation next stale =>
    simp only [exec] at h
    split at h <;> cases h
    unfold purgeKeysStep
    split
    · exact .quiet rfl
    · cases next with
      | guardDrop => exact .quiet rfl
      | register fresh => exact .emit _ rfl rfl rfl rfl .replaced rfl
  | relay p stage => exact relayStep_changes h
  | submit | terminalRejection | acquireUdpPermit | reserveDuplex | installPending | installSweep
  | installTombstone | installRefresh | abandonClaim | rejectTcp | rejectUdp | rejectFinish
  | permitDrop | leaseDrop | hold | cancelUdpClaim | drainRejections | drainClaims | registerTcp
  | registerQuic | purgeTcp | purgeUdp =>
    cases h
    exact .quiet rfl

/-- The tokens a cancellation step cancels. -/
theorem exec_cancelGeneration {s : SessionId} {generation : Nat} {held : Bool} {next : AfterCancel}
    (h : exec cfg choice w (.cancelGeneration s generation held next) = some r) {claim : FlowClaim}
    (hfound : w.claims.map.lookup key = some claim) (hsession : key.sessionId = s)
    (hactive : claim.active = true) (hgeneration : generation ∈ claim.quicGenerations) :
    claim.cancel ∈ r.world.cancelled := by
  simp only [exec] at h
  split at h <;> cases h
  have htoken : claim.cancel ∈ w.claims.tokens fun key claim =>
      decide (key.sessionId = s) && claim.active &&
        decide (generation ∈ claim.quicGenerations) := by
    simp only [Claims.tokens, List.mem_map, List.mem_filter]
    exact ⟨⟨key, claim⟩, ⟨mem_entries.mpr hfound, by simp [hsession, hactive, hgeneration]⟩, rfl⟩
  cases next <;> exact List.mem_append_left _ htoken

end Changes

/-! ## Starting an operation -/

/-- What starting an operation leaves alone. -/
structure Undisturbed (w w' : World) : Prop where
  claims : w'.claims = w.claims
  links : w'.links = w.links
  rejections : w'.rejections = w.rejections
  generation : w'.nextQuicGeneration = w.nextQuicGeneration
  pending : w'.pending = w.pending
  cancelled : w'.cancelled = w.cancelled
  kept : w.log ⊆ w'.log
  logged : ∀ e ∈ w'.log, e.submission = none → e ∈ w.log

theorem start_undisturbed (b : Start) (w : World) : Undisturbed w (start b w).world := by
  cases b with
  | stream s generation header target path =>
    refine ⟨rfl, rfl, rfl, rfl, rfl, rfl, List.subset_cons_self _ _, ?_⟩
    intro e he hnone
    rcases List.mem_cons.mp he with rfl | he
    · cases hnone
    · exact he
  | _ => exact ⟨rfl, rfl, rfl, rfl, rfl, rfl, List.Subset.refl _, fun _ he _ => he⟩

theorem boot_undisturbed (cfg : Config) (b : Start) (w : World) :
    Undisturbed w ((portal cfg).boot b w).world :=
  start_undisturbed b w

/-- The first frame of an operation. -/
def Frame.entry : Frame → Bool
  | .submit _ | .rejectTcp .. | .cancelUdp _ | .cancelAll | .registerTcp _ | .registerQuic _ => true
  | _ => false

/-- A frame in the middle of an operation was there before another one started. -/
theorem mem_of_start {b : Start} {w : World} {fs : Multiset Frame} {g : Frame}
    (hg : g ∈ ↑(start b w).all + fs) (hentry : g.entry = false) : g ∈ fs := by
  rcases Multiset.mem_add.mp hg with hg | hg
  · cases b <;> simp [start, startSubmission, Tasks.Effect.all] at hg <;> subst hg <;> cases hentry
  · exact hg

end Nowhere.Portal
