import Nowhere.Lib.Following
import Nowhere.Portal.Leases
import Nowhere.Portal.SelfLock

/-!
# CLOSE

`cancel_udp` removes the pending entry in one section, reads the claim in a second one and acts
on what it has read in a third: it cancels the token of an active claim and abandons an inactive
one. A pair that has been completed but not activated has an inactive claim. When it is
activated between the second section and the third, the abandonment finds the claim active and
does nothing, and the flow goes on as if no CLOSE had arrived
(`Sample.activatedDuringClose_lost`).

The CLOSE takes effect when the claim is still as it was read, unless the completed pair then
finds a claim that a later submission of the same key has reserved (`close_not_lost`).
-/

namespace Nowhere.Portal

open Protocol Assoc

/-! ## Tokens of leases -/

/-- The token of a lease is the one of its claim. -/
theorem lease_token {cfg : Config} {p : Pool}
    (h : (portal cfg).Reach (fun _ w f => ActivationClean w f) initial p) {l : FlowLease}
    (hl : l ∈ leases p.bag) {claim : FlowClaim}
    (hfound : p.world.claims.map.lookup l.key = some claim) : claim.cancel = l.cancel := by
  have hinv : ∀ l ∈ leases p.bag, ∀ claim, p.world.claims.map.lookup l.key = some claim →
      claim.cancel = l.cancel := by
    refine h.bag_invariant (I := fun w fs => ∀ l ∈ leases fs, ∀ claim,
      w.claims.map.lookup l.key = some claim → claim.cancel = l.cancel) ?_ ?_ ?_
    · simp [leases, initial, Tasks.Pool.bag, Tasks.Pool.frames]
    · intro p b _ ih l hl claim hfound
      obtain ⟨f, hf, hlease⟩ := mem_leases.mp hl
      have hentry : f.entry = false := by
        cases f <;> first | rfl | cases hlease
      rw [(boot_undisturbed cfg b p.world).claims] at hfound
      exact ih l (mem_leases.mpr ⟨f, mem_of_start hf hentry, hlease⟩) claim hfound
    · intro p choice f others r hp hbag ih _ hclean hexec l hl claim hfound
      have hleasing : Leasing p.world (f ::ₘ others) := hbag ▸ leasing hp
      rw [(exec_changes hexec).claims] at hfound
      rw [leases_exec hexec] at hl
      rcases Multiset.mem_add.mp hl with hl | hl
      · cases f with
        | relay p' stage =>
          rw [Multiset.mem_coe, leasesAfter, List.mem_singleton] at hl
          subst hl
          exact ih _ (mem_leases.mpr ⟨_, Multiset.mem_cons_self _ _, rfl⟩) claim hfound
        | activateClaims a =>
          simp only [leasesAfter, Claims.activateClaim] at hl
          cases hclaim : p.world.claims.map.lookup a.call.key with
          | none => simp [hclaim] at hl
          | some claim' =>
            simp only [hclaim, Option.map_some, Multiset.mem_coe, List.mem_singleton] at hl
            subst hl
            simp only [claimsAfter, Claims.activateClaim, hclaim, Option.map_some,
              Option.getD_some, Assoc.lookup_insert, if_true] at hfound
            cases hfound
            rfl
        | _ => cases hl
      · have hmem := Leasing.mem_others (f := f) hl
        obtain ⟨old, hold, _, _⟩ := hleasing.claimed l hmem
        rcases claim_token hfound with ⟨old', hold', htoken⟩ | ⟨hmissing, _⟩
        · cases hold.symm.trans hold'
          rw [← htoken]
          exact ih l hmem old hold
        · rw [hmissing] at hold
          cases hold
  exact hinv l hl claim hfound

/-! ## Flows that a CLOSE has to stop -/

/-- The downlink of a flow of `key` whose halves have both been installed. -/
def Frame.flow (key : FlowKey) : Frame → Option Nat
  | .activateLinks a | .activateClaims a =>
    if a.call.key = key then a.complete.downlink.map Downlink.source else none
  | .relay p _ => if p.lease.key = key then some p.downlink.source else none
  | _ => none

/-- Both halves of the flow of `key` with downlink `d` have been installed. -/
def InFlight (p : Pool) (key : FlowKey) (d : Nat) : Prop := ∃ f ∈ p.bag, f.flow key = some d

/-- A step after the CLOSE of `key` has begun in the pool `p₀`: no activation finds its claim
active, and a pair of `key` completed before does not find a claim reserved since. -/
structure Fenced (p₀ : Pool) (key : FlowKey) (w : World) (f : Frame) : Prop where
  clean : ActivationClean w f
  claim : ∀ a d, f = .activateClaims a → a.call.key = key → a.complete.downlink = some d →
    InFlight p₀ key d.source → ∀ claim, w.claims.map.lookup key = some claim →
    claim.cancel < p₀.world.claims.nextToken

/-- The flows that the CLOSE has to stop run under the tokens of `tokens`, and so does the claim
they could still be activated with. -/
structure Covered (p₀ : Pool) (key : FlowKey) (tokens : Set Token) (w : World)
    (fs : Multiset Frame) : Prop where
  later : p₀.world.claims.nextToken ≤ w.claims.nextToken
  claim : ∀ claim, w.claims.map.lookup key = some claim →
    claim.cancel < p₀.world.claims.nextToken → claim.cancel ∈ tokens
  relays : ∀ p stage, .relay p stage ∈ fs → p.lease.key = key →
    InFlight p₀ key p.downlink.source → p.lease.cancel ∈ tokens

namespace Covered

variable {cfg : Config} {choice : Choice} {p₀ : Pool} {key : FlowKey} {tokens : Set Token}
  {w : World} {f : Frame} {others : Multiset Frame} {r : Effect}

theorem exec (h : Covered p₀ key tokens w (f ::ₘ others)) (hfenced : Fenced p₀ key w f)
    (hexec : exec cfg choice w f = some r) : Covered p₀ key tokens r.world (↑r.all + others) := by
  have hclaims := (exec_changes hexec).claims
  constructor
  · rw [hclaims]
    exact h.later.trans (nextToken_le cfg w f)
  · intro claim hfound hlt
    rw [hclaims] at hfound
    rcases claim_token hfound with ⟨old, hold, htoken⟩ | ⟨_, hnew⟩
    · rw [← htoken] at hlt ⊢
      exact h.claim old hold hlt
    · rw [hnew] at hlt
      exact absurd h.later (Nat.not_le.mpr hlt)
  · intro p stage hmem hkey hflight
    rcases Multiset.mem_add.mp hmem with hmem | hmem
    · rcases exec_next hexec _ hmem with hcleanup | hnext
      · cases hcleanup
      · cases hnext with
        | @relay a claims cancel _ activated paired =>
          -- a pair is activated: the claim it finds is one of those that `h` speaks about
          obtain ⟨claim, hclaim, hcancel⟩ := Option.map_eq_some_iff.mp activated
          obtain ⟨⟨_, _, hdownlink, _, _⟩, _, _, _, _, hlease⟩ := toPaired_ok paired
          cases hcancel
          rw [hlease] at hkey ⊢
          subst hkey
          exact h.claim claim hclaim
            (hfenced.claim a _ rfl rfl hdownlink hflight claim hclaim)
        | relayOn next => exact h.relays p _ (Multiset.mem_cons_self _ _) hkey hflight
    · exact h.relays p stage (Multiset.mem_cons_of_mem hmem) hkey hflight

theorem boot {fs : Multiset Frame} (h : Covered p₀ key tokens w fs) (b : Start) :
    Covered p₀ key tokens (start b w).world (↑(start b w).all + fs) := by
  have hclaims := (start_undisturbed b w).claims
  constructor
  · rw [hclaims]
    exact h.later
  · rw [hclaims]
    exact h.claim
  · intro p stage hmem
    exact h.relays p stage (mem_of_start hmem rfl)

theorem reach {p q : Pool} (h : Covered p₀ key tokens p.world p.bag)
    (hreach : (portal cfg).Reach (fun _ w f => Fenced p₀ key w f) p q) :
    Covered p₀ key tokens q.world q.bag := by
  refine hreach.bag_invariant h (fun _ b _ ih => ih.boot b) ?_
  intro p choice f others r _ _ ih _ hfenced hexec
  exact ih.exec hfenced hexec

end Covered

/-! ## The call -/

/-- The last section of `cancel_udp`, by what the second one has read in `p₂`. An abandonment
finds the claim as it was read. -/
inductive CancelEnds (cfg : Config) (key : FlowKey) (j : Nat) (rest : List Frame)
    (p₂ p : Pool) : Pool → Prop
  | nothing (missing : p₂.world.claims.map.lookup key = none) : CancelEnds cfg key j rest p₂ p p
  | cancels {q : Pool} {claim : FlowClaim}
      (found : p₂.world.claims.map.lookup key = some claim) (active : claim.active = true)
      (runs : (portal cfg).Runs j (.cancelToken claim.cancel) rest p q) :
      CancelEnds cfg key j rest p₂ p q
  | abandons {q : Pool} {claim : FlowClaim}
      (found : p₂.world.claims.map.lookup key = some claim) (inactive : claim.active = false)
      (runs : (portal cfg).Runs j (.abandonClaim key claim.epoch) rest p q)
      (steady : ∀ c, p.world.claims.map.lookup key = some c → c.cancel = claim.cancel →
        c.active = false ∧ c.epoch = claim.epoch) :
      CancelEnds cfg key j rest p₂ p q

section Cancel

variable {cfg : Config} {key : FlowKey} {p₀ p q : Pool} {cond : Choice → World → Frame → Prop}

/-- What the second section reads covers every flow the CLOSE has to stop. -/
theorem covered_of_read (hreach : (portal cfg).Reach (fun _ w f => ActivationClean w f) initial p)
    (hlater : p₀.world.claims.nextToken ≤ p.world.claims.nextToken) :
    Covered p₀ key {t | ∃ claim, p.world.claims.map.lookup key = some claim ∧ claim.cancel = t}
      p.world p.bag where
  later := hlater
  claim claim hfound _ := ⟨claim, hfound, rfl⟩
  relays := by
    rintro p' stage hmem rfl _
    have hlease : p'.lease ∈ leases p.bag := mem_leases.mpr ⟨_, hmem, rfl⟩
    obtain ⟨claim, hfound, _, _⟩ := (leasing hreach).claimed _ hlease
    exact ⟨claim, hfound, lease_token hreach hlease hfound⟩

theorem nextToken_reach (h : (portal cfg).Reach cond p q) :
    p.world.claims.nextToken ≤ q.world.claims.nextToken := by
  refine h.bag_invariant (I := fun w _ => p.world.claims.nextToken ≤ w.claims.nextToken)
    (Nat.le_refl _) ?_ ?_
  · intro q b _ ih
    rw [(boot_undisturbed cfg b q.world).claims]
    exact ih
  · intro q choice f others r _ _ ih _ _ hexec
    rw [(exec_changes hexec).claims]
    exact ih.trans (nextToken_le cfg q.world f)

theorem cancelled_reach (h : (portal cfg).Reach cond p q) :
    p.world.cancelled ⊆ q.world.cancelled := by
  refine h.bag_invariant (I := fun w _ => p.world.cancelled ⊆ w.cancelled)
    (List.Subset.refl _) ?_ ?_
  · intro q b _ ih
    rw [(boot_undisturbed cfg b q.world).cancelled]
    exact ih
  · intro q choice f others r _ _ ih _ _ hexec
    exact List.Subset.trans ih (exec_changes hexec).cancelled

/-- Abandoning a claim that is still as it was read leaves nothing to activate. -/
theorem covered_of_abandon {j : Nat} {rest : List Frame} {p q : Pool} {claim : FlowClaim}
    (hreach : (portal cfg).Reach (fun _ w f => ActivationClean w f) initial p)
    (h : Covered p₀ key {claim.cancel} p.world p.bag)
    (runs : (portal cfg).Runs j (.abandonClaim key claim.epoch) rest p q)
    (steady : ∀ c, p.world.claims.map.lookup key = some c → c.cancel = claim.cancel →
      c.active = false ∧ c.epoch = claim.epoch) : Covered p₀ key ∅ q.world q.bag := by
  have hafter : Covered p₀ key {claim.cancel} q.world q.bag :=
    h.reach (runs.reach fun _ => ⟨trivial, fun a d ha => by cases ha⟩)
  have hgone : ∀ c, q.world.claims.map.lookup key = some c → c.cancel ≠ claim.cancel := by
    intro c hfound htoken
    obtain ⟨_, r, hexec, hworld, _⟩ := runs.exec
    cases hexec
    rw [hworld] at hfound
    simp only [Claims.abandonClaim] at hfound
    split at hfound
    · rename_i c' hc'
      split at hfound
      · rw [Assoc.lookup_erase, if_pos rfl] at hfound
        cases hfound
      · rename_i hkept
        cases hc'.symm.trans hfound
        exact hkept (steady c hfound htoken)
    · rename_i hmissing
      rw [hmissing] at hfound
      cases hfound
  refine ⟨hafter.later, ?_, ?_⟩
  · intro c hfound hlt
    exact hgone c hfound (hafter.claim c hfound hlt)
  · rintro p' stage hmem rfl hflight
    have hreach' := hreach.trans (runs.reach fun _ => trivial)
    have hlease : p'.lease ∈ leases q.bag := mem_leases.mpr ⟨_, hmem, rfl⟩
    obtain ⟨c, hfound, _, _⟩ := (leasing hreach').claimed _ hlease
    have htoken : p'.lease.cancel = claim.cancel := hafter.relays p' stage hmem rfl hflight
    exact hgone c hfound ((lease_token hreach' hlease hfound).trans htoken)

/-- **CLOSE.** `cancel_udp` runs in three sections, from `p₀` to `p₅`, with any steps of other
tasks in between. When they are all fenced, and the claim it abandons is as it was read, every
flow of the key whose halves were both installed in `p₀` and that is active later has its token
cancelled. -/
theorem close_not_lost {j : Nat} {rest : List Frame} {p₁ p₂ p₃ p₄ p₅ q : Pool}
    (before : (portal cfg).Reach (fun _ w f => ActivationClean w f) initial p₀)
    (starts : (portal cfg).Runs j (.cancelUdp key) rest p₀ p₁)
    (gap₁ : (portal cfg).Reach (fun _ w f => Fenced p₀ key w f) p₁ p₂)
    (reads : (portal cfg).Runs j (.cancelUdpClaim key) rest p₂ p₃)
    (gap₂ : (portal cfg).Reach (fun _ w f => Fenced p₀ key w f) p₃ p₄)
    (ends : CancelEnds cfg key j rest p₂ p₄ p₅)
    (after : (portal cfg).Reach (fun _ w f => Fenced p₀ key w f) p₅ q) {p : Paired}
    {stage : RelayStage} (active : .relay p stage ∈ q.bag) (hkey : p.lease.key = key)
    (installed : InFlight p₀ key p.downlink.source) : p.lease.cancel ∈ q.world.cancelled := by
  have hp₂ : (portal cfg).Reach (fun _ w f => ActivationClean w f) initial p₂ :=
    (before.trans (starts.reach fun _ => trivial)).trans (gap₁.mono fun _ _ _ h => h.clean)
  have hp₄ : (portal cfg).Reach (fun _ w f => ActivationClean w f) initial p₄ :=
    (hp₂.trans (reads.reach fun _ => trivial)).trans (gap₂.mono fun _ _ _ h => h.clean)
  have hlater := (nextToken_reach starts.reachable).trans (nextToken_reach gap₁)
  have hread : Covered p₀ key
      {t | ∃ claim, p₂.world.claims.map.lookup key = some claim ∧ claim.cancel = t}
      p₄.world p₄.bag :=
    (covered_of_read hp₂ hlater).reach
      ((reads.reach fun _ => ⟨trivial, fun a d ha => by cases ha⟩).trans gap₂)
  cases ends with
  | nothing missing =>
    obtain ⟨claim, hfound, _⟩ := (hread.reach after).relays p stage active hkey installed
    rw [missing] at hfound
    cases hfound
  | @cancels _ claim found hactive runs =>
    have hcovered := (hread.reach (runs.reach fun _ => ⟨trivial, fun a d ha => by cases ha⟩)).reach
      after
    obtain ⟨claim', hfound, htoken⟩ := hcovered.relays p stage active hkey installed
    cases found.symm.trans hfound
    rw [← htoken]
    obtain ⟨_, r, hexec, hworld, _⟩ := runs.exec
    cases hexec
    apply cancelled_reach after
    rw [hworld]
    exact List.mem_cons_self
  | @abandons _ claim found inactive runs steady =>
    have htokens : {t | ∃ c, p₂.world.claims.map.lookup key = some c ∧ c.cancel = t} =
        {claim.cancel} := by
      ext t
      simp [found, eq_comm]
    rw [htokens] at hread
    exact ((covered_of_abandon hp₄ hread runs steady).reach after).relays p stage active hkey
      installed |>.elim

end Cancel

namespace Sample

def attachUdp : FlowHeader := ⟨.attach, 1, .udp, .tlsTcp, .quic⟩

/-- The two halves of a UDP flow arrive; task 3 has completed the pair and not activated it. -/
def completed : List (Tasks.Act Choice Start) :=
  registerQuic 0 ++ lane 1 openUdp (some target) 10 ++ stream 3 attachUdp 6

/-- Task `j` begins `cancel_udp` while the flow with downlink 1 is in flight. -/
def beginsClose (j : Nat) (P : Pool → Bool) (p : Pool) : Bool :=
  p.frames.any (fun f => decide (f.flow key = some 1)) &&
    (portal config).runsAnd j .go (fun f tail q => (match f, tail with
      | .cancelUdp k, [] => decide (k = key)
      | _, _ => false) && P q) p

variable {p : Pool}

theorem beginsClose_spec {j : Nat} {P : Pool → Bool} (h : beginsClose j P p = true) :
    InFlight p key 1 ∧ ∃ q, (portal config).Runs j (.cancelUdp key) [] p q ∧ P q = true := by
  rw [beginsClose, Bool.and_eq_true] at h
  obtain ⟨hflow, hruns⟩ := h
  obtain ⟨f, hf, hone⟩ := List.any_eq_true.mp hflow
  obtain ⟨g, tail, q, hruns, hchecks⟩ := Tasks.System.Runs.of_runsAnd hruns
  rw [Bool.and_eq_true] at hchecks
  refine ⟨⟨f, Multiset.mem_coe.mpr hf, of_decide_eq_true hone⟩, q, ?_, hchecks.2⟩
  have hg := hchecks.1
  split at hg
  · rw [← of_decide_eq_true hg]
    exact hruns
  · cases hg

/-- The relay of the flow with downlink 1, with its token cancelled or not. -/
def relayed (w : World) (cancelled : Bool) : Frame → Bool
  | .relay p _ => decide (p.kind = .udp ∧ p.lease.key = key ∧ p.downlink.source = 1 ∧
      decide (p.lease.cancel ∈ w.cancelled) = cancelled)
  | _ => false

theorem relayed_spec {cancelled : Bool} (h : p.frames.any (relayed p.world cancelled) = true) :
    ∃ q stage, .relay q stage ∈ p.bag ∧ q.kind = .udp ∧ q.lease.key = key ∧
      q.downlink.source = 1 ∧ decide (q.lease.cancel ∈ p.world.cancelled) = cancelled := by
  obtain ⟨f, hf, hrelay⟩ := List.any_eq_true.mp h
  cases f with
  | relay q stage => exact ⟨q, stage, Multiset.mem_coe.mpr hf, of_decide_eq_true hrelay⟩
  | _ => cases hrelay

/-- `cancel_udp` reads the claim, the pair is activated, the claim is not abandoned. -/
def activatedDuringClose : List (Tasks.Act Choice Start) :=
  [.run 4 .go, .run 4 .go, .run 3 .go, .run 3 .go, .run 4 .go]

/-- `cancel_udp` has returned, and the flow is active with a token nobody has cancelled. -/
theorem activatedDuringClose_lost :
    ∃ p₀ p₁ q p stage, (portal config).Reachable initial p₀ ∧
      InFlight p₀ key p.downlink.source ∧ (portal config).Runs 4 (.cancelUdp key) [] p₀ p₁ ∧
      (portal config).Reachable p₁ q ∧ q.tasks[4]? = some [] ∧ .relay p stage ∈ q.bag ∧
      p.kind = .udp ∧ p.lease.key = key ∧ p.lease.cancel ∉ q.world.cancelled := by
  obtain ⟨p₀, hp₀, hbegins⟩ := Tasks.System.exists_reachable_of_run (S := portal config)
    (show ((portal config).run initial (completed ++ [.boot (.cancelUdp key)])).any
      (beginsClose 4 fun p₁ => ((portal config).run p₁ activatedDuringClose).any fun q =>
        q.tasks[4]?.any List.isEmpty && q.frames.any (relayed q.world false)) = true by
      decide +kernel)
  obtain ⟨hflight, p₁, hruns, hrun⟩ := beginsClose_spec hbegins
  obtain ⟨q, hq, hchecks⟩ := Tasks.System.exists_reachable_of_run hrun
  rw [Bool.and_eq_true] at hchecks
  obtain ⟨t, ht, hempty⟩ := (Option.any_eq_true _ _).mp hchecks.1
  obtain ⟨p, stage, hmem, hkind, hkey, hsource, hcancelled⟩ := relayed_spec hchecks.2
  rw [List.isEmpty_iff.mp hempty] at ht
  exact ⟨p₀, p₁, q, p, stage, hp₀, hsource ▸ hflight, hruns, hq, ht, hmem, hkind, hkey,
    of_decide_eq_false hcancelled⟩

/-- `ActivationClean`, computed. -/
def activationClean (w : World) : Frame → Bool
  | .activateClaims a => (w.claims.map.lookup a.call.key).all fun claim => !claim.active
  | _ => true

theorem activationClean_spec {w : World} {f : Frame} (h : activationClean w f = true) :
    ActivationClean w f := by
  cases f with
  | activateClaims a =>
    intro claim hfound
    simpa [activationClean, hfound] using h
  | _ => trivial

/-- The pair is activated, then `cancel_udp` is called. -/
def closedLater : List (Tasks.Act Choice Start) :=
  completed ++ [.run 3 .go, .run 3 .go, .boot (.cancelUdp key)]

/-- Task 5 reads an active claim and cancels its token. -/
def readsActive : Pool → Bool :=
  (portal config).runsAnd 5 .go fun f _ p₂ => f.cleanup &&
    (p₂.world.claims.map.lookup key).any FlowClaim.active &&
    (portal config).runsAnd 5 .go (fun f tail p₃ => (match f, tail with
      | .cancelUdpClaim k, [] => decide (k = key)
      | _, _ => false) &&
      (portal config).runsAnd 5 .go (fun _ _ q => q.frames.any (relayed q.world true)) p₃) p₂

theorem closedLater_cancelled :
    ∃ p₀ p₁ p₂ p₃ q p stage,
      (portal config).Reach (fun _ w f => ActivationClean w f) initial p₀ ∧
      (portal config).Runs 5 (.cancelUdp key) [] p₀ p₁ ∧
      (portal config).Reach (fun _ w f => Fenced p₀ key w f) p₁ p₂ ∧
      (portal config).Runs 5 (.cancelUdpClaim key) [] p₂ p₃ ∧
      CancelEnds config key 5 [] p₂ p₃ q ∧ .relay p stage ∈ q.bag ∧ p.lease.key = key ∧
      InFlight p₀ key p.downlink.source ∧ p.lease.cancel ∈ q.world.cancelled := by
  obtain ⟨p₀, hp₀, hbegins⟩ := Tasks.System.exists_reach_of_run (S := portal config)
    (.of_obeys (fun _ => activationClean) (fun _ _ _ => activationClean_spec)
      (show (portal config).obeys (fun _ => activationClean) initial closedLater = true by
        decide +kernel))
    (show ((portal config).run initial closedLater).any (beginsClose 5 readsActive) = true by
      decide +kernel)
  obtain ⟨hflight, p₁, hstarts, hreads⟩ := beginsClose_spec hbegins
  obtain ⟨g, tail, p₂, hgap, hchecks⟩ := Tasks.System.Runs.of_runsAnd hreads
  simp only [Bool.and_eq_true] at hchecks
  obtain ⟨⟨hcleanup, hclaim⟩, hread⟩ := hchecks
  obtain ⟨claim, hfound, hactive⟩ := (Option.any_eq_true _ _).mp hclaim
  obtain ⟨f, tail', p₃, hreads, hchecks⟩ := Tasks.System.Runs.of_runsAnd hread
  rw [Bool.and_eq_true] at hchecks
  obtain ⟨hf, hcancel⟩ := hchecks
  obtain ⟨f', tail'', q, hcancels, hrelayed⟩ := Tasks.System.Runs.of_runsAnd hcancel
  obtain ⟨p, stage, hmem, _, hkey, hsource, _⟩ := relayed_spec hrelayed
  split at hf
  · obtain rfl := of_decide_eq_true hf
    obtain ⟨_, r, hexec, _, htask⟩ := hreads.exec
    cases hexec
    have htop : p₃.tasks[5]? = some [.cancelToken claim.cancel] := by
      rw [htask]
      simp [cancelUdpClaimStep, hfound, hactive]
    cases htop.symm.trans hcancels.1
    have hgap' : (portal config).Reach (fun _ w f => Fenced p₀ key w f) p₁ p₂ := by
      refine hgap.reach fun _ => ?_
      cases g <;> first | exact ⟨trivial, fun a d ha => by cases ha⟩ | cases hcleanup
    have hends : CancelEnds config key 5 [] p₂ p₃ q := .cancels hfound hactive hcancels
    exact ⟨p₀, p₁, p₂, p₃, q, p, stage, hp₀, hstarts, hgap', hreads, hends, hmem, hkey,
      hsource ▸ hflight, close_not_lost hp₀ hstarts hgap' hreads .refl hends .refl hmem hkey
        (hsource ▸ hflight)⟩
  · cases hf

end Sample

end Nowhere.Portal
