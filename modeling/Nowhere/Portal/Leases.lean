import Nowhere.Portal.Locks

/-!
# Flow leases and their claims

A lease is alive from the activation of its claim until `finish_flow` has run for it. The
invariant `Leasing` ties the leases to the active claims: one lease for each active claim and
the other way round. It survives every interleaving but one: `activate_claim` overwrites a claim
that is active already. That happens when two pairs of one key were completed before either was
activated, since between completion and activation the claim still looks like a pending one.
-/

namespace Nowhere.Portal

open Protocol Assoc

/-- The lease a frame keeps alive. -/
def Frame.lease : Frame → Option FlowLease
  | .relay p _ => some p.lease
  | .leaseDrop l => some l
  | _ => none

/-- The leases alive in a bag of frames. -/
def leases (fs : Multiset Frame) : Multiset FlowLease := fs.filterMap Frame.lease

/-- Every lease is the only one of its key, its claim is active under its epoch, and finishing
it removes that claim and nothing else. -/
structure LeasesOwnClaims (claims : Claims) (ls : Multiset FlowLease) : Prop where
  unique : ∀ key, ls.countP (fun l => l.key = key) ≤ 1
  claimed : ∀ l ∈ ls, ∃ claim, claims.map.lookup l.key = some claim ∧ claim.active = true ∧
    claim.epoch = l.epoch
  finished : ∀ l ∈ ls,
    claims.finishFlow l.key l.epoch = { claims with map := claims.map.erase l.key }

/-- The activation finds a claim that is not active. -/
def ActivationClean (w : World) : Frame → Prop
  | .activateClaims a => ∀ claim, w.claims.map.lookup a.call.key = some claim →
      claim.active = false
  | _ => True

/-! ## Leases through a step -/

/-- The leases among the frames that a step leaves behind. -/
def leasesAfter (w : World) : Frame → List FlowLease
  | .relay p _ => [p.lease]
  | .activateClaims a => match w.claims.activateClaim a.call.key a.epoch a.generations with
    | some (_, cancel) => [⟨a.call.key, a.epoch, cancel, a.permit⟩]
    | none => []
  | _ => []

section Exec

variable {cfg : Config} {choice : Choice} {w : World} {f g : Frame} {r : Effect}

theorem Tidy.leases {fs : List Frame} (h : Tidy fs) : fs.filterMap Frame.lease = [] := by
  rw [List.filterMap_eq_nil_iff]
  intro g hg
  have hclean := h g hg
  cases g <;> first | rfl | cases hclean

theorem Next.lease (h : Next cfg w f g) (hrelay : ∀ p stage, f ≠ .relay p stage)
    (hactivate : ∀ a, f = .activateClaims a →
      w.claims.activateClaim a.call.key a.epoch a.generations = none) : g.lease = none := by
  cases h with
  | relay activated paired =>
    rw [hactivate _ rfl] at activated
    cases activated
  | unwindLease activated paired =>
    rw [hactivate _ rfl] at activated
    cases activated
  | relayOn next => exact absurd rfl (hrelay _ _)
  | leaseDrop => exact absurd rfl (hrelay _ _)
  | _ => rfl

theorem filterMap_lease_of_next (hexec : exec cfg choice w f = some r)
    (hrelay : ∀ p stage, f ≠ .relay p stage)
    (hactivate : ∀ a, f = .activateClaims a →
      w.claims.activateClaim a.call.key a.epoch a.generations = none) :
    r.all.filterMap Frame.lease = [] := by
  rw [List.filterMap_eq_nil_iff]
  intro g hg
  rcases exec_next hexec g hg with hclean | hnext
  · cases g <;> first | rfl | cases hclean
  · exact hnext.lease hrelay hactivate

theorem relayEnd_leases (p : Paired) : (relayEnd p).filterMap Frame.lease = [p.lease] := by
  have htidy : Tidy (dropGuard p.downlink.guard ++ dropGuard p.uplink.guard) := by simp
  change p.lease :: (dropGuard p.downlink.guard ++ dropGuard p.uplink.guard).filterMap _ = _
  rw [htidy.leases]

theorem relayStep_leases {p : Paired} {stage : RelayStage}
    (h : relayStep w choice p stage = some r) : r.all.filterMap Frame.lease = [p.lease] := by
  cases relayStep_outcome h with
  | closed _ => simpa [Tasks.Effect.all] using relayEnd_leases p
  | rejected _ _ => simpa [Tasks.Effect.all, relayReject] using relayEnd_leases p
  | moves _ _ | ready => rfl

theorem activateClaimsStep_leases (a : Activation) {claims : Claims} {cancel : Token}
    (h : w.claims.activateClaim a.call.key a.epoch a.generations = some (claims, cancel)) :
    (activateClaimsStep w a).all.filterMap Frame.lease =
      [⟨a.call.key, a.epoch, cancel, a.permit⟩] := by
  unfold activateClaimsStep
  rw [h]
  dsimp only
  split
  · rename_i p hp
    have hlease := (toPaired_ok hp).2.2.2.2.2
    change [p.lease] = _
    rw [hlease]
  · have hguard (g : Option LinkGuard) : (dropGuard g).filterMap Frame.lease = [] :=
      (Tidy.dropGuard g).leases
    have hdiscard (d : Option Downlink) :
        (d.toList.map fun d => Frame.discard d.source).filterMap Frame.lease = [] := by
      cases d <;> rfl
    simp only [Tasks.Effect.all, List.flatten_nil, List.append_nil, List.filterMap_append,
      List.cons_append, List.filterMap_cons, Frame.lease, hguard, hdiscard]

theorem exec_leases (hexec : exec cfg choice w f = some r) :
    r.all.filterMap Frame.lease = leasesAfter w f := by
  cases f with
  | relay p stage => exact relayStep_leases hexec
  | activateClaims a =>
    cases hactivate : w.claims.activateClaim a.call.key a.epoch a.generations with
    | none =>
      rw [filterMap_lease_of_next hexec (by simp) (by
        intro a' ha
        cases ha
        exact hactivate)]
      simp [leasesAfter, hactivate]
    | some result =>
      obtain ⟨claims, cancel⟩ := result
      cases hexec
      rw [activateClaimsStep_leases a hactivate]
      simp [leasesAfter, hactivate]
  | _ => exact filterMap_lease_of_next hexec (by simp) (by simp)

end Exec

theorem mem_leases {fs : Multiset Frame} {l : FlowLease} :
    l ∈ leases fs ↔ ∃ f ∈ fs, f.lease = some l :=
  Multiset.mem_filterMap _ _

theorem leases_cons (f : Frame) (fs : Multiset Frame) :
    leases (f ::ₘ fs) = ↑f.lease.toList + leases fs := by
  unfold leases
  cases h : f.lease with
  | none => simp [Multiset.filterMap_cons_none _ _ h]
  | some l => simp [Multiset.filterMap_cons_some _ _ _ h, Multiset.singleton_add]

variable {cfg : Config} {choice : Choice} {w : World} {f : Frame} {r : Effect}

theorem leases_exec (hexec : exec cfg choice w f = some r) (others : Multiset Frame) :
    leases (↑r.all + others) = ↑(leasesAfter w f) + leases others := by
  rw [← exec_leases hexec]
  simp [leases, Multiset.filterMap_add]

/-! ## The invariant -/

/-- The key whose claim a frame has found inactive, under a lock that it still holds. -/
def Frame.settles : Frame → Option FlowKey
  | .installRefresh c | .installRefreshClaim c _ => some c.key
  | .rejectUdpEntry key .. | .rejectFinish key .. => some key
  | _ => none

theorem Frame.settles_of_cleanup (h : f.cleanup = true) : f.settles = none := by
  cases f <;> first | rfl | cases h

theorem Frame.settles_holds {key : FlowKey} (h : f.settles = some key) :
    Lock.links ∈ f.holds ∨ Lock.claims ∈ f.holds := by
  cases f with
  | installRefresh c => exact .inl (by simp [holds])
  | installRefreshClaim c epoch => exact .inl (by simp [holds])
  | rejectUdpEntry key code tcp => exact .inr (by simp [holds])
  | rejectFinish key code tcp udp => exact .inr (by simp [holds])
  | _ => cases h

/-- Leases and active claims belong together. -/
structure Leasing (w : World) (fs : Multiset Frame) : Prop where
  unique : ∀ key, (leases fs).countP (fun l => l.key = key) ≤ 1
  claimed : ∀ l ∈ leases fs, ∃ claim, w.claims.map.lookup l.key = some claim ∧
    claim.active = true ∧ claim.epoch = l.epoch
  leased : ∀ key claim, w.claims.map.lookup key = some claim → claim.active = true →
    ∃ l ∈ leases fs, l.key = key
  settled : ∀ f ∈ fs, ∀ key, f.settles = some key → ∀ claim,
    w.claims.map.lookup key = some claim → claim.active = false

namespace Leasing

variable {cfg : Config} {choice : Choice} {w : World} {f g : Frame} {others fs : Multiset Frame}
  {r : Effect} {key : FlowKey} {claim : FlowClaim} {l : FlowLease}

theorem ownClaims (h : Leasing w fs) :
    LeasesOwnClaims w.claims (leases fs) where
  unique := h.unique
  claimed := h.claimed
  finished := by
    intro l hl
    obtain ⟨claim, hfound, hactive, hepoch⟩ := h.claimed l hl
    simp [Claims.finishFlow, hfound, hactive, hepoch]

/-- Nobody else relies on an inactive claim while an activation runs. -/
theorem not_settles {a : Activation} (hex : (portal cfg).Exclusive (.activateClaims a ::ₘ others))
    (hfree : (portal cfg).Free (.activateClaims a) (.activateClaims a ::ₘ others)) (hg : g ∈ others)
    (hsettles : g.settles = some key) : False := by
  rcases Frame.settles_holds hsettles with hlinks | hclaims
  · exact hex.absurd hg (l := .links) (by simp [portal, Frame.holds]) hlinks
  · exact hfree .claims rfl g (Multiset.mem_cons_of_mem hg) hclaims

/-- A claim that a step leaves active was active, or the step activated it. -/
theorem active_before (hfound : (claimsAfter cfg w f).map.lookup key = some claim)
    (hactive : claim.active = true) :
    (∃ claim, w.claims.map.lookup key = some claim ∧ claim.active = true) ∨
      ∃ a, f = .activateClaims a ∧ a.call.key = key := by
  cases claim_from hfound with
  | same found => exact .inl ⟨claim, found, hactive⟩
  | inactive inactive =>
    rw [inactive] at hactive
    cases hactive
  | refreshed found => exact .inl ⟨_, found, hactive⟩
  | activated found => exact .inr ⟨_, rfl, rfl⟩

/-- The new frames that rely on an inactive claim have just seen it. -/
theorem settled_next (h : Leasing w (f ::ₘ others)) (hnext : Next cfg w f g)
    (hg : g.settles = some key) (hfound : (claimsAfter cfg w f).map.lookup key = some claim) :
    claim.active = false := by
  have hself := h.settled f (Multiset.mem_cons_self f others)
  by_contra hactive
  rw [Bool.not_eq_false] at hactive
  rcases active_before hfound hactive with ⟨claim', hfound', hactive'⟩ | ⟨a, rfl, _⟩
  · cases hnext with
    | @installRefresh c _ _ _ _ _ reserved filled waiting =>
      cases hg
      -- an active claim would have refused the call
      have hclaim : w.claims.map.lookup c.key = some claim' := hfound'
      simp [Submission.Reserves, Claims.reserveClaim, hclaim, hactive'] at reserved
    | installRefreshClaim =>
      cases hg
      rw [hself _ rfl _ hfound'] at hactive'
      cases hactive'
    | rejectUdpEntry inactive =>
      cases hg
      simp [hfound', hactive'] at inactive
    | rejectFinish =>
      cases hg
      rw [hself _ rfl _ hfound'] at hactive'
      cases hactive'
    | _ => cases hg
  · cases hnext <;> cases hg

/-- No lease of a key without an active claim. -/
theorem not_leased (h : Leasing w fs) (hl : l ∈ leases fs)
    (hinactive : ∀ claim, w.claims.map.lookup l.key = some claim → claim.active = false) :
    False := by
  obtain ⟨claim, hfound, hactive, _⟩ := h.claimed l hl
  rw [hinactive claim hfound] at hactive
  cases hactive

/-- Two frames do not keep leases of one key alive. -/
theorem key_ne (h : Leasing w (f ::ₘ others)) {l l' : FlowLease} (hf : f.lease = some l)
    (hl' : l' ∈ leases others) : l.key ≠ l'.key := by
  intro hkey
  have hone := h.unique l'.key
  rw [leases_cons, hf, Multiset.countP_add] at hone
  have hpos : 0 < (leases others).countP fun l => l.key = l'.key :=
    Multiset.countP_pos.mpr ⟨l', hl', rfl⟩
  simp only [Option.toList_some, Multiset.coe_countP, List.countP_cons, List.countP_nil, hkey,
    decide_true, if_true] at hone
  omega

/-- A lease that somebody else keeps alive keeps its claim. -/
theorem claimed_others (h : Leasing w (f ::ₘ others)) (hclean : ActivationClean w f)
    (hl : l ∈ leases others) :
    ∃ claim, (claimsAfter cfg w f).map.lookup l.key = some claim ∧ claim.active = true ∧
      claim.epoch = l.epoch := by
  have hmem : l ∈ leases (f ::ₘ others) := by
    rw [leases_cons]
    exact Multiset.mem_add.mpr (.inr hl)
  have hself := h.settled f (Multiset.mem_cons_self f others)
  obtain ⟨claim, hfound, hactive, hepoch⟩ := h.claimed l hmem
  refine ⟨claim, active_kept hfound hactive ?_ ?_ ?_ ?_, hactive, hepoch⟩
  · rintro a rfl hkey
    exact h.not_leased hmem (hkey ▸ hclean)
  · rintro c epoch rfl hkey
    exact h.not_leased hmem (hself _ (congrArg some hkey))
  · rintro code tcp udp rfl
    exact h.not_leased hmem (hself _ rfl)
  · rintro l' rfl
    exact h.key_ne rfl hl

theorem leasesAfter_eq (hrelay : ∀ p stage, f ≠ .relay p stage)
    (hactivate : ∀ a, f ≠ .activateClaims a) : leasesAfter w f = [] := by
  cases f with
  | relay p stage => exact absurd rfl (hrelay p stage)
  | activateClaims a => exact absurd rfl (hactivate a)
  | _ => rfl

theorem mem_others (hl : l ∈ leases others) : l ∈ leases (f ::ₘ others) := by
  rw [leases_cons]
  exact Multiset.mem_add.mpr (.inr hl)

theorem unique_exec (h : Leasing w (f ::ₘ others)) (hclean : ActivationClean w f)
    (key : FlowKey) :
    (↑(leasesAfter w f) + leases others).countP (fun l => l.key = key) ≤ 1 := by
  have hone := h.unique key
  rw [leases_cons, Multiset.countP_add] at hone
  rw [Multiset.countP_add]
  by_cases hactivate : ∃ a, f = .activateClaims a
  · obtain ⟨a, rfl⟩ := hactivate
    have hnew : (leasesAfter w (.activateClaims a)).countP (fun l => l.key = key) ≤
        if a.call.key = key then 1 else 0 := by
      simp only [leasesAfter]
      split <;> simp [List.countP_cons]
    have hnone : a.call.key = key → (leases others).countP (fun l => l.key = key) = 0 := by
      rintro rfl
      rw [Multiset.countP_eq_zero]
      intro l hl hkey
      exact h.not_leased (mem_others hl) (hkey ▸ hclean)
    rw [Multiset.coe_countP]
    split at hnew
    · rename_i hkey
      rw [hnone hkey]
      omega
    · omega
  · by_cases hrelay : ∃ p stage, f = .relay p stage
    · obtain ⟨p, stage, rfl⟩ := hrelay
      exact hone
    · rw [leasesAfter_eq (fun p stage hp => hrelay ⟨p, stage, hp⟩) fun a ha => hactivate ⟨a, ha⟩]
      simp only [Multiset.coe_nil, Multiset.countP_zero]
      omega

theorem claimed_exec (h : Leasing w (f ::ₘ others)) (hclean : ActivationClean w f)
    (hl : l ∈ ↑(leasesAfter w f) + leases others) :
    ∃ claim, (claimsAfter cfg w f).map.lookup l.key = some claim ∧ claim.active = true ∧
      claim.epoch = l.epoch := by
  rcases Multiset.mem_add.mp hl with hl | hl
  · cases f with
    | relay p stage =>
      rw [Multiset.mem_coe, leasesAfter, List.mem_singleton] at hl
      subst hl
      exact h.claimed _ (mem_leases.mpr ⟨_, Multiset.mem_cons_self _ _, rfl⟩)
    | activateClaims a =>
      simp only [leasesAfter, Claims.activateClaim] at hl
      cases hfound : w.claims.map.lookup a.call.key with
      | none => simp [hfound] at hl
      | some claim =>
        simp only [hfound, Option.map_some, Multiset.mem_coe, List.mem_singleton] at hl
        subst hl
        simp [claimsAfter, Claims.activateClaim, hfound]
    | _ => cases hl
  · exact h.claimed_others hclean hl

theorem leased_exec (h : Leasing w (f ::ₘ others))
    (hfound : (claimsAfter cfg w f).map.lookup key = some claim) (hactive : claim.active = true) :
    ∃ l ∈ ↑(leasesAfter w f) + leases others, l.key = key := by
  rcases active_before hfound hactive with ⟨claim', hfound', hactive'⟩ | ⟨a, rfl, rfl⟩
  · obtain ⟨l, hl, rfl⟩ := h.leased key claim' hfound' hactive'
    rw [leases_cons, Multiset.mem_add] at hl
    rcases hl with hl | hl
    · cases f with
      | relay p stage => exact ⟨l, Multiset.mem_add.mpr (.inl hl), rfl⟩
      | leaseDrop l' =>
        -- the claim goes with its lease
        have hl' : l = l' := by simpa [Frame.lease] using hl
        subst hl'
        have hfinished := h.ownClaims.finished l
          (mem_leases.mpr ⟨_, Multiset.mem_cons_self _ _, rfl⟩)
        simp only [claimsAfter, hfinished, Assoc.lookup_erase, if_true] at hfound
        cases hfound
      | _ => cases hl
    · exact ⟨l, Multiset.mem_add.mpr (.inr hl), rfl⟩
  · simp only [claimsAfter, Claims.activateClaim] at hfound
    cases hfound' : w.claims.map.lookup a.call.key with
    | none => simp [hfound'] at hfound
    | some claim' => simp [leasesAfter, Claims.activateClaim, hfound']

theorem exec (h : Leasing w (f ::ₘ others)) (hex : (portal cfg).Exclusive (f ::ₘ others))
    (hfree : (portal cfg).Free f (f ::ₘ others)) (hclean : ActivationClean w f)
    (hexec : exec cfg choice w f = some r) : Leasing r.world (↑r.all + others) := by
  have hclaims := (exec_changes hexec).claims
  have hleases := leases_exec hexec others
  constructor
  · intro key
    rw [hleases]
    exact h.unique_exec hclean key
  · intro l hl
    rw [hclaims]
    exact h.claimed_exec hclean (hleases ▸ hl)
  · intro key claim hfound hactive
    rw [hleases]
    exact h.leased_exec (hclaims ▸ hfound) hactive
  · intro g hg key hsettles claim hfound
    rw [hclaims] at hfound
    rcases Multiset.mem_add.mp hg with hg | hg
    · rcases exec_next hexec g hg with hcleanup | hnext
      · rw [Frame.settles_of_cleanup hcleanup] at hsettles
        cases hsettles
      · exact h.settled_next hnext hsettles hfound
    · by_contra hactive
      rw [Bool.not_eq_false] at hactive
      rcases active_before hfound hactive with ⟨claim', hfound', hactive'⟩ | ⟨a, rfl, _⟩
      · rw [h.settled g (Multiset.mem_cons_of_mem hg) key hsettles claim' hfound'] at hactive'
        cases hactive'
      · exact not_settles hex hfree hg hsettles

theorem boot (h : Leasing w fs) (b : Start) :
    Leasing (start b w).world (↑(start b w).all + fs) := by
  have hclaims := (start_undisturbed b w).claims
  have hall : ∀ g ∈ (start b w).all, g.lease = none := by
    intro g hg
    cases b <;> simp [start, startSubmission, Tasks.Effect.all] at hg <;> subst hg <;> rfl
  have hleases : leases (↑(start b w).all + fs) = leases fs := by
    unfold leases
    rw [Multiset.filterMap_add, Multiset.filterMap_coe,
      List.filterMap_eq_nil_iff.mpr hall, Multiset.coe_nil, zero_add]
  refine ⟨?_, ?_, ?_, ?_⟩
  · rw [hleases]
    exact h.unique
  · rw [hleases, hclaims]
    exact h.claimed
  · rw [hleases, hclaims]
    exact h.leased
  · intro g hg key hsettles
    have hentry : g.entry = false := by
      cases g <;> first | rfl | cases hsettles
    rw [hclaims]
    exact h.settled g (mem_of_start hg hentry) key hsettles

theorem init : Leasing World.init 0 := by
  constructor <;> simp [leases, World.init]

end Leasing

theorem leasing {p : Pool} (h : (portal cfg).Reach (fun _ w f => ActivationClean w f) initial p) :
    Leasing p.world p.bag := by
  refine h.bag_invariant Leasing.init (fun _ b _ ih => ih.boot b) ?_
  intro p choice f others r hreach hbag ih hfree hclean hexec
  exact ih.exec (hbag ▸ exclusive hreach) hfree hclean hexec

/-- An activation against the condition gives the key a second lease. -/
theorem activation_breaks {others : Multiset Frame} (h : Leasing w (f ::ₘ others))
    (hexec : exec cfg choice w f = some r) (hclean : ¬ ActivationClean w f) :
    ∃ key, 1 < (leases (↑r.all + others)).countP fun l => l.key = key := by
  cases f with
  | activateClaims a =>
    simp only [ActivationClean, not_forall, Bool.not_eq_false] at hclean
    obtain ⟨claim, hfound, hactive⟩ := hclean
    obtain ⟨l, hl, hkey⟩ := h.leased _ claim hfound hactive
    rw [leases_cons, Multiset.mem_add] at hl
    rcases hl with hl | hl
    · cases hl
    · refine ⟨a.call.key, ?_⟩
      rw [leases_exec hexec, Multiset.countP_add]
      have hpos : 0 < (leases others).countP fun l => l.key = a.call.key :=
        Multiset.countP_pos.mpr ⟨l, hl, hkey⟩
      simp only [leasesAfter, Claims.activateClaim, hfound, Option.map_some, Multiset.coe_countP,
        List.countP_cons, List.countP_nil, decide_true, if_true]
      omega
  | _ => exact absurd trivial hclean

/-- **Leases and claims.** Along a schedule every key has at most one lease, with an active claim
of its epoch that finishing the lease removes, exactly if no activation of the schedule finds
the claim active already. -/
theorem leasesOwnClaims_iff (cfg : Config) (schedule : List (Tasks.Act Choice Start)) :
    (portal cfg).Always (fun p => LeasesOwnClaims p.world.claims (leases p.bag)) initial
        schedule ↔
      (portal cfg).Obeys (fun _ w f => ActivationClean w f) initial schedule := by
  refine Tasks.System.always_iff_obeys (fun p hp => (leasing hp).ownClaims) ?_ schedule
  intro p a q hp hstep hq i choice f rest ha hi
  subst ha
  by_contra hclean
  obtain ⟨f', rest', r, hi', hbag, _, hexec, _, hbag'⟩ :=
    Tasks.System.bag_run (S := portal cfg) hstep
  cases hi.symm.trans hi'
  obtain ⟨key, htwo⟩ := activation_breaks (hbag ▸ leasing hp) hexec hclean
  have hone := hq.unique key
  rw [hbag'] at hone
  omega

namespace Sample

/-- Two OPENs and two ATTACHes of one flow arrive, each ATTACH completes a pair, and only then
are the two pairs activated. -/
def twoPairs : List (Tasks.Act Choice Start) :=
  registerQuic 0 ++ lane 1 openTcp (some target) 7 ++ stream 3 attachTcp 6 ++
    lane 4 openTcp (some target) 7 ++ stream 6 attachTcp 6 ++
    [.run 3 .go, .run 3 .go, .run 6 .go, .run 6 .go]

/-- Two leases of one key are alive, under different epochs. -/
theorem twoPairs_two_leases :
    ∃ p l₁ l₂, (portal config).Reachable initial p ∧ leases p.bag = {l₁, l₂} ∧
      l₁.key = key ∧ l₂.key = key ∧ l₁.epoch ≠ l₂.epoch := by
  obtain ⟨p, hreach, hp⟩ := Tasks.System.exists_reachable_of_run (S := portal config)
    (P := fun p => decide ((p.frames.filterMap Frame.lease).map FlowLease.key = [key, key] ∧
      ((p.frames.filterMap Frame.lease).map FlowLease.epoch).Nodup))
    (show ((portal config).run initial twoPairs).any _ = true by decide +kernel)
  obtain ⟨hkeys, hepochs⟩ := of_decide_eq_true hp
  obtain ⟨l₁, ls, hleases, hkey₁, hrest⟩ := List.map_eq_cons_iff.mp hkeys
  obtain ⟨l₂, rfl, hkey₂⟩ := List.map_eq_singleton_iff.mp hrest
  rw [hleases] at hepochs
  refine ⟨p, l₁, l₂, hreach, ?_, hkey₁, hkey₂, by simpa using hepochs⟩
  rw [leases, Tasks.Pool.bag, Multiset.filterMap_coe, hleases]
  rfl

end Sample

end Nowhere.Portal
