import Nowhere.Portal.Locks

/-!
# Lock order

`activate_claim` documents the order `links` before `claims`; the other sections follow
`tcp`, `udp`, `links`, `claims`, `rejections`. One operation does not: `reject_flow_setup` holds
`claims` when it removes a pending entry, and an uplink from a TLS lane in that entry owns a
guard, whose destructor locks `links`. While no such entry is removed (`RejectClean`), no two
tasks ever wait for each other, whatever they run.
-/

namespace Nowhere.Portal

open Protocol Assoc

/-- The order in which the locks are taken. -/
def Lock.rank : Lock → Nat
  | .tcp => 0
  | .udp => 1
  | .links => 2
  | .claims => 3
  | .rejections => 4

theorem Lock.rank_injective : Function.Injective Lock.rank := by
  intro k l h
  cases k <;> cases l <;> first | rfl | cases h

/-- The pending entry that `reject_flow_setup` removes owns no guard in its uplink. -/
def RejectClean (w : World) : Frame → Prop
  | .rejectClaims key _ => (w.claims.map.lookup key).any FlowClaim.active = false →
      (((w.pending .tcp).lookup key).bind Pending.uplink).bind Uplink.guard = none
  | .rejectUdpEntry key _ _ =>
      (((w.pending .udp).lookup key).bind Pending.uplink).bind Uplink.guard = none
  | _ => True

/-! ## Stacks in order -/

/-- What runs inside a critical section that some frame below keeps open. -/
def Frame.nested : Frame → Bool
  | .linkGuardDrop _ | .cancelGeneration _ _ _ .guardDrop | .abandonClaim .. => true
  | _ => false

/-- `f` may run above `g`: either `g` keeps nothing, or `f` belongs to a destructor and `g` keeps
neither of the two locks that a destructor must not come after. -/
def RunsOver (f g : Frame) : Prop :=
  g.holds = [] ∨ f.nested = true ∧ Lock.claims ∉ g.holds ∧ Lock.rejections ∉ g.holds

variable {f : Frame} {fs : List Frame} {cfg : Config} {w : World} {choice : Choice} {r : Effect}
  {p : Pool}

/-- A frame takes its lock after those it holds. -/
theorem Frame.holds_rank_le {k l : Lock} (hl : f.wants = some l) (hk : k ∈ f.holds) :
    k.rank ≤ l.rank := by
  have hinstall {kind : FlowKind} (hk : k ∈ [pendingLock kind, Lock.links]) :
      k.rank ≤ Lock.links.rank := by
    rcases List.mem_cons.mp hk with rfl | hk
    · cases kind <;> decide
    · rw [List.mem_singleton.mp hk]
  cases f with
  | installLinks c =>
    cases hl
    exact hinstall (List.mem_append_left [Lock.links] hk)
  | installSweep c active left =>
    cases hl
    exact Nat.le_trans (hinstall hk) (by decide)
  | installTombstone c active =>
    cases hl
    exact Nat.le_trans (hinstall hk) (by decide)
  | installReserve c active =>
    cases hl
    exact Nat.le_trans (hinstall hk) (by decide)
  | installRefreshClaim c epoch =>
    cases hl
    exact Nat.le_trans (hinstall hk) (by decide)
  | activateClaims a =>
    cases hl
    rw [List.mem_singleton.mp hk]
    decide
  | rejectUdp key code =>
    cases hl
    rw [List.mem_singleton.mp hk]
    decide
  | rejectClaims key code =>
    cases hl
    simp only [holds, List.mem_cons, List.not_mem_nil, or_false] at hk
    rcases hk with rfl | rfl <;> decide
  | rejectTombstone key code expiresAt =>
    cases hl
    simp only [holds, List.mem_cons, List.not_mem_nil, or_false] at hk
    rcases hk with rfl | rfl | rfl <;> decide
  | cancelGeneration s generation held next =>
    cases hl
    cases held
    · cases hk
    · rw [List.mem_singleton.mp hk]
      decide
  | rejectUdpEntry key code tcp => cases hl
  | rejectFinish key code tcp udp => cases hl
  | installRefresh c => cases hl
  | hold locks => cases hl
  | _ => cases hk

theorem Frame.nested_rank_le {l : Lock} (hf : f.nested = true) (hl : f.wants = some l) :
    Lock.links.rank ≤ l.rank := by
  cases f with
  | linkGuardDrop g =>
    cases hl
    decide
  | cancelGeneration s generation held next =>
    cases hl
    decide
  | abandonClaim key epoch =>
    cases hl
    decide
  | _ => cases hf

namespace LockedDrop

variable {cfg : Config} {w : World} {f x : Frame} {above : List Frame} {locks : List Lock}

theorem nested_dropGuard {g : Option LinkGuard} (hx : x ∈ dropGuard g) :
    x.nested = true := by
  simp only [dropGuard, List.mem_map] at hx
  obtain ⟨g, _, rfl⟩ := hx
  rfl

theorem nested (h : LockedDrop cfg w f above locks) (hx : x ∈ above) :
    x.nested = true := by
  cases h with
  | stale found =>
    rcases List.mem_append.mp hx with hx | hx
    · exact nested_dropGuard hx
    · exact nested_dropGuard hx
  | missingPermit via filled complete permit =>
    rcases List.mem_cons.mp hx with rfl | hx
    · rfl
    · exact nested_dropGuard hx
  | cancelUdp =>
    rcases List.mem_append.mp hx with hx | hx
    · exact nested_dropGuard hx
    · exact nested_dropGuard hx
  | drain =>
    obtain ⟨p, _, hx⟩ := List.mem_flatMap.mp hx
    rcases List.mem_append.mp hx with hx | hx
    · exact nested_dropGuard hx
    · exact nested_dropGuard hx
  | notCurrent via current => exact nested_dropGuard hx
  | tombstone via found live => exact nested_dropGuard hx
  | refused via reserved => exact nested_dropGuard hx
  | misfit via reserved filled => exact nested_dropGuard hx
  | refresh missing => exact nested_dropGuard hx
  | rejectTcp inactive => exact nested_dropGuard hx
  | rejectUdp => exact nested_dropGuard hx

/-- Only `reject_flow_setup` runs a destructor while it holds `claims`. -/
theorem early (h : LockedDrop cfg w f above locks) (hclean : RejectClean w f) :
    above = [] ∨ Lock.claims ∉ locks ∧ Lock.rejections ∉ locks := by
  have hinstall (kind : FlowKind) : Lock.claims ∉ [pendingLock kind, Lock.links] ∧
      Lock.rejections ∉ [pendingLock kind, Lock.links] := by
    cases kind <;> decide
  cases h with
  | rejectTcp inactive =>
    left
    rw [hclean inactive]
    rfl
  | rejectUdp =>
    left
    rw [show _ = none from hclean]
    rfl
  | cancelUdp => exact .inr (by decide)
  | @drain kind => exact .inr (by cases kind <;> decide)
  | notCurrent via current => exact .inr (hinstall _)
  | stale found => exact .inr (hinstall _)
  | tombstone via found live => exact .inr (hinstall _)
  | refused via reserved => exact .inr (hinstall _)
  | misfit via reserved filled => exact .inr (hinstall _)
  | missingPermit via filled complete permit => exact .inr (hinstall _)
  | refresh missing => exact .inr (hinstall _)

end LockedDrop

theorem pairwise_runsOver_of_unlocked (h : Unlocked fs) :
    fs.Pairwise RunsOver := by
  refine List.Pairwise.imp_of_mem ?_ (List.pairwise_of_forall (R := fun _ _ => True) (by simp))
  intro x y _ hy _
  exact .inl (h y hy)

/-- The frames that a step leaves behind are in order among themselves. -/
theorem Shape.pairwise (h : Shape cfg w f fs) (hclean : RejectClean w f) :
    fs.Pairwise RunsOver := by
  cases h with
  | free unlocked => exact pairwise_runsOver_of_unlocked unlocked
  | @keep above below g above_unlocked below_unlocked nodup kept cause =>
    refine List.pairwise_append.mpr
      ⟨pairwise_runsOver_of_unlocked above_unlocked, List.pairwise_cons.mpr ⟨?_, ?_⟩, ?_⟩
    · intro y hy
      exact .inl (below_unlocked y hy)
    · exact pairwise_runsOver_of_unlocked below_unlocked
    · intro x hx y hy
      rcases List.mem_cons.mp hy with rfl | hy
      · rcases cause with rfl | hdrop
        · cases hx
        · rcases hdrop.early hclean with rfl | hearly
          · cases hx
          · exact .inr ⟨hdrop.nested hx, hearly⟩
      · exact .inl (below_unlocked y hy)

/-- A destructor goes on with a destructor. -/
theorem nested_exec {f g : Frame} (hexec : exec cfg choice w f = some r) (hf : f.nested = true)
    (hg : g ∈ r.frames) :
    g.nested = true := by
  cases f with
  | linkGuardDrop guard =>
    cases hexec
    simp only [linkGuardDropStep] at hg
    split at hg
    · cases hg
    · rw [List.mem_singleton.mp hg]
      rfl
    · rw [List.mem_singleton.mp hg]
      rfl
  | cancelGeneration s generation held next =>
    cases next with
    | register fresh => cases hf
    | guardDrop =>
      simp only [exec] at hexec
      split at hexec <;> cases hexec
      cases hg
  | abandonClaim key epoch =>
    cases hexec
    cases hg
  | _ => cases hf

/-- One step keeps a stack in order. -/
theorem pairwise_exec {rest : List Frame} (hexec : exec cfg choice w f = some r)
    (hclean : RejectClean w f) (h : (f :: rest).Pairwise RunsOver) :
    (r.frames ++ rest).Pairwise RunsOver := by
  rw [List.pairwise_cons] at h
  refine List.pairwise_append.mpr ⟨(exec_shape hexec).pairwise hclean, h.2, ?_⟩
  intro x hx y hy
  rcases h.1 y hy with hfree | ⟨hnested, hearly⟩
  · exact .inl hfree
  · exact .inr ⟨nested_exec hexec hnested hx, hearly⟩

theorem ordered_of_pairwise {t : List Frame} (h : t.Pairwise RunsOver) :
    (portal cfg).Ordered Lock.rank t := by
  intro f rest l ht hl g hg k hk
  subst ht
  rcases List.mem_cons.mp hg with rfl | hg
  · exact Frame.holds_rank_le hl hk
  · rcases (List.pairwise_cons.mp h).1 g hg with hfree | ⟨hnested, hclaims, hrejections⟩
    · rw [show (portal cfg).holds g = [] from hfree] at hk
      cases hk
    · -- a destructor wants `links` or `claims`, and `g` keeps no lock that comes after `links`
      have hk' : k.rank ≤ Lock.links.rank := by
        cases k with
        | claims => exact absurd hk hclaims
        | rejections => exact absurd hk hrejections
        | tcp => decide
        | udp => decide
        | links => decide
      exact Nat.le_trans hk' (Frame.nested_rank_le hnested hl)

theorem ordered (h : (portal cfg).Reach (fun _ w f => RejectClean w f) initial p) :
    ∀ t ∈ p.tasks, (portal cfg).Ordered Lock.rank t := by
  intro t ht
  refine ordered_of_pairwise (h.stack_invariant (T := List.Pairwise RunsOver) ?_ ?_ ?_ t ht)
  · intro t ht
    cases ht
  · intro p b _ t ht
    cases b <;> simp only [portal, start, startSubmission, List.mem_singleton] at ht <;>
      subst ht <;> simp
  · intro p choice f rest r _ _ hpair _ hclean hexec
    refine ⟨pairwise_exec hexec hclean hpair, ?_⟩
    intro t ht
    rcases exec_spawned hexec ht with ⟨_, _, _, _, rfl⟩ | ⟨_, rfl⟩ | ⟨_, _, rfl⟩ <;>
      exact List.pairwise_singleton _ _

/-- No chain of waiting tasks closes, however long. -/
theorem no_wait_cycle (h : (portal cfg).Reach (fun _ w f => RejectClean w f) initial p) {i j : Nat}
    (hij : i ≠ j) :
    ¬ (Relation.TransGen ((portal cfg).Waits p) i j ∧
      Relation.TransGen ((portal cfg).Waits p) j i) :=
  Tasks.System.not_wait_cycle Lock.rank_injective (exclusive h) (ordered h) hij

/-- **No two operations block each other**, as long as `reject_flow_setup` removes no entry whose
uplink owns a guard. -/
theorem not_mutually_waiting {cfg : Config} {p : Pool}
    (h : (portal cfg).Reach (fun _ w f => RejectClean w f) initial p) {i j : Nat} (hij : i ≠ j) :
    ¬ ((portal cfg).Waits p i j ∧ (portal cfg).Waits p j i) := by
  rintro ⟨hforth, hback⟩
  exact no_wait_cycle h hij ⟨.single hforth, .single hback⟩

namespace Sample

def duplexTcp : FlowHeader := ⟨.duplex, 2, .tcp, .tlsTcp, .tlsTcp⟩

/-- A pending OPEN is refused while a DUPLEX of another flow activates its claim. -/
def refuseDuringActivation : List (Tasks.Act Choice Start) :=
  lane 0 openTcp (some target) 7 ++ lane 2 duplexTcp (some target) 3 ++
    [.boot (.refuse key .invalidRequest), .run 3 .go, .run 3 .go, .run 3 .go, .run 2 .go]

/-- The activation holds `links` and waits for `claims`; `reject_flow_setup` holds `claims` and
drops the guard of the OPEN's lane, which waits for `links`. -/
theorem refuseDuringActivation_deadlock :
    ∃ p, (portal config).Reachable initial p ∧ (portal config).Waits p 2 3 ∧
      (portal config).Waits p 3 2 := by
  obtain ⟨p, hreach, hp⟩ := Tasks.System.exists_reachable_of_run (S := portal config)
    (P := fun p => (portal config).waits p 2 3 && (portal config).waits p 3 2)
    (show ((portal config).run initial refuseDuringActivation).any _ = true by decide +kernel)
  rw [Bool.and_eq_true] at hp
  exact ⟨p, hreach, .of_waits hp.1, .of_waits hp.2⟩

/-- Two lanes open one flow; the second waits for the pending map that the first has locked. -/
def concurrentOpens : List (Tasks.Act Choice Start) :=
  lane 0 openTcp (some target) 2 ++ lane 1 openTcp (some target) 1

theorem concurrentOpens_one_way :
    ∃ p, (portal config).Reach (fun _ w f => RejectClean w f) initial p ∧
      (portal config).Waits p 1 0 ∧ ¬ (portal config).Waits p 0 1 := by
  have hobeys : (portal config).Obeys (fun _ w f => RejectClean w f) initial concurrentOpens := by
    refine .of_obeys (fun _ _ f => match f with
      | .rejectClaims .. | .rejectUdpEntry .. => false
      | _ => true) ?_ (by decide +kernel)
    intro _ w f hf
    cases f <;> trivial
  obtain ⟨p, hreach, hp⟩ := Tasks.System.exists_reach_of_run
    (P := fun p => (portal config).waits p 1 0) hobeys (by decide +kernel)
  have hwaits := Tasks.System.Waits.of_waits hp
  exact ⟨p, hreach, hwaits, fun hback => not_mutually_waiting hreach (by decide) ⟨hwaits, hback⟩⟩

end Sample

end Nowhere.Portal
