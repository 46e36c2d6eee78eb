import Nowhere.Portal.Locks

/-!
# Link guards dropped while `links` is held

`LinkGuard::drop` locks `links`, which is not reentrant. The install block of `submit_udp` holds
`links` while it refuses a half, and it takes the refused half apart on the spot: an OPEN from a
TLS lane then drops its own guard under the lock and its task never runs again. The same happens
in both install blocks when the claim of an entry that owns a guard is gone at `refresh_claim`.

`InstallClean` is the exact condition on the state before a step under which none of this
happens.
-/

namespace Nowhere.Portal

open Protocol Assoc

/-- The next step of the task drops a link guard, and the task itself holds `links`. -/
def dropsGuardUnderLinks : List Frame → Bool
  | .linkGuardDrop _ :: rest => rest.any fun f => decide (Lock.links ∈ f.holds)
  | _ => false

/-- The claim of the call's key leaves room for it. -/
def ClaimAdmits (cfg : Config) (w : World) (c : Submission) : Prop :=
  match w.claims.map.lookup c.key with
  | some claim => claim.active = false ∧ claim.metadata = c.metadata ∧
      ∀ a b, claim.target = some a → c.target = some b → a = b
  | none => w.claims.pendingCount c.key.sessionId < cfg.maxPending

/-- The pending entry of the call's key has room for the call's uplink. -/
def EntryAdmits (w : World) (c : Submission) : Prop :=
  ∀ p, (w.pending c.via).lookup c.key = some p → p.metadata = c.metadata ∧ p.uplink = none

/-- The section refuses no half that owns a guard: a UDP call that owns one finds no live
tombstone, a claim and an entry that take it; and an entry that owns one still has its claim. -/
def InstallClean (cfg : Config) (w : World) : Frame → Prop
  | .installTombstone c _ => c.via = .udp → (c.uplink.bind Uplink.guard).isSome = true →
      ∀ t, w.rejections.lookup c.key = some t → t.expiresAt ≤ w.now
  | .installReserve c _ => c.via = .udp → (c.uplink.bind Uplink.guard).isSome = true →
      ClaimAdmits cfg w c ∧ EntryAdmits w c
  | .installRefreshClaim c _ =>
      ((((w.pending c.via).lookup c.key).bind Pending.uplink).bind Uplink.guard).isSome = true →
        (w.claims.map.lookup c.key).isSome = true
  | _ => True

/-! ## What the condition excludes -/

theorem targetConflict_eq_false {a b : Option Target} :
    Claims.targetConflict a b = false ↔ ∀ x y, a = some x → b = some y → x = y := by
  cases a <;> cases b <;> simp [Claims.targetConflict]

variable {cfg : Config} {w : World} {c : Submission} {f : Frame} {others : Multiset Frame}
  {g : LinkGuard} {locks : List Lock} {choice : Choice} {r : Effect}

/-- `reserve_claim` succeeds exactly if the claim admits the call. -/
theorem claimAdmits_iff :
    ClaimAdmits cfg w c ↔
      ∃ claims epoch created, c.Reserves cfg w claims (.ok (epoch, created)) := by
  unfold ClaimAdmits Submission.Reserves Claims.reserveClaim
  cases w.claims.map.lookup c.key with
  | none =>
    by_cases hroom : cfg.maxPending ≤ w.claims.pendingCount c.key.sessionId
    · simp [hroom]
    · simp [hroom, Nat.lt_of_not_le hroom]
  | some claim =>
    dsimp only
    rw [← targetConflict_eq_false]
    by_cases hactive : claim.active = true ∨ claim.metadata ≠ c.metadata
    · rw [if_pos hactive]
      rcases hactive with hactive | hmetadata
      · simp [hactive]
      · simp [hmetadata]
    · rw [if_neg hactive]
      simp only [not_or, Bool.not_eq_true, ne_eq, not_not] at hactive
      cases hconflict : Claims.targetConflict claim.target c.target <;>
        simp [hactive.1, hactive.2]

/-- An OPEN fits into the entry exactly if the entry admits it. -/
theorem entryAdmits_iff (hrole : c.header.role = .opening) (epoch : Nat) (active : Option Nat) :
    EntryAdmits w c ↔ ((entryOf w c epoch active).fill c).2 = none := by
  unfold EntryAdmits entryOf
  cases (w.pending c.via).lookup c.key with
  | none => simp [Pending.fill, Pending.fresh, hrole]
  | some p =>
    by_cases hmetadata : p.metadata = c.metadata
    · cases huplink : p.uplink <;> simp [Pending.fill, hrole, hmetadata, huplink]
    · simp [Pending.fill, hmetadata]

/-- A call that owns a guard on its uplink is an OPEN from a TLS lane of its own session. -/
theorem guarded_call (hprov : Provenance w (f ::ₘ others)) (hcall : Call w.log c)
    (hrole : c.header.role ≠ .duplex) (hguard : c.uplink.bind Uplink.guard = some g) :
    c.header.role = .opening ∧ g = ⟨c.sessionId, .tlsTcp, none⟩ ∧
      c.link.quicGeneration = none := by
  have hbuilt := hprov.built_call hcall
  obtain ⟨hg, hquic⟩ := hbuilt.uplinkGuard g hguard
  refine ⟨?_, hg, hquic⟩
  have hsome : c.uplink.isSome = true := by
    cases hu : c.uplink with
    | none => simp [hu] at hguard
    | some u => rfl
  have hattach := hbuilt.uplink.mp hsome
  cases h : c.header.role with
  | opening => rfl
  | attach => exact absurd h hattach
  | duplex => exact absurd h hrole

/-- The lane of a call that owns its guard is counted, so its link is current. -/
theorem linkCurrent_of_guard (hguard : c.uplink.bind Uplink.guard = some g)
    (hg : g = ⟨c.sessionId, .tlsTcp, none⟩) (hquic : c.link.quicGeneration = none)
    (hlanes : halves (ofLane c.sessionId) c.uplink c.downlink ≤ tcpLanes w.links c.sessionId) :
    linkCurrent w.links c.sessionId c.link = true := by
  have hone : 1 ≤ tcpLanes w.links c.sessionId := by
    refine Nat.le_trans ?_ hlanes
    simp only [halves, upGuard, hguard, guardWeight, Option.elim_some, ofLane, hg, and_self,
      if_true]
    omega
  unfold linkCurrent
  rw [hquic]
  unfold tcpLanes at hone
  cases hfound : w.links.lookup c.sessionId with
  | none => simp [hfound] at hone
  | some counts =>
    rw [hfound, Option.elim_some] at hone
    simp only [Option.any_some, decide_eq_true_eq]
    omega

/-- A QUIC half owns no guard, so clearing a stale half drops none. -/
theorem stale_guards {kind : FlowKind} {key : FlowKey} {p : Pending}
    (hprov : Provenance w (f ::ₘ others)) (hentry : Entry w.log kind key p) (active : Option Nat) :
    ((if p.uplinkStale active = true then p.uplink else none).bind Uplink.guard) = none ∧
      ((if p.downlinkStale active = true then p.downlink else none).bind Downlink.guard) =
        none := by
  constructor
  · split
    · rename_i hstale
      simp only [Pending.uplinkStale, decide_eq_true_eq] at hstale
      by_contra hguard
      obtain ⟨g, hg⟩ := Option.ne_none_iff_exists'.mp hguard
      have hsome : p.uplink.isSome = true := by
        cases hu : p.uplink with
        | none => simp [hu] at hg
        | some u => rfl
      obtain ⟨o, hlog, ho⟩ := hentry.opened hsome
      have hnone := ((hprov.built o hlog).1.uplinkGuard g (ho.uplink ▸ hg)).2
      have hquic : o.header.uplink = .quic := by
        have := congrArg Metadata.uplink ho.metadata
        exact this.trans hstale.1
      have := ho.carrier.mp hquic
      simp [hnone] at this
    · rfl
  · split
    · rename_i hstale
      simp only [Pending.downlinkStale, decide_eq_true_eq] at hstale
      by_contra hguard
      obtain ⟨g, hg⟩ := Option.ne_none_iff_exists'.mp hguard
      have hsome : p.downlink.isSome = true := by
        cases hd : p.downlink with
        | none => simp [hd] at hg
        | some d => rfl
      obtain ⟨o, hlog, ho⟩ := hentry.attached hsome
      have hnone := ((hprov.built o hlog).1.downlinkGuard g (ho.downlink ▸ hg)).2
      have hquic : o.header.downlink = .quic := by
        have := congrArg Metadata.downlink ho.metadata
        exact this.trans hstale.1
      have := ho.carrier.mp hquic
      simp [hnone] at this
    · rfl

@[simp]
theorem dropGuard_none : dropGuard none = [] := rfl

/-- Where the condition holds, whatever keeps `links` runs nothing before it. -/
theorem LockedDrop.above_eq_nil {above : List Frame} (h : LockedDrop cfg w f above locks)
    (hprov : Provenance w (f ::ₘ others)) (hlanes : ∀ s, f.weight (ofLane s) ≤ tcpLanes w.links s)
    (hclean : InstallClean cfg w f) (hlinks : Lock.links ∈ locks) : above = [] := by
  have hsound := hprov.sound
  -- it is enough that a call which owns a guard does not get here
  have hcall {c : Submission}
      (hno : ∀ g, c.uplink.bind Uplink.guard = some g → False) :
      dropGuard (c.uplink.bind Uplink.guard) = [] := by
    cases hguard : c.uplink.bind Uplink.guard with
    | none => rfl
    | some g => exact (hno g hguard).elim
  cases h with
  | notCurrent via current =>
    refine hcall fun g hg => ?_
    obtain ⟨_, hlane, hquic⟩ := guarded_call hprov hsound.1 hsound.2.2 hg
    rw [linkCurrent_of_guard hg hlane hquic (hlanes _)] at current
    cases current
  | stale found =>
    obtain ⟨hup, hdown⟩ := stale_guards hprov (hprov.entries _ _ _ found)
      (activeQuicGeneration w.links _)
    rw [hup, hdown, dropGuard_none, List.append_nil]
  | tombstone via found live =>
    refine hcall fun g hg => ?_
    have := hclean via (by rw [hg]; rfl) _ found
    omega
  | refused via reserved =>
    refine hcall fun g hg => ?_
    obtain ⟨_, _, _, hok⟩ := claimAdmits_iff.mp (hclean via (by rw [hg]; rfl)).1
    cases reserved.symm.trans hok
  | @misfit c active _ epoch _ _ _ via reserved filled =>
    refine hcall fun g hg => ?_
    obtain ⟨hrole, _, _⟩ := guarded_call hprov hsound.1 hsound.2.2 hg
    have hfits := (entryAdmits_iff hrole epoch active).mp (hclean via (by rw [hg]; rfl)).2
    rw [filled] at hfits
    cases hfits
  | missingPermit via filled complete permit =>
    have hentry := hprov.filled hsound.1 hsound.2.1 hsound.2.2 filled
    simp only [Pending.complete, Bool.and_eq_true] at complete
    have hsome := hentry.flowPermit.mpr ⟨via, complete.1⟩
    rw [permit] at hsome
    cases hsome
  | @refresh c epoch missing =>
    cases hguard : (((w.pending c.via).lookup c.key).bind Pending.uplink).bind Uplink.guard with
    | none => rfl
    | some g =>
      have hthere := hclean (by rw [hguard]; rfl)
      rw [missing] at hthere
      cases hthere
  | rejectTcp => simp at hlinks
  | rejectUdp => simp at hlinks
  | cancelUdp => simp at hlinks
  | @drain kind => cases kind <;> simp [pendingLock] at hlinks

/-! ## Runs that meet the condition -/

/-- Only the frame that runs next holds `links`. -/
def LinksOnTop (t : List Frame) : Prop := ∀ g ∈ t.tail, Lock.links ∉ g.holds

theorem LinksOnTop.not_dropsGuard {t : List Frame} (h : LinksOnTop t) :
    dropsGuardUnderLinks t = false := by
  unfold dropsGuardUnderLinks
  split
  · rename_i g rest
    rw [List.any_eq_false]
    intro x hx
    rw [decide_eq_true_eq]
    exact h x hx
  · rfl

theorem LinksOnTop.singleton (f : Frame) : LinksOnTop [f] := by
  simp [LinksOnTop]

theorem LinksOnTop.of_unlocked {fs rest : List Frame} (hfs : ∀ g ∈ fs, Lock.links ∉ g.holds)
    (hrest : ∀ g ∈ rest, Lock.links ∉ g.holds) : LinksOnTop (fs ++ rest) := by
  intro g hg
  rcases List.mem_append.mp (List.mem_of_mem_tail hg) with hg | hg
  · exact hfs g hg
  · exact hrest g hg

theorem LinksOnTop.exec {rest : List Frame} (hexec : exec cfg choice w f = some r)
    (hprov : Provenance w (f ::ₘ others)) (hlanes : ∀ s, f.weight (ofLane s) ≤ tcpLanes w.links s)
    (hclean : InstallClean cfg w f) (hrest : ∀ g ∈ rest, Lock.links ∉ g.holds) :
    LinksOnTop (r.frames ++ rest) := by
  have hunlocked {fs : List Frame} (h : Unlocked fs) : ∀ g ∈ fs, Lock.links ∉ g.holds := by
    intro g hg
    simp [h g hg]
  have hshape := exec_shape hexec
  generalize r.frames = fs at hshape ⊢
  cases hshape with
  | free unlocked => exact .of_unlocked (hunlocked unlocked) hrest
  | @keep above below g above_unlocked below_unlocked nodup kept cause =>
    by_cases hlinks : Lock.links ∈ g.holds
    · have habove : above = [] := by
        rcases cause with habove | hdrop
        · exact habove
        · exact hdrop.above_eq_nil hprov hlanes hclean hlinks
      subst habove
      intro x hx
      rcases List.mem_append.mp (hx : x ∈ below ++ rest) with hx | hx
      · exact hunlocked below_unlocked x hx
      · exact hrest x hx
    · refine .of_unlocked ?_ hrest
      intro x hx
      rcases List.mem_append.mp hx with hx | hx
      · exact hunlocked above_unlocked x hx
      · rcases List.mem_cons.mp hx with rfl | hx
        · exact hlinks
        · exact hunlocked below_unlocked x hx

theorem linksOnTop {cfg : Config} {p : Pool}
    (h : (portal cfg).Reach (fun _ w f => InstallClean cfg w f) initial p) :
    ∀ t ∈ p.tasks, LinksOnTop t := by
  refine h.stack_invariant ?_ ?_ ?_
  · intro t ht
    cases ht
  · intro p b _ t ht
    cases b <;> simp only [portal, start, startSubmission, List.mem_singleton] at ht <;>
      subst ht <;> simp [LinksOnTop]
  · intro p choice f rest r hreach hmem htop _ hclean hexec
    have hbag : f ∈ p.bag := Tasks.Pool.mem_bag.mpr ⟨_, hmem, List.mem_cons_self⟩
    obtain ⟨others, hothers⟩ := Multiset.exists_cons_of_mem hbag
    have hlanes (s : SessionId) : f.weight (ofLane s) ≤ tcpLanes p.world.links s := by
      have hle := le_owned (φ := ofLane s) hbag
      have := lanes_ledger s hreach
      omega
    refine ⟨.exec hexec (hothers ▸ provenance hreach) hlanes hclean htop, ?_⟩
    intro t ht
    rcases exec_spawned hexec ht with ⟨_, _, _, _, rfl⟩ | ⟨_, rfl⟩ | ⟨_, _, rfl⟩ <;>
      exact .singleton _

/-! ## Steps against the condition -/

theorem dropsGuard_of_guard {guard : Option LinkGuard} (hguard : guard.isSome = true)
    (hlinks : Lock.links ∈ locks) (tail : List Frame) :
    dropsGuardUnderLinks (dropGuard guard ++ .hold locks :: tail) = true := by
  obtain ⟨g, rfl⟩ := Option.isSome_iff_exists.mp hguard
  simp [dropGuard, dropsGuardUnderLinks, Frame.holds, hlinks]

/-- A refused UDP call that owns a guard blocks itself. -/
theorem dropsGuard_of_lockedDrops (hvia : c.via = .udp)
    (hguard : (c.uplink.bind Uplink.guard).isSome = true) (tail : List Frame) :
    dropsGuardUnderLinks (c.lockedDrops ++ tail) = true := by
  unfold Submission.lockedDrops
  rw [hvia]
  dsimp only
  rw [List.append_assoc, List.singleton_append]
  exact dropsGuard_of_guard hguard (by simp) tail

theorem dropsGuard_of_rejected (hvia : c.via = .udp)
    (hguard : (c.uplink.bind Uplink.guard).isSome = true) (e : PairingError) (abortPending : Bool)
    (tail : List Frame) :
    dropsGuardUnderLinks (c.rejected e abortPending ++ tail) = true := by
  unfold Submission.rejected
  rw [List.append_assoc, List.append_assoc, List.append_assoc]
  exact dropsGuard_of_lockedDrops hvia hguard _

theorem dropsGuard_of_rejectedUplink (hvia : c.via = .udp)
    (hguard : (c.uplink.bind Uplink.guard).isSome = true) (e : PairingError) (tail : List Frame) :
    dropsGuardUnderLinks (c.rejectedUplink e ++ tail) = true := by
  unfold Submission.rejectedUplink
  rw [List.append_assoc, List.append_assoc]
  exact dropsGuard_of_lockedDrops hvia hguard _

theorem installTombstone_breaks {w : World} {c : Submission} (active : Option Nat)
    {t : TerminalRejection} (hvia : c.via = .udp)
    (hguard : (c.uplink.bind Uplink.guard).isSome = true)
    (hfound : w.rejections.lookup c.key = some t) (hlive : w.now < t.expiresAt)
    (tail : List Frame) :
    dropsGuardUnderLinks ((installTombstoneStep w c active).frames ++ tail) = true := by
  have hcode : (terminalRejection w.now w.rejections c.key
      (decide (c.header.role = .attach))).2 = some t.code := by
    simp [terminalRejection, lookup_retain, hfound, hlive]
  unfold installTombstoneStep
  dsimp only
  rw [hcode]
  exact dropsGuard_of_rejected hvia hguard _ _ tail

theorem installReserve_breaks (active : Option Nat) (hvia : c.via = .udp)
    (hguard : (c.uplink.bind Uplink.guard).isSome = true) (hrole : c.header.role = .opening)
    (hrefused : ¬ (ClaimAdmits cfg w c ∧ EntryAdmits w c)) (tail : List Frame) :
    dropsGuardUnderLinks ((installReserveStep cfg w c active).frames ++ tail) = true := by
  rw [claimAdmits_iff] at hrefused
  -- a half that was filled in has passed both tests
  have hfits {claims : Claims} {epoch : Nat} {created : Bool} {p : Pending}
      (hres : c.Reserves cfg w claims (.ok (epoch, created)))
      (hfill : c.FillsEntry w epoch active p none) : False := by
    rw [entryAdmits_iff hrole epoch active, hfill] at hrefused
    exact hrefused ⟨⟨_, _, _, hres⟩, rfl⟩
  have houtcome := installReserveStep_installs cfg w c active
  generalize installReserveStep cfg w c active = r at houtcome ⊢
  cases houtcome with
  | refused _ => exact dropsGuard_of_rejected hvia hguard _ _ tail
  | missing hres hfill _ _ _ | activates hres hfill _ | waits hres hfill _ =>
    exact (hfits hres hfill).elim
  | @misfit _ _ _ _ m _ hfill =>
    cases m with
    | metadata => exact dropsGuard_of_rejected hvia hguard _ _ tail
    | downlink => exact dropsGuard_of_rejected hvia hguard _ _ tail
    | uplink => exact dropsGuard_of_rejectedUplink hvia hguard _ tail
    | duplex =>
      have hduplex := (fill_misfit hfill).2.2.1 rfl
      simp [hrole] at hduplex

theorem installRefreshClaim_breaks {cfg : Config} {w : World} {c : Submission} (epoch : Nat)
    (hguard : ((((w.pending c.via).lookup c.key).bind Pending.uplink).bind
      Uplink.guard).isSome = true)
    (hmissing : w.claims.map.lookup c.key = none) (tail : List Frame) :
    dropsGuardUnderLinks ((installRefreshClaimStep cfg w c epoch).frames ++ tail) = true := by
  unfold installRefreshClaimStep Claims.refreshClaim
  rw [hmissing, Option.map_none]
  dsimp only
  rw [List.append_assoc, List.append_assoc]
  exact dropsGuard_of_guard hguard (by simp) _

/-- A step against the condition leaves a task that blocks on itself. -/
theorem exec_breaks (hexec : exec cfg choice w f = some r) (hprov : Provenance w (f ::ₘ others))
    (hclean : ¬ InstallClean cfg w f) (rest : List Frame) :
    dropsGuardUnderLinks (r.frames ++ rest) = true := by
  have hsound := hprov.sound
  cases f with
  | installTombstone c active =>
    cases hexec
    simp only [InstallClean, not_forall, not_le] at hclean
    obtain ⟨hvia, hguard, t, hfound, hlive⟩ := hclean
    exact installTombstone_breaks active hvia hguard hfound hlive rest
  | installReserve c active =>
    cases hexec
    simp only [InstallClean, not_forall] at hclean
    obtain ⟨hvia, hguard, hrefused⟩ := hclean
    obtain ⟨g, hg⟩ := Option.isSome_iff_exists.mp hguard
    obtain ⟨hrole, _, _⟩ := guarded_call hprov hsound.1 hsound.2.2 hg
    exact installReserve_breaks active hvia hguard hrole hrefused rest
  | installRefreshClaim c epoch =>
    cases hexec
    simp only [InstallClean, not_forall] at hclean
    obtain ⟨hguard, hmissing⟩ := hclean
    exact installRefreshClaim_breaks epoch hguard (by simpa using hmissing) rest
  | _ => exact absurd trivial hclean

/-- **When a submission blocks on itself.** A schedule never brings a task to the point where it
drops a link guard while it holds `links`, exactly if every install section it runs is clean. -/
theorem never_dropsGuardUnderLinks_iff (cfg : Config)
    (schedule : List (Tasks.Act Choice Start)) :
    (portal cfg).Always (fun p => ∀ t ∈ p.tasks, dropsGuardUnderLinks t = false) initial
        schedule ↔
      (portal cfg).Obeys (fun _ w f => InstallClean cfg w f) initial schedule := by
  refine Tasks.System.always_iff_obeys ?_ ?_ schedule
  · intro p hp t ht
    exact (linksOnTop hp t ht).not_dropsGuard
  · intro p a q hp hstep hq i choice f rest ha hi
    subst ha
    by_contra hclean
    obtain ⟨f', rest', r, hi', _, hexec, rfl⟩ := Tasks.System.step_run (S := portal cfg) hstep
    cases hi.symm.trans hi'
    obtain ⟨others, hothers⟩ := Multiset.exists_cons_of_mem
      (Tasks.Pool.mem_bag.mpr ⟨_, List.mem_of_getElem? hi, List.mem_cons_self⟩ : f ∈ p.bag)
    have hbreaks := exec_breaks hexec (hothers ▸ provenance hp) hclean rest
    have hlt : i < p.tasks.length := (List.getElem?_eq_some_iff.mp hi).1
    have hmem : r.frames ++ rest ∈ p.tasks.set i (r.frames ++ rest) ++ r.spawned :=
      List.mem_append_left _ (List.mem_set hlt _)
    rw [hq _ hmem] at hbreaks
    cases hbreaks

namespace Sample

def openUdp : FlowHeader := ⟨.opening, 1, .udp, .tlsTcp, .quic⟩

/-- Two lanes of one session open the same UDP flow, one after the other. -/
def duplicateOpen : List (Tasks.Act Choice Start) :=
  lane 0 openUdp (some target) 10 ++ lane 2 openUdp (some target) 9

/-- The second OPEN drops its lane's guard while it holds `links`, and no step of its task is
possible any more. -/
theorem duplicateOpen_blocks_itself :
    ∃ p, (portal config).Reachable initial p ∧
      (∃ t, p.tasks[2]? = some t ∧ dropsGuardUnderLinks t = true) ∧
      ∀ choice, ((portal config).step p (.run 2 choice)).isNone = true := by
  obtain ⟨p, hreach, hp⟩ := Tasks.System.exists_reachable_of_run (S := portal config)
    (P := fun p => p.tasks[2]?.any fun t =>
      dropsGuardUnderLinks t && t.head?.any ((portal config).blocked p))
    (p := initial) (show ((portal config).run initial duplicateOpen).any _ = true by decide +kernel)
  obtain ⟨t, ht, hchecks⟩ := (Option.any_eq_true _ _).mp hp
  rw [Bool.and_eq_true] at hchecks
  obtain ⟨f, hf, hblocked⟩ := (Option.any_eq_true _ _).mp hchecks.2
  obtain ⟨rest, rfl⟩ := List.head?_eq_some_iff.mp hf
  refine ⟨p, hreach, ⟨_, ht, hchecks.1⟩, ?_⟩
  intro choice
  simp only [Tasks.System.step, ht, hblocked, if_true, Option.isNone_none]

end Sample

end Nowhere.Portal
