import Nowhere.Portal.Locks

/-!
# QUIC generations

A QUIC connection takes its generation from a counter, becomes the session's current one in a
later section, and is displaced by another connection or leaves when its guard is dropped. Both
ends run `cancel_active_quic_generation`. A generation that has been installed once and is not
current any more never becomes current again (`Retired`), and an activation holds `links` from
its generation check on, so no flow of a retired generation gets past the cancellation.
-/

namespace Nowhere.Portal

open Protocol Assoc

/-! ## The current generation -/

theorem activeQuicGeneration_insert (links : Map SessionId LinkCounts) (s s' : SessionId)
    (counts : LinkCounts) :
    activeQuicGeneration (links.insert s' counts) s =
      if s = s' then counts.udp else activeQuicGeneration links s := by
  unfold activeQuicGeneration
  rw [Assoc.lookup_insert]
  split <;> rfl

theorem countsOrNew_udp (cfg : Config) (links : Map SessionId LinkCounts) (permits : Permits)
    (s : SessionId) : (countsOrNew cfg links permits s).1.udp = activeQuicGeneration links s := by
  unfold countsOrNew activeQuicGeneration
  cases links.lookup s <;> rfl

theorem activeQuicGeneration_registerTcp (cfg : Config) (w : World) (s s' : SessionId) :
    activeQuicGeneration (registerTcpLink cfg w s').links s = activeQuicGeneration w.links s := by
  have hudp := countsOrNew_udp cfg w.links w.permits s'
  change activeQuicGeneration (w.links.insert s' _) s = _
  rw [activeQuicGeneration_insert]
  split
  · rename_i hs
    subst hs
    exact hudp
  · rfl

theorem activeQuicGeneration_registerQuic (cfg : Config) (w : World) (s s' : SessionId)
    (generation : Nat) :
    activeQuicGeneration (registerQuicLink cfg w s' generation).1.links s =
      if s = s' then some generation else activeQuicGeneration w.links s :=
  activeQuicGeneration_insert w.links s s' _

variable {w : World} {s : SessionId} {n : Nat} {cfg : Config} {f : Frame}

/-- Dropping a guard makes no generation current, and its own is not current afterwards. -/
theorem activeQuicGeneration_drop {g : LinkGuard}
    (h : activeQuicGeneration (dropLink w g).1.links s = some n) :
    activeQuicGeneration w.links s = some n ∧
      ¬ (g.sessionId = s ∧ g.carrier = .quic ∧ g.quicGeneration = some n) := by
  unfold dropLink at h
  dsimp only at h
  cases hfound : w.links.lookup g.sessionId with
  | none =>
    rw [hfound] at h
    refine ⟨h, ?_⟩
    rintro ⟨rfl, _, _⟩
    simp [activeQuicGeneration, hfound] at h
  | some counts =>
    simp only [hfound] at h
    cases hwithout : counts.without g with
    | none =>
      simp only [hwithout] at h
      refine ⟨h, ?_⟩
      rintro ⟨rfl, hquic, hgeneration⟩
      have hcurrent : counts.udp = some n := by simpa [activeQuicGeneration, hfound] using h
      simp [LinkCounts.without, hquic, hgeneration, hcurrent] at hwithout
    | some counts' =>
      simp only [hwithout] at h
      -- the session's entry was replaced or removed; what it says now it said before
      by_cases hs : s = g.sessionId
      · subst hs
        have hudp : counts'.udp = some n := by
          split at h
          · simp [activeQuicGeneration] at h
          · simpa [activeQuicGeneration_insert] using h
        have hbefore : counts.udp = some n ∧ g.carrier = .tlsTcp := by
          unfold LinkCounts.without at hwithout
          split at hwithout
          · cases hwithout
            exact ⟨hudp, ‹_›⟩
          · split at hwithout
            · cases hwithout
              cases hudp
            · cases hwithout
        refine ⟨by simpa [activeQuicGeneration, hfound] using hbefore.1, ?_⟩
        rintro ⟨_, hquic, _⟩
        rw [hbefore.2] at hquic
        cases hquic
      · have hother : activeQuicGeneration w.links s = some n := by
          split at h
          · simpa [activeQuicGeneration, Assoc.lookup_erase, hs] using h
          · simpa [activeQuicGeneration_insert, hs] using h
        exact ⟨hother, fun hown => hs hown.1.symm⟩

/-- A generation that a step leaves current was current, or the step installed it; and it is not
the generation of a guard the step dropped. -/
theorem active_from (h : activeQuicGeneration (linksAfter cfg w f) s = some n) :
    f = .registerQuicLinks s n ∨ activeQuicGeneration w.links s = some n ∧
      ∀ g, f = .linkGuardDrop g →
        ¬ (g.sessionId = s ∧ g.carrier = .quic ∧ g.quicGeneration = some n) := by
  cases f with
  | registerTcp s' =>
    rw [linksAfter, activeQuicGeneration_registerTcp] at h
    exact .inr ⟨h, by simp⟩
  | registerQuicLinks s' generation =>
    rw [linksAfter, activeQuicGeneration_registerQuic] at h
    split at h
    · rename_i hs
      cases h
      exact .inl (by rw [hs])
    · exact .inr ⟨h, by simp⟩
  | linkGuardDrop g =>
    obtain ⟨hbefore, hown⟩ := activeQuicGeneration_drop h
    refine .inr ⟨hbefore, ?_⟩
    intro g' hg
    cases hg
    exact hown
  | _ => exact .inr ⟨h, by simp⟩

/-- Only sections that lock `links` change the current generation. -/
theorem linksAfter_of_wants (h : f.wants ≠ some .links) :
    linksAfter cfg w f = w.links := by
  cases f with
  | registerTcp s => exact absurd rfl h
  | registerQuicLinks s generation => exact absurd rfl h
  | linkGuardDrop g => exact absurd rfl h
  | _ => rfl

/-! ## Guards of QUIC connections -/

/-- Guards that name a generation without being a QUIC connection's. -/
def malformed : Asset → Nat
  | .guard g => if g.quicGeneration.isSome = true ∧ g.carrier ≠ .quic then 1 else 0
  | _ => 0

section Reach

variable {cfg : Config} {cond : Choice → World → Frame → Prop} {p : Pool}

theorem malformed_ledger (h : (portal cfg).Reach cond initial p) :
    owned malformed p.bag + heldPending malformed p.world.pending = 0 := by
  have honly : GuardsOnly malformed := ⟨fun _ => rfl, fun _ => rfl⟩
  refine h.bag_invariant (I := fun w fs => owned malformed fs + heldPending malformed w.pending = 0)
    rfl ?_ ?_
  · rintro p b _ hsum
    have hpending := (start_ledger malformed b p.world).2.2
    change owned malformed (↑(start b p.world).all + p.bag) +
      heldPending malformed (start b p.world).world.pending = 0
    rw [owned_add, honly.start b p.world, hpending, Nat.zero_add]
    exact hsum
  · rintro p choice f others r hreach hbag hsum _ _ hexec
    have hbalance := honly.exec hreach hbag hexec
    have hgain : f.gain malformed p.world = 0 := by
      cases f <;> simp [Frame.gain, malformed]
    rw [owned_cons] at hsum
    rw [owned_add]
    omega

/-- A guard that names a generation belongs to a QUIC connection. -/
theorem guard_quic (h : (portal cfg).Reach cond initial p) {g : LinkGuard}
    (hg : .linkGuardDrop g ∈ p.bag) (hgeneration : g.quicGeneration.isSome = true) :
    g.carrier = .quic := by
  have hle := le_owned (φ := malformed) hg
  have hzero := malformed_ledger h
  by_contra hcarrier
  simp only [Frame.weight, malformed, hgeneration, ne_eq, hcarrier, not_false_eq_true, and_self,
    if_true] at hle
  omega

end Reach

/-! ## Generations come and go once -/

/-- The generation has its number and its connection has been installed. -/
structure Installed (w : World) (fs : Multiset Frame) (n : Nat) : Prop where
  numbered : n < w.nextQuicGeneration
  installed : ∀ s, .registerQuicLinks s n ∉ fs

/-- The generation was installed and is not the session's current one. -/
structure Retired (w : World) (fs : Multiset Frame) (s : SessionId) (n : Nat) : Prop
    extends Installed w fs n where
  displaced : activeQuicGeneration w.links s ≠ some n

section Exec

variable {cfg : Config} {choice : Choice} {w : World} {f : Frame} {others : Multiset Frame}
  {r : Effect} {s : SessionId} {n : Nat}

theorem nextQuicGeneration_le (hexec : exec cfg choice w f = some r) :
    w.nextQuicGeneration ≤ r.world.nextQuicGeneration := by
  rw [(exec_changes hexec).generation]
  cases f <;> simp [generationAfter]

/-- A connection is installed under the number it has just taken. -/
theorem registerQuicLinks_new (hexec : exec cfg choice w f = some r)
    (hmem : .registerQuicLinks s n ∈ r.all) : n = w.nextQuicGeneration := by
  rcases exec_next hexec _ hmem with hclean | hnext
  · cases hclean
  · cases hnext with
    | registerQuicLinks => rfl

theorem Installed.of_exec (hexec : exec cfg choice w f = some r) (hn : n < w.nextQuicGeneration)
    (hothers : ∀ s, .registerQuicLinks s n ∉ others) : Installed r.world (↑r.all + others) n where
  numbered := Nat.lt_of_lt_of_le hn (nextQuicGeneration_le hexec)
  installed := by
    intro s hmem
    rcases Multiset.mem_add.mp hmem with hmem | hmem
    · have := registerQuicLinks_new hexec hmem
      omega
    · exact hothers s hmem

theorem Installed.step (h : Installed w (f ::ₘ others) n) (hexec : exec cfg choice w f = some r) :
    Installed r.world (↑r.all + others) n :=
  .of_exec hexec h.numbered fun s hmem => h.installed s (Multiset.mem_cons_of_mem hmem)

/-- A retired generation stays retired. -/
theorem Retired.step (h : Retired w (f ::ₘ others) s n) (hexec : exec cfg choice w f = some r) :
    Retired r.world (↑r.all + others) s n where
  toInstalled := h.toInstalled.step hexec
  displaced := by
    intro hcurrent
    rw [(exec_changes hexec).links] at hcurrent
    rcases active_from hcurrent with rfl | ⟨hbefore, _⟩
    · exact h.installed s (Multiset.mem_cons_self _ _)
    · exact h.displaced hbefore

variable {fs : Multiset Frame}

theorem Installed.boot (h : Installed w fs n) (b : Start) :
    Installed (start b w).world (↑(start b w).all + fs) n where
  numbered := (start_undisturbed b w).generation ▸ h.numbered
  installed := fun s hmem => h.installed s (mem_of_start hmem rfl)

theorem Retired.boot (h : Retired w fs s n) (b : Start) :
    Retired (start b w).world (↑(start b w).all + fs) s n where
  toInstalled := h.toInstalled.boot b
  displaced := (start_undisturbed b w).links ▸ h.displaced

/-- The guard of a generation is unique, so nobody else is about to install it. -/
theorem numbered_of_weight (hledger : owned (ofGeneration n) (f ::ₘ others) ≤
      if n < w.nextQuicGeneration then 1 else 0) (hf : f.weight (ofGeneration n) = 1) :
    n < w.nextQuicGeneration ∧ ∀ s, .registerQuicLinks s n ∉ others := by
  rw [owned_cons, hf] at hledger
  split at hledger
  · rename_i hn
    refine ⟨hn, ?_⟩
    intro s hmem
    have hle := le_owned (φ := ofGeneration n) hmem
    simp only [Frame.weight, ofGeneration, if_true] at hle
    omega
  · omega

end Exec

/-! ## The invariant -/

/-- The session and the generation that a frame purges. -/
def Frame.purges : Frame → Option (SessionId × Nat)
  | .purgeTcp s n _ | .purgeUdp s n _ _ | .purgeKeys s n _ _ => some (s, n)
  | _ => none

theorem Frame.purges_of_cleanup (h : f.cleanup = true) : f.purges = none := by
  cases f <;> first | rfl | cases h

structure Generations (w : World) (fs : Multiset Frame) : Prop where
  current : ∀ a, .activateClaims a ∈ fs →
    ∀ n ∈ a.generations, activeQuicGeneration w.links a.call.sessionId = some n
  installed : ∀ s n, activeQuicGeneration w.links s = some n → Installed w fs n
  retiring : ∀ s n held next, .cancelGeneration s n held next ∈ fs → Retired w fs s n
  purging : ∀ f ∈ fs, ∀ s n, f.purges = some (s, n) → .cancelledGeneration s n ∈ w.log
  retired : ∀ s n, .cancelledGeneration s n ∈ w.log → Retired w fs s n
  cancelled : ∀ s n, .cancelledGeneration s n ∈ w.log → ∀ key claim,
    w.claims.map.lookup key = some claim → key.sessionId = s → claim.active = true →
      n ∈ claim.quicGenerations → claim.cancel ∈ w.cancelled
  replaced : ∀ s fresh n, .registeredQuic s fresh (some n) ∈ w.log →
    .cancelledGeneration s n ∈ w.log

namespace Generations

variable {cfg : Config} {choice : Choice} {w : World} {f : Frame} {others fs : Multiset Frame}
  {r : Effect} {s : SessionId} {n : Nat} {a : Activation} {held : Bool} {next : AfterCancel}

/-- No activation of a retired generation is under way. -/
theorem not_activated (h : Generations w fs) (hretired : Retired w fs s n)
    (ha : .activateClaims a ∈ fs) (hs : a.call.sessionId = s) : n ∉ a.generations := by
  intro hn
  exact hretired.displaced (hs ▸ h.current a ha n hn)

theorem current_exec (h : Generations w (f ::ₘ others)) (hfree : (portal cfg).Free f (f ::ₘ others))
    (hexec : exec cfg choice w f = some r) (ha : .activateClaims a ∈ ↑r.all + others) :
    ∀ n ∈ a.generations, activeQuicGeneration r.world.links a.call.sessionId = some n := by
  rw [(exec_changes hexec).links]
  rcases Multiset.mem_add.mp ha with ha | ha
  · rcases exec_next hexec _ ha with hclean | hnext
    · cases hclean
    · cases hnext with
      | activateClaims current => exact current
  · -- the activation holds `links`, so the step leaves them alone
    rw [linksAfter_of_wants]
    · exact h.current a (Multiset.mem_cons_of_mem ha)
    · intro hwants
      exact hfree .links hwants _ (Multiset.mem_cons_of_mem ha) (by simp [portal, Frame.holds])

theorem installed_exec (h : Generations w (f ::ₘ others))
    (hledger : ∀ n, owned (ofGeneration n) (f ::ₘ others) ≤
      if n < w.nextQuicGeneration then 1 else 0)
    (hexec : exec cfg choice w f = some r) {s : SessionId} {n : Nat}
    (hcurrent : activeQuicGeneration r.world.links s = some n) :
    Installed r.world (↑r.all + others) n := by
  rw [(exec_changes hexec).links] at hcurrent
  rcases active_from hcurrent with rfl | ⟨hbefore, _⟩
  · obtain ⟨hn, hothers⟩ := numbered_of_weight (hledger n) (by simp [Frame.weight, ofGeneration])
    exact .of_exec hexec hn hothers
  · exact (h.installed s n hbefore).step hexec

theorem retiring_exec (h : Generations w (f ::ₘ others))
    (hledger : ∀ n, owned (ofGeneration n) (f ::ₘ others) ≤
      if n < w.nextQuicGeneration then 1 else 0)
    (hquic : ∀ g, f = .linkGuardDrop g → g.quicGeneration.isSome = true → g.carrier = .quic)
    (hexec : exec cfg choice w f = some r) {s : SessionId} {n : Nat} {held : Bool}
    {next : AfterCancel} (hmem : .cancelGeneration s n held next ∈ ↑r.all + others) :
    Retired r.world (↑r.all + others) s n := by
  have hlinks := (exec_changes hexec).links
  rcases Multiset.mem_add.mp hmem with hmem | hmem
  · rcases exec_next hexec _ hmem with hclean | hnext
    · cases hclean
    · cases hnext with
      | @replace s generation previous displaced =>
        -- the displaced generation is installed, the new one was not
        have hinstalled := h.installed s n displaced
        refine ⟨hinstalled.step hexec, ?_⟩
        rw [hlinks, linksAfter, activeQuicGeneration_registerQuic, if_pos rfl]
        intro heq
        cases heq
        exact hinstalled.installed s (Multiset.mem_cons_self _ _)
      | @cancelGeneration g generation own held =>
        obtain ⟨hn, hothers⟩ := numbered_of_weight (hledger n)
          (by simp [Frame.weight, ofGeneration, own])
        refine ⟨.of_exec hexec hn hothers, ?_⟩
        rw [hlinks]
        intro hcurrent
        rcases active_from hcurrent with heq | ⟨_, hown⟩
        · cases heq
        · exact hown g rfl ⟨rfl, hquic g rfl (by rw [own]; rfl), own⟩
  · exact (h.retiring s n held next (Multiset.mem_cons_of_mem hmem)).step hexec

/-- The step that cancels a generation records it. -/
theorem cancelledGeneration_logged
    (hexec : Portal.exec cfg choice w (.cancelGeneration s n held next) = some r) :
    .cancelledGeneration s n ∈ r.world.log := by
  simp only [Portal.exec] at hexec
  split at hexec <;> cases hexec
  cases next <;> exact List.mem_cons_self

theorem purging_exec (h : Generations w (f ::ₘ others)) (hexec : exec cfg choice w f = some r)
    {g : Frame} (hg : g ∈ ↑r.all + others) (hpurges : g.purges = some (s, n)) :
    .cancelledGeneration s n ∈ r.world.log := by
  have hkept := (exec_changes hexec).kept
  have hself := h.purging f (Multiset.mem_cons_self f others)
  rcases Multiset.mem_add.mp hg with hg | hg
  · rcases exec_next hexec _ hg with hclean | hnext
    · rw [Frame.purges_of_cleanup hclean] at hpurges
      cases hpurges
    · cases hnext with
      | purgeTcp =>
        cases hpurges
        exact cancelledGeneration_logged hexec
      | purgeUdp =>
        cases hpurges
        exact hkept (hself _ _ rfl)
      | purgeKeys more =>
        cases hpurges
        exact hkept (hself _ _ rfl)
      | purgeRest key =>
        cases hpurges
        exact hkept (hself _ _ rfl)
      | _ => cases hpurges
  · exact hkept (h.purging g (Multiset.mem_cons_of_mem hg) s n hpurges)

theorem retired_exec (h : Generations w (f ::ₘ others)) (hexec : exec cfg choice w f = some r)
    (hlog : .cancelledGeneration s n ∈ r.world.log) :
    Retired w (f ::ₘ others) s n := by
  rcases (exec_changes hexec).logged hlog with hold | hnew
  · exact h.retired s n hold
  · cases hnew with
    | cancelled => exact h.retiring s n _ _ (Multiset.mem_cons_self _ _)

theorem cancelled_exec (h : Generations w (f ::ₘ others)) (hexec : exec cfg choice w f = some r)
    (hlog : .cancelledGeneration s n ∈ r.world.log) {key : FlowKey} {claim : FlowClaim}
    (hfound : r.world.claims.map.lookup key = some claim) (hs : key.sessionId = s)
    (hactive : claim.active = true) (hn : n ∈ claim.quicGenerations) :
    claim.cancel ∈ r.world.cancelled := by
  have hchanges := exec_changes hexec
  -- a claim that was there before the step
  have hbefore {claim : FlowClaim} (hfound : w.claims.map.lookup key = some claim)
      (hactive : claim.active = true) (hn : n ∈ claim.quicGenerations) :
      claim.cancel ∈ r.world.cancelled := by
    rcases hchanges.logged hlog with hold | hnew
    · exact hchanges.cancelled (h.cancelled s n hold key claim hfound hs hactive hn)
    · cases hnew with
      | cancelled => exact exec_cancelGeneration hexec hfound hs hactive hn
  rw [hchanges.claims] at hfound
  cases claim_from hfound with
  | same found => exact hbefore found hactive hn
  | inactive inactive =>
    rw [inactive] at hactive
    cases hactive
  | refreshed found =>
    have htoken := hbefore found hactive hn
    exact htoken
  | activated found =>
    exact absurd hn (h.not_activated (h.retired_exec hexec hlog) (Multiset.mem_cons_self _ _) hs)

theorem exec (h : Generations w (f ::ₘ others)) (hfree : (portal cfg).Free f (f ::ₘ others))
    (hledger : ∀ n, owned (ofGeneration n) (f ::ₘ others) ≤
      if n < w.nextQuicGeneration then 1 else 0)
    (hquic : ∀ g, f = .linkGuardDrop g → g.quicGeneration.isSome = true → g.carrier = .quic)
    (hexec : exec cfg choice w f = some r) : Generations r.world (↑r.all + others) where
  current := fun _ ha => h.current_exec hfree hexec ha
  installed := fun _ _ hcurrent => h.installed_exec hledger hexec hcurrent
  retiring := fun _ _ _ _ hmem => h.retiring_exec hledger hquic hexec hmem
  purging := fun _ hg _ _ hpurges => h.purging_exec hexec hg hpurges
  retired := fun _ _ hlog => (h.retired_exec hexec hlog).step hexec
  cancelled := fun _ _ hlog _ _ hfound hs hactive hn =>
    h.cancelled_exec hexec hlog hfound hs hactive hn
  replaced := by
    intro s fresh n hlog
    have hchanges := exec_changes hexec
    rcases hchanges.logged hlog with hold | hnew
    · exact hchanges.kept (h.replaced s fresh n hold)
    · cases hnew with
      | replaced =>
        exact hchanges.kept (h.purging _ (Multiset.mem_cons_self _ _) s n rfl)

theorem boot (h : Generations w fs) (b : Start) :
    Generations (start b w).world (↑(start b w).all + fs) := by
  have hsame := start_undisturbed b w
  constructor
  · intro a ha
    rw [hsame.links]
    exact h.current a (mem_of_start ha rfl)
  · intro s n hcurrent
    rw [hsame.links] at hcurrent
    exact (h.installed s n hcurrent).boot b
  · intro s n held next hmem
    exact (h.retiring s n held next (mem_of_start hmem rfl)).boot b
  · intro f hf s n hpurges
    have hentry : f.entry = false := by
      cases f <;> first | rfl | cases hpurges
    exact hsame.kept (h.purging f (mem_of_start hf hentry) s n hpurges)
  · intro s n hlog
    exact (h.retired s n (hsame.logged _ hlog rfl)).boot b
  · intro s n hlog key claim hfound
    rw [hsame.claims] at hfound
    rw [hsame.cancelled]
    exact h.cancelled s n (hsame.logged _ hlog rfl) key claim hfound
  · intro s fresh n hlog
    exact hsame.kept (h.replaced s fresh n (hsame.logged _ hlog rfl))

theorem init : Generations World.init 0 := by
  constructor <;> simp [World.init, activeQuicGeneration]

end Generations

theorem generations {cond : Choice → World → Frame → Prop} {p : Pool}
    (h : (portal cfg).Reach cond initial p) : Generations p.world p.bag := by
  refine h.bag_invariant Generations.init (fun _ b _ ih => ih.boot b) ?_
  intro p choice f others r hreach hbag ih hfree _ hexec
  refine ih.exec hfree ?_ ?_ hexec
  · intro n
    have hledger := generation_ledger n hreach
    rw [hbag] at hledger
    omega
  · rintro g rfl
    exact guard_quic hreach (hbag ▸ Multiset.mem_cons_self _ _)

/-- **Activation and replacement.** An activation finds the generation of every QUIC half it
activates current. Once `register_quic_link` has returned with a displaced generation, or a
cancel step of the generation has run, every active claim of the session that contains it is
cancelled, and no claim is activated with it any more. -/
theorem generation_fenced {cfg : Config} {p : Pool} (h : (portal cfg).Reachable initial p) :
    (∀ a, .activateClaims a ∈ p.bag → ∀ n ∈ a.complete.generations,
      activeQuicGeneration p.world.links a.call.sessionId = some n) ∧
    ∀ s n, (.cancelledGeneration s n ∈ p.world.log ∨
        ∃ fresh, .registeredQuic s fresh (some n) ∈ p.world.log) →
      (∀ key claim, p.world.claims.map.lookup key = some claim → key.sessionId = s →
        claim.active = true → n ∈ claim.quicGenerations → claim.cancel ∈ p.world.cancelled) ∧
      ∀ a, .activateClaims a ∈ p.bag → a.call.sessionId = s → n ∉ a.generations := by
  have hgen := generations h
  constructor
  · intro a ha n hn
    have hactivates : Activates p.world.log a := (provenance h).frames _ ha
    exact hgen.current a ha n ((hactivates.generations n).mp hn)
  · intro s n hended
    have hlog : .cancelledGeneration s n ∈ p.world.log := by
      rcases hended with hlog | ⟨fresh, hlog⟩
      · exact hlog
      · exact hgen.replaced s fresh n hlog
    exact ⟨hgen.cancelled s n hlog, fun a ha hs => hgen.not_activated (hgen.retired s n hlog) ha hs⟩

namespace Sample

/-- A pair over generation 1 is active when a second QUIC connection takes over. -/
def replaceActive : List (Tasks.Act Choice Start) :=
  registerQuic 0 ++ lane 1 openTcp (some target) 7 ++ stream 3 attachTcp 8 ++
    registerQuic 5 ++ [.run 5 (.runtime true)]

theorem replaceActive_cancels :
    ∃ p claim, (portal config).Reachable initial p ∧
      p.world.claims.map.lookup key = some claim ∧ claim.active = true ∧
      1 ∈ claim.quicGenerations ∧ claim.cancel ∈ p.world.cancelled := by
  obtain ⟨p, hreach, hp⟩ := Tasks.System.exists_reachable_of_run (S := portal config)
    (P := fun p => (p.world.claims.map.lookup key).any fun claim : FlowClaim =>
      claim.active && decide (1 ∈ claim.quicGenerations) && p.world.log.any fun
        | .cancelledGeneration s n => decide (s = session ∧ n = 1)
        | _ => false)
    (show ((portal config).run initial replaceActive).any _ = true by decide +kernel)
  obtain ⟨claim, hfound, hclaim⟩ := (Option.any_eq_true _ _).mp hp
  simp only [Bool.and_eq_true, decide_eq_true_eq, List.any_eq_true] at hclaim
  obtain ⟨⟨hactive, hn⟩, e, he, hevent⟩ := hclaim
  cases e with
  | cancelledGeneration s n =>
    obtain ⟨rfl, rfl⟩ := of_decide_eq_true hevent
    exact ⟨p, claim, hreach, hfound, hactive, hn,
      ((generation_fenced hreach).2 session 1 (.inl he)).1 key claim hfound rfl hactive hn⟩
  | _ => cases hevent

end Sample

end Nowhere.Portal
