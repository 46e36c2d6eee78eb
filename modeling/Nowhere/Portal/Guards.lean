import Nowhere.Portal.Ledger

/-!
# Guards of carriers

The ledger read with weights on link guards. Every QUIC generation has at most one guard, which
exists from the moment the generation's number is taken; and the links map counts exactly the
guards of TLS lanes that are alive.
-/

namespace Nowhere.Portal

open Protocol Assoc

variable {φ : Asset → Nat} {cfg : Config} {cond : Choice → World → Frame → Prop} {p : Pool}

/-- A weight on guards alone. -/
structure GuardsOnly (φ : Asset → Nat) : Prop where
  uplink : ∀ s, φ (.uplink s) = 0
  downlink : ∀ s, φ (.downlink s) = 0

namespace GuardsOnly

theorem spent_eq (hφ : GuardsOnly φ) (log : List Event) : spent φ log = 0 := by
  refine List.sum_eq_zero ?_
  intro k hk
  obtain ⟨e, _, rfl⟩ := List.mem_map.mp hk
  cases e <;> simp [Event.spent, hφ.uplink, hφ.downlink]

theorem given_eq (hφ : GuardsOnly φ) (log : List Event) : given φ log = 0 := by
  have hdown (d : Option Downlink) : downSource φ d = 0 := by
    cases d <;> simp [downSource, hφ.downlink]
  refine List.sum_eq_zero ?_
  intro k hk
  obtain ⟨e, _, rfl⟩ := List.mem_map.mp hk
  cases e <;> simp [Event.given, upSource_lost _ hφ.uplink, hdown]

/-- Guards are created by registering and destroyed by dropping, and moved otherwise. -/
theorem exec (hφ : GuardsOnly φ) (hreach : (portal cfg).Reach cond initial p) {choice : Choice}
    {f : Frame} {others : Multiset Frame} {r : Effect} (hbag : p.bag = f ::ₘ others)
    (hexec : (portal cfg).exec choice p.world f = some r) :
    load φ r.all + heldPending φ r.world.pending + f.loss φ =
      f.weight φ + heldPending φ p.world.pending + f.gain φ p.world := by
  obtain ⟨lost, hbalance, hlost⟩ := exec_ledger φ (hbag ▸ provenance hreach) hexec
  rw [hlost hφ.uplink, hφ.spent_eq, hφ.spent_eq, hφ.given_eq, hφ.given_eq] at hbalance
  omega

theorem start (hφ : GuardsOnly φ) (b : Start) (w : World) : load φ (start b w).all = 0 := by
  obtain ⟨hstart, _⟩ := start_ledger φ b w
  rw [hφ.given_eq, hφ.given_eq] at hstart
  exact hstart

end GuardsOnly

/-- The weight of a guard of QUIC generation `n`. -/
def ofGeneration (n : Nat) : Asset → Nat
  | .guard g => if g.quicGeneration = some n then 1 else 0
  | _ => 0

theorem guardsOnly_ofGeneration (n : Nat) : GuardsOnly (ofGeneration n) :=
  ⟨fun _ => rfl, fun _ => rfl⟩

/-- **A generation has one guard**, from the moment its number is taken. -/
theorem generation_ledger (n : Nat) (h : (portal cfg).Reach cond initial p) :
    owned (ofGeneration n) p.bag + heldPending (ofGeneration n) p.world.pending ≤
      if n < p.world.nextQuicGeneration then 1 else 0 := by
  refine h.bag_invariant (I := fun w fs => owned (ofGeneration n) fs +
    heldPending (ofGeneration n) w.pending ≤ if n < w.nextQuicGeneration then 1 else 0) ?_ ?_ ?_
  · exact Nat.zero_le _
  · rintro p b _ hsum
    have hstart := (guardsOnly_ofGeneration n).start b p.world
    have hpending := (start_ledger (ofGeneration n) b p.world).2.2
    have hnext : (start b p.world).world.nextQuicGeneration = p.world.nextQuicGeneration := by
      cases b <;> rfl
    change owned (ofGeneration n) (↑(start b p.world).all + p.bag) +
      heldPending (ofGeneration n) (start b p.world).world.pending ≤
        if n < (start b p.world).world.nextQuicGeneration then 1 else 0
    rw [owned_add, hstart, hpending, hnext, Nat.zero_add]
    exact hsum
  · rintro p choice f others r hreach hbag hsum _ _ hexec
    have hbalance := (guardsOnly_ofGeneration n).exec hreach hbag hexec
    rw [owned_cons] at hsum
    rw [owned_add, (exec_changes hexec).generation]
    by_cases hfetch : ∃ s, f = .registerQuic s
    · obtain ⟨s, rfl⟩ := hfetch
      simp only [Frame.gain, Frame.weight, ofGeneration, Option.some.injEq] at hbalance hsum
      have hafter : generationAfter p.world (.registerQuic s) = p.world.nextQuicGeneration + 1 :=
        rfl
      rw [hafter]
      rcases Nat.lt_trichotomy n p.world.nextQuicGeneration with hlt | heq | hgt
      · rw [if_neg (by omega)] at hbalance
        rw [if_pos hlt] at hsum
        rw [if_pos (by omega)]
        omega
      · -- the number has just been taken
        rw [if_pos heq.symm] at hbalance
        rw [if_neg (by omega)] at hsum
        rw [if_pos (by omega)]
        omega
      · rw [if_neg (by omega)] at hbalance hsum
        omega
    · have hgain : f.gain (ofGeneration n) p.world = 0 := by
        cases f <;> first | rfl | exact absurd ⟨_, rfl⟩ hfetch
      have hafter : generationAfter p.world f = p.world.nextQuicGeneration := by
        cases f <;> first | rfl | exact absurd ⟨_, rfl⟩ hfetch
      rw [hafter]
      omega

/-- The registered TLS lanes of a session. -/
def tcpLanes (links : Map SessionId LinkCounts) (s : SessionId) : Nat :=
  (links.lookup s).elim 0 LinkCounts.tcp

theorem tcpLanes_insert (links : Map SessionId LinkCounts) (s s' : SessionId)
    (counts : LinkCounts) :
    tcpLanes (links.insert s' counts) s = if s = s' then counts.tcp else tcpLanes links s := by
  unfold tcpLanes
  rw [Assoc.lookup_insert]
  split <;> rfl

theorem countsOrNew_tcp (cfg : Config) (links : Map SessionId LinkCounts) (permits : Permits)
    (s : SessionId) :
    (countsOrNew cfg links permits s).1.tcp = tcpLanes links s := by
  unfold countsOrNew tcpLanes
  cases links.lookup s <;> rfl

theorem tcpLanes_registerTcp (w : World) (s s' : SessionId) :
    tcpLanes (registerTcpLink cfg w s').links s =
      tcpLanes w.links s + if s' = s then 1 else 0 := by
  have htcp := countsOrNew_tcp cfg w.links w.permits s'
  change tcpLanes (w.links.insert s' _) s = _
  rw [tcpLanes_insert]
  by_cases hs : s = s'
  · subst hs
    rw [if_pos rfl, if_pos rfl, ← htcp]
    rfl
  · rw [if_neg hs, if_neg (Ne.symm hs), Nat.add_zero]

theorem tcpLanes_registerQuic (w : World) (s s' : SessionId) (generation : Nat) :
    tcpLanes (registerQuicLink cfg w s' generation).1.links s = tcpLanes w.links s := by
  have htcp := countsOrNew_tcp cfg w.links w.permits s'
  change tcpLanes (w.links.insert s' _) s = _
  rw [tcpLanes_insert]
  split
  · rename_i hs
    subst hs
    exact htcp
  · rfl

theorem tcpLanes_drop (w : World) (g : LinkGuard) (s : SessionId) :
    tcpLanes (dropLink w g).1.links s =
      tcpLanes w.links s - if g.sessionId = s ∧ g.carrier = .tlsTcp then 1 else 0 := by
  unfold dropLink
  dsimp only
  cases hfound : w.links.lookup g.sessionId with
  | none =>
    by_cases hs : g.sessionId = s
    · subst hs
      simp [tcpLanes, hfound]
    · simp [hs]
  | some counts =>
    dsimp only
    cases hcarrier : g.carrier with
    | tlsTcp =>
      simp only [LinkCounts.without, hcarrier]
      by_cases hs : g.sessionId = s
      · subst hs
        simp only [true_and, if_true, tcpLanes, hfound, Option.elim_some]
        split
        · rename_i hzero
          simp [hzero.1]
        · simp
      · have hs' : s ≠ g.sessionId := Ne.symm hs
        simp only [hs, false_and, if_false, Nat.sub_zero, tcpLanes]
        split
        · rw [Assoc.lookup_erase, if_neg hs']
        · rw [Assoc.lookup_insert, if_neg hs']
    | quic =>
      simp only [LinkCounts.without, hcarrier, reduceCtorEq, and_false, if_false, Nat.sub_zero]
      split
      · rfl
      · rename_i counts' hwithout
        have htcp : counts'.tcp = counts.tcp := by
          split at hwithout <;> cases hwithout
          rfl
        by_cases hs : g.sessionId = s
        · subst hs
          simp only [tcpLanes, hfound, Option.elim_some]
          split
          · rename_i hzero
            simp [← htcp, hzero.1]
          · simp [htcp]
        · have hs' : s ≠ g.sessionId := Ne.symm hs
          simp only [tcpLanes]
          split
          · rw [Assoc.lookup_erase, if_neg hs']
          · rw [Assoc.lookup_insert, if_neg hs']

/-- The weight of a TLS lane of session `s`. -/
def ofLane (s : SessionId) : Asset → Nat
  | .guard g => if g.sessionId = s ∧ g.carrier = .tlsTcp then 1 else 0
  | _ => 0

theorem guardsOnly_ofLane (s : SessionId) : GuardsOnly (ofLane s) :=
  ⟨fun _ => rfl, fun _ => rfl⟩

/-- **TLS lanes are counted.** The links map counts the guards that are alive, so the
`saturating_sub` of `LinkGuard::drop` never saturates. -/
theorem lanes_ledger (s : SessionId) (h : (portal cfg).Reach cond initial p) :
    owned (ofLane s) p.bag + heldPending (ofLane s) p.world.pending = tcpLanes p.world.links s := by
  refine h.bag_invariant (I := fun w fs => owned (ofLane s) fs +
    heldPending (ofLane s) w.pending = tcpLanes w.links s) rfl ?_ ?_
  · rintro p b _ hsum
    have hstart := (guardsOnly_ofLane s).start b p.world
    have hpending := (start_ledger (ofLane s) b p.world).2.2
    have hlinks : (start b p.world).world.links = p.world.links := by cases b <;> rfl
    change owned (ofLane s) (↑(start b p.world).all + p.bag) +
      heldPending (ofLane s) (start b p.world).world.pending =
        tcpLanes (start b p.world).world.links s
    rw [owned_add, hstart, hpending, hlinks, Nat.zero_add]
    exact hsum
  · rintro p choice f others r hreach hbag hsum _ _ hexec
    have hbalance := (guardsOnly_ofLane s).exec hreach hbag hexec
    rw [owned_cons] at hsum
    rw [owned_add, (exec_changes hexec).links]
    cases f with
    | registerTcp s' =>
      simp only [linksAfter, tcpLanes_registerTcp]
      simp only [Frame.gain, Frame.loss, Frame.weight, ofLane, and_true] at hbalance hsum
      omega
    | registerQuicLinks s' generation =>
      simp only [linksAfter, tcpLanes_registerQuic]
      simp only [Frame.gain, Frame.loss] at hbalance
      omega
    | registerQuic s' =>
      simp only [Frame.gain, Frame.loss, ofLane, reduceCtorEq, and_false, if_false] at hbalance
      simp only [linksAfter]
      omega
    | linkGuardDrop g =>
      simp only [linksAfter, tcpLanes_drop]
      simp only [Frame.gain, Frame.loss, Frame.weight, ofLane] at hbalance hsum
      omega
    | _ =>
      simp only [Frame.gain, Frame.loss] at hbalance
      simp only [linksAfter]
      omega

end Nowhere.Portal
