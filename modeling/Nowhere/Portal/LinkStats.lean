import Mathlib.Algebra.Order.BigOperators.Group.Multiset
import Nowhere.Portal.Guards

/-!
# Carrier counters

`link_tcp`, `link_udp` and `link_pairs` of `src/transport/stats.rs` are kept by three critical
sections on the links map, each of which compares a session's entry before and after. Every one of
the counters is therefore a sum over the links map (`counted`), and with the ledger of the guards
`link_tcp` is the number of TLS lanes that are alive. The counters are numbers without a lower
bound here, so that a subtraction the source could not afford would show as a negative counter.
-/

namespace Nowhere.Portal

open Protocol Assoc

/-! ## One step -/

/-- The counters after a step of a frame. -/
def statsAfter (cfg : Config) (w : World) : Frame → Stats
  | .registerTcp s => (registerTcpLink cfg w s).stats
  | .registerQuicLinks s generation => (registerQuicLink cfg w s generation).1.stats
  | .linkGuardDrop g => (dropLink w g).1.stats
  | _ => w.stats

theorem exec_stats {cfg : Config} {choice : Choice} {w : World} {f : Frame} {r : Effect}
    (h : exec cfg choice w f = some r) : r.world.stats = statsAfter cfg w f := by
  cases f with
  | tryAcquire c budget =>
    cases h
    simp only [tryAcquireStep]
    split <;> rfl
  | installLinks c =>
    cases h
    simp only [installLinksStep]
    split
    · rfl
    · split <;> rfl
  | installReserve c active =>
    cases h
    simp only [installReserveStep]
    split <;> rfl
  | installRefreshClaim c epoch =>
    cases h
    simp only [installRefreshClaimStep]
    split <;> rfl
  | activateLinks a =>
    cases h
    simp only [activateLinksStep]
    split <;> rfl
  | activateClaims a =>
    cases h
    simp only [activateClaimsStep]
    split
    · rfl
    · split <;> rfl
  | rejectClaims key code =>
    cases h
    simp only [rejectClaimsStep]
    split <;> rfl
  | rejectTombstone key code expiresAt => cases choice <;> cases h; rfl
  | timeout kind key epoch deadline =>
    cases timeoutStep_timesOut h <;> rfl
  | registerQuicLinks s generation =>
    cases h
    simp only [registerQuicLinksStep]
    split <;> rfl
  | lane g => cases choice <;> cases h <;> rfl
  | conn g => cases choice <;> cases h; rfl
  | cancelGeneration s generation held next =>
    cases choice <;> cases h
    cases next <;> rfl
  | purgeKeys s generation next stale =>
    cases choice <;> cases h
    simp only [purgeKeysStep]
    split
    · rfl
    · cases next <;> rfl
  | relay p stage =>
    cases relayStep_outcome h <;> rfl
  | _ =>
    cases h
    rfl

/-! ## The counters as sums over the links -/

/-- A session with both kinds of carriers, a session with a QUIC carrier. -/
def pairWeight (counts : LinkCounts) : Nat := counts.isPaired.toNat

def quicWeight (counts : LinkCounts) : Nat := counts.udp.isSome.toNat

/-- The counters agree with the links, and no entry is empty. -/
structure Counted (links : Map SessionId LinkCounts) (stats : Stats) : Prop where
  tcp : stats.linkTcp = total links fun _ counts => counts.tcp
  udp : stats.linkUdp = total links fun _ counts => quicWeight counts
  pairs : stats.linkPairs = total links fun _ counts => pairWeight counts
  nonempty : ∀ s counts, links.lookup s = some counts → 0 < counts.tcp ∨ counts.udp.isSome

section Operations

variable {cfg : Config} {w : World} {s : SessionId} {φ : LinkCounts → Nat}
  {links : Map SessionId LinkCounts} {old new : LinkCounts} {g : LinkGuard}

/-- A session without entry weighs as much as the entry that is created for it. -/
theorem elim_countsOrNew (hφ : ∀ budget, φ ⟨0, none, budget⟩ = 0) (cfg : Config)
    (links : Map SessionId LinkCounts) (permits : Permits) (s : SessionId) :
    (links.lookup s).elim 0 φ = φ (countsOrNew cfg links permits s).1 := by
  unfold countsOrNew
  cases links.lookup s with
  | none => exact (hφ _).symm
  | some counts => rfl

/-- Writing a session's entry trades the old weight for the new one. -/
theorem total_register (hφ : ∀ budget, φ ⟨0, none, budget⟩ = 0) (cfg : Config)
    (links : Map SessionId LinkCounts) (permits : Permits) (s : SessionId) (counts' : LinkCounts) :
    (total (links.insert s counts') fun _ counts => φ counts) +
        φ (countsOrNew cfg links permits s).1 =
      (total links fun _ counts => φ counts) + φ counts' := by
  rw [← elim_countsOrNew hφ]
  exact total_insert_add links s counts' fun _ counts => φ counts

theorem nonempty_insert {counts' : LinkCounts}
    (h : ∀ s counts, links.lookup s = some counts → 0 < counts.tcp ∨ counts.udp.isSome)
    (hnew : 0 < counts'.tcp ∨ counts'.udp.isSome) (s' : SessionId) (counts : LinkCounts)
    (hfound : (links.insert s counts').lookup s' = some counts) :
    0 < counts.tcp ∨ counts.udp.isSome := by
  rw [lookup_insert] at hfound
  split at hfound
  · cases hfound
    exact hnew
  · exact h s' counts hfound

/-- One entry is replaced, and the counters change by the difference. -/
theorem Counted.replace {links links' : Map SessionId LinkCounts} {stats stats' : Stats}
    (h : Counted links stats) (old new : LinkCounts)
    (htotal : ∀ φ : LinkCounts → Nat, (∀ budget, φ ⟨0, none, budget⟩ = 0) →
      (total links' fun _ counts => φ counts) + φ old =
        (total links fun _ counts => φ counts) + φ new)
    (hempty : ∀ s counts, links'.lookup s = some counts → 0 < counts.tcp ∨ counts.udp.isSome)
    (htcp : stats'.linkTcp + old.tcp = stats.linkTcp + new.tcp)
    (hudp : stats'.linkUdp + quicWeight old = stats.linkUdp + quicWeight new)
    (hpairs : stats'.linkPairs + pairWeight old = stats.linkPairs + pairWeight new) :
    Counted links' stats' := by
  have hsum := htotal LinkCounts.tcp fun _ => rfl
  have hsum' := htotal quicWeight fun _ => rfl
  have hsum'' := htotal pairWeight fun _ => rfl
  obtain ⟨hcount, hcount', hcount'', _⟩ := h
  exact ⟨by omega, by omega, by omega, hempty⟩

theorem Counted.registerTcp (h : Counted w.links w.stats) :
    Counted (registerTcpLink cfg w s).links (registerTcpLink cfg w s).stats := by
  have htotal (new : LinkCounts) (φ : LinkCounts → Nat) (hφ : ∀ budget, φ ⟨0, none, budget⟩ = 0) :=
    total_register hφ cfg w.links w.permits s new
  simp only [registerTcpLink]
  generalize (countsOrNew cfg w.links w.permits s).1 = old at htotal ⊢
  refine h.replace old { old with tcp := old.tcp + 1 } (htotal _)
    (nonempty_insert h.nonempty (.inl (Nat.succ_pos _))) ?_ rfl ?_
  · simp only
    omega
  · cases hudp : old.udp with
    | none => simp [pairWeight, LinkCounts.isPaired, hudp]
    | some generation =>
      by_cases htcp : 0 < old.tcp
      · simp [pairWeight, LinkCounts.isPaired, hudp, htcp]
      · simp [pairWeight, LinkCounts.isPaired, hudp, htcp]

theorem Counted.registerQuic (h : Counted w.links w.stats) (generation : Nat) :
    Counted (registerQuicLink cfg w s generation).1.links
      (registerQuicLink cfg w s generation).1.stats := by
  have htotal (new : LinkCounts) (φ : LinkCounts → Nat) (hφ : ∀ budget, φ ⟨0, none, budget⟩ = 0) :=
    total_register hφ cfg w.links w.permits s new
  simp only [registerQuicLink]
  generalize (countsOrNew cfg w.links w.permits s).1 = old at htotal ⊢
  refine h.replace old { old with udp := some generation } (htotal _)
    (nonempty_insert h.nonempty (.inr rfl)) ?_ ?_ ?_
  · cases old.udp <;> rfl
  · cases hudp : old.udp <;> simp [quicWeight, hudp]
  · cases hudp : old.udp with
    | none =>
      by_cases htcp : 0 < old.tcp
      · simp [pairWeight, LinkCounts.isPaired, hudp, htcp]
      · simp [pairWeight, LinkCounts.isPaired, hudp, htcp]
    | some previous => simp [pairWeight, LinkCounts.isPaired, hudp]

/-- An entry is erased when it has become empty. -/
theorem total_drop (hφ : ∀ budget, φ ⟨0, none, budget⟩ = 0) {old : LinkCounts}
    (hfound : links.lookup s = some old) (new : LinkCounts) :
    (total (if new.tcp = 0 ∧ new.udp = none then links.erase s else links.insert s new)
        fun _ counts => φ counts) + φ old =
      (total links fun _ counts => φ counts) + φ new := by
  split
  · rename_i hzero
    have hnew : φ new = 0 := by
      obtain ⟨tcp, udp, budget⟩ := new
      obtain ⟨rfl, rfl⟩ := hzero
      exact hφ budget
    have herase := total_erase links s fun _ counts => φ counts
    rw [hfound, Option.elim_some] at herase
    rw [hnew, herase, Nat.add_zero]
  · have hinsert := total_insert_add links s new fun _ counts => φ counts
    rwa [hfound, Option.elim_some] at hinsert

theorem without_eq_some (h : old.without g = some new) :
    (g.carrier = .tlsTcp ∧ new = { old with tcp := old.tcp - 1 }) ∨
      (g.carrier = .quic ∧ old.udp.isSome ∧ new = { old with udp := none }) := by
  unfold LinkCounts.without at h
  cases hcarrier : g.carrier with
  | tlsTcp =>
    simp only [hcarrier, Option.some.injEq] at h
    exact .inl ⟨rfl, h.symm⟩
  | quic =>
    simp only [hcarrier, Option.ite_none_right_eq_some, Option.some.injEq] at h
    obtain ⟨⟨hsome, hcurrent⟩, hnew⟩ := h
    exact .inr ⟨rfl, hcurrent ▸ hsome, hnew.symm⟩

/-- Without one of its carriers a session is not paired anew. -/
theorem isPaired_of_without (h : old.without g = some new) (hpaired : new.isPaired = true) :
    old.isPaired = true := by
  rcases without_eq_some h with ⟨_, rfl⟩ | ⟨_, _, rfl⟩
  · simp only [LinkCounts.isPaired, Bool.and_eq_true, decide_eq_true_eq] at hpaired ⊢
    exact ⟨by omega, hpaired.2⟩
  · simp [LinkCounts.isPaired] at hpaired

/-- Dropping a guard of a lane that is counted, or of a QUIC connection. -/
theorem Counted.drop (h : Counted w.links w.stats)
    (hlane : g.carrier = .tlsTcp → 0 < tcpLanes w.links g.sessionId) :
    Counted (dropLink w g).1.links (dropLink w g).1.stats := by
  simp only [dropLink]
  cases hfound : w.links.lookup g.sessionId with
  | none => exact h
  | some old =>
    dsimp only
    cases hwithout : old.without g with
    | none => exact h
    | some new =>
      dsimp only
      refine h.replace old new (fun φ hφ => total_drop hφ hfound new) ?_ ?_ ?_ ?_
      · intro s counts hcounts
        split at hcounts
        · rw [lookup_erase] at hcounts
          split at hcounts
          · cases hcounts
          · exact h.nonempty s counts hcounts
        · rename_i hleft
          refine nonempty_insert h.nonempty ?_ s counts hcounts
          rcases Nat.eq_zero_or_pos new.tcp with hzero | hpos
          · exact .inr (Option.isSome_iff_ne_none.mpr fun hnone => hleft ⟨hzero, hnone⟩)
          · exact .inl hpos
      · rcases without_eq_some hwithout with ⟨hcarrier, rfl⟩ | ⟨hcarrier, _, rfl⟩
        · have hpos : 0 < old.tcp := by
            have := hlane hcarrier
            rwa [tcpLanes, hfound] at this
          simp only [hcarrier, if_true]
          omega
        · simp [hcarrier]
      · rcases without_eq_some hwithout with ⟨hcarrier, rfl⟩ | ⟨hcarrier, hsome, rfl⟩
        · simp [hcarrier, quicWeight]
        · simp [hcarrier, quicWeight, hsome]
      · have hmono := isPaired_of_without hwithout
        unfold pairWeight
        cases hold : old.isPaired with
        | true => cases new.isPaired <;> simp
        | false =>
          cases hnew : new.isPaired with
          | true => exact absurd (hmono hnew) (by simp [hold])
          | false => simp

end Operations

/-! ## Guards that are alive -/

/-- The weight of a guard that satisfies `sel`. -/
def ofGuards (sel : LinkGuard → Bool) : Asset → Nat
  | .guard g => (sel g).toNat
  | _ => 0

theorem guardsOnly_ofGuards (sel : LinkGuard → Bool) : GuardsOnly (ofGuards sel) :=
  ⟨fun _ => rfl, fun _ => rfl⟩

/-- The number of guards that are alive and satisfy `sel`: those of lanes and connections, of
halves wherever they are, and those whose destructor has not come to its links section. -/
def liveGuards (sel : LinkGuard → Bool) (p : Pool) : Nat :=
  owned (ofGuards sel) p.bag + heldPending (ofGuards sel) p.world.pending

section Mono

variable {φ ψ : Asset → Nat}

theorem guardWeight_mono (h : ∀ a, φ a ≤ ψ a) (g : Option LinkGuard) :
    guardWeight φ g ≤ guardWeight ψ g := by
  cases g with
  | none => exact Nat.le_refl _
  | some g => exact h _

theorem downSource_mono (h : ∀ a, φ a ≤ ψ a) (d : Option Downlink) :
    downSource φ d ≤ downSource ψ d := by
  cases d with
  | none => exact Nat.le_refl _
  | some d => exact h _

theorem halves_mono (h : ∀ a, φ a ≤ ψ a) (u : Option Uplink) (d : Option Downlink) :
    halves φ u d ≤ halves ψ u d := by
  have hsource : upSource φ u ≤ upSource ψ u := by
    cases u with
    | none => exact Nat.le_refl _
    | some u => exact h _
  exact Nat.add_le_add (Nat.add_le_add hsource (guardWeight_mono h _))
    (Nat.add_le_add (downSource_mono h d) (guardWeight_mono h _))

theorem Frame.weight_mono (h : ∀ a, φ a ≤ ψ a) (f : Frame) : f.weight φ ≤ f.weight ψ := by
  have hnext (s : SessionId) (next : AfterCancel) : next.weight φ s ≤ next.weight ψ s := by
    cases next with
    | register fresh => exact h _
    | guardDrop => exact Nat.le_refl _
  have hdown (d : Option Downlink) :
      downSource φ d + downGuard φ d ≤ downSource ψ d + downGuard ψ d :=
    Nat.add_le_add (downSource_mono h d) (guardWeight_mono h _)
  cases f with
  | rejectUdpEntry key code d => exact hdown d
  | rejectFinish key code d d' => exact Nat.add_le_add (hdown d) (hdown d')
  | relay p stage => exact Nat.add_le_add (guardWeight_mono h _) (guardWeight_mono h _)
  | _ => first | exact Nat.le_refl _ | exact h _ | exact halves_mono h _ _ | exact hnext _ _

theorem owned_mono (h : ∀ a, φ a ≤ ψ a) (p : Pool) :
    owned φ p.bag + heldPending φ p.world.pending ≤
      owned ψ p.bag + heldPending ψ p.world.pending := by
  refine Nat.add_le_add ?_ ?_
  · exact Multiset.sum_map_le_sum_map _ _ fun f _ => f.weight_mono h
  · exact Nat.add_le_add (total_le_total fun _ _ _ => halves_mono h _ _)
      (total_le_total fun _ _ _ => halves_mono h _ _)

end Mono

/-! ## Whole runs -/

section Runs

variable {cfg : Config} {cond : Choice → World → Frame → Prop} {p : Pool} {g : LinkGuard}

/-- A lane whose guard is about to be dropped is still counted. -/
theorem lane_counted (h : (portal cfg).Reach cond initial p)
    (hlive : 0 < liveGuards (fun g' => decide (g' = g)) p) (hcarrier : g.carrier = .tlsTcp) :
    0 < tcpLanes p.world.links g.sessionId := by
  rw [← lanes_ledger g.sessionId h]
  refine Nat.lt_of_lt_of_le hlive (owned_mono ?_ p)
  intro a
  cases a with
  | guard g' =>
    by_cases hg : g' = g
    · subst hg
      simp [ofGuards, ofLane, hcarrier]
    · simp [ofGuards, hg]
  | _ => exact Nat.zero_le _

theorem live_of_drop (hmem : .linkGuardDrop g ∈ p.bag) :
    0 < liveGuards (fun g' => decide (g' = g)) p := by
  have hweight := le_owned (φ := ofGuards fun g' => decide (g' = g)) hmem
  simp only [Frame.weight, ofGuards, decide_true, Bool.toNat_true] at hweight
  exact Nat.lt_of_lt_of_le hweight (Nat.le_add_right _ _)

theorem counted (h : (portal cfg).Reach cond initial p) :
    Counted p.world.links p.world.stats := by
  refine h.bag_invariant (I := fun w _ => Counted w.links w.stats) ?_ ?_ ?_
  · exact ⟨rfl, rfl, rfl, fun s counts hfound => by cases hfound⟩
  · intro p b _ ih
    have hlinks : ((portal cfg).boot b p.world).world.links = p.world.links :=
      (start_undisturbed b p.world).links
    have hstats : ((portal cfg).boot b p.world).world.stats = p.world.stats := by cases b <;> rfl
    rw [hlinks, hstats]
    exact ih
  · intro p choice f others r hp hbag ih _ _ hexec
    rw [(exec_changes hexec).links, exec_stats hexec]
    cases f with
    | registerTcp s => exact ih.registerTcp
    | registerQuicLinks s generation => exact ih.registerQuic generation
    | linkGuardDrop g =>
      have hlive := live_of_drop (hbag ▸ Multiset.mem_cons_self _ _)
      exact ih.drop (lane_counted hp hlive)
    | _ => exact ih

/-- A TLS lane that is dropped leaves the counter. -/
theorem linkTcp_drop {w : World} (hlane : g.carrier = .tlsTcp → 0 < tcpLanes w.links g.sessionId) :
    (dropLink w g).1.stats.linkTcp = w.stats.linkTcp - if g.carrier = .tlsTcp then 1 else 0 := by
  simp only [dropLink]
  cases hfound : w.links.lookup g.sessionId with
  | none =>
    have hcarrier : g.carrier ≠ .tlsTcp := by
      intro hcarrier
      have := hlane hcarrier
      simp [tcpLanes, hfound] at this
    simp [hcarrier]
  | some old =>
    dsimp only
    cases hwithout : old.without g with
    | none =>
      have hcarrier : g.carrier ≠ .tlsTcp := by
        intro hcarrier
        simp [LinkCounts.without, hcarrier] at hwithout
      simp [hcarrier]
    | some new => rfl

/-- **`link_tcp` counts the TLS lanes that are alive.** -/
theorem linkTcp_live (h : (portal cfg).Reach cond initial p) :
    p.world.stats.linkTcp = liveGuards (fun g => decide (g.carrier = .tlsTcp)) p := by
  have hguards := guardsOnly_ofGuards fun g => decide (g.carrier = .tlsTcp)
  refine h.bag_invariant (I := fun w fs => w.stats.linkTcp =
    ((owned (ofGuards fun g => decide (g.carrier = .tlsTcp)) fs +
      heldPending (ofGuards fun g => decide (g.carrier = .tlsTcp)) w.pending : Nat) : Int))
    rfl ?_ ?_
  · intro p b _ ih
    have hstart := hguards.start b p.world
    have hpending := (start_ledger (ofGuards fun g => decide (g.carrier = .tlsTcp)) b
      p.world).2.2
    have hstats : (start b p.world).world.stats = p.world.stats := by cases b <;> rfl
    change (start b p.world).world.stats.linkTcp = ((owned _ (↑(start b p.world).all + p.bag) +
      heldPending _ (start b p.world).world.pending : Nat) : Int)
    rw [owned_add, hstart, hpending, hstats, Nat.zero_add]
    exact ih
  · intro p choice f others r hp hbag ih _ _ hexec
    have hbalance := hguards.exec hp hbag hexec
    rw [owned_cons] at ih
    rw [owned_add, exec_stats hexec]
    cases f with
    | registerTcp s =>
      have hstats : (registerTcpLink cfg p.world s).stats.linkTcp = p.world.stats.linkTcp + 1 := rfl
      simp only [statsAfter, hstats]
      simp only [Frame.gain, Frame.loss, ofGuards, decide_true, Bool.toNat_true] at hbalance
      omega
    | registerQuicLinks s generation =>
      have hstats : (registerQuicLink cfg p.world s generation).1.stats.linkTcp =
          p.world.stats.linkTcp := by
        simp only [registerQuicLink]
        split <;> rfl
      simp only [statsAfter, hstats]
      simp only [Frame.gain, Frame.loss] at hbalance
      omega
    | registerQuic s =>
      simp only [Frame.gain, Frame.loss, ofGuards, reduceCtorEq, decide_false,
        Bool.toNat_false] at hbalance
      simp only [statsAfter]
      omega
    | linkGuardDrop g =>
      have hlive := live_of_drop (hbag ▸ Multiset.mem_cons_self _ _)
      simp only [statsAfter, linkTcp_drop (lane_counted hp hlive)]
      simp only [Frame.gain, Frame.loss, Frame.weight, ofGuards] at hbalance ih
      by_cases hcarrier : g.carrier = .tlsTcp
      · simp only [hcarrier, decide_true, Bool.toNat_true, if_true] at hbalance ih ⊢
        omega
      · simp only [hcarrier, decide_false, Bool.toNat_false, if_false] at hbalance ih ⊢
        omega
    | _ =>
      simp only [Frame.gain, Frame.loss] at hbalance
      simp only [statsAfter]
      omega

/-- One connection of a session is current, so one guard at most is. -/
theorem current_le_one (h : (portal cfg).Reach cond initial p) (s : SessionId) :
    liveGuards (fun g => decide (g.carrier = .quic ∧ g.sessionId = s ∧ g.quicGeneration.isSome ∧
      g.quicGeneration = activeQuicGeneration p.world.links s)) p ≤ 1 := by
  refine (owned_mono ?_ p).trans
    ((generation_ledger ((activeQuicGeneration p.world.links s).getD 0) h).trans ?_)
  · intro a
    cases a with
    | guard g =>
      by_cases hcurrent : g.carrier = .quic ∧ g.sessionId = s ∧ g.quicGeneration.isSome ∧
          g.quicGeneration = activeQuicGeneration p.world.links s
      · obtain ⟨generation, hgeneration⟩ := Option.isSome_iff_exists.mp hcurrent.2.2.1
        have hactive := hcurrent.2.2.2.symm.trans hgeneration
        simp [ofGuards, ofGeneration, hactive, hgeneration, Bool.toNat_le]
      · simp [ofGuards, hcurrent]
    | _ => exact Nat.zero_le _
  · split <;> omega

end Runs

/-- In every reachable state the three counters agree with the links and with the guards that are
alive, a session has an entry exactly if it has a lane or a current QUIC connection, one QUIC guard
of a session is current at most, and no guard that is alive can take a counter below zero. -/
theorem link_counters {cfg : Config} {p : Pool} (h : (portal cfg).Reachable initial p) :
    p.world.stats.linkTcp = liveGuards (fun g => decide (g.carrier = .tlsTcp)) p ∧
    p.world.stats.linkTcp = (total p.world.links fun _ counts => counts.tcp) ∧
    p.world.stats.linkUdp = (keysWhere p.world.links fun _ counts => counts.udp.isSome).card ∧
    p.world.stats.linkPairs = (keysWhere p.world.links fun _ counts =>
      decide (0 < counts.tcp) && counts.udp.isSome).card ∧
    (∀ s, (p.world.links.lookup s).isSome ↔
      0 < liveGuards (fun g => decide (g.carrier = .tlsTcp ∧ g.sessionId = s)) p ∨
        (activeQuicGeneration p.world.links s).isSome) ∧
    (∀ s, liveGuards (fun g => decide (g.carrier = .quic ∧ g.sessionId = s ∧
      g.quicGeneration.isSome ∧ g.quicGeneration = activeQuicGeneration p.world.links s)) p ≤ 1) ∧
    ∀ g, 0 < liveGuards (fun g' => decide (g' = g)) p →
      (g.carrier = .tlsTcp → 0 < tcpLanes p.world.links g.sessionId) ∧
      0 ≤ (dropLink p.world g).1.stats.linkTcp ∧ 0 ≤ (dropLink p.world g).1.stats.linkUdp ∧
      0 ≤ (dropLink p.world g).1.stats.linkPairs := by
  have hcounted := counted h
  refine ⟨linkTcp_live h, hcounted.tcp, ?_, ?_, ?_, current_le_one h, ?_⟩
  · rw [hcounted.udp, ← total_toNat]
    rfl
  · rw [hcounted.pairs, ← total_toNat]
    rfl
  · intro s
    have hlanes : liveGuards (fun g => decide (g.carrier = .tlsTcp ∧ g.sessionId = s)) p =
        tcpLanes p.world.links s := by
      have hweight : ofGuards (fun g => decide (g.carrier = .tlsTcp ∧ g.sessionId = s)) =
          ofLane s := by
        funext a
        cases a with
        | guard g =>
          by_cases hg : g.carrier = .tlsTcp ∧ g.sessionId = s
          · simp [ofGuards, ofLane, hg]
          · have hg' : ¬ (g.sessionId = s ∧ g.carrier = .tlsTcp) := fun hg' => hg ⟨hg'.2, hg'.1⟩
            simp only [ofGuards, ofLane, hg, hg', decide_false, Bool.toNat_false, if_false]
        | _ => rfl
      rw [liveGuards, hweight]
      exact lanes_ledger s h
    rw [hlanes, tcpLanes, activeQuicGeneration]
    cases hfound : p.world.links.lookup s with
    | none => simp
    | some counts => simpa using hcounted.nonempty s counts hfound
  · intro g hlive
    have hafter := hcounted.drop (lane_counted h hlive)
    refine ⟨lane_counted h hlive, ?_, ?_, ?_⟩
    · rw [hafter.tcp]
      exact Int.natCast_nonneg _
    · rw [hafter.udp]
      exact Int.natCast_nonneg _
    · rw [hafter.pairs]
      exact Int.natCast_nonneg _

namespace Sample

/-- A session with a TLS lane and a QUIC connection. -/
def bothCarriers : List (Tasks.Act Choice Start) :=
  [.boot (.registerTcp session), .run 0 .go] ++ registerQuic 1

theorem bothCarriers_counted :
    ∃ p, (portal config).Reachable initial p ∧ p.world.stats.linkPairs = 1 ∧
      liveGuards (fun g => decide (g.carrier = .tlsTcp)) p = 1 ∧
      (keysWhere p.world.links fun _ counts =>
        decide (0 < counts.tcp) && counts.udp.isSome).card = 1 := by
  obtain ⟨p, hreach, hp⟩ := Tasks.System.exists_reachable_of_run (S := portal config)
    (P := fun p => decide (p.world.stats.linkTcp = 1) && decide (p.world.stats.linkPairs = 1))
    (show ((portal config).run initial bothCarriers).any _ = true by decide +kernel)
  simp only [Bool.and_eq_true, decide_eq_true_eq] at hp
  obtain ⟨htcp, _, _, hpairs, _⟩ := link_counters hreach
  exact ⟨p, hreach, hp.2, by omega, by omega⟩

end Sample

end Nowhere.Portal
