import Mathlib.Data.Finset.Option
import Nowhere.Portal.Tombstones

/-!
# Bounds of the registry

`max_pending` bounds two of the registry's maps. A session has at most that many claims that are
not active, because `reserve_claim` counts them under the lock under which it adds one
(`pendingCount_le`); and there are at most that many tombstones, because a full map gives up its
oldest one (`rejections_le`).

A key does not have a tombstone and a pending entry at the same time. `reject_flow_setup` inserts
the tombstone while it holds the locks of both pending maps, after it removed the key's entries
from them; the install block adds an entry under the lock of its map, after it found no tombstone
(`apart`).
-/

namespace Nowhere.Portal

open Protocol Assoc

/-! ## Claims -/

section Claims

variable {cfg : Config} {choice : Choice} {w : World} {f : Frame} {r : Effect} {s : SessionId}

/-- The keys of the claims of a session that are not active. -/
def Claims.pendingKeys (t : Claims) (s : SessionId) : Finset FlowKey :=
  keysWhere t.map fun key claim => decide (key.sessionId = s) && !claim.active

theorem card_pendingKeys (t : Claims) (s : SessionId) :
    (t.pendingKeys s).card = t.pendingCount s :=
  card_keysWhere _ _

variable {key : FlowKey}

theorem mem_pendingKeys {t : Claims} : key ∈ t.pendingKeys s ↔
    ∃ claim, t.map.lookup key = some claim ∧ key.sessionId = s ∧ claim.active = false := by
  simp [Claims.pendingKeys, mem_keysWhere]

/-- A claim that is not active after a step was there, or the step found room for it. -/
theorem pendingKeys_from (hkey : key ∈ (claimsAfter cfg w f).pendingKeys s) :
    key ∈ w.claims.pendingKeys s ∨
      f.claimKey = some key ∧ w.claims.pendingCount s < cfg.maxPending := by
  obtain ⟨claim, hfound, rfl, hinactive⟩ := mem_pendingKeys.mp hkey
  cases claim_origin hfound with
  | same found => exact .inl (mem_pendingKeys.mpr ⟨_, found, rfl, hinactive⟩)
  | updated found inactive => exact .inl (mem_pendingKeys.mpr ⟨_, found, rfl, inactive⟩)
  | created missing room =>
    refine .inr ⟨?_, room⟩
    by_contra hother
    have hbefore : w.claims.map.lookup key = some claim := by
      by_cases hdrain : f = .drainClaims
      · subst hdrain
        rw [claimsAfter, lookup_retain] at hfound
        exact (Option.filter_eq_some_iff.mp hfound).1
      · rwa [claimsAfter_of_ne hother hdrain] at hfound
    rw [missing] at hbefore
    cases hbefore
  | refreshed found => exact .inl (mem_pendingKeys.mpr ⟨_, found, rfl, hinactive⟩)
  | activated found => cases hinactive

theorem pendingCount_exec (h : exec cfg choice w f = some r)
    (ih : w.claims.pendingCount s ≤ cfg.maxPending) :
    r.world.claims.pendingCount s ≤ cfg.maxPending := by
  rw [(exec_changes h).claims, ← card_pendingKeys]
  rw [← card_pendingKeys] at ih
  by_cases hroom : w.claims.pendingCount s < cfg.maxPending
  · -- the step adds one key at most
    have hsubset : (claimsAfter cfg w f).pendingKeys s ⊆
        f.claimKey.toFinset ∪ w.claims.pendingKeys s := by
      intro key hkey
      rcases pendingKeys_from hkey with hold | ⟨hnew, _⟩
      · exact Finset.mem_union_right _ hold
      · exact Finset.mem_union_left _ (by simp [hnew])
    have hone : f.claimKey.toFinset.card ≤ 1 := by
      cases f.claimKey <;> simp
    have hcard := (Finset.card_le_card hsubset).trans (Finset.card_union_le _ _)
    rw [card_pendingKeys w.claims] at hcard
    omega
  · have hsubset : (claimsAfter cfg w f).pendingKeys s ⊆ w.claims.pendingKeys s := by
      intro key hkey
      exact (pendingKeys_from hkey).resolve_right fun hnew => hroom hnew.2
    exact (Finset.card_le_card hsubset).trans ih

end Claims

/-! ## Tombstones -/

section Tombstones

variable {cfg : Config} {now pick : Nat} {m : Map FlowKey TerminalRejection} {key : FlowKey}

theorem length_retain_le (m : Map FlowKey TerminalRejection)
    (p : FlowKey → TerminalRejection → Bool) :
    (retain m p).entries.length ≤ m.entries.length :=
  List.length_filter_le _ _

theorem length_erase_add (m : Map FlowKey TerminalRejection) (key : FlowKey) :
    (m.erase key).entries.length + (m.lookup key).elim 0 (fun _ => 1) = m.entries.length := by
  rw [length_entries, length_entries]
  exact total_erase m key fun _ _ => 1

theorem length_insert_eq (m : Map FlowKey TerminalRejection) (key : FlowKey)
    (rej : TerminalRejection) :
    (m.insert key rej).entries.length = 1 + (m.erase key).entries.length := by
  rw [length_entries, length_entries]
  exact total_insert m key rej fun _ _ => 1

/-- A lookup does not add tombstones. -/
theorem length_terminalRejection_le {consume : Bool} :
    (terminalRejection now m key consume).1.entries.length ≤ m.entries.length := by
  have hlive := length_retain_le m fun _ r => decide (now < r.expiresAt)
  cases consume with
  | false => exact hlive
  | true =>
    have herase := length_erase_add (retain m fun _ r => decide (now < r.expiresAt)) key
    simp only [terminalRejection, if_true]
    omega

/-- An insertion into a full map gives up another tombstone. -/
theorem length_insertRejection_le (hpos : 1 ≤ cfg.maxPending) (rej : TerminalRejection)
    (hm : m.entries.length ≤ cfg.maxPending) :
    (insertRejection cfg now pick m key rej).entries.length ≤ cfg.maxPending := by
  have hlive := length_retain_le m fun _ r => decide (now < r.expiresAt)
  rw [insertRejection]
  generalize retain m (fun _ r => decide (now < r.expiresAt)) = live at hlive ⊢
  have herase := length_erase_add live key
  by_cases hfull : live.lookup key = none ∧ cfg.maxPending ≤ live.entries.length
  · have hne : live.entries ≠ [] := by
      intro hnil
      rw [hnil] at hfull
      exact absurd (hpos.trans hfull.2) (by simp)
    obtain ⟨oldest, holdest⟩ := Option.isSome_iff_exists.mp
      (minKey_isSome (fun _ r => r.expiresAt) pick hne)
    obtain ⟨r, hr, _⟩ := minKey_least holdest
    have hgone := length_erase_add live oldest
    have hgone' := length_erase_add (live.erase oldest) key
    simp only [if_pos hfull, holdest, length_insert_eq]
    rw [hr, Option.elim_some] at hgone
    omega
  · simp only [if_neg hfull, length_insert_eq]
    rw [not_and, Nat.not_le] at hfull
    cases hfound : live.lookup key with
    | none =>
      have hroom := hfull hfound
      omega
    | some r =>
      rw [hfound, Option.elim_some] at herase
      omega

theorem rejections_exec {choice : Choice} {w : World} {f : Frame} {r : Effect}
    (hpos : 1 ≤ cfg.maxPending) (h : exec cfg choice w f = some r)
    (ih : w.rejections.entries.length ≤ cfg.maxPending) :
    r.world.rejections.entries.length ≤ cfg.maxPending := by
  have hstep := exec_tombstones h
  generalize r.world.rejections = m at hstep ⊢
  cases hstep with
  | same => exact ih
  | lookedUp _ => exact length_terminalRejection_le.trans ih
  | inserted pick => exact length_insertRejection_le hpos _ ih
  | drained => exact Nat.zero_le _

end Tombstones

/-! ## Tombstones and pending entries -/

/-- The frame runs after the key's entry was removed from the map of the kind, and still holds
the lock of that map. -/
def Frame.cleared (kind : FlowKind) : Frame → Option FlowKey
  | .rejectUdpEntry key .. => if kind = .tcp then some key else none
  | .rejectFinish key .. | .rejectTombstone key .. => some key
  | _ => none

theorem Frame.cleared_of_cleanup {g : Frame} {kind : FlowKind} (h : g.cleanup = true) :
    g.cleared kind = none := by
  cases g <;> first | rfl | cases h

/-- No key has a tombstone and a pending entry, nor is about to get the one while it has the
other. -/
structure Apart (w : World) (fs : Multiset Frame) : Prop where
  standing : ∀ kind key rej p, w.rejections.lookup key = some rej →
    (w.pending kind).lookup key ≠ some p
  installing : ∀ c active rej, .installReserve c active ∈ fs → w.rejections.lookup c.key ≠ some rej
  clearing : ∀ kind key f p, f ∈ fs → f.cleared kind = some key →
    (w.pending kind).lookup key ≠ some p

section Apart

variable {cfg : Config} {choice : Choice} {w : World} {f g : Frame} {r : Effect}
  {others : Multiset Frame} {kind : FlowKind} {key : FlowKey}

/-- A key has an entry after a step if it had one, or if the install block adds it. -/
theorem pending_from (h : exec cfg choice w f = some r) {p : Pending}
    (hfound : (r.world.pending kind).lookup key = some p) :
    (∃ p₀, (w.pending kind).lookup key = some p₀) ∨
      ∃ c active, f = .installReserve c active ∧ kind = c.via ∧ key = c.key := by
  cases (exec_changes h).pending kind key p hfound with
  | same found => exact .inl ⟨_, found⟩
  | stale found => exact .inl ⟨_, found⟩
  | filled => exact .inr ⟨_, _, rfl, rfl, rfl⟩
  | refreshed found => exact .inl ⟨_, found⟩

/-- The install block goes on only without a tombstone. -/
theorem installReserve_from (h : exec cfg choice w f = some r) {c : Submission}
    {active : Option Nat} (hg : .installReserve c active ∈ r.all) :
    r.world.rejections.lookup c.key = none := by
  rcases exec_next h _ hg with hcleanup | hnext
  · cases hcleanup
  · cases hnext
    cases h
    cases hcode : (terminalRejection w.now w.rejections c.key
        (decide (c.header.role = .attach))).2 with
    | none =>
      have hlive : (w.rejections.lookup c.key).filter (fun r => decide (w.now < r.expiresAt)) =
          none := by
        rw [← lookup_retain w.rejections fun _ r => decide (w.now < r.expiresAt)]
        exact Option.map_eq_none_iff.mp hcode
      show (terminalRejection w.now w.rejections c.key _).1.lookup c.key = none
      rw [lookup_terminalRejection, hlive, ite_self]
    | some code =>
      simp only [installTombstoneStep, hcode, Tasks.Effect.all, List.flatten_nil,
        List.append_nil] at hg
      cases Tidy.rejected c _ _ _ hg

/-- The locked part of `reject_flow_setup` removes the entries of one map after the other. -/
theorem cleared_from (h : exec cfg choice w f = some r) (hg : g ∈ r.all)
    (hkey : g.cleared kind = some key) :
    (r.world.pending kind).lookup key = none ∨ f.cleared kind = some key := by
  rcases exec_next h _ hg with hcleanup | hnext
  · rw [Frame.cleared_of_cleanup hcleanup] at hkey
    cases hkey
  · cases hnext with
    | rejectUdpEntry inactive =>
      simp only [Frame.cleared, Option.ite_none_right_eq_some, Option.some.injEq] at hkey
      obtain ⟨rfl, rfl⟩ := hkey
      cases h
      exact .inl (by simp [rejectClaimsStep, inactive, rejectEntry])
    | rejectFinish =>
      cases hkey
      cases h
      cases kind with
      | tcp => exact .inr rfl
      | udp => exact .inl (by simp [rejectEntry])
    | rejectTombstone =>
      cases hkey
      exact .inr rfl
    | _ => cases hkey

theorem Frame.holds_of_cleared (h : g.cleared kind = some key) : pendingLock kind ∈ g.holds := by
  cases g <;> cases kind <;> simp_all [Frame.cleared, Frame.holds, pendingLock]

theorem Apart.exec (ih : Apart w (f ::ₘ others)) (hex : (portal cfg).Exclusive (f ::ₘ others))
    (h : exec cfg choice w f = some r) : Apart r.world (↑r.all + others) := by
  constructor
  · intro kind key rej p hrej hp
    rcases pending_from h hp with ⟨p₀, hp₀⟩ | ⟨c, active, rfl, rfl, rfl⟩
    · rcases tombstone_from h hrej with hold | rfl
      · exact ih.standing kind key rej p₀ hold hp₀
      · exact ih.clearing kind key _ p₀ (Multiset.mem_cons_self _ _) rfl hp₀
    · rcases tombstone_from h hrej with hold | hnew
      · exact ih.installing c active rej (Multiset.mem_cons_self _ _) hold
      · cases hnew
  · intro c active rej hg hrej
    rcases Multiset.mem_add.mp hg with hg | hg
    · rw [installReserve_from h (Multiset.mem_coe.mp hg)] at hrej
      cases hrej
    · rcases tombstone_from h hrej with hold | rfl
      · exact ih.installing c active rej (Multiset.mem_cons_of_mem hg) hold
      · -- both hold the lock of the map that the call goes to
        exact hex.absurd (l := pendingLock c.via) hg
          (by cases c.via <;> simp [portal, Frame.holds, pendingLock])
          (by simp [portal, Frame.holds])
  · intro kind key g p hg hkey hp
    rcases Multiset.mem_add.mp hg with hg | hg
    · rcases cleared_from h (Multiset.mem_coe.mp hg) hkey with hnone | hstill
      · rw [hnone] at hp
        cases hp
      · rcases pending_from h hp with ⟨p₀, hp₀⟩ | ⟨c, active, rfl, _, _⟩
        · exact ih.clearing kind key f p₀ (Multiset.mem_cons_self _ _) hstill hp₀
        · cases hstill
    · rcases pending_from h hp with ⟨p₀, hp₀⟩ | ⟨c, active, rfl, rfl, rfl⟩
      · exact ih.clearing kind key g p₀ (Multiset.mem_cons_of_mem hg) hkey hp₀
      · exact hex.absurd hg (by simp [portal, Frame.holds]) (Frame.holds_of_cleared hkey)

end Apart

/-! ## Whole runs -/

section Runs

variable {cfg : Config} {cond : Choice → World → Frame → Prop} {p : Pool}

theorem pendingCount_le (h : (portal cfg).Reach cond initial p) (s : SessionId) :
    p.world.claims.pendingCount s ≤ cfg.maxPending := by
  refine h.bag_invariant (I := fun w _ => w.claims.pendingCount s ≤ cfg.maxPending)
    (Nat.zero_le _) ?_ ?_
  · intro p b _ ih
    rw [(boot_undisturbed cfg b p.world).claims]
    exact ih
  · intro p choice f _ r _ _ ih _ _ hexec
    exact pendingCount_exec hexec ih

theorem rejections_le (hpos : 1 ≤ cfg.maxPending) (h : (portal cfg).Reach cond initial p) :
    p.world.rejections.entries.length ≤ cfg.maxPending := by
  refine h.bag_invariant (I := fun w _ => w.rejections.entries.length ≤ cfg.maxPending)
    (Nat.zero_le _) ?_ ?_
  · intro p b _ ih
    rw [(boot_undisturbed cfg b p.world).rejections]
    exact ih
  · intro p choice f _ r _ _ ih _ _ hexec
    exact rejections_exec hpos hexec ih

theorem apart (h : (portal cfg).Reach cond initial p) : Apart p.world p.bag := by
  refine h.bag_invariant ?_ ?_ ?_
  · constructor <;> simp [initial, World.init, Tasks.Pool.bag, Tasks.Pool.frames]
  · intro p b _ ih
    have hsame := start_undisturbed b p.world
    have hrejections : ((portal cfg).boot b p.world).world.rejections = p.world.rejections :=
      hsame.rejections
    have hpending : ((portal cfg).boot b p.world).world.pending = p.world.pending := hsame.pending
    constructor
    · intro kind key rej q hrej hq
      rw [hrejections] at hrej
      rw [hpending] at hq
      exact ih.standing kind key rej q hrej hq
    · intro c active rej hg hrej
      rw [hrejections] at hrej
      exact ih.installing c active rej (mem_of_start hg rfl) hrej
    · intro kind key g q hg hkey hq
      rw [hpending] at hq
      refine ih.clearing kind key g q (mem_of_start hg ?_) hkey hq
      cases g <;> first | rfl | cases hkey
  · intro p choice f others r hp hbag ih _ _ hexec
    exact ih.exec (hbag ▸ exclusive hp) hexec

end Runs

/-- In every reachable state a session has at most `max_pending` claims that are not active, there
are at most `max_pending` tombstones, and no key has a tombstone and a pending entry. -/
theorem registry_bounds {cfg : Config} {p : Pool} (h : (portal cfg).Reachable initial p) :
    (∀ s, p.world.claims.pendingCount s ≤ cfg.maxPending) ∧
    (1 ≤ cfg.maxPending → p.world.rejections.entries.length ≤ cfg.maxPending) ∧
    ∀ kind key, (p.world.rejections.lookup key).isSome →
      (p.world.pending kind).lookup key = none := by
  refine ⟨fun s => pendingCount_le h s, fun hpos => rejections_le hpos h, ?_⟩
  intro kind key hsome
  obtain ⟨rej, hrej⟩ := Option.isSome_iff_exists.mp hsome
  by_contra hne
  obtain ⟨q, hq⟩ := Option.ne_none_iff_exists'.mp hne
  exact (apart h).standing kind key rej q hrej hq

namespace Sample

/-- Room for one pending flow and one tombstone. -/
def tightConfig : Config := ⟨1, 15, 4⟩

/-- Flow 1 is refused and leaves a tombstone, then the OPEN of flow 2 becomes pending. -/
def refusedThenOpened : List (Tasks.Act Choice Start) :=
  .boot (.refuse key .invalidRequest) :: List.replicate 5 (.run 0 .go) ++ [.run 0 (.pick 0)] ++
    lane 1 ⟨.opening, 2, .tcp, .tlsTcp, .quic⟩ (some target) 7

/-- Both bounds are reached, by different keys. -/
theorem refusedThenOpened_bounds :
    ∃ p, (portal tightConfig).Reachable initial p ∧ p.world.claims.pendingCount session = 1 ∧
      p.world.rejections.entries.length = 1 ∧ (p.world.pending .tcp).lookup key = none := by
  obtain ⟨p, hreach, hp⟩ := Tasks.System.exists_reachable_of_run (S := portal tightConfig)
    (P := fun p => decide (1 ≤ p.world.claims.pendingCount session) &&
      (p.world.rejections.lookup key).isSome && decide (1 ≤ p.world.rejections.entries.length))
    (show ((portal tightConfig).run initial refusedThenOpened).any _ = true by decide +kernel)
  simp only [Bool.and_eq_true, decide_eq_true_eq] at hp
  obtain ⟨hclaims, htombstones, hapart⟩ := registry_bounds hreach
  exact ⟨p, hreach, Nat.le_antisymm (hclaims session) hp.1.1,
    Nat.le_antisymm (htombstones (Nat.le_refl 1)) hp.2, hapart .tcp key hp.1.2⟩

end Sample

end Nowhere.Portal
