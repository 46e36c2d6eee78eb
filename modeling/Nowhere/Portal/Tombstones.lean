import Nowhere.Lib.Following
import Nowhere.Portal.Locks

/-!
# How long a tombstone stands

`reject_flow_setup` leaves a tombstone when it finds no downlink to write to. Three things can
remove it before it expires: a consuming lookup, the drain of a shutdown, and the insertion of
another tombstone into a full map, which gives up the one that expires first.

The insertions run under the locks of both pending maps, so that the expiry instants are
computed in the order of the insertions (`expiring`). A tombstone is therefore younger than
everything the map held when it was inserted, and is given up only after `max_pending` other
keys have received theirs (`Standing.reach`).
-/

namespace Nowhere.Portal

open Protocol Assoc

/-! ## The two operations -/

section Operations

variable {cfg : Config} {now pick : Nat} {m : Map FlowKey TerminalRejection} {key k : FlowKey}
  {r s : TerminalRejection} {consume : Bool}

theorem lookup_terminalRejection : (terminalRejection now m key consume).1.lookup k =
    if consume = true ∧ k = key then none
    else (m.lookup k).filter fun r => decide (now < r.expiresAt) := by
  cases consume <;> simp [terminalRejection, lookup_erase, lookup_retain]

theorem lookup_terminalRejection_self (hfound : m.lookup key = some r)
    (hlive : now < r.expiresAt) : (terminalRejection now m key consume).1.lookup key =
    if consume then none else some r := by
  rw [lookup_terminalRejection, hfound, Option.filter_some, if_pos (decide_eq_true hlive)]
  simp only [and_true]

theorem terminalRejection_found (hfound : m.lookup key = some r) (hlive : now < r.expiresAt) :
    (terminalRejection now m key consume).2 = some r.code := by
  simp [terminalRejection, lookup_retain, hfound, hlive]

theorem terminalRejection_missing (hmissing : m.lookup key = none) :
    (terminalRejection now m key consume).2 = none := by
  simp [terminalRejection, lookup_retain, hmissing]

/-- A lookup adds nothing. -/
theorem of_lookup_terminalRejection
    (h : (terminalRejection now m key consume).1.lookup k = some r) : m.lookup k = some r := by
  rw [lookup_terminalRejection] at h
  split at h
  · cases h
  · exact (Option.filter_eq_some_iff.mp h).1

theorem lookup_insertRejection_self :
    (insertRejection cfg now pick m key r).lookup key = some r := by
  simp [insertRejection]

theorem of_lookup_insertRejection (hk : k ≠ key)
    (h : (insertRejection cfg now pick m key r).lookup k = some s) : m.lookup k = some s := by
  have hlive (h : (retain m fun _ r => decide (now < r.expiresAt)).lookup k = some s) :
      m.lookup k = some s := by
    rw [lookup_retain] at h
    exact (Option.filter_eq_some_iff.mp h).1
  simp only [insertRejection, lookup_insert, if_neg hk] at h
  split at h
  · split at h
    · rw [lookup_erase] at h
      split at h
      · cases h
      · exact hlive h
    · exact hlive h
  · exact hlive h

/-- An insertion leaves a tombstone alone while fewer than `max_pending` keys have younger
ones. -/
theorem lookup_insertRejection {others : Finset FlowKey} (hk : k ≠ key)
    (hfound : m.lookup k = some s) (hlive : now < s.expiresAt)
    (hyounger : ∀ k' s', k' ≠ k → m.lookup k' = some s' → s.expiresAt ≤ s'.expiresAt →
      k' ∈ others)
    (hkey : key ∈ others) (hcard : others.card < cfg.maxPending) :
    (insertRejection cfg now pick m key r).lookup k = some s := by
  have hkept : (retain m fun _ r => decide (now < r.expiresAt)).lookup k = some s := by
    rw [lookup_retain, hfound, Option.filter_some, if_pos (decide_eq_true hlive)]
  simp only [insertRejection, lookup_insert, if_neg hk]
  split
  · rename_i hfull
    have hspared : minKey (retain m fun _ r => decide (now < r.expiresAt))
        (fun _ r => r.expiresAt) pick ≠ some k := by
      refine minKey_ne hkept ?_ hfull.1 hkey (hcard.trans_le hfull.2)
      intro k' s' hkk hs'
      rw [lookup_retain] at hs'
      exact hyounger k' s' hkk (Option.filter_eq_some_iff.mp hs').1
    split
    · rename_i oldest holdest
      have hne : k ≠ oldest := by
        rintro rfl
        exact hspared holdest
      rw [lookup_erase, if_neg hne, hkept]
    · exact hkept
  · exact hkept

end Operations

/-! ## Tombstones along a step -/

/-- The key whose tombstone the frame's lookup consumes. -/
def Frame.consumes : Frame → Option FlowKey
  | .terminalRejection c => if c.header.role = .duplex then some c.key else none
  | .installTombstone c _ => if c.header.role = .attach then some c.key else none
  | _ => none

/-- What a step may do to the tombstones. -/
inductive Tombstones (cfg : Config) (w : World) : Frame → Map FlowKey TerminalRejection → Prop
  | same {f : Frame} : Tombstones cfg w f w.rejections
  | lookedUp {f : Frame} {key : FlowKey} {consume : Bool}
      (consumes : consume = true → f.consumes = some key) :
      Tombstones cfg w f (terminalRejection w.now w.rejections key consume).1
  | inserted {key : FlowKey} {code : FlowErrorCode} {expiresAt : Nat} (pick : Nat) :
      Tombstones cfg w (.rejectTombstone key code expiresAt)
        (insertRejection cfg w.now pick w.rejections key ⟨code, expiresAt⟩)
  | drained : Tombstones cfg w .drainRejections ∅

section Steps

variable {cfg : Config} {choice : Choice} {w : World} {f : Frame} {r : Effect}

theorem exec_tombstones (h : exec cfg choice w f = some r) :
    Tombstones cfg w f r.world.rejections := by
  rw [(exec_changes h).rejections]
  cases f with
  | terminalRejection c => exact .lookedUp (by simp [Frame.consumes])
  | installTombstone c active => exact .lookedUp (by simp [Frame.consumes])
  | rejectTombstone key code expiresAt =>
    cases choice with
    | pick n => exact .inserted n
    | _ => exact .same
  | drainRejections => exact .drained
  | _ => exact .same

/-- A tombstone found after a step was there before or has just been inserted. -/
theorem tombstone_from (h : exec cfg choice w f = some r) {k : FlowKey} {s : TerminalRejection}
    (hfound : r.world.rejections.lookup k = some s) :
    w.rejections.lookup k = some s ∨ f = .rejectTombstone k s.code s.expiresAt := by
  have hstep := exec_tombstones h
  generalize r.world.rejections = m at hstep hfound
  cases hstep with
  | same => exact .inl hfound
  | lookedUp _ => exact .inl (of_lookup_terminalRejection hfound)
  | @inserted key code expiresAt pick =>
    by_cases hk : k = key
    · subst hk
      rw [lookup_insertRejection_self] at hfound
      cases hfound
      exact .inr rfl
    · exact .inl (of_lookup_insertRejection hk hfound)
  | drained => cases hfound

/-- Where an insertion comes from. -/
theorem rejectTombstone_from (h : exec cfg choice w f = some r) {key : FlowKey}
    {code : FlowErrorCode} {expiresAt : Nat} (hg : .rejectTombstone key code expiresAt ∈ r.all) :
    f = .rejectFinish key code none none ∧ expiresAt = w.now + cfg.timeout := by
  rcases exec_next h _ hg with hcleanup | hnext
  · cases hcleanup
  · cases hnext
    exact ⟨rfl, rfl⟩

end Steps

/-! ## The order of the expiry instants -/

theorem now_start_le (b : Start) (w : World) : w.now ≤ (start b w).world.now := by
  cases b <;> simp [start, startSubmission]

variable {cfg : Config} {cond : Choice → World → Frame → Prop} {p q : Pool} {choice : Choice}
  {w : World} {f : Frame} {r : Effect} {key : FlowKey} {rej : TerminalRejection}
  {others : Finset FlowKey}

theorem now_le (h : (portal cfg).Reach cond p q) : p.world.now ≤ q.world.now := by
  refine h.bag_invariant (I := fun w _ => p.world.now ≤ w.now) (Nat.le_refl _) ?_ ?_
  · intro q b _ ih
    exact ih.trans (now_start_le b q.world)
  · intro q choice f others r _ _ ih _ _ hexec
    rw [(exec_changes hexec).now]
    exact ih

/-- No tombstone outlasts one that could be computed now, nor one about to be inserted. -/
structure Expiring (cfg : Config) (w : World) (fs : Multiset Frame) : Prop where
  standing : ∀ k r, w.rejections.lookup k = some r → r.expiresAt ≤ w.now + cfg.timeout
  coming : ∀ key code expiresAt, .rejectTombstone key code expiresAt ∈ fs →
    expiresAt ≤ w.now + cfg.timeout ∧
      ∀ k r, w.rejections.lookup k = some r → r.expiresAt ≤ expiresAt

theorem Expiring.exec {others : Multiset Frame} (ih : Expiring cfg w (f ::ₘ others))
    (hex : (portal cfg).Exclusive (f ::ₘ others)) (h : Portal.exec cfg choice w f = some r) :
    Expiring cfg r.world (↑r.all + others) := by
  have hnow := (exec_changes h).now
  constructor
  · intro k s hfound
    rw [hnow]
    rcases tombstone_from h hfound with hold | rfl
    · exact ih.standing k s hold
    · exact (ih.coming _ _ _ (Multiset.mem_cons_self _ _)).1
  · intro key code expiresAt hg
    rw [hnow]
    rcases Multiset.mem_add.mp hg with hg | hg
    · obtain ⟨rfl, rfl⟩ := rejectTombstone_from h (Multiset.mem_coe.mp hg)
      refine ⟨Nat.le_refl _, ?_⟩
      intro k s hfound
      rcases tombstone_from h hfound with hold | hnew
      · exact ih.standing k s hold
      · cases hnew
    · obtain ⟨hbound, hall⟩ := ih.coming _ _ _ (Multiset.mem_cons_of_mem hg)
      refine ⟨hbound, ?_⟩
      intro k s hfound
      rcases tombstone_from h hfound with hold | rfl
      · exact hall k s hold
      · -- two insertions at once: both hold the lock of the TCP map
        exact (hex.absurd (l := .tcp) hg (by simp [portal, Frame.holds])
          (by simp [portal, Frame.holds])).elim

theorem expiring {p : Pool} (h : (portal cfg).Reach cond initial p) :
    Expiring cfg p.world p.bag := by
  refine h.bag_invariant ?_ ?_ ?_
  · constructor <;> simp [initial, World.init, Tasks.Pool.bag, Tasks.Pool.frames]
  · intro p b _ ih
    have hnow := now_start_le b p.world
    have hsame := (boot_undisturbed cfg b p.world).rejections
    constructor
    · intro k r hfound
      rw [hsame] at hfound
      exact (ih.standing k r hfound).trans (Nat.add_le_add_right hnow _)
    · intro key code expiresAt hg
      obtain ⟨hbound, hall⟩ := ih.coming _ _ _ (mem_of_start hg rfl)
      refine ⟨hbound.trans (Nat.add_le_add_right hnow _), ?_⟩
      intro k r hfound
      rw [hsame] at hfound
      exact hall k r hfound
  · intro p choice f others r hp hbag ih _ _ hexec
    exact ih.exec (hbag ▸ exclusive hp) hexec

/-! ## A standing tombstone -/

/-- The key has the tombstone `rej`, and only keys of `others` have one that is as young. -/
structure Standing (key : FlowKey) (rej : TerminalRejection) (others : Finset FlowKey)
    (m : Map FlowKey TerminalRejection) : Prop where
  found : m.lookup key = some rej
  younger : ∀ k r, k ≠ key → m.lookup k = some r → rej.expiresAt ≤ r.expiresAt → k ∈ others

/-- A step while the key's tombstone is left in peace: it has not expired, nothing drains it or
consumes it, and new tombstones belong to keys of `others`. -/
structure Quiet (key : FlowKey) (expiresAt : Nat) (others : Finset FlowKey) (w : World)
    (f : Frame) : Prop where
  unexpired : w.now < expiresAt
  undrained : f ≠ .drainRejections
  unconsumed : f.consumes ≠ some key
  elsewhere : ∀ k code e, f = .rejectTombstone k code e → k ≠ key ∧ k ∈ others

theorem Standing.exec (ih : Standing key rej others w.rejections)
    (hcard : others.card < cfg.maxPending) (quiet : Quiet key rej.expiresAt others w f)
    (h : Portal.exec cfg choice w f = some r) :
    Standing key rej others r.world.rejections := by
  constructor
  · have hstep := exec_tombstones h
    generalize r.world.rejections = m at hstep ⊢
    cases hstep with
    | same => exact ih.found
    | @lookedUp _ key' consume consumes =>
      have hkept : ¬ (consume = true ∧ key = key') := by
        rintro ⟨hconsume, rfl⟩
        exact quiet.unconsumed (consumes hconsume)
      rw [lookup_terminalRejection, if_neg hkept, ih.found, Option.filter_some,
        if_pos (decide_eq_true quiet.unexpired)]
    | inserted pick =>
      obtain ⟨hne, hmem⟩ := quiet.elsewhere _ _ _ rfl
      exact lookup_insertRejection hne.symm ih.found quiet.unexpired ih.younger hmem hcard
    | drained => exact absurd rfl quiet.undrained
  · intro k s hk hfound hyoung
    rcases tombstone_from h hfound with hold | rfl
    · exact ih.younger k s hk hold hyoung
    · exact (quiet.elsewhere _ _ _ rfl).2

theorem Standing.reach (hp : Standing key rej others p.world.rejections)
    (hcard : others.card < cfg.maxPending)
    (h : (portal cfg).Reach (fun _ w f => Quiet key rej.expiresAt others w f) p q) :
    Standing key rej others q.world.rejections := by
  refine h.bag_invariant (I := fun w _ => Standing key rej others w.rejections) hp ?_ ?_
  · intro q b _ ih
    rw [(boot_undisturbed cfg b q.world).rejections]
    exact ih
  · intro q choice f _ r _ _ ih _ quiet hexec
    exact ih.exec hcard quiet hexec

/-- A key without a tombstone gets one only from `reject_flow_setup`. -/
theorem missing_reach (hp : p.world.rejections.lookup key = none)
    (h : (portal cfg).Reach (fun _ _ f => ∀ code e, f ≠ .rejectTombstone key code e) p q) :
    q.world.rejections.lookup key = none := by
  refine h.bag_invariant (I := fun w _ => w.rejections.lookup key = none) hp ?_ ?_
  · intro q b _ ih
    rw [(boot_undisturbed cfg b q.world).rejections]
    exact ih
  · intro q choice f _ r _ _ ih _ hother hexec
    by_contra hsome
    obtain ⟨s, hs⟩ := Option.ne_none_iff_exists'.mp hsome
    rcases tombstone_from hexec hs with hold | hnew
    · rw [ih] at hold
      cases hold
    · exact hother _ _ hnew

end Nowhere.Portal
