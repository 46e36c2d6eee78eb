import Mathlib.Algebra.Order.BigOperators.Group.List
import Mathlib.Algebra.Order.Group.Nat
import Nowhere.Portal.Ledger

/-!
# Pairs

What the provenance of the halves and the ledger say about the pairs that `submit_tcp` and
`submit_udp` return: the parts of a split pair come from one OPEN and one ATTACH, no submission
serves two pairs, and the sections that would panic on an incomplete entry never meet one.
-/

namespace Nowhere.Portal

open Protocol Assoc

/-- The fields of a pending entry that are set together. -/
structure Pending.Consistent (kind : FlowKind) (p : Pending) : Prop where
  target : p.uplink.isSome = true ↔ p.target.isSome = true
  uplinkPath : p.uplink.isSome = true ↔ p.uplinkPath.isSome = true
  flowPermit : kind = .udp → (p.uplink.isSome = true ↔ p.flowPermit.isSome = true)
  downlinkPath : p.downlink.isSome = true ↔ p.downlinkPath.isSome = true

theorem Entry.consistent {log : List Event} {kind : FlowKind} {key : FlowKey} {p : Pending}
    (h : Entry log kind key p) : p.Consistent kind where
  target := h.target.symm
  uplinkPath := h.uplinkPath.symm
  flowPermit := by
    intro hkind
    rw [h.flowPermit]
    simp [hkind]
  downlinkPath := h.downlinkPath.symm

/-! ## Each half once -/

/-- The event is a pair with a half of submission `n`. -/
def Event.pairs (n : Nat) : Event → Bool
  | .paired _ p => decide (p.uplink.source = n ∨ p.downlink.source = n)
  | _ => false

def ofUplink (n : Nat) : Asset → Nat
  | .uplink s => if s = n then 1 else 0
  | _ => 0

def ofDownlink (n : Nat) : Asset → Nat
  | .downlink s => if s = n then 1 else 0
  | _ => 0

section Once

variable {cfg : Config} {cond : Choice → World → Frame → Prop} {p : Pool}

theorem given_eq_sum (φ : Asset → Nat) (log : List Event) :
    given φ log =
      ((submissions log).map fun c => upSource φ c.uplink + downSource φ c.downlink).sum := by
  induction log with
  | nil => rfl
  | cons e log ih =>
    have hcons : given φ (e :: log) = e.given φ + given φ log := by
      simp [given]
    rw [hcons, ih]
    cases e with
    | submitted c => rfl
    | _ => exact Nat.zero_add _

/-- A weight that only submission `n` has, and at most once, is brought in at most once. -/
theorem given_le_one (h : (portal cfg).Reach cond initial p) {φ : Asset → Nat} {n : Nat}
    (hweight : ∀ c, .submitted c ∈ p.world.log →
      upSource φ c.uplink + downSource φ c.downlink ≤ if c.id = n then 1 else 0) :
    given φ p.world.log ≤ 1 := by
  have hnodup := (provenance h).unique
  have hweight' (c : Submission) (hc : c ∈ submissions p.world.log) :=
    hweight c (mem_submissions.mp hc)
  rw [given_eq_sum]
  generalize submissions p.world.log = cs at hnodup hweight'
  have hcount :
      (cs.map fun c => if c.id = n then 1 else 0).sum = (cs.map Submission.id).count n := by
    clear hnodup hweight'
    induction cs with
    | nil => rfl
    | cons c cs ih =>
      rw [List.map_cons, List.sum_cons, ih, List.map_cons, List.count_cons]
      simp only [beq_iff_eq]
      omega
  calc (cs.map fun c => upSource φ c.uplink + downSource φ c.downlink).sum
      ≤ (cs.map fun c => if c.id = n then 1 else 0).sum := List.sum_le_sum hweight'
    _ = (cs.map Submission.id).count n := hcount
    _ ≤ 1 := List.nodup_iff_count_le_one.mp hnodup n

/-- A history spends at most what it was given. -/
theorem spent_le_given (h : (portal cfg).Reach cond initial p) (φ : Asset → Nat)
    (hguard : ∀ g, φ (.guard g) = 0) : spent φ p.world.log ≤ given φ p.world.log := by
  obtain ⟨lost, hsum, _⟩ := halves_ledger φ hguard h
  omega

theorem countP_le_spent {φ : Asset → Nat} {P : Event → Bool} {log : List Event}
    (hP : ∀ e ∈ log, P e = true → 1 ≤ e.spent φ) : log.countP P ≤ spent φ log := by
  induction log with
  | nil => exact Nat.zero_le _
  | cons e log ih =>
    have hlog := ih fun e he => hP e (List.mem_cons_of_mem _ he)
    rw [List.countP_cons, spent_cons]
    split
    · have := hP e List.mem_cons_self ‹_›
      omega
    · omega

/-- Events that each spend a half of submission `n` happen at most once. -/
theorem countP_le_one (h : (portal cfg).Reach cond initial p) {φ : Asset → Nat} {n : Nat}
    (hguard : ∀ g, φ (.guard g) = 0)
    (hweight : ∀ c : Submission, c.Built →
      upSource φ c.uplink + downSource φ c.downlink ≤ if c.id = n then 1 else 0)
    {P : Event → Bool} (hP : ∀ e ∈ p.world.log, P e = true → 1 ≤ e.spent φ) :
    p.world.log.countP P ≤ 1 :=
  calc p.world.log.countP P ≤ spent φ p.world.log := countP_le_spent hP
    _ ≤ given φ p.world.log := spent_le_given h φ hguard
    _ ≤ 1 := given_le_one h fun c hc => hweight c ((provenance h).built c hc).1

theorem ofUplink_weight {c : Submission} (hbuilt : c.Built) (n : Nat) :
    upSource (ofUplink n) c.uplink + downSource (ofUplink n) c.downlink ≤
      if c.id = n then 1 else 0 := by
  cases hu : c.uplink with
  | none => cases c.downlink <;> simp [upSource, downSource, ofUplink]
  | some u =>
    rw [← hbuilt.uplinkSource u hu]
    cases c.downlink <;> simp [upSource, downSource, ofUplink]

theorem ofDownlink_weight {c : Submission} (hbuilt : c.Built) (n : Nat) :
    upSource (ofDownlink n) c.uplink + downSource (ofDownlink n) c.downlink ≤
      if c.id = n then 1 else 0 := by
  cases hd : c.downlink with
  | none => cases c.uplink <;> simp [upSource, downSource, ofDownlink]
  | some d =>
    rw [← hbuilt.downlinkSource d hd]
    cases c.uplink <;> simp [upSource, downSource, ofDownlink]

/-- The submissions that the two halves of a pair come from. -/
theorem pair_sources (h : (portal cfg).Reach cond initial p) {call : Submission} {q : Paired}
    (hq : .paired call q ∈ p.world.log) :
    ∃ o a, .submitted o ∈ p.world.log ∧ .submitted a ∈ p.world.log ∧ o.id = q.uplink.source ∧
      a.id = q.downlink.source ∧
      (o.header.role = .duplex ∧ o = a ∨ o.header.role = .opening ∧ a.header.role = .attach) := by
  have hprov := provenance h
  have hbuilt {c : Submission} (hc : .submitted c ∈ p.world.log) := (hprov.built c hc).1
  by_cases hrole : call.header.role = .duplex
  · obtain ⟨o, ho, hpair⟩ := hprov.duplex call q hq hrole
    exact ⟨o, o, ho, ho, ((hbuilt ho).uplinkSource _ hpair.uplink).symm,
      ((hbuilt ho).downlinkSource _ hpair.downlink).symm, .inl ⟨hpair.role, rfl⟩⟩
  · obtain ⟨o, a, ho, ha, hpair⟩ := hprov.paired call q hq hrole
    exact ⟨o, a, ho, ha, ((hbuilt ho).uplinkSource _ hpair.uplink).symm,
      ((hbuilt ha).downlinkSource _ hpair.downlink).symm, .inr ⟨hpair.opening, hpair.attach⟩⟩

/-- **No submission serves two pairs.** -/
theorem pairs_le_one (h : (portal cfg).Reach cond initial p) (n : Nat) :
    p.world.log.countP (Event.pairs n) ≤ 1 := by
  have hprov := provenance h
  by_cases hattach : ∃ c, .submitted c ∈ p.world.log ∧ c.id = n ∧ c.header.role = .attach
  · -- an ATTACH serves a pair with its downlink
    obtain ⟨c, hc, hid, hrole⟩ := hattach
    refine countP_le_one h (fun _ => rfl) (fun c hb => ofDownlink_weight hb n) ?_
    intro e he hpairs
    cases e with
    | paired call q =>
      obtain ⟨o, a, ho, ha, hup, hdown, hroles⟩ := pair_sources h he
      rw [Event.pairs, decide_eq_true_eq] at hpairs
      rcases hpairs with hn | hn
      · have : o = c := hprov.submission_eq ho hc (by omega)
        subst this
        rcases hroles with ⟨hduplex, _⟩ | ⟨hopening, _⟩
        · rw [hrole] at hduplex
          cases hduplex
        · rw [hrole] at hopening
          cases hopening
      · simp [Event.spent, ofDownlink, hn]
    | _ => cases hpairs
  · -- an OPEN or a DUPLEX serves a pair with its uplink
    refine countP_le_one h (fun _ => rfl) (fun c hb => ofUplink_weight hb n) ?_
    intro e he hpairs
    cases e with
    | paired call q =>
      obtain ⟨o, a, ho, ha, hup, hdown, hroles⟩ := pair_sources h he
      rw [Event.pairs, decide_eq_true_eq] at hpairs
      rcases hpairs with hn | hn
      · simp [Event.spent, ofUplink, hn]
      · rcases hroles with ⟨_, rfl⟩ | ⟨_, hrole⟩
        · have : q.uplink.source = n := by omega
          simp [Event.spent, ofUplink, this]
        · exact absurd ⟨a, ha, by omega, hrole⟩ hattach
    | _ => cases hpairs

end Once

/-- **Pairs of split flows.** In every reachable registry: a pair of a split flow takes its uplink
and target from one OPEN and its downlink from one ATTACH, both with the session, flow id, kind
and carriers of the pair; no submission serves two pairs; every pending entry is consistent; and
so nothing has panicked, every complete flow on its way to activation can be paired, and no
complete UDP entry lacks its permit. -/
theorem split_pairs {cfg : Config} {p : Pool} (h : (portal cfg).Reachable initial p) :
    (∀ call q, .paired call q ∈ p.world.log → call.header.role ≠ .duplex →
      ∃ o a, .submitted o ∈ p.world.log ∧ .submitted a ∈ p.world.log ∧ PairFrom q o a) ∧
    (∀ n, p.world.log.countP (Event.pairs n) ≤ 1) ∧
    (∀ kind key q, (p.world.pending kind).lookup key = some q → q.Consistent kind) ∧
    (∀ message, .panicked message ∉ p.world.log ∧ .panic message ∉ p.bag) ∧
    (∀ a, .activateLinks a ∈ p.bag ∨ .activateClaims a ∈ p.bag →
      ∀ lease, ∃ q, a.complete.toPaired a.call lease = .ok q) ∧
    ∀ c active epoch q, .installReserve c active ∈ p.bag →
      (((p.world.pending c.via).lookup c.key).getD (.fresh c epoch active)).fill c = (q, none) →
      q.complete = true → c.via = .udp → q.flowPermit ≠ none := by
  have hprov := provenance h
  refine ⟨hprov.paired, pairs_le_one h, ?_, ?_, ?_, ?_⟩
  · intro kind key q hq
    exact (hprov.entries kind key q hq).consistent
  · intro message
    exact ⟨hprov.panicked message, fun hpanic => hprov.frames _ hpanic⟩
  · rintro a (ha | ha) lease
    · exact Activates.toPaired (hprov.frames _ ha) lease
    · exact Activates.toPaired (hprov.frames _ ha) lease
  · intro c active epoch q hc hfill hcomplete hvia hnone
    obtain ⟨others, hbag⟩ := Multiset.exists_cons_of_mem hc
    rw [hbag] at hprov
    obtain ⟨hcall, hpermit, hrole⟩ := hprov.sound
    have hentry := hprov.filled hcall hpermit hrole hfill
    simp only [Pending.complete, Bool.and_eq_true] at hcomplete
    have hsome := hentry.flowPermit.mpr ⟨hvia, hcomplete.1⟩
    rw [hnone] at hsome
    cases hsome

namespace Sample

/-- An OPEN, the ATTACH that completes it, and the activation of the pair. -/
def onePair : List (Tasks.Act Choice Start) :=
  registerQuic 0 ++ lane 1 openTcp (some target) 7 ++ stream 3 attachTcp 8

theorem onePair_split :
    ∃ p call q, (portal config).Reachable initial p ∧ .paired call q ∈ p.world.log ∧
      ∃ o a, .submitted o ∈ p.world.log ∧ .submitted a ∈ p.world.log ∧ PairFrom q o a := by
  obtain ⟨p, hreach, hp⟩ := Tasks.System.exists_reachable_of_run (S := portal config)
    (P := fun p => p.world.log.any fun
      | .paired call _ => decide (call.header.role ≠ .duplex)
      | _ => false)
    (show ((portal config).run initial onePair).any _ = true by decide +kernel)
  obtain ⟨e, he, hrole⟩ := List.any_eq_true.mp hp
  cases e with
  | paired call q =>
    exact ⟨p, call, q, hreach, he, (split_pairs hreach).1 call q he (of_decide_eq_true hrole)⟩
  | _ => cases hrole

end Sample

end Nowhere.Portal
