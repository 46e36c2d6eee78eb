import Mathlib.Data.Multiset.Filter
import Mathlib.Data.Multiset.Count
import Mathlib.Algebra.Order.Group.Multiset
import Mathlib.Tactic.Abel

/-!
# Pools of lock-taking tasks

A task is a stack of frames; its top frame runs next. One step of a frame changes the shared
world, replaces the frame by a list of frames and may spawn further tasks. A frame may want a
lock: then it runs only while no frame of the pool holds that lock. Locks are not reentrant, so
the frames of the running task count too. A lock is held exactly as long as some frame holds
it, hence acquiring and releasing are both visible in the frames alone.

Most invariants of such a pool do not depend on how the frames are arranged in stacks. They
are stated over the bag of all frames (`Pool.bag`), where a step removes one frame and adds a
few others (`System.Reach.bag_invariant`). The stacks matter for lock order and for what runs
before what (`System.Reach.stack_invariant`).
-/

namespace Tasks

/-- What one step does: the new world, the frames that replace the executed one, and the
stacks of the tasks it spawns. -/
structure Effect (W F : Type) where
  world : W
  frames : List F
  spawned : List (List F) := []

/-- Every frame an effect creates. -/
def Effect.all {W F : Type} (r : Effect W F) : List F := r.frames ++ r.spawned.flatten

/-- A system of tasks over a world `W`, frames `F` and locks `L`. `C` are the choices the
environment makes during a step, `B` the operations it may start. -/
structure System (W F L C B : Type) where
  wants : F → Option L
  holds : F → List L
  exec : C → W → F → Option (Effect W F)
  boot : B → W → Effect W F

structure Pool (W F : Type) where
  world : W
  tasks : List (List F)

namespace Pool

variable {W F : Type}

def frames (p : Pool W F) : List F := p.tasks.flatten

def bag (p : Pool W F) : Multiset F := ↑p.frames

variable {p : Pool W F} {f : F} {i : Nat} {rest : List F}

theorem mem_bag : f ∈ p.bag ↔ ∃ t ∈ p.tasks, f ∈ t := by
  simp [bag, frames]

/-- The frames beside the top one of task `i`. -/
def others (p : Pool W F) (i : Nat) : Multiset F :=
  ↑(p.tasks[i]?.getD []).tail + ↑(p.tasks.take i).flatten + ↑(p.tasks.drop (i + 1)).flatten

theorem bag_of_top (hi : p.tasks[i]? = some (f :: rest)) : p.bag = f ::ₘ p.others i := by
  obtain ⟨hlt, hget⟩ := List.getElem?_eq_some_iff.mp hi
  have hflat : p.tasks.flatten =
      (p.tasks.take i).flatten ++ (f :: rest) ++ (p.tasks.drop (i + 1)).flatten := by
    conv_lhs => rw [← List.take_append_drop i p.tasks, List.drop_eq_getElem_cons hlt, hget]
    simp
  rw [bag, frames, hflat, others, hi, Option.getD_some, List.tail_cons]
  simp only [← Multiset.coe_add, ← Multiset.cons_coe, ← Multiset.singleton_add]
  abel

variable {g : F}

theorem mem_others_of_rest (hi : p.tasks[i]? = some (f :: rest)) (hg : g ∈ rest) :
    g ∈ p.others i := by
  simp [others, hi, hg]

theorem mem_others_of_ne {j : Nat} (hij : i ≠ j) {t : List F} (hj : p.tasks[j]? = some t)
    (hg : g ∈ t) : g ∈ p.others i := by
  rcases Nat.lt_or_gt_of_ne hij with hlt | hgt
  · have hdrop : (p.tasks.drop (i + 1))[j - (i + 1)]? = some t := by
      rw [List.getElem?_drop, ← hj]
      congr 1
      omega
    have hmem : g ∈ (p.tasks.drop (i + 1)).flatten :=
      List.mem_flatten.mpr ⟨t, List.mem_of_getElem? hdrop, hg⟩
    exact Multiset.mem_add.mpr (.inr hmem)
  · have htake : (p.tasks.take i)[j]? = some t := by
      rw [List.getElem?_take_of_lt hgt, hj]
    have hmem : g ∈ (p.tasks.take i).flatten :=
      List.mem_flatten.mpr ⟨t, List.mem_of_getElem? htake, hg⟩
    exact Multiset.mem_add.mpr (.inl (Multiset.mem_add.mpr (.inr hmem)))

end Pool

inductive Act (C B : Type)
  | boot (b : B)
  | run (i : Nat) (c : C)

namespace System

variable {W F L C B : Type} [DecidableEq L] (S : System W F L C B)

/-- No frame of `fs` holds a lock that `f` wants. -/
def Free (f : F) (fs : Multiset F) : Prop := ∀ l, S.wants f = some l → ∀ g ∈ fs, l ∉ S.holds g

def blocked (p : Pool W F) (f : F) : Bool :=
  match S.wants f with
  | none => false
  | some l => p.frames.any fun g => decide (l ∈ S.holds g)

variable {p q p₀ : Pool W F} {c : C} {cond : C → W → F → Prop} {as : List (Act C B)}
  {ok : Pool W F → Act C B → Prop} {check : Pool W F → Act C B → Bool} {P : Pool W F → Bool} {l : L}
  {i j : Nat} {t u : List F} {rank : L → Nat} {f : F}

theorem free_of_not_blocked (h : S.blocked p f = false) :
    S.Free f p.bag := by
  intro l hl g hg hmem
  have hg' : g ∈ p.frames := by simpa [Pool.bag] using hg
  simp only [blocked, hl, List.any_eq_false, decide_eq_true_eq] at h
  exact h g hg' hmem

/-- One scheduling decision: start an operation, or run the top frame of task `i`. -/
def step (p : Pool W F) : Act C B → Option (Pool W F)
  | .boot b =>
    let r := S.boot b p.world
    some ⟨r.world, p.tasks ++ r.frames :: r.spawned⟩
  | .run i c =>
    match p.tasks[i]? with
    | some (f :: rest) =>
      if S.blocked p f then none
      else (S.exec c p.world f).map fun r =>
        ⟨r.world, p.tasks.set i (r.frames ++ rest) ++ r.spawned⟩
    | _ => none

/-- A whole schedule. -/
def run (p : Pool W F) : List (Act C B) → Option (Pool W F)
  | [] => some p
  | a :: as => (S.step p a).bind fun q => run q as

theorem step_run (h : S.step p (.run i c) = some q) :
    ∃ f rest r, p.tasks[i]? = some (f :: rest) ∧ S.blocked p f = false ∧
      S.exec c p.world f = some r ∧
      q = ⟨r.world, p.tasks.set i (r.frames ++ rest) ++ r.spawned⟩ := by
  simp only [step] at h
  split at h
  · rename_i f rest hi
    split at h
    · cases h
    · rename_i hb
      obtain ⟨r, hr, rfl⟩ := Option.map_eq_some_iff.mp h
      exact ⟨f, rest, r, hi, by simpa using hb, hr, rfl⟩
  · cases h

theorem bag_boot {b : B} (h : S.step p (.boot b) = some q) :
    q.world = (S.boot b p.world).world ∧ q.bag = ↑(S.boot b p.world).all + p.bag := by
  cases h
  refine ⟨rfl, ?_⟩
  simp only [Pool.bag, Pool.frames, Effect.all, List.flatten_append, List.flatten_cons,
    ← Multiset.coe_add]
  abel

/-- Seen as a bag, running a frame removes it and adds the frames of its effect. -/
theorem bag_run (h : S.step p (.run i c) = some q) :
    ∃ f rest r, p.tasks[i]? = some (f :: rest) ∧ p.bag = f ::ₘ p.others i ∧
      S.Free f p.bag ∧ S.exec c p.world f = some r ∧ q.world = r.world ∧
      q.bag = ↑r.all + p.others i := by
  obtain ⟨f, rest, r, hi, hb, hr, rfl⟩ := S.step_run h
  obtain ⟨hlt, _⟩ := List.getElem?_eq_some_iff.mp hi
  refine ⟨f, rest, r, hi, Pool.bag_of_top hi, S.free_of_not_blocked hb, hr, rfl, ?_⟩
  simp only [Pool.bag, Pool.frames, Pool.others, hi, Option.getD_some, List.tail_cons, Effect.all,
    ← Multiset.coe_add, List.set_eq_take_append_cons_drop, if_pos hlt, List.flatten_append,
    List.flatten_cons]
  abel

/-- The frame that a scheduling decision runs satisfies `cond`. -/
def Meets (cond : C → W → F → Prop) (p : Pool W F) (a : Act C B) : Prop :=
  ∀ i c f rest, a = .run i c → p.tasks[i]? = some (f :: rest) → cond c p.world f

/-- The pools that runs from `p₀` reach when every executed frame satisfies `cond`. -/
inductive Reach (cond : C → W → F → Prop) (p₀ : Pool W F) : Pool W F → Prop
  | refl : Reach cond p₀ p₀
  | step {p q : Pool W F} (a : Act C B) (prior : Reach cond p₀ p) (meets : Meets cond p a)
      (next : S.step p a = some q) : Reach cond p₀ q

/-- Reachable by an arbitrary schedule. -/
abbrev Reachable (p₀ p : Pool W F) : Prop := S.Reach (fun _ _ _ => True) p₀ p

variable {S}

namespace Reach

variable {cond : C → W → F → Prop} {p₀ p q r : Pool W F}

theorem mono {cond' : C → W → F → Prop} (hcond : ∀ c w f, cond c w f → cond' c w f)
    (h : S.Reach cond p₀ p) : S.Reach cond' p₀ p := by
  induction h with
  | refl => exact .refl
  | step a _ meets next ih =>
    exact .step a ih (fun i c f rest ha hi => hcond _ _ _ (meets i c f rest ha hi)) next

theorem reachable (h : S.Reach cond p₀ p) : S.Reachable p₀ p :=
  h.mono fun _ _ _ _ => trivial

theorem trans (h₁ : S.Reach cond p q) (h₂ : S.Reach cond q r) : S.Reach cond p r := by
  induction h₂ with
  | refl => exact h₁
  | step a _ meets next ih => exact .step a ih meets next

/-- An invariant of the world and the bag of frames. The step hypothesis may use that the
pool before the step is reachable, and hence every invariant already proved. -/
theorem bag_invariant {I : W → Multiset F → Prop} (init : I p₀.world p₀.bag)
    (boot : ∀ p b, S.Reach cond p₀ p → I p.world p.bag →
      I (S.boot b p.world).world (↑(S.boot b p.world).all + p.bag))
    (exec : ∀ p c f others r, S.Reach cond p₀ p → p.bag = f ::ₘ others →
      I p.world (f ::ₘ others) → S.Free f (f ::ₘ others) → cond c p.world f →
      S.exec c p.world f = some r → I r.world (↑r.all + others))
    (h : S.Reach cond p₀ p) : I p.world p.bag := by
  induction h with
  | refl => exact init
  | @step p q a prior meets next ih =>
    cases a with
    | boot b =>
      obtain ⟨hw, hb⟩ := S.bag_boot next
      rw [hw, hb]
      exact boot p b prior ih
    | run i c =>
      obtain ⟨f, rest, r, hi, hbag, hfree, hr, hw, hb⟩ := S.bag_run next
      rw [hw, hb]
      rw [hbag] at ih hfree
      exact exec p c f (p.others i) r prior hbag ih hfree (meets i c f rest rfl hi) hr

/-- An invariant of every single stack. -/
theorem stack_invariant {T : List F → Prop} (init : ∀ t ∈ p₀.tasks, T t)
    (boot : ∀ p b, S.Reach cond p₀ p →
      ∀ t ∈ (S.boot b p.world).frames :: (S.boot b p.world).spawned, T t)
    (exec : ∀ p c f rest r, S.Reach cond p₀ p → f :: rest ∈ p.tasks → T (f :: rest) →
      S.Free f p.bag → cond c p.world f → S.exec c p.world f = some r →
      T (r.frames ++ rest) ∧ ∀ t ∈ r.spawned, T t)
    (h : S.Reach cond p₀ p) : ∀ t ∈ p.tasks, T t := by
  induction h with
  | refl => exact init
  | @step p q a prior meets next ih =>
    cases a with
    | boot b =>
      cases next
      intro t ht
      rcases List.mem_append.mp ht with ht | ht
      · exact ih t ht
      · exact boot p b prior t ht
    | run i c =>
      obtain ⟨f, rest, r, hi, hb, hr, rfl⟩ := S.step_run next
      have hmem : f :: rest ∈ p.tasks := List.mem_of_getElem? hi
      obtain ⟨htop, hspawned⟩ := exec p c f rest r prior hmem (ih _ hmem)
        (S.free_of_not_blocked hb) (meets i c f rest rfl hi) hr
      intro t ht
      rcases List.mem_append.mp ht with ht | ht
      · rcases List.mem_or_eq_of_mem_set ht with ht | rfl
        · exact ih t ht
        · exact htop
      · exact hspawned t ht

end Reach

/-! ## Conditions on whole pools -/

/-- The pools that runs from `p₀` reach when every scheduling decision satisfies `ok`, which
may look at the whole pool. -/
inductive ReachBy (S : System W F L C B) (ok : Pool W F → Act C B → Prop) (p₀ : Pool W F) :
    Pool W F → Prop
  | refl : ReachBy S ok p₀ p₀
  | step {p q : Pool W F} (a : Act C B) (prior : ReachBy S ok p₀ p) (fine : ok p a)
      (next : S.step p a = some q) : ReachBy S ok p₀ q

namespace ReachBy

variable {ok : Pool W F → Act C B → Prop} {p₀ p : Pool W F}

theorem reachable (h : S.ReachBy ok p₀ p) : S.Reachable p₀ p := by
  induction h with
  | refl => exact .refl
  | step a _ _ next ih => exact .step a ih (fun _ _ _ _ _ _ => trivial) next

theorem bag_invariant {I : W → Multiset F → Prop} (init : I p₀.world p₀.bag)
    (boot : ∀ p b, S.ReachBy ok p₀ p → I p.world p.bag →
      I (S.boot b p.world).world (↑(S.boot b p.world).all + p.bag))
    (exec : ∀ p i c f rest r, S.ReachBy ok p₀ p → p.tasks[i]? = some (f :: rest) →
      p.bag = f ::ₘ p.others i → I p.world (f ::ₘ p.others i) → ok p (.run i c) →
      S.exec c p.world f = some r → I r.world (↑r.all + p.others i))
    (h : S.ReachBy ok p₀ p) : I p.world p.bag := by
  induction h with
  | refl => exact init
  | @step p q a prior fine next ih =>
    cases a with
    | boot b =>
      obtain ⟨hw, hb⟩ := S.bag_boot next
      rw [hw, hb]
      exact boot p b prior ih
    | run i c =>
      obtain ⟨f, rest, r, hi, hbag, _, hr, hw, hb⟩ := S.bag_run next
      rw [hw, hb]
      rw [hbag] at ih
      exact exec p i c f rest r prior hi hbag ih fine hr

end ReachBy

/-! ## Properties of whole schedules -/

/-- `P` holds in every pool that the schedule goes through, as far as it can be carried out. -/
def Always (S : System W F L C B) (P : Pool W F → Prop) (p : Pool W F) : List (Act C B) → Prop
  | [] => P p
  | a :: as => P p ∧ ∀ q, S.step p a = some q → Always S P q as

/-- Every frame that the schedule runs satisfies `cond`. -/
def Obeys (S : System W F L C B) (cond : C → W → F → Prop) (p : Pool W F) :
    List (Act C B) → Prop
  | [] => True
  | a :: as => ∀ q, S.step p a = some q → Meets cond p a ∧ Obeys S cond q as

/-- When `cond` keeps `P` and every step against `cond` breaks it, a schedule goes through
`P` alone exactly if it obeys `cond`. -/
theorem always_iff_obeys {P : Pool W F → Prop} (hkeeps : ∀ p, S.Reach cond p₀ p → P p)
    (hbreaks : ∀ p a q, S.Reach cond p₀ p → S.step p a = some q → P q → Meets cond p a)
    (as : List (Act C B)) : S.Always P p₀ as ↔ S.Obeys cond p₀ as := by
  have hiff : ∀ p, S.Reach cond p₀ p → (S.Always P p as ↔ S.Obeys cond p as) := by
    induction as with
    | nil => exact fun p hp => iff_of_true (hkeeps p hp) trivial
    | cons a as ih =>
      intro p hp
      constructor
      · rintro ⟨_, hnext⟩ q hq
        have hhead : P q := by
          cases as with
          | nil => exact hnext q hq
          | cons b bs => exact (hnext q hq).1
        have hmeets := hbreaks p a q hp hq hhead
        exact ⟨hmeets, (ih q (.step a hp hmeets hq)).mp (hnext q hq)⟩
      · intro hobeys
        refine ⟨hkeeps p hp, ?_⟩
        intro q hq
        obtain ⟨hmeets, hrest⟩ := hobeys q hq
        exact (ih q (.step a hp hmeets hq)).mpr hrest
  exact hiff p₀ .refl

/-! ## Computed schedules -/

/-- The pool that a schedule ends with is reached under the condition it obeys. -/
theorem Obeys.reach (hobeys : S.Obeys cond p as) (hrun : S.run p as = some q) :
    S.Reach cond p q := by
  induction as generalizing p with
  | nil =>
    cases hrun
    exact .refl
  | cons a as ih =>
    obtain ⟨m, hm, hrest⟩ := Option.bind_eq_some_iff.mp hrun
    obtain ⟨hmeets, hobeys⟩ := hobeys m hm
    exact Reach.trans (.step a .refl hmeets hm) (ih hobeys hrest)

/-- `Meets`, computed. -/
def meets (check : C → W → F → Bool) (p : Pool W F) : Act C B → Bool
  | .boot _ => true
  | .run i c => match p.tasks[i]? with
    | some (f :: _) => check c p.world f
    | _ => true

/-- `Obeys`, computed. -/
def obeys (S : System W F L C B) (check : C → W → F → Bool) (p : Pool W F) :
    List (Act C B) → Bool
  | [] => true
  | a :: as => meets check p a && (S.step p a).all fun q => obeys S check q as

theorem Obeys.of_obeys (check : C → W → F → Bool)
    (hcheck : ∀ c w f, check c w f = true → cond c w f) (h : S.obeys check p as = true) :
    S.Obeys cond p as := by
  induction as generalizing p with
  | nil => trivial
  | cons a as ih =>
    rw [obeys, Bool.and_eq_true] at h
    intro q hq
    refine ⟨?_, ih (by simpa [hq] using h.2)⟩
    intro i c f rest ha hi
    subst ha
    apply hcheck
    simpa [meets, hi] using h.1

/-- Every scheduling decision passes a check of the pool it is made in. -/
def passes (S : System W F L C B) (check : Pool W F → Act C B → Bool) (p : Pool W F) :
    List (Act C B) → Bool
  | [] => true
  | a :: as => check p a && (S.step p a).all fun q => passes S check q as

theorem ReachBy.of_passes (hcheck : ∀ p a, check p a = true → ok p a) (hp : S.ReachBy ok p₀ p)
    (h : S.passes check p as = true) (hrun : S.run p as = some q) :
    S.ReachBy ok p₀ q := by
  induction as generalizing p with
  | nil =>
    cases hrun
    exact hp
  | cons a as ih =>
    obtain ⟨m, hm, hrest⟩ := Option.bind_eq_some_iff.mp hrun
    rw [passes, Bool.and_eq_true, hm, Option.all_some] at h
    exact ih (.step a hp (hcheck p a h.1) hm) h.2 hrest

/-- What a computed schedule ends with is reachable. -/
theorem exists_reach_of_run (hobeys : S.Obeys cond p as) (h : (S.run p as).any P = true) :
    ∃ q, S.Reach cond p q ∧ P q = true := by
  cases hrun : S.run p as with
  | none => simp [hrun] at h
  | some q =>
    rw [hrun, Option.any_some] at h
    exact ⟨q, hobeys.reach hrun, h⟩

theorem exists_reachBy_of_run (hcheck : ∀ p a, check p a = true → ok p a)
    (hpasses : S.passes check p as = true) (h : (S.run p as).any P = true) :
    ∃ q, S.ReachBy ok p q ∧ P q = true := by
  cases hrun : S.run p as with
  | none => simp [hrun] at h
  | some q =>
    rw [hrun, Option.any_some] at h
    exact ⟨q, .of_passes hcheck .refl hpasses hrun, h⟩

theorem obeys_true (p : Pool W F) (as : List (Act C B)) :
    S.Obeys (fun _ _ _ => True) p as := by
  induction as generalizing p with
  | nil => trivial
  | cons a as ih => exact fun q _ => ⟨fun _ _ _ _ _ _ => trivial, ih q⟩

theorem reachable_of_run (h : S.run p as = some q) :
    S.Reachable p q :=
  (obeys_true p as).reach h

theorem exists_reachable_of_run (h : (S.run p as).any P = true) :
    ∃ q, S.Reachable p q ∧ P q = true :=
  exists_reach_of_run (obeys_true p as) h

/-! ## Mutual exclusion -/

/-- At most one frame holds each lock. -/
def Exclusive (S : System W F L C B) (fs : Multiset F) : Prop :=
  ∀ l, fs.countP (fun g => l ∈ S.holds g) ≤ 1

/-- Locks come only from `wants`: the frames that replace `f` hold, between them, each lock
at most once, and only a lock that `f` held or wanted. New tasks hold nothing. -/
structure Disciplined (S : System W F L C B) : Prop where
  boot : ∀ b w, ∀ g ∈ (S.boot b w).all, S.holds g = []
  frames : ∀ {c w f r}, S.exec c w f = some r → ∀ l,
    (r.frames.countP fun g => l ∈ S.holds g) ≤
      (if l ∈ S.holds f then 1 else 0) + (if S.wants f = some l then 1 else 0)
  spawned : ∀ {c w f r}, S.exec c w f = some r → ∀ t ∈ r.spawned, ∀ g ∈ t, S.holds g = []

theorem countP_holds_eq_zero {fs : List F} (h : ∀ g ∈ fs, S.holds g = []) :
    (fs.countP fun g => l ∈ S.holds g) = 0 := by
  rw [List.countP_eq_zero]
  intro g hg
  simp [h g hg]

theorem Disciplined.exclusive (hS : S.Disciplined) (init : S.Exclusive p₀.bag)
    (h : S.Reach cond p₀ p) : S.Exclusive p.bag := by
  refine h.bag_invariant (I := fun _ fs => S.Exclusive fs) init ?_ ?_
  · intro p b _ ih l
    have h0 := countP_holds_eq_zero (S := S) (l := l) (hS.boot b p.world)
    rw [Multiset.countP_add, Multiset.coe_countP, h0, Nat.zero_add]
    exact ih l
  · intro p c f others r _ _ ih hfree _ hr l
    have h0 : (r.spawned.flatten.countP fun g => l ∈ S.holds g) = 0 := by
      apply countP_holds_eq_zero
      intro g hg
      obtain ⟨t, ht, hgt⟩ := List.mem_flatten.mp hg
      exact hS.spawned hr t ht g hgt
    have hf := hS.frames hr l
    have hl := ih l
    rw [Multiset.countP_cons] at hl
    rw [Effect.all, Multiset.countP_add, Multiset.coe_countP, List.countP_append, h0]
    by_cases hw : S.wants f = some l
    · -- the wanted lock was free, so nobody else holds it
      have hnone : others.countP (fun g => l ∈ S.holds g) = 0 :=
        Multiset.countP_eq_zero.mpr fun g hg => hfree l hw g (Multiset.mem_cons_of_mem hg)
      have hself : l ∉ S.holds f := hfree l hw f (Multiset.mem_cons_self _ _)
      simp only [hw, hself, if_true, if_false] at hf
      omega
    · simp only [hw, if_false] at hf
      omega

/-- Two different holders of one lock contradict mutual exclusion. -/
theorem Exclusive.absurd {g : F} {others : Multiset F} (h : S.Exclusive (f ::ₘ others))
    (hg : g ∈ others) (hf : l ∈ S.holds f) (hl : l ∈ S.holds g) : False := by
  have hcount := h l
  rw [Multiset.countP_cons, if_pos hf] at hcount
  have : 0 < others.countP fun g => l ∈ S.holds g := Multiset.countP_pos.mpr ⟨g, hg, hl⟩
  omega

/-! ## Lock order -/

/-- The next step of task `i` wants a lock that a frame of task `j` holds. -/
def Waits (S : System W F L C B) (p : Pool W F) (i j : Nat) : Prop :=
  ∃ f rest l t, p.tasks[i]? = some (f :: rest) ∧ S.wants f = some l ∧ p.tasks[j]? = some t ∧
    ∃ g ∈ t, l ∈ S.holds g

/-- `Waits`, computed. -/
def waits (S : System W F L C B) (p : Pool W F) (i j : Nat) : Bool :=
  match p.tasks[i]?, p.tasks[j]? with
  | some (f :: _), some t => (S.wants f).any fun l => t.any fun g => decide (l ∈ S.holds g)
  | _, _ => false

theorem Waits.of_waits (h : S.waits p i j = true) :
    S.Waits p i j := by
  unfold waits at h
  split at h
  · rename_i f rest t hi hj
    obtain ⟨l, hl, hheld⟩ := Option.any_eq_true _ _ |>.mp h
    obtain ⟨g, hg, hmem⟩ := List.any_eq_true.mp hheld
    exact ⟨f, rest, l, t, hi, hl, hj, g, hg, of_decide_eq_true hmem⟩
  · cases h

/-- The wanted lock does not rank below a lock the stack holds. -/
def Ordered (S : System W F L C B) (rank : L → Nat) (t : List F) : Prop :=
  ∀ f rest l, t = f :: rest → S.wants f = some l → ∀ g ∈ t, ∀ k ∈ S.holds g, rank k ≤ rank l

theorem two_le_countP_flatten {P : F → Bool} {ts : List (List F)} (hij : i ≠ j)
    (hi : ts[i]? = some t) (hj : ts[j]? = some u) (ht : ∃ f ∈ t, P f = true)
    (hu : ∃ f ∈ u, P f = true) : 2 ≤ ts.flatten.countP P := by
  induction ts generalizing i j with
  | nil => simp at hi
  | cons a as ih =>
    have hpos {v : List F} (hv : ∃ f ∈ v, P f = true) : 0 < v.countP P := by
      simpa [List.countP_pos_iff] using hv
    have htail {k : Nat} {v : List F} (hk : as[k]? = some v) (hv : ∃ f ∈ v, P f = true) :
        0 < as.flatten.countP P := by
      obtain ⟨f, hf, hP⟩ := hv
      exact List.countP_pos_iff.mpr
        ⟨f, List.mem_flatten.mpr ⟨v, List.mem_of_getElem? hk, hf⟩, hP⟩
    rw [List.flatten_cons, List.countP_append]
    match i, j with
    | 0, 0 => exact absurd rfl hij
    | 0, k + 1 =>
      have h₁ := hpos ht
      have h₂ := htail (by simpa using hj) hu
      have : a = t := by simpa using hi
      subst this
      omega
    | k + 1, 0 =>
      have h₁ := hpos hu
      have h₂ := htail (by simpa using hi) ht
      have : a = u := by simpa using hj
      subst this
      omega
    | i + 1, j + 1 =>
      have := ih (i := i) (j := j) (by omega) (by simpa using hi) (by simpa using hj)
      omega

theorem Exclusive.holder_unique (hex : S.Exclusive p.bag) (hi : p.tasks[i]? = some t)
    (hj : p.tasks[j]? = some u) (ht : ∃ f ∈ t, l ∈ S.holds f) (hu : ∃ f ∈ u, l ∈ S.holds f) :
    i = j := by
  by_contra hij
  have htwo := two_le_countP_flatten (P := fun g => decide (l ∈ S.holds g)) hij hi hj
    (by simpa using ht) (by simpa using hu)
  have hone := hex l
  rw [Pool.bag, Multiset.coe_countP, Pool.frames] at hone
  omega

omit [DecidableEq L] in
/-- Along a chain of waiting tasks the locks rise: the last task holds a lock that does not
rank below the one the first task wants. -/
theorem held_of_waits (hord : ∀ t ∈ p.tasks, S.Ordered rank t)
    (h : Relation.TransGen (S.Waits p) i j) :
    ∃ f rest l t k, p.tasks[i]? = some (f :: rest) ∧ S.wants f = some l ∧
      p.tasks[j]? = some t ∧ (∃ g ∈ t, k ∈ S.holds g) ∧ rank l ≤ rank k := by
  induction h with
  | single hwait =>
    obtain ⟨f, rest, l, t, hi, hfl, hj, hheld⟩ := hwait
    exact ⟨f, rest, l, t, l, hi, hfl, hj, hheld, Nat.le_refl _⟩
  | tail _ hwait ih =>
    obtain ⟨f, rest, l, t, k, hi, hfl, hj, ⟨g, hg, hk⟩, hle⟩ := ih
    obtain ⟨f', rest', l', t', hj', hfl', hnext, hheld⟩ := hwait
    cases hj.symm.trans hj'
    have hstep := hord _ (List.mem_of_getElem? hj) f' rest' l' rfl hfl' g hg k hk
    exact ⟨f, rest, l, t', l', hi, hfl, hnext, hheld, Nat.le_trans hle hstep⟩

/-- **Lock order.** When every stack respects a ranking of the locks, no two tasks wait for
each other, directly or through other tasks. -/
theorem not_wait_cycle (hrank : Function.Injective rank) (hex : S.Exclusive p.bag)
    (hord : ∀ t ∈ p.tasks, S.Ordered rank t) (hij : i ≠ j) :
    ¬ (Relation.TransGen (S.Waits p) i j ∧ Relation.TransGen (S.Waits p) j i) := by
  rintro ⟨hforth, hback⟩
  obtain ⟨f, rest, l, t, k, hi, hfl, hj, ⟨g, hg, hk⟩, hle⟩ := held_of_waits hord hforth
  obtain ⟨f', rest', l', t', k', hj', hfl', hi', ⟨g', hg', hk'⟩, hle'⟩ :=
    held_of_waits hord hback
  cases hi.symm.trans hi'
  cases hj.symm.trans hj'
  have h₁ := hord _ (List.mem_of_getElem? hi) f rest l rfl hfl g' hg' k' hk'
  have h₂ := hord _ (List.mem_of_getElem? hj) f' rest' l' rfl hfl' g hg k hk
  have hkk : k = k' := hrank (by omega)
  subst hkk
  exact hij (hex.holder_unique hi hj ⟨g', hg', hk'⟩ ⟨g, hg, hk⟩)

end System

end Tasks
