import Mathlib.Computability.StateTransition
import Nowhere.Lib.Tasks

/-!
# Tasks that run alone

An operation that is taken as atomic is a task of a pool that runs from its first frame to its
end while no other task moves. What it does depends on its own stack and the world only
(`System.alone`), and once `choose` fixes the choices of the environment it is a function, so
Mathlib's `StateTransition.eval` is its outcome. A task may still block, on a lock that one of its
own frames holds; then it ends with a frame on top that has not run.

Two such tasks are compared by `System.Joint`: both come to an end, and the ends are related.
Either side may step whenever it is convenient, so the two need not move in step.
-/

namespace Tasks.System

variable {W F L C B : Type} [DecidableEq L] (S : System W F L C B) (choose : F → C)

/-- One step of a task that has the world for itself. -/
def alone : W × List F → Option (W × List F)
  | (_, []) => none
  | (w, f :: rest) =>
    if S.blocked ⟨w, [f :: rest]⟩ f then none
    else (S.exec (choose f) w f).map fun r => (r.world, r.frames ++ rest)

/-- The stack holds no lock that its top frame wants. -/
def Clear (f : F) (rest : List F) : Prop :=
  ∀ l, S.wants f = some l → ∀ g ∈ f :: rest, l ∉ S.holds g

variable {S choose}

variable {w : W} {f : F} {rest : List F} {x y : W × List F} {tasks : List (List F)} {i : Nat}

theorem blocked_eq_false_of_clear (h : S.Clear f rest) :
    S.blocked ⟨w, [f :: rest]⟩ f = false := by
  unfold blocked
  cases hwants : S.wants f with
  | none => rfl
  | some l => simpa [Pool.frames] using h l hwants

theorem alone_cons {w : W} {f : F} {rest : List F} {r : Effect W F}
    (hr : S.exec (choose f) w f = some r) (hclear : S.Clear f rest) :
    S.alone choose (w, f :: rest) = some (r.world, r.frames ++ rest) := by
  simp [alone, blocked_eq_false_of_clear hclear, hr]

/-- A frame that waits for another choice than the one made ends the task. -/
theorem alone_eq_none (h : S.exec (choose f) w f = none) :
    S.alone choose (w, f :: rest) = none := by
  simp [alone, h]

/-! ## Two tasks, each alone -/

variable (S choose)

/-- Both tasks come to an end, and the ends satisfy `Q`. -/
def Joint (Q : W × List F → W × List F → Prop) (x y : W × List F) : Prop :=
  ∃ x' ∈ StateTransition.eval (S.alone choose) x,
    ∃ y' ∈ StateTransition.eval (S.alone choose) y, Q x' y'

variable {S choose}

namespace Joint

variable {Q : W × List F → W × List F → Prop} {x y z : W × List F}

theorem done (hx : S.alone choose x = none) (hy : S.alone choose y = none) (h : Q x y) :
    S.Joint choose Q x y :=
  ⟨x, StateTransition.mem_eval.mpr ⟨.refl, hx⟩, y, StateTransition.mem_eval.mpr ⟨.refl, hy⟩, h⟩

theorem left (hx : S.alone choose x = some z) (h : S.Joint choose Q z y) :
    S.Joint choose Q x y := by
  unfold Joint at h ⊢
  rw [StateTransition.reaches_eval (Relation.ReflTransGen.single hx)]
  exact h

theorem right (hy : S.alone choose y = some z) (h : S.Joint choose Q x z) :
    S.Joint choose Q x y := by
  unfold Joint at h ⊢
  rw [StateTransition.reaches_eval (Relation.ReflTransGen.single hy)]
  exact h

end Joint

/-! ## Computed ends -/

variable (S choose)

/-- The task after at most `n` steps. -/
def finish : Nat → W × List F → W × List F
  | 0, x => x
  | n + 1, x => (S.alone choose x).elim x (finish n)

variable {S choose}

theorem reaches_finish (n : Nat) (x : W × List F) :
    StateTransition.Reaches (S.alone choose) x (S.finish choose n x) := by
  induction n generalizing x with
  | zero => exact .refl
  | succ n ih =>
    unfold finish
    cases h : S.alone choose x with
    | none => exact .refl
    | some y => exact .head h (ih y)

theorem finish_mem_eval {n : Nat} (h : (S.alone choose (S.finish choose n x)).isNone = true) :
    S.finish choose n x ∈ StateTransition.eval (S.alone choose) x :=
  StateTransition.mem_eval.mpr ⟨reaches_finish n x, Option.isNone_iff_eq_none.mp h⟩

/-! ## Atomic operations are schedules -/

/-- The step that a task takes alone it can take in a pool whose other tasks hold no lock. -/
theorem step_of_alone (hi : i < tasks.length)
    (hothers : ∀ j t, j ≠ i → tasks[j]? = some t → ∀ g ∈ t, S.holds g = [])
    (h : S.alone choose x = some y) :
    ∃ c f r, S.exec c x.1 f = some r ∧
      S.step ⟨x.1, tasks.set i x.2⟩ (.run i c) =
        some ⟨y.1, (tasks ++ r.spawned).set i y.2⟩ := by
  obtain ⟨w, stack⟩ := x
  cases stack with
  | nil => cases h
  | cons f rest =>
    simp only [alone] at h
    split at h
    · cases h
    · rename_i hblocked
      obtain ⟨r, hr, rfl⟩ := Option.map_eq_some_iff.mp h
      refine ⟨choose f, f, r, hr, ?_⟩
      have hfree : S.blocked ⟨w, tasks.set i (f :: rest)⟩ f = false := by
        unfold blocked at hblocked ⊢
        cases hwants : S.wants f with
        | none => rfl
        | some l =>
          simp only [hwants, Pool.frames, List.any_eq_true, decide_eq_true_eq, not_exists,
            not_and, List.flatten_cons, List.flatten_nil, List.append_nil] at hblocked
          simp only [Pool.frames, List.any_eq_false, decide_eq_true_eq]
          intro g hg
          obtain ⟨t, ht, hgt⟩ := List.mem_flatten.mp hg
          obtain ⟨j, hj⟩ := List.getElem?_of_mem ht
          by_cases hji : j = i
          · subst hji
            rw [List.getElem?_set_self hi] at hj
            cases hj
            exact hblocked g hgt
          · rw [List.getElem?_set_ne (Ne.symm hji)] at hj
            simp [hothers j t hji hj g hgt]
      simp only [step, List.getElem?_set_self hi, hfree, hr, Option.map_some, List.set_set,
        List.set_append_left _ _ hi]
      rfl

/-- What a task does alone it can do in any pool whose other tasks hold no lock. -/
theorem run_of_reaches
    (hspawned : ∀ {c w f r}, S.exec c w f = some r → ∀ t ∈ r.spawned, ∀ g ∈ t, S.holds g = [])
    (h : StateTransition.Reaches (S.alone choose) x y) (hi : i < tasks.length)
    (hothers : ∀ j t, j ≠ i → tasks[j]? = some t → ∀ g ∈ t, S.holds g = []) :
    ∃ schedule spawned, S.run ⟨x.1, tasks.set i x.2⟩ schedule =
      some ⟨y.1, (tasks ++ spawned).set i y.2⟩ := by
  induction h using Relation.ReflTransGen.head_induction_on generalizing tasks with
  | refl => exact ⟨[], [], by simp [run]⟩
  | head hstep _ ih =>
    obtain ⟨c, f, r, hr, hfirst⟩ := step_of_alone hi hothers hstep
    have hnext : ∀ j t, j ≠ i → (tasks ++ r.spawned)[j]? = some t → ∀ g ∈ t, S.holds g = [] := by
      intro j t hj hjt g hg
      rcases Nat.lt_or_ge j tasks.length with hlt | hge
      · rw [List.getElem?_append_left hlt] at hjt
        exact hothers j t hj hjt g hg
      · -- the tasks that the step spawned hold no lock either
        rw [List.getElem?_append_right hge] at hjt
        exact hspawned hr t (List.mem_of_getElem? hjt) g hg
    obtain ⟨schedule, spawned, hrest⟩ := ih (by rw [List.length_append]; omega) hnext
    refine ⟨.run i c :: schedule, r.spawned ++ spawned, ?_⟩
    rw [run, hfirst, Option.bind_some, hrest, List.append_assoc]

end Tasks.System
