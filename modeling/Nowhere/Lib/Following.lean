import Nowhere.Lib.Tasks

/-!
# Following one task

What the schedule of the whole pool means for a single task. A frame that rests on a stack is
still there later or it has run in between, with exactly the frames below it that it had before
(`System.Reach.follows`). A task whose next frames need no lock reaches the frames below them by
its own steps alone, whatever the other tasks hold (`System.run_light`).
-/

namespace Tasks

variable {W F L C B : Type}

/-- Task `j` has `f` above `tail`, perhaps with further frames above it. -/
def Pool.Rests (p : Pool W F) (j : Nat) (f : F) (tail : List F) : Prop :=
  ∃ top, p.tasks[j]? = some (top ++ f :: tail)

namespace System

variable [DecidableEq L] {S : System W F L C B} {ts us : List (List F)} {j : Nat} {t tail : List F}
  {p q : Pool W F} {f : F} {cond : C → W → F → Prop} {c : C}

theorem getElem?_next_self (hj : j < ts.length) (u : List F) :
    (ts.set j u ++ us)[j]? = some u := by
  rw [List.getElem?_append_left (by rwa [List.length_set]), List.getElem?_set_self hj]

theorem getElem?_next_of_ne {i : Nat} (hij : i ≠ j) (hj : ts[j]? = some t) (u : List F) :
    (ts.set i u ++ us)[j]? = some t := by
  obtain ⟨hlt, _⟩ := List.getElem?_eq_some_iff.mp hj
  rw [List.getElem?_append_left (by rwa [List.length_set]), List.getElem?_set_ne hij, hj]

/-- A task is left alone or takes its next step. -/
theorem step_task {a : Act C B} (hj : p.tasks[j]? = some t) (h : S.step p a = some q) :
    q.tasks[j]? = some t ∨
      ∃ c f rest r, a = .run j c ∧ t = f :: rest ∧ S.exec c p.world f = some r ∧
        q.world = r.world ∧ q.tasks[j]? = some (r.frames ++ rest) := by
  obtain ⟨hlt, _⟩ := List.getElem?_eq_some_iff.mp hj
  cases a with
  | boot b =>
    cases h
    exact .inl ((List.getElem?_append_left hlt).trans hj)
  | run i c =>
    obtain ⟨f, rest, r, hi, _, hr, rfl⟩ := S.step_run h
    by_cases hij : i = j
    · subst hij
      cases hi.symm.trans hj
      exact .inr ⟨c, f, rest, r, rfl, rfl, hr, rfl, getElem?_next_self hlt _⟩
    · exact .inl (getElem?_next_of_ne hij hj _)

/-- Task `j`, whose stack is `f` above `tail`, takes a step. -/
def Runs (S : System W F L C B) (j : Nat) (f : F) (tail : List F) (p q : Pool W F) : Prop :=
  p.tasks[j]? = some (f :: tail) ∧ ∃ c, S.step p (.run j c) = some q

theorem Runs.exec (h : S.Runs j f tail p q) :
    ∃ c r, S.exec c p.world f = some r ∧ q.world = r.world ∧
      q.tasks[j]? = some (r.frames ++ tail) := by
  obtain ⟨hj, c, hstep⟩ := h
  obtain ⟨f', rest, r, hi, _, hr, rfl⟩ := S.step_run hstep
  cases hj.symm.trans hi
  obtain ⟨hlt, _⟩ := List.getElem?_eq_some_iff.mp hj
  exact ⟨c, r, hr, rfl, getElem?_next_self hlt _⟩

theorem Runs.reach (h : S.Runs j f tail p q) (hcond : ∀ c, cond c p.world f) :
    S.Reach cond p q := by
  obtain ⟨hj, c, hstep⟩ := h
  refine .step (.run j c) .refl ?_ hstep
  intro i c' f' rest ha hi
  cases ha
  cases hj.symm.trans hi
  exact hcond c

theorem Runs.reachable (h : S.Runs j f tail p q) : S.Reachable p q :=
  h.reach fun _ => trivial

/-- A step of task `j` and what follows from it, computed. -/
def runsAnd (S : System W F L C B) (j : Nat) (c : C) (P : F → List F → Pool W F → Bool)
    (p : Pool W F) : Bool :=
  match p.tasks[j]?, S.step p (.run j c) with
  | some (f :: tail), some q => P f tail q
  | _, _ => false

theorem Runs.of_runsAnd {P : F → List F → Pool W F → Bool} (h : S.runsAnd j c P p = true) :
    ∃ f tail q, S.Runs j f tail p q ∧ P f tail q = true := by
  unfold runsAnd at h
  split at h
  · rename_i f tail q hj hstep
    exact ⟨f, tail, q, ⟨hj, c, hstep⟩, h⟩
  · cases h

/-- The frame above `tail` in task `j` changes only by its own steps. As long as none of them
is an exit, one frame after the other satisfies `I`. -/
theorem Reach.follows {cond : C → W → F → Prop} {p₀ q : Pool W F} {j : Nat} {tail : List F}
    (I : W → F → Prop) (exit : F → Prop)
    (boot : ∀ p b f, S.Reach cond p₀ p → I p.world f → I (S.boot b p.world).world f)
    (other : ∀ p c g others r f, S.Reach cond p₀ p → p.bag = g ::ₘ others → f ∈ others →
      I p.world f → cond c p.world g → S.exec c p.world g = some r → I r.world f)
    (own : ∀ p c f r, S.Reach cond p₀ p → I p.world f → ¬ exit f → cond c p.world f →
      S.exec c p.world f = some r → ∃ top g, r.frames = top ++ [g] ∧ I r.world g)
    {f : F} (init : p₀.Rests j f tail) (hf : I p₀.world f) (h : S.Reach cond p₀ q) :
    (∃ g, q.Rests j g tail ∧ I q.world g) ∨
      ∃ p₁ p₂ g, S.Reach cond p₀ p₁ ∧ exit g ∧ I p₁.world g ∧ (∃ c, cond c p₁.world g) ∧
        S.Runs j g tail p₁ p₂ ∧ S.Reach cond p₂ q := by
  induction h with
  | refl => exact .inl ⟨f, init, hf⟩
  | @step p q a prior meets next ih =>
    rcases ih with ⟨g, ⟨top, hj⟩, hg⟩ | ⟨p₁, p₂, g, hbefore, hexit, hg, hcond, hruns, hafter⟩
    · obtain ⟨hlt, _⟩ := List.getElem?_eq_some_iff.mp hj
      cases a with
      | boot b =>
        cases next
        exact .inl ⟨g, ⟨top, (List.getElem?_append_left hlt).trans hj⟩, boot p b g prior hg⟩
      | run i c =>
        obtain ⟨f', rest, r, hi, _, hr, rfl⟩ := S.step_run next
        have hmet := meets i c f' rest rfl hi
        by_cases hij : i = j
        · subst hij
          cases top with
          | nil =>
            -- the frame itself runs
            cases hi.symm.trans hj
            by_cases hexit : exit g
            · exact .inr ⟨p, _, g, prior, hexit, hg, ⟨c, hmet⟩, ⟨hi, c, next⟩, .refl⟩
            · obtain ⟨top', g', hframes, hg'⟩ := own p c g r prior hg hexit hmet hr
              refine .inl ⟨g', ⟨top', ?_⟩, hg'⟩
              rw [getElem?_next_self hlt, hframes, List.append_assoc]
              rfl
          | cons f'' top =>
            -- a frame above it runs
            cases hi.symm.trans hj
            refine .inl ⟨g, ⟨r.frames ++ top, ?_⟩, other p c f' _ r g prior (Pool.bag_of_top hi)
              (Pool.mem_others_of_rest hi (by simp)) hg hmet hr⟩
            rw [getElem?_next_self hlt, List.append_assoc]
            rfl
        · exact .inl ⟨g, ⟨top, getElem?_next_of_ne hij hj _⟩, other p c f' _ r g prior
            (Pool.bag_of_top hi) (Pool.mem_others_of_ne hij hj (by simp)) hg hmet hr⟩
    · exact .inr ⟨p₁, p₂, g, hbefore, hexit, hg, hcond, hruns, .step a hafter meets next⟩

/-! ## Frames that cannot wait -/

/-- With the choice `c` the frame can always run, and it leaves nothing on the stack. -/
def Light (S : System W F L C B) (c : C) (f : F) : Prop :=
  S.wants f = none ∧ ∀ w, ∃ r, S.exec c w f = some r ∧ r.frames = []

theorem Light.step (hf : S.Light c f) (hj : p.tasks[j]? = some (f :: tail)) :
    ∃ q, S.step p (.run j c) = some q ∧ q.tasks[j]? = some tail := by
  obtain ⟨hwants, hexec⟩ := hf
  obtain ⟨r, hr, hframes⟩ := hexec p.world
  obtain ⟨hlt, _⟩ := List.getElem?_eq_some_iff.mp hj
  refine ⟨⟨r.world, p.tasks.set j (r.frames ++ tail) ++ r.spawned⟩, ?_, ?_⟩
  · simp [System.step, hj, blocked, hwants, hr]
  · rw [getElem?_next_self hlt, hframes, List.nil_append]

/-- A task gets past such frames by its own steps. -/
theorem run_light {fs tail : List F} (hfs : ∀ f ∈ fs, S.Light c f) {p : Pool W F}
    (hj : p.tasks[j]? = some (fs ++ tail)) :
    ∃ q, S.run p (List.replicate fs.length (.run j c)) = some q ∧ q.tasks[j]? = some tail := by
  induction fs generalizing p with
  | nil => exact ⟨p, rfl, hj⟩
  | cons f fs ih =>
    obtain ⟨m, hstep, hm⟩ := (hfs f List.mem_cons_self).step hj
    obtain ⟨q, hrun, hq⟩ := ih (fun g hg => hfs g (List.mem_cons_of_mem _ hg)) hm
    refine ⟨q, ?_, hq⟩
    rw [List.length_cons, List.replicate_succ, run, hstep, Option.bind_some, hrun]

end System

end Tasks
