import Mathlib.Logic.Relation

/-!
# State machines

A machine takes one event at a time (`step`), and an event that cannot happen has no successor.
What holds at the start and is kept by every step holds in every state that a run reaches
(`Reachable.invariant`); a run that can be computed shows a state to be reachable
(`reachable_of_run`).
-/

namespace Machine

variable {S E : Type} {step : S → E → Option S}

/-- The states that some sequence of events leads to. -/
abbrev Reachable (step : S → E → Option S) : S → S → Prop :=
  Relation.ReflTransGen fun s s' => ∃ e, step s e = some s'

variable {s s' : S} {es : List E}

theorem Reachable.invariant {I : S → Prop} (h : Reachable step s s') (init : I s)
    (keeps : ∀ s e s', I s → step s e = some s' → I s') : I s' := by
  induction h with
  | refl => exact init
  | tail _ hstep ih =>
    obtain ⟨e, he⟩ := hstep
    exact keeps _ e _ ih he

def run (step : S → E → Option S) : S → List E → Option S
  | s, [] => some s
  | s, e :: es => (step s e).bind fun s' => run step s' es

theorem reachable_of_run (h : run step s es = some s') :
    Reachable step s s' := by
  induction es generalizing s with
  | nil =>
    cases h
    exact .refl
  | cons e es ih =>
    obtain ⟨s₁, he, hrest⟩ := Option.bind_eq_some_iff.mp h
    exact .head ⟨e, he⟩ (ih hrest)

/-- A state with a property that is found by running the machine. -/
theorem exists_reachable_of_run {P : S → Bool} (h : (run step s es).any P = true) :
    ∃ s', Reachable step s s' ∧ P s' = true := by
  obtain ⟨s', hrun, hP⟩ := (Option.any_eq_true _ _).mp h
  exact ⟨s', reachable_of_run hrun, hP⟩

end Machine
