import Mathlib.Algebra.BigOperators.Group.List.Basic
import Mathlib.Algebra.Order.Ring.Int

/-!
# One server and its queue

Jobs that one server takes one after the other, in the order in which they ask and not in that of
their arrival times: a job starts as soon as the job before it is done and it has itself arrived.
The services do not overlap, so that those within a stretch of time are together no longer than
the stretch.
-/

namespace Queue

variable {J : Type} (arrival duration : J → Nat)

/-- When a job leaves a server that is free from `free` on. -/
def departure (free : Nat) (j : J) : Nat := max free (arrival j) + duration j

/-- The jobs with the times at which they leave. -/
def serve : Nat → List J → List (J × Nat)
  | _, [] => []
  | free, j :: js =>
    (j, departure arrival duration free j) :: serve (departure arrival duration free j) js

variable {arrival duration} {free : Nat} {js : List J} {x : J × Nat}

theorem serve_jobs : (serve arrival duration free js).map Prod.fst = js := by
  induction js generalizing free with
  | nil => rfl
  | cons j js ih => rw [serve, List.map_cons, ih]

/-- Every job leaves as if the server were free since the job before it left. -/
theorem departure_after {i : Nat} (h : (serve arrival duration free js)[i]? = some x) :
    x.2 = departure arrival duration
      ((free :: (serve arrival duration free js).map Prod.snd).getD i 0) x.1 := by
  induction js generalizing free i with
  | nil => simp [serve] at h
  | cons j js ih =>
    cases i with
    | zero =>
      rw [serve, List.getElem?_cons_zero] at h
      cases h
      rfl
    | succ i =>
      rw [serve, List.getElem?_cons_succ] at h
      rw [ih h]
      rfl

/-- A service starts when the server is free, and does not start before time zero. -/
theorem free_le_start (h : x ∈ serve arrival duration free js) :
    duration x.1 ≤ x.2 ∧ free ≤ x.2 - duration x.1 := by
  induction js generalizing free with
  | nil => cases h
  | cons j js ih =>
    rcases List.mem_cons.mp h with rfl | hrest
    · simp only [departure]
      omega
    · have hx := ih hrest
      have hfree : free ≤ departure arrival duration free j := by
        unfold departure
        omega
      exact ⟨hx.1, hfree.trans hx.2⟩

/-- A service starts after the services before it have ended. -/
theorem serve_pairwise : (serve arrival duration free js).Pairwise
    fun x y => x.2 ≤ y.2 - duration y.1 := by
  induction js generalizing free with
  | nil => exact .nil
  | cons j js ih => exact .cons (fun y hy => (free_le_start hy).2) ih

theorem serve_pairwise_lt (hpos : ∀ j ∈ js, 0 < duration j) :
    (serve arrival duration free js).Pairwise fun x y => x.2 < y.2 := by
  have hjobs : ∀ y ∈ serve arrival duration free js, 0 < duration y.1 := by
    intro y hy
    have hmem : y.1 ∈ (serve arrival duration free js).map Prod.fst := List.mem_map_of_mem hy
    rw [serve_jobs] at hmem
    exact hpos y.1 hmem
  refine serve_pairwise.imp_of_mem ?_
  intro x y hx hy hxy
  have hstart := free_le_start hy
  have hduration := hjobs y hy
  omega

/-- The services that lie between `start` and `stop` last no longer than that together. -/
theorem sum_within (start stop : Nat) :
    (((serve arrival duration free js).filter fun x =>
      start ≤ x.2 - duration x.1 ∧ x.2 ≤ stop).map fun x => duration x.1).sum ≤ stop - start := by
  -- the services that are left start after the first of them has ended
  suffices h : ∀ l : List (J × Nat), (∀ x ∈ l, duration x.1 ≤ x.2) →
      l.Pairwise (fun x y => x.2 ≤ y.2 - duration y.1) → ∀ start,
      ((l.filter fun x => start ≤ x.2 - duration x.1 ∧ x.2 ≤ stop).map fun x =>
        duration x.1).sum ≤ stop - start from
    h _ (fun x hx => (free_le_start hx).1) serve_pairwise start
  intro l
  induction l with
  | nil => intros; exact Nat.zero_le _
  | cons y l ih =>
    intro hle hpair start
    obtain ⟨hafter, hpair⟩ := List.pairwise_cons.mp hpair
    have hle' : ∀ x ∈ l, duration x.1 ≤ x.2 := fun x hx => hle x (List.mem_cons_of_mem _ hx)
    rw [List.filter_cons]
    split
    · rename_i hy
      have hy : start ≤ y.2 - duration y.1 ∧ y.2 ≤ stop := of_decide_eq_true hy
      have hyle := hle y List.mem_cons_self
      have hsame : (l.filter fun x => start ≤ x.2 - duration x.1 ∧ x.2 ≤ stop) =
          l.filter fun x => y.2 ≤ x.2 - duration x.1 ∧ x.2 ≤ stop := by
        refine List.filter_congr ?_
        intro x hx
        have hxy := hafter x hx
        refine decide_eq_decide.mpr ?_
        omega
      have hrest := ih hle' hpair y.2
      rw [List.map_cons, List.sum_cons, hsame]
      omega
    · exact ih hle' hpair start

end Queue
