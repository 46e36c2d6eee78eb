import Nowhere.Portal.FlowTaskInvariant

/-!
# Closing the tracker

What `Portal::run` relies on at shutdown: when `wait` returns after `close`, no tracked task is left
and none will come (`flow_tasks_tracked`). A `wait` that sleeps is not forgotten
(`sleeping_wait_woken`).
-/

namespace Nowhere.Portal.FlowTasks

open Assoc
open scoped List

theorem Drained.empty {w : World} (h : Drained w) (hw : w.Sound) :
    (∀ task < w.accepted.length, task ∈ w.finished) ∧ w.handles = ∅ := by
  have hremoved : ∀ task < w.accepted.length, .removed task ∈ w.log :=
    fun task htask => hw.subtracted task (h.2 task htask)
  refine ⟨fun task htask => (hw.removed task (hremoved task htask)).2, ?_⟩
  apply eq_empty_of_lookup
  intro id
  cases hlookup : w.handles.lookup id with
  | none => rfl
  | some task =>
    obtain ⟨haccepted, hnot⟩ := hw.handles id task hlookup
    exact absurd (hremoved task (List.getElem?_eq_some_iff.mp haccepted).1) hnot

/-- However the calls and tasks interleave: `active` counts the accepted spawns that have not been
subtracted; a handle belongs to a worker that `done` has not removed yet; nothing is accepted once
the tracker is closed; and from the moment when a `wait` returns that was called after `close` had
returned, all workers have finished and there are no handles. -/
theorem flow_tasks_tracked {p : Pool} (h : tracker.Reachable initial p) :
    p.world.active = p.world.outstanding.length ∧
      (∀ id task, p.world.handles.lookup id = some task →
        p.world.accepted[task]? = some id ∧ .removed task ∉ p.world.log) ∧
      (∀ id, ¬ [.closed, .accepted id] <+ p.world.log) ∧
      ∀ n, [.closeReturned, .waitCalled n, .waitReturned n] <+ p.world.log →
        (∀ task < p.world.accepted.length, task ∈ p.world.finished) ∧ p.world.handles = ∅ := by
  have hc := consistent h
  refine ⟨hc.active, hc.world.handles, hc.world.refuses, ?_⟩
  intro n hsub
  exact (hc.world.drained n hsub).empty hc.world

/-- `steps` steps of one task. -/
def go (task steps : Nat) : List (Tasks.Act Choice Start) := List.replicate steps (.run task .go)

/-- A spawn whose worker ends before its handle is inserted, and a wait that sleeps until the
reaper is through. -/
def lateHandle : List (Tasks.Act Choice Start) :=
  .boot .spawn :: go 0 5 ++ go 1 1 ++ go 0 2 ++ .boot .close :: go 3 3 ++ .boot .wait :: go 4 2 ++
    go 2 5 ++ go 4 4

theorem flow_tasks_tracked_lateHandle :
    ∃ p, tracker.Reachable initial p ∧ p.world.accepted = [0] ∧
      [.closeReturned, .waitCalled 0, .waitReturned 0] <+ p.world.log ∧ p.world.handles = ∅ := by
  have hrun : (tracker.run initial lateHandle).any (fun p => p.world.accepted = [0] ∧
      [.closeReturned, .waitCalled 0, .waitReturned 0] <+ p.world.log) = true := by
    decide +kernel
  obtain ⟨p, hp, hend⟩ := Tasks.System.exists_reachable_of_run hrun
  obtain ⟨haccepted, hsub⟩ := of_decide_eq_true hend
  exact ⟨p, hp, haccepted, hsub, ((flow_tasks_tracked hp).2.2.2 0 hsub).2⟩

/-! ## No wake-up is lost -/

/-- While a call of `wait` sleeps, something is active or a notification is on its way. -/
def Wakeful (w : World) (fs : Multiset Frame) : Prop :=
  ∀ n, .sleep n w.idle ∈ fs → 0 < w.active ∨ .notify ∈ fs

namespace Wakeful

variable {w w' : World} {f : Frame} {fs : Multiset Frame} {r : Effect} {created : List Frame}

/-- A step that neither subtracts nor notifies. -/
theorem of_le (h : Wakeful w (f ::ₘ fs)) (hidle : w'.idle = w.idle) (hactive : w.active ≤ w'.active)
    (hf : f ≠ .notify) (hcreated : ∀ n, .sleep n w.idle ∈ created → 0 < w.active) :
    Wakeful w' (↑created + fs) := by
  intro n hsleep
  rw [hidle] at hsleep
  rcases Multiset.mem_add.mp hsleep with hsleep | hsleep
  · exact .inl (Nat.lt_of_lt_of_le (hcreated n hsleep) hactive)
  · rcases h n (Multiset.mem_cons_of_mem hsleep) with hpos | hnotify
    · exact .inl (Nat.lt_of_lt_of_le hpos hactive)
    · rcases Multiset.mem_cons.mp hnotify with heq | hnotify
      · exact absurd heq.symm hf
      · exact .inr (Multiset.mem_add.mpr (.inr hnotify))

/-- A notification reaches every ticket that was drawn before it. -/
theorem of_notify (hidle : w'.idle = w.idle + 1) (hsound : ∀ g ∈ fs, g.Sound w)
    (hcreated : ∀ n ticket, .sleep n ticket ∉ created) :
    Wakeful w' (↑created + fs) := by
  intro n hsleep
  rw [hidle] at hsleep
  rcases Multiset.mem_add.mp hsleep with hsleep | hsleep
  · exact absurd hsleep (hcreated n _)
  · have hticket := (hsound _ hsleep).2
    omega

/-- Who subtracts the last one notifies. -/
theorem subtract {task : Nat} (h : Wakeful w (.subtract task ::ₘ fs)) :
    Wakeful (subtractStep w task).world (↑(subtractStep w task).all + fs) := by
  intro n hsleep
  have hsleep : .sleep n w.idle ∈ fs := by
    rcases Multiset.mem_add.mp hsleep with hsleep | hsleep
    · have hnotify : .sleep n w.idle ∈ [Frame.notify] := by
        simp only [Tasks.Effect.all, subtractStep, List.flatten_nil, List.append_nil] at hsleep
        split at hsleep
        · exact hsleep
        · cases hsleep
      simp at hnotify
    · exact hsleep
  by_cases hlast : w.active = 1
  · right
    simp [Tasks.Effect.all, subtractStep, hlast]
  · rcases h n (Multiset.mem_cons_of_mem hsleep) with hpos | hnotify
    · left
      change 0 < w.active - 1
      omega
    · right
      exact Multiset.mem_add.mpr (.inr (by simpa using hnotify))

theorem outcome (h : Wakeful w (f ::ₘ fs)) (hout : Outcome w f r)
    (hsound : ∀ g ∈ fs, g.Sound w) : Wakeful r.world (↑r.all + fs) := by
  cases hout with
  | quiet moves =>
    cases moves with
    | loadBusy n ticket busy =>
      exact h.of_le rfl (Nat.le_refl _) (by simp) fun _ _ => Nat.pos_of_ne_zero busy
    | _ => exact h.of_le rfl (Nat.le_refl _) (by simp) (by simp [Tasks.Effect.all])
  | subtract task => exact h.subtract
  | notify | notifyAtClose => exact of_notify rfl hsound (by simp [Tasks.Effect.all])
  | accept id =>
    exact h.of_le rfl (Nat.le_succ _) (by simp) (by simp [Tasks.Effect.all, acceptStep])
  | _ =>
    exact h.of_le rfl (Nat.le_refl _) (by simp) (by simp [Tasks.Effect.all, removeStep, closeStep])

theorem boot (b : Start) (h : Wakeful w fs) :
    Wakeful (start b w).world (↑(start b w).all + fs) := by
  have hsame : (start b w).world.idle = w.idle ∧ (start b w).world.active = w.active := by
    cases b <;> exact ⟨rfl, rfl⟩
  intro n hsleep
  rw [hsame.1] at hsleep
  have hsleep : .sleep n w.idle ∈ fs := by
    rcases Multiset.mem_add.mp hsleep with hsleep | hsleep
    · cases b <;> simp [start, Tasks.Effect.all] at hsleep
    · exact hsleep
  rw [hsame.2]
  exact (h n hsleep).imp_right fun hnotify => Multiset.mem_add.mpr (.inr hnotify)

end Wakeful

/-- A call of `wait` that sleeps has not missed the notification it waits for. -/
theorem sleeping_wait_woken {p : Pool} (h : tracker.Reachable initial p) {n ticket : Nat}
    (hsleep : .sleep n ticket ∈ p.bag) :
    p.world.idle ≠ ticket ∨ 0 < p.world.active ∨ .notify ∈ p.bag := by
  have hwakeful : Wakeful p.world p.bag := by
    refine h.bag_invariant (I := Wakeful) (by simp [Wakeful, initial, Tasks.Pool.bag,
      Tasks.Pool.frames]) ?_ ?_
    · intro p b _ ih
      exact ih.boot b
    · intro p c f others r hp hbag ih _ _ hexec
      refine ih.outcome (exec_outcome hexec) fun g hg => (consistent hp).frames g ?_
      rw [hbag]
      exact Multiset.mem_cons_of_mem hg
  by_cases hticket : p.world.idle = ticket
  · subst hticket
    exact .inr (hwakeful n hsleep)
  · exact .inl hticket

theorem sleeping_wait_woken_lateHandle :
    ∃ p, tracker.Reachable initial p ∧ .sleep 0 0 ∈ p.bag ∧
      (p.world.idle ≠ 0 ∨ 0 < p.world.active ∨ .notify ∈ p.bag) := by
  obtain ⟨p, hrun, hsleep⟩ : ∃ p, tracker.run initial (lateHandle.take 16) = some p ∧
      p.frames[1]? = some (.sleep 0 0) := ⟨_, rfl, rfl⟩
  have hp := Tasks.System.reachable_of_run hrun
  have hmem := Multiset.mem_coe.mpr (List.mem_of_getElem? hsleep)
  exact ⟨p, hp, hmem, sleeping_wait_woken hp hmem⟩

end Nowhere.Portal.FlowTasks
