import Nowhere.Portal.FlowTasks

/-!
# What the tracker and its tasks agree on

An accepted spawn goes through two hands: `spawn` inserts its handle and then tells the reaper,
the reaper removes the handle and then subtracts the spawn from `active`. `Balanced` counts both,
so that nothing is told or subtracted twice. What each frame relies on is `Frame.Sound`; other
tasks can only add to it (`Advances`), apart from the open tracker, which the lock protects.
-/

namespace Nowhere.Portal.FlowTasks

open Assoc
open scoped List

/-! ## What a step keeps -/

/-- Everything that has happened stays, and once the tracker is closed no spawn is accepted. -/
structure Advances (w w' : World) : Prop where
  log : ∃ events, w'.log = w.log ++ events ∧ ∀ n, .waitCalled n ∈ events → w.waits ≤ n
  waits : w.waits ≤ w'.waits
  idle : w.idle ≤ w'.idle
  registered : w.registered ⊆ w'.registered
  finished : w.finished ⊆ w'.finished
  closed : w.closed = true → w'.closed = true ∧ w'.accepted = w.accepted

/-- The tracker is closed and all that it accepted has been subtracted again. -/
def Drained (w : World) : Prop :=
  w.closed = true ∧ ∀ task < w.accepted.length, .subtracted task ∈ w.log

variable {w w' : World} {e : Event} {log : List Event}

theorem accepted_of_event (hlog : w'.log = w.log ++ [e]) (he : e.acceptedId = none) :
    w'.accepted = w.accepted := by
  rw [World.accepted, World.accepted, hlog, List.filterMap_append]
  simp [he]

theorem accepted_of_log_eq (hlog : w'.log = w.log) : w'.accepted = w.accepted := by
  rw [World.accepted, World.accepted, hlog]

theorem accepted_acceptStep (w : World) (id : UInt64) :
    (acceptStep w id).world.accepted = w.accepted ++ [id] := by
  simp [acceptStep, World.accepted, Event.acceptedId]

namespace Advances

variable {w w' : World}

theorem of_log_eq (hlog : w'.log = w.log) (hwaits : w'.waits = w.waits) (hidle : w.idle ≤ w'.idle)
    (hregistered : w.registered ⊆ w'.registered) (hfinished : w.finished ⊆ w'.finished)
    (hclosed : w'.closed = w.closed) : Advances w w' where
  log := ⟨[], by rw [hlog, List.append_nil], by simp⟩
  waits := Nat.le_of_eq hwaits.symm
  idle := hidle
  registered := hregistered
  finished := hfinished
  closed h := ⟨hclosed.trans h, accepted_of_log_eq hlog⟩

variable {e : Event}

theorem of_event (hlog : w'.log = w.log ++ [e]) (hcall : ∀ n, e ≠ .waitCalled n)
    (hwaits : w'.waits = w.waits) (hidle : w'.idle = w.idle)
    (hregistered : w'.registered = w.registered) (hfinished : w'.finished = w.finished)
    (hclosed : w.closed = true → w'.closed = true ∧ e.acceptedId = none) : Advances w w' where
  log := by
    refine ⟨[e], hlog, ?_⟩
    intro n hmem
    exact absurd (List.mem_singleton.mp hmem).symm (hcall n)
  waits := Nat.le_of_eq hwaits.symm
  idle := Nat.le_of_eq hidle.symm
  registered := hregistered ▸ List.Subset.refl _
  finished := hfinished ▸ List.Subset.refl _
  closed h := by
    obtain ⟨hclosed, he⟩ := hclosed h
    exact ⟨hclosed, accepted_of_event hlog he⟩

theorem accepted (h : Advances w w') {task : Nat} {id : UInt64}
    (hid : w.accepted[task]? = some id) : w'.accepted[task]? = some id := by
  obtain ⟨events, hlog, -⟩ := h.log
  have hlt : task < w.accepted.length := (List.getElem?_eq_some_iff.mp hid).1
  rw [World.accepted, hlog, List.filterMap_append, ← World.accepted,
    List.getElem?_append_left hlt, hid]

theorem mem_log (h : Advances w w') (he : e ∈ w.log) : e ∈ w'.log := by
  obtain ⟨events, hlog, -⟩ := h.log
  rw [hlog]
  exact List.mem_append_left _ he

/-- What preceded a call of `wait` was there when the call was made. -/
theorem called (h : Advances w w') {n : Nat} (hn : n < w.waits)
    (hsub : [.closeReturned, .waitCalled n] <+ w'.log) :
    [.closeReturned, .waitCalled n] <+ w.log := by
  obtain ⟨events, hlog, hcalls⟩ := h.log
  rw [hlog, ← List.singleton_append, List.sublist_append_iff] at hsub
  obtain ⟨before, after, heq, hbefore, hafter⟩ := hsub
  cases List.eq_nil_or_concat' after with
  | inl hnil =>
    subst hnil
    rw [List.append_nil] at heq
    rw [← List.singleton_append, heq]
    exact hbefore
  | inr hcons =>
    obtain ⟨front, last, rfl⟩ := hcons
    rw [← List.append_assoc] at heq
    obtain ⟨-, hlast⟩ := List.append_inj' heq rfl
    have hmem : .waitCalled n ∈ events := hafter.subset (by simp [← hlast])
    have := hcalls n hmem
    omega

theorem drained (h : Advances w w') (hw : Drained w) : Drained w' := by
  obtain ⟨hclosed, hall⟩ := hw
  obtain ⟨hclosed', haccepted⟩ := h.closed hclosed
  refine ⟨hclosed', ?_⟩
  intro task htask
  rw [haccepted] at htask
  exact h.mem_log (hall task htask)

end Advances

/-- What a frame may rely on. -/
def Frame.Sound (w : World) : Frame → Prop
  | .issueId | .accept _ => w.closed = false
  | .spawnWorker id task | .spawnReaper id task | .insertHandle id task
  | .awaitRegistration id task => w.accepted[task]? = some id
  | .join id task => w.accepted[task]? = some id ∧ task ∈ w.registered
  | .remove id task => w.accepted[task]? = some id ∧ task ∈ w.registered ∧ task ∈ w.finished
  | .subtract task => .removed task ∈ w.log
  | .loadAtClose | .notifyAtClose | .closeReturn => w.closed = true
  | .wait n => n < w.waits
  | .load n ticket | .sleep n ticket => n < w.waits ∧ ticket ≤ w.idle
  | .waitReturn n => n < w.waits ∧ ([.closeReturned, .waitCalled n] <+ w.log → Drained w)
  | _ => True

attribute [local simp] Frame.Sound Frame.holds Frame.wants

/-- Frames rely on what other tasks cannot undo; only the lock keeps the tracker open. -/
theorem Frame.Sound.advance {f : Frame} (hf : f.Sound w) (h : Advances w w')
    (hopen : Lock.state ∈ f.holds → w'.closed = w.closed) : f.Sound w' := by
  cases f with
  | issueId => exact (hopen (by simp)).trans hf
  | accept id => exact (hopen (by simp)).trans hf
  | spawnWorker id task => exact h.accepted hf
  | spawnReaper id task => exact h.accepted hf
  | insertHandle id task => exact h.accepted hf
  | awaitRegistration id task => exact h.accepted hf
  | join id task => exact ⟨h.accepted hf.1, h.registered hf.2⟩
  | remove id task => exact ⟨h.accepted hf.1, h.registered hf.2.1, h.finished hf.2.2⟩
  | subtract task => exact h.mem_log hf
  | loadAtClose => exact (h.closed hf).1
  | notifyAtClose => exact (h.closed hf).1
  | closeReturn => exact (h.closed hf).1
  | wait n => exact Nat.lt_of_lt_of_le hf h.waits
  | load n ticket => exact ⟨Nat.lt_of_lt_of_le hf.1 h.waits, Nat.le_trans hf.2 h.idle⟩
  | sleep n ticket => exact ⟨Nat.lt_of_lt_of_le hf.1 h.waits, Nat.le_trans hf.2 h.idle⟩
  | waitReturn n =>
    obtain ⟨hn, hdrained⟩ := hf
    exact ⟨Nat.lt_of_lt_of_le hn h.waits, fun hsub => h.drained (hdrained (h.called hn hsub))⟩
  | _ => trivial

/-- The order of two events, after one more has happened. -/
theorem concat_sublist_concat {α : Type} {xs ys : List α} {x y : α} :
    xs ++ [x] <+ ys ++ [y] ↔ xs ++ [x] <+ ys ∨ x = y ∧ xs <+ ys := by
  constructor
  · intro h
    have hrev : x :: xs.reverse <+ y :: ys.reverse := by simpa using h.reverse
    rcases List.sublist_cons_iff.mp hrev with hrev | ⟨rest, heq, hrev⟩
    · exact .inl (by simpa using hrev.reverse)
    · obtain ⟨rfl, rfl⟩ := List.cons.inj heq
      exact .inr ⟨rfl, List.reverse_sublist.mp hrev⟩
  · rintro (h | ⟨rfl, h⟩)
    · exact h.trans (List.sublist_append_left _ _)
    · exact h.append (List.Sublist.refl _)

theorem accepted_concat {id : UInt64} (h : [.closed, .accepted id] <+ log ++ [e]) :
    [.closed, .accepted id] <+ log ∨ .accepted id = e ∧ .closed ∈ log := by
  rw [← List.singleton_append, concat_sublist_concat, List.singleton_sublist] at h
  exact h

theorem waitReturned_concat {n : Nat}
    (h : [.closeReturned, .waitCalled n, .waitReturned n] <+ log ++ [e]) :
    [.closeReturned, .waitCalled n, .waitReturned n] <+ log ∨
      .waitReturned n = e ∧ [.closeReturned, .waitCalled n] <+ log :=
  @concat_sublist_concat Event [.closeReturned, .waitCalled n] log (.waitReturned n) e |>.mp h

section Steps

variable {w : World} {f : Frame} {r : Effect}

theorem Outcome.advances (h : Outcome w f r) (hf : f.Sound w) : Advances w r.world := by
  cases h with
  | accept id =>
    refine .of_event rfl (by simp) rfl rfl rfl rfl ?_
    intro hclosed
    rw [show w.closed = false from hf] at hclosed
    cases hclosed
  | rejected | remove | subtract | closeReturn | waitReturn =>
    exact .of_event rfl (by simp) rfl rfl rfl rfl fun hclosed => ⟨hclosed, rfl⟩
  | close => exact .of_event rfl (by simp) rfl rfl rfl rfl fun _ => ⟨rfl, rfl⟩
  | quiet | issueId | insertHandle | abort =>
    exact .of_log_eq rfl rfl (Nat.le_refl _) (List.Subset.refl _) (List.Subset.refl _) rfl
  | notify | notifyAtClose =>
    exact .of_log_eq rfl rfl (Nat.le_succ _) (List.Subset.refl _) (List.Subset.refl _) rfl
  | register task =>
    exact .of_log_eq rfl rfl (Nat.le_refl _) (List.subset_cons_self _ _) (List.Subset.refl _) rfl
  | ended task =>
    exact .of_log_eq rfl rfl (Nat.le_refl _) (List.Subset.refl _) (List.subset_cons_self _ _) rfl

/-- Only `close` closes. -/
theorem Outcome.closed (h : Outcome w f r) (hf : f ≠ .close) : r.world.closed = w.closed := by
  cases h with
  | close => exact absurd rfl hf
  | quiet | rejected | issueId | accept | insertHandle | register | ended | remove | subtract
  | notify | notifyAtClose | closeReturn | abort | waitReturn => rfl

theorem Moves.sound {frames : List Frame} {spawned : List (List Frame)}
    (h : Moves w f frames spawned) (hf : f.Sound w)
    (hdrained : w.active = 0 → .closeReturned ∈ w.log → Drained w) :
    ∀ g ∈ frames ++ spawned.flatten, g.Sound w := by
  cases h with
  | spawn hopen => simpa using hopen
  | spawnWorker | spawnReaper | closeIdle | closeBusy | loadBusy => simpa using hf
  | wait n =>
    have hn : n < w.waits := hf
    simpa using hn
  | woken n notified => simpa using hf.1
  | registered id hsent =>
    have hid : w.accepted[_]? = some id := hf
    simpa using And.intro hid hsent
  | joined id hended =>
    obtain ⟨hid, hsent⟩ := hf
    simpa using ⟨hid, hsent, hended⟩
  | abortAll | abortEnd | waitDropped | sleepDropped => simp
  | loadIdle n ticket hidle =>
    -- the wait was called when the tracker had been closed, and nothing is active any more
    have hreturn : [.closeReturned, .waitCalled n] <+ w.log → Drained w :=
      fun hsub => hdrained hidle (hsub.subset (by simp))
    simpa using ⟨hf.1, hreturn⟩

theorem Outcome.sound (h : Outcome w f r) (hf : f.Sound w)
    (hdrained : w.active = 0 → .closeReturned ∈ w.log → Drained w) :
    ∀ g ∈ r.all, g.Sound r.world := by
  cases h with
  | quiet moves => exact moves.sound hf hdrained
  | issueId => simpa [Tasks.Effect.all] using hf
  | accept id =>
    have hid : (acceptStep w id).world.accepted[w.accepted.length]? = some id := by
      rw [accepted_acceptStep, List.getElem?_concat_length]
    intro g hg
    obtain rfl : g = .spawnWorker id w.accepted.length := by
      simpa [Tasks.Effect.all, acceptStep] using hg
    exact hid
  | remove id task => simp [Tasks.Effect.all, removeStep]
  | subtract task =>
    have hframes : ∀ g ∈ (subtractStep w task).all, g = .notify := by
      simp only [Tasks.Effect.all, subtractStep]
      split <;> simp
    intro g hg
    rw [hframes g hg]
    trivial
  | notifyAtClose =>
    have hclosed : w.closed = true := hf
    simpa [Tasks.Effect.all] using hclosed
  | rejected | insertHandle | register | ended | notify | close | closeReturn | abort
  | waitReturn => simp [Tasks.Effect.all, closeStep]

end Steps

/-! ## Every worker is registered once and subtracted once -/

/-- The rest of `spawn`, which sends the registration of `task`. -/
def Frame.registers (task : Nat) : Frame → Bool
  | .spawnWorker _ t | .spawnReaper _ t | .insertHandle _ t | .register t => t == task
  | _ => false

/-- The frames that lead to the subtraction of `task`. -/
def Frame.owes (task : Nat) : Frame → Bool
  | .spawnWorker _ t | .spawnReaper _ t | .awaitRegistration _ t | .join _ t | .remove _ t
  | .subtract t => t == task
  | _ => false

attribute [local simp] Frame.registers Frame.owes

/-- Each accepted spawn is either settled or has exactly one frame that will settle it. -/
def Balanced (due : Nat → Frame → Bool) (settled : World → Nat → Nat) (w : World)
    (fs : Multiset Frame) : Prop :=
  ∀ task, fs.countP (due task ·) + settled w task = if task < w.accepted.length then 1 else 0

namespace Balanced

variable {due : Nat → Frame → Bool} {settled : World → Nat → Nat} {w w' : World} {f : Frame}
variable {fs : Multiset Frame}

theorem of_step {created : List Frame} (h : Balanced due settled w (f ::ₘ fs))
    (haccepted : w'.accepted = w.accepted)
    (hstep : ∀ task, created.countP (due task) + settled w' task =
      (if due task f then 1 else 0) + settled w task) :
    Balanced due settled w' (↑created + fs) := by
  intro task
  have hbefore := h task
  have hafter := hstep task
  have hcreated : Multiset.countP (due task ·) ↑created = created.countP (due task) := by
    simp [Multiset.coe_countP]
  rw [Multiset.countP_cons] at hbefore
  rw [haccepted, Multiset.countP_add, hcreated]
  omega

/-- A new spawn is due. -/
theorem of_accept {id : UInt64} (h : Balanced due settled w (.accept id ::ₘ fs))
    (haccept : ∀ task, due task (.accept id) = false)
    (hworker : ∀ t task, due task (.spawnWorker id t) = (t == task))
    (hsettled : settled (acceptStep w id).world = settled w) :
    Balanced due settled (acceptStep w id).world (↑(acceptStep w id).all + fs) := by
  intro task
  have hbefore := h task
  have hcreated : Multiset.countP (due task ·) ↑(acceptStep w id).all =
      if w.accepted.length = task then 1 else 0 := by
    rw [Multiset.coe_countP]
    simp [Tasks.Effect.all, acceptStep, hworker, List.countP_cons]
  rw [Multiset.countP_cons, haccept, if_neg (by simp)] at hbefore
  rw [accepted_acceptStep, List.length_append, List.length_singleton, Multiset.countP_add, hcreated,
    hsettled]
  split at hbefore <;> split <;> split <;> omega

theorem of_boot {b : Start} (h : Balanced due settled w fs)
    (haccepted : (start b w).world.accepted = w.accepted)
    (hsettled : settled (start b w).world = settled w)
    (hdue : ∀ task, ∀ g ∈ (start b w).all, due task g = false) :
    Balanced due settled (start b w).world (↑(start b w).all + fs) := by
  intro task
  have hcreated : Multiset.countP (due task ·) ↑(start b w).all = 0 := by
    rw [Multiset.countP_eq_zero]
    intro g hg
    simp [hdue task g hg]
  rw [haccepted, hsettled, Multiset.countP_add, hcreated, Nat.zero_add]
  exact h task

variable {task : Nat}

theorem settled_of_mem (h : Balanced due settled w fs) (hf : f ∈ fs) (hdue : due task f = true) :
    task < w.accepted.length ∧ settled w task = 0 := by
  have hcount : 0 < fs.countP (due task ·) := Multiset.countP_pos.mpr ⟨f, hf, hdue⟩
  have hsum := h task
  split at hsum
  · rename_i hlt
    exact ⟨hlt, by omega⟩
  · omega

theorem settled_of_le (h : Balanced due settled w fs) (hle : w.accepted.length ≤ task) :
    settled w task = 0 := by
  have hsum := h task
  rw [if_neg (by omega)] at hsum
  omega

end Balanced

section Ledgers

variable {w : World} {f : Frame} {r : Effect}

def World.sent (w : World) (task : Nat) : Nat := w.registered.count task

def World.subtracted (w : World) (task : Nat) : Nat := w.log.count (.subtracted task)

variable {fs : Multiset Frame}

theorem Outcome.registers (h : Outcome w f r)
    (hbalanced : Balanced Frame.registers World.sent w (f ::ₘ fs)) :
    Balanced Frame.registers World.sent r.world (↑r.all + fs) := by
  cases h with
  | accept id => exact hbalanced.of_accept (fun _ => rfl) (fun _ _ => rfl) rfl
  | quiet moves =>
    refine hbalanced.of_step rfl fun task => ?_
    cases moves <;> simp [Tasks.Effect.all, List.countP_cons]
  | register t =>
    refine hbalanced.of_step rfl fun task => ?_
    simp [Tasks.Effect.all, World.sent, List.count_cons, Nat.add_comm]
  | subtract t =>
    refine hbalanced.of_step (accepted_of_event rfl rfl) fun task => ?_
    simp only [Tasks.Effect.all, subtractStep]
    split <;> simp [World.sent]
  | rejected | remove | close | closeReturn | waitReturn =>
    refine hbalanced.of_step (accepted_of_event rfl rfl) fun task => ?_
    simp [Tasks.Effect.all, World.sent, removeStep, closeStep]
  | issueId | insertHandle | ended | notify | notifyAtClose | abort =>
    refine hbalanced.of_step rfl fun task => ?_
    simp [Tasks.Effect.all, World.sent]

theorem Outcome.owes (h : Outcome w f r)
    (hbalanced : Balanced Frame.owes World.subtracted w (f ::ₘ fs)) :
    Balanced Frame.owes World.subtracted r.world (↑r.all + fs) := by
  cases h with
  | accept id =>
    refine hbalanced.of_accept (fun _ => rfl) (fun _ _ => rfl) (funext fun task => ?_)
    simp [World.subtracted, acceptStep]
  | quiet moves =>
    refine hbalanced.of_step rfl fun task => ?_
    cases moves <;> simp [Tasks.Effect.all, List.countP_cons]
  | subtract t =>
    refine hbalanced.of_step (accepted_of_event rfl rfl) fun task => ?_
    simp only [Tasks.Effect.all, subtractStep]
    split <;> simp [World.subtracted, List.count_cons, Nat.add_comm]
  | rejected | remove | close | closeReturn | waitReturn =>
    refine hbalanced.of_step (accepted_of_event rfl rfl) fun task => ?_
    simp [Tasks.Effect.all, World.subtracted, removeStep, closeStep]
  | issueId | insertHandle | register | ended | notify | notifyAtClose | abort =>
    refine hbalanced.of_step rfl fun task => ?_
    simp [Tasks.Effect.all, World.subtracted]

end Ledgers

/-! ## The invariant -/

structure World.Sound (w : World) : Prop where
  handles : ∀ id task, w.handles.lookup id = some task →
    w.accepted[task]? = some id ∧ .removed task ∉ w.log
  removed : ∀ task, .removed task ∈ w.log → task ∈ w.registered ∧ task ∈ w.finished
  subtracted : ∀ task, .subtracted task ∈ w.log → .removed task ∈ w.log
  closed : .closed ∈ w.log → w.closed = true
  closeReturned : .closeReturned ∈ w.log → w.closed = true
  refuses : ∀ id, ¬ [.closed, .accepted id] <+ w.log
  drained : ∀ n, [.closeReturned, .waitCalled n, .waitReturned n] <+ w.log → Drained w

namespace World.Sound

variable {w : World} {f : Frame} {r : Effect}

/-- A handle is inserted before its reaper is told, and an id stays with its spawn. -/
theorem handles_step (hw : w.Sound) (h : Outcome w f r) (hf : f.Sound w)
    {fs : Multiset Frame} (hsent : Balanced Frame.registers World.sent w (f ::ₘ fs)) :
    ∀ id task, r.world.handles.lookup id = some task →
      r.world.accepted[task]? = some id ∧ .removed task ∉ r.world.log := by
  intro id task hlookup
  have hadvances := h.advances hf
  cases h with
  | insertHandle id' task' =>
    rw [lookup_insert] at hlookup
    split at hlookup
    · rename_i hid
      cases hlookup
      subst hid
      refine ⟨hf, fun hremoved => ?_⟩
      have hnot := (hsent.settled_of_mem (Multiset.mem_cons_self _ _) (beq_self_eq_true task)).2
      exact List.count_eq_zero.mp hnot (hw.removed task hremoved).1
    · exact hw.handles id task hlookup
  | remove id' task' =>
    rw [removeStep, lookup_erase] at hlookup
    split at hlookup
    · cases hlookup
    · rename_i hid
      obtain ⟨haccepted, hremoved⟩ := hw.handles id task hlookup
      refine ⟨hadvances.accepted haccepted, ?_⟩
      simp only [removeStep, List.mem_append, List.mem_singleton, Event.removed.injEq, not_or]
      refine ⟨hremoved, ?_⟩
      rintro rfl
      exact hid (Option.some.inj (haccepted.symm.trans hf.1))
  | quiet | rejected | issueId | accept | register | ended | subtract | notify | close
  | notifyAtClose | closeReturn | abort | waitReturn =>
    obtain ⟨haccepted, hremoved⟩ := hw.handles id task hlookup
    exact ⟨hadvances.accepted haccepted, by
      simpa [acceptStep, subtractStep, closeStep] using hremoved⟩

theorem removed_step (hw : w.Sound) (h : Outcome w f r) (hf : f.Sound w) :
    ∀ task, .removed task ∈ r.world.log →
      task ∈ r.world.registered ∧ task ∈ r.world.finished := by
  intro task hremoved
  have hadvances := h.advances hf
  have hold (hremoved : .removed task ∈ w.log) :
      task ∈ r.world.registered ∧ task ∈ r.world.finished :=
    ⟨hadvances.registered (hw.removed task hremoved).1,
      hadvances.finished (hw.removed task hremoved).2⟩
  cases h with
  | remove id' task' =>
    rcases List.mem_append.mp hremoved with hremoved | hremoved
    · exact hold hremoved
    · cases List.mem_singleton.mp hremoved
      exact hf.2
  | quiet | rejected | issueId | accept | insertHandle | register | ended | subtract | notify
  | close | notifyAtClose | closeReturn | abort | waitReturn =>
    exact hold (by simpa [acceptStep, subtractStep, closeStep] using hremoved)

theorem subtracted_step (hw : w.Sound) (h : Outcome w f r) (hf : f.Sound w) :
    ∀ task, .subtracted task ∈ r.world.log → .removed task ∈ r.world.log := by
  intro task hsubtracted
  have hadvances := h.advances hf
  cases h with
  | subtract task' =>
    rcases List.mem_append.mp hsubtracted with hsubtracted | hsubtracted
    · exact hadvances.mem_log (hw.subtracted task hsubtracted)
    · cases List.mem_singleton.mp hsubtracted
      exact hadvances.mem_log hf
  | quiet | rejected | issueId | accept | insertHandle | register | ended | remove | notify | close
  | notifyAtClose | closeReturn | abort | waitReturn =>
    have hold : .subtracted task ∈ w.log := by
      simpa [acceptStep, removeStep, closeStep] using hsubtracted
    exact hadvances.mem_log (hw.subtracted task hold)

theorem closed_step (hw : w.Sound) (h : Outcome w f r) (hf : f.Sound w) :
    (.closed ∈ r.world.log → r.world.closed = true) ∧
      (.closeReturned ∈ r.world.log → r.world.closed = true) := by
  cases h with
  | close => exact ⟨fun _ => rfl, fun _ => rfl⟩
  | closeReturn => exact ⟨fun _ => hf, fun _ => hf⟩
  | quiet | rejected | issueId | accept | insertHandle | register | ended | remove | subtract
  | notify | notifyAtClose | abort | waitReturn =>
    constructor <;> intro hmem
    · exact hw.closed (by simpa [acceptStep, removeStep, subtractStep] using hmem)
    · exact hw.closeReturned (by simpa [acceptStep, removeStep, subtractStep] using hmem)

theorem refuses_step (hw : w.Sound) (h : Outcome w f r) (hf : f.Sound w) :
    ∀ id, ¬ [.closed, .accepted id] <+ r.world.log := by
  intro id hsub
  cases h with
  | accept id' =>
    rcases accepted_concat hsub with hsub | ⟨-, hmem⟩
    · exact hw.refuses id hsub
    · have hclosed := hw.closed hmem
      rw [show w.closed = false from hf] at hclosed
      cases hclosed
  | rejected | remove | subtract | close | closeReturn | waitReturn =>
    rcases accepted_concat hsub with hsub | ⟨heq, -⟩
    · exact hw.refuses id hsub
    · cases heq
  | quiet | issueId | insertHandle | register | ended | notify | notifyAtClose | abort =>
    exact hw.refuses id hsub

theorem drained_step (hw : w.Sound) (h : Outcome w f r) (hf : f.Sound w) :
    ∀ n, [.closeReturned, .waitCalled n, .waitReturned n] <+ r.world.log → Drained r.world := by
  intro n hsub
  refine (h.advances hf).drained ?_
  cases h with
  | waitReturn n' =>
    rcases waitReturned_concat hsub with hsub | ⟨heq, hcalled⟩
    · exact hw.drained n hsub
    · cases heq
      exact hf.2 hcalled
  | rejected | accept | remove | subtract | close | closeReturn =>
    rcases waitReturned_concat hsub with hsub | ⟨heq, -⟩
    · exact hw.drained n hsub
    · cases heq
  | quiet | issueId | insertHandle | register | ended | notify | notifyAtClose | abort =>
    exact hw.drained n hsub

end World.Sound

/-! ## Calls -/

section Start

variable (b : Start) (w : World)

theorem accepted_start : (start b w).world.accepted = w.accepted := by
  cases b with
  | wait => exact accepted_of_event rfl rfl
  | spawn | close | abortAll => rfl

theorem start_advances : Advances w (start b w).world := by
  cases b with
  | wait =>
    exact {
      log := ⟨[.waitCalled w.waits], rfl, by simp⟩
      waits := Nat.le_succ _
      idle := Nat.le_refl _
      registered := List.Subset.refl _
      finished := List.Subset.refl _
      closed := fun hclosed => ⟨hclosed, accepted_start .wait w⟩ }
  | spawn | close | abortAll =>
    exact .of_log_eq rfl rfl (Nat.le_refl _) (List.Subset.refl _) (List.Subset.refl _) rfl

variable {w}

theorem start_sound : ∀ g ∈ (start b w).all, g.Sound (start b w).world := by
  cases b <;> simp [start, Tasks.Effect.all]

theorem World.Sound.start (hw : w.Sound) : (FlowTasks.start b w).world.Sound := by
  have hadvances := start_advances b w
  cases b with
  | spawn | close | abortAll => exact hw
  | wait =>
    exact {
      handles := by
        intro id task hlookup
        obtain ⟨haccepted, hremoved⟩ := hw.handles id task hlookup
        exact ⟨hadvances.accepted haccepted, by simpa [FlowTasks.start] using hremoved⟩
      removed := by simpa [FlowTasks.start] using hw.removed
      subtracted := by simpa [FlowTasks.start] using hw.subtracted
      closed := by simpa [FlowTasks.start] using hw.closed
      closeReturned := by simpa [FlowTasks.start] using hw.closeReturned
      refuses := by
        intro id hsub
        rcases accepted_concat hsub with hsub | ⟨heq, -⟩
        · exact hw.refuses id hsub
        · cases heq
      drained := by
        intro n hsub
        rcases waitReturned_concat hsub with hsub | ⟨heq, -⟩
        · exact hadvances.drained (hw.drained n hsub)
        · cases heq }

end Start

/-! ## Counting what is active -/

/-- The accepted spawns that `done` has not subtracted yet. -/
def World.outstanding (w : World) : List Nat :=
  (List.range w.accepted.length).filter fun task => .subtracted task ∉ w.log

section Outstanding

variable {w w' : World} {f : Frame} {r : Effect}

theorem outstanding_congr (haccepted : w'.accepted = w.accepted)
    (hlog : ∀ task, .subtracted task ∈ w'.log ↔ .subtracted task ∈ w.log) :
    w'.outstanding = w.outstanding := by
  simp only [World.outstanding, haccepted, hlog]

theorem outstanding_acceptStep (id : UInt64)
    (hnew : .subtracted w.accepted.length ∉ w.log) :
    (acceptStep w id).world.outstanding = w.outstanding ++ [w.accepted.length] := by
  have hlog (task : Nat) :
      .subtracted task ∈ (acceptStep w id).world.log ↔ .subtracted task ∈ w.log := by
    simp [acceptStep]
  simp only [World.outstanding, accepted_acceptStep, List.length_append, List.length_singleton,
    List.range_succ, List.filter_append, hlog]
  simp [hnew]

theorem outstanding_subtractStep (task : Nat) :
    (subtractStep w task).world.outstanding = w.outstanding.erase task := by
  have haccepted : (subtractStep w task).world.accepted = w.accepted := accepted_of_event rfl rfl
  have hnodup : w.outstanding.Nodup := List.nodup_range.filter _
  rw [hnodup.erase_eq_filter, World.outstanding, World.outstanding, haccepted, List.filter_filter]
  refine List.filter_congr fun t _ => ?_
  rw [Bool.eq_iff_iff]
  simp [subtractStep, and_comm]

theorem active_step (h : Outcome w f r) {fs : Multiset Frame}
    (howes : Balanced Frame.owes World.subtracted w (f ::ₘ fs))
    (hactive : w.active = w.outstanding.length) :
    r.world.active = r.world.outstanding.length := by
  cases h with
  | accept id =>
    have hnew : .subtracted w.accepted.length ∉ w.log :=
      List.count_eq_zero.mp (howes.settled_of_le (Nat.le_refl _))
    rw [outstanding_acceptStep id hnew, List.length_append, ← hactive]
    rfl
  | subtract task =>
    obtain ⟨hlt, hnot⟩ := howes.settled_of_mem (Multiset.mem_cons_self _ _) (beq_self_eq_true task)
    have hmem : task ∈ w.outstanding := by
      simpa [World.outstanding, hlt] using List.count_eq_zero.mp hnot
    rw [outstanding_subtractStep, List.length_erase_of_mem hmem, ← hactive]
    rfl
  | rejected | remove | close | closeReturn | waitReturn =>
    rw [outstanding_congr (w := w) (accepted_of_event rfl rfl)
      (by simp [removeStep, closeStep])]
    exact hactive
  | quiet | issueId | insertHandle | register | ended | notify | notifyAtClose | abort =>
    exact hactive

end Outstanding

structure Consistent (w : World) (fs : Multiset Frame) : Prop where
  world : w.Sound
  frames : ∀ f ∈ fs, f.Sound w
  sent : Balanced Frame.registers World.sent w fs
  subtracted : Balanced Frame.owes World.subtracted w fs
  active : w.active = w.outstanding.length

namespace Consistent

variable {w : World} {f : Frame} {fs : Multiset Frame} {r : Effect}

/-- With nothing active, all that was accepted has been subtracted. -/
theorem drained_of_idle (h : Consistent w fs) (hactive : w.active = 0)
    (hclosed : .closeReturned ∈ w.log) : Drained w := by
  refine ⟨h.world.closeReturned hclosed, ?_⟩
  intro task htask
  have hnil : w.outstanding = [] := List.length_eq_zero_iff.mp (h.active.symm.trans hactive)
  have hnot : task ∉ w.outstanding := by rw [hnil]; exact List.not_mem_nil
  simpa [World.outstanding, htask] using hnot

theorem init : Consistent World.init 0 where
  world := {
    handles := by simp [World.init]
    removed := by simp [World.init]
    subtracted := by simp [World.init]
    closed := by simp [World.init]
    closeReturned := by simp [World.init]
    refuses := by simp [World.init]
    drained := by simp [World.init] }
  frames := by simp
  sent task := by
    rw [Multiset.countP_zero]
    rfl
  subtracted task := by
    rw [Multiset.countP_zero]
    rfl
  active := rfl

theorem exec {choice : Choice} (h : Consistent w (f ::ₘ fs))
    (hfree : tracker.Free f (f ::ₘ fs)) (hexec : FlowTasks.exec choice w f = some r) :
    Consistent r.world (↑r.all + fs) := by
  have hout := exec_outcome hexec
  have hf : f.Sound w := h.frames f (Multiset.mem_cons_self _ _)
  have hadvances := hout.advances hf
  obtain ⟨hclosed, hreturned⟩ := h.world.closed_step hout hf
  exact {
    world := {
      handles := h.world.handles_step hout hf h.sent
      removed := h.world.removed_step hout hf
      subtracted := h.world.subtracted_step hout hf
      closed := hclosed
      closeReturned := hreturned
      refuses := h.world.refuses_step hout hf
      drained := h.world.drained_step hout hf }
    frames := by
      intro g hg
      rcases Multiset.mem_add.mp hg with hg | hg
      · exact hout.sound hf h.drained_of_idle g hg
      · have hg : g ∈ f ::ₘ fs := Multiset.mem_cons_of_mem hg
        refine (h.frames g hg).advance hadvances fun hheld => ?_
        refine hout.closed fun hclose => ?_
        subst hclose
        exact hfree .state rfl g hg hheld
    sent := hout.registers h.sent
    subtracted := hout.owes h.subtracted
    active := active_step hout h.subtracted h.active }

theorem boot (b : Start) (h : Consistent w fs) :
    Consistent (start b w).world (↑(start b w).all + fs) where
  world := h.world.start b
  frames := by
    intro g hg
    rcases Multiset.mem_add.mp hg with hg | hg
    · exact start_sound b g hg
    · exact (h.frames g hg).advance (start_advances b w) fun _ => by cases b <;> rfl
  sent := h.sent.of_boot (accepted_start b w) (by cases b <;> rfl)
    (by cases b <;> simp [start, Tasks.Effect.all])
  subtracted := by
    refine h.subtracted.of_boot (accepted_start b w) (funext fun task => ?_)
      (by cases b <;> simp [start, Tasks.Effect.all])
    cases b <;> simp [start, World.subtracted]
  active := by
    rw [outstanding_congr (accepted_start b w) (by cases b <;> simp [start]), ← h.active]
    cases b <;> rfl

end Consistent

theorem consistent {p : Pool} (h : tracker.Reachable initial p) : Consistent p.world p.bag := by
  refine h.bag_invariant (I := Consistent) .init ?_ ?_
  · intro p b _ ih
    exact ih.boot b
  · intro p c f others r _ _ ih hfree _ hexec
    exact ih.exec hfree hexec

end Nowhere.Portal.FlowTasks
