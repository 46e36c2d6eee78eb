import Nowhere.Lib.Assoc
import Nowhere.Lib.Tasks

/-!
# The tracker of detached flow tasks

`FlowTaskTracker` of `src/portal/tasks.rs`. A spawn that is accepted starts two tasks: the worker,
and a reaper that waits for the worker and then calls `done`. `close`, `abort_all` and `wait` may
be called at any time and any number of times.

Ids wrap after `2 ^ 64` spawns, so a worker is known here by its place among the accepted spawns
(`World.accepted`). `active` is a natural number: each accepted spawn keeps its reaper in memory
until it is subtracted again, so there are never as many of them as a `usize` can count.

`Notified` remembers how often `notify_waiters` had been called when it was made and is ready once
that number has changed, hence `idle` is that number.
-/

namespace Nowhere.Portal.FlowTasks

open Assoc

/-! ## Steps -/

inductive Lock
  | state
  deriving DecidableEq, Repr

/-- What happened, oldest first. A worker is named by its place among the accepted spawns, a call
of `wait` by its place among these calls. -/
inductive Event
  | accepted (id : UInt64)
  | rejected
  -- the two halves of `done`
  | removed (task : Nat)
  | subtracted (task : Nat)
  | closed
  | closeReturned
  | waitCalled (n : Nat)
  | waitReturned (n : Nat)
  deriving DecidableEq, Repr

def Event.acceptedId : Event → Option UInt64
  | .accepted id => some id
  | _ => none

structure World where
  closed : Bool
  /-- The abort handle of a worker is known by the worker. -/
  handles : Map UInt64 Nat
  nextId : UInt64
  active : Nat
  idle : Nat
  /-- The workers whose registration was sent to their reaper. -/
  registered : List Nat
  /-- The workers that were asked to stop, and those that have stopped. -/
  aborted : List Nat
  finished : List Nat
  waits : Nat
  log : List Event

def World.init : World where
  closed := false
  handles := ∅
  nextId := 0
  active := 0
  idle := 0
  registered := []
  aborted := []
  finished := []
  waits := 0
  log := []

/-- The ids of the accepted spawns. -/
def World.accepted (w : World) : List UInt64 := w.log.filterMap Event.acceptedId

inductive Frame
  -- `spawn`, which has `state` locked until the handle is inserted
  | spawn
  | issueId
  | accept (id : UInt64)
  | spawnWorker (id : UInt64) (task : Nat)
  | spawnReaper (id : UInt64) (task : Nat)
  | insertHandle (id : UInt64) (task : Nat)
  | register (task : Nat)
  | worker (task : Nat)
  -- the reaper; `done` starts with the removal
  | awaitRegistration (id : UInt64) (task : Nat)
  | join (id : UInt64) (task : Nat)
  | remove (id : UInt64) (task : Nat)
  | subtract (task : Nat)
  | notify
  | close
  | loadAtClose
  | notifyAtClose
  | closeReturn
  | abortAll
  | abort (tasks : List Nat)
  | wait (n : Nat)
  | load (n ticket : Nat)
  | sleep (n ticket : Nat)
  | waitReturn (n : Nat)

namespace Frame

/-- The lock taken before the frame runs. -/
def wants : Frame → Option Lock
  | .spawn | .remove .. | .close | .abortAll => some .state
  | _ => none

/-- The locks the task keeps until the frame has run. -/
def holds : Frame → List Lock
  | .issueId | .accept _ | .spawnWorker .. | .spawnReaper .. | .insertHandle .. | .loadAtClose
  | .notifyAtClose | .abort _ => [.state]
  | _ => []

end Frame

/-- What the environment decides during a step: `stop` ends a worker by its abort handle, and a
call of `wait` by dropping its future. -/
inductive Choice
  | go
  | stop

abbrev Effect := Tasks.Effect World Frame

section Steps

variable (w : World)

def spawnStep : Effect :=
  if w.closed then ⟨{ w with log := w.log ++ [.rejected] }, [], []⟩ else ⟨w, [.issueId], []⟩

def acceptStep (id : UInt64) : Effect :=
  ⟨{ w with active := w.active + 1, log := w.log ++ [.accepted id] },
    [.spawnWorker id w.accepted.length], []⟩

/-- A worker may end by itself at any time, by completion or by panic. -/
def workerStep (choice : Choice) (task : Nat) : Option Effect :=
  let ended : Effect := ⟨{ w with finished := task :: w.finished }, [], []⟩
  match choice with
  | .go => some ended
  | .stop => if task ∈ w.aborted then some ended else none

def removeStep (id : UInt64) (task : Nat) : Effect :=
  ⟨{ w with handles := w.handles.erase id, log := w.log ++ [.removed task] }, [.subtract task], []⟩

def subtractStep (task : Nat) : Effect :=
  ⟨{ w with active := w.active - 1, log := w.log ++ [.subtracted task] },
    if w.active = 1 then [.notify] else [], []⟩

def closeStep : Effect :=
  ⟨{ w with closed := true, log := w.log ++ [.closed] }, [.loadAtClose], []⟩

def abortStep : List Nat → Effect
  | [] => ⟨w, [], []⟩
  | task :: tasks => ⟨{ w with aborted := task :: w.aborted }, [.abort tasks], []⟩

def sleepStep (choice : Choice) (n ticket : Nat) : Option Effect :=
  match choice with
  | .go => if w.idle = ticket then none else some ⟨w, [.wait n], []⟩
  | .stop => some ⟨w, [], []⟩

end Steps

/-- One step of a frame. -/
def exec (choice : Choice) (w : World) : Frame → Option Effect
  | .spawn => some (spawnStep w)
  | .issueId => some ⟨{ w with nextId := w.nextId + 1 }, [.accept w.nextId], []⟩
  | .accept id => some (acceptStep w id)
  | .spawnWorker id task => some ⟨w, [.spawnReaper id task], [[.worker task]]⟩
  | .spawnReaper id task => some ⟨w, [.insertHandle id task], [[.awaitRegistration id task]]⟩
  | .insertHandle id task =>
    some ⟨{ w with handles := w.handles.insert id task }, [.register task], []⟩
  | .register task => some ⟨{ w with registered := task :: w.registered }, [], []⟩
  | .worker task => workerStep w choice task
  | .awaitRegistration id task =>
    if task ∈ w.registered then some ⟨w, [.join id task], []⟩ else none
  | .join id task => if task ∈ w.finished then some ⟨w, [.remove id task], []⟩ else none
  | .remove id task => some (removeStep w id task)
  | .subtract task => some (subtractStep w task)
  | .notify => some ⟨{ w with idle := w.idle + 1 }, [], []⟩
  | .close => some (closeStep w)
  | .loadAtClose => some ⟨w, [if w.active = 0 then .notifyAtClose else .closeReturn], []⟩
  | .notifyAtClose => some ⟨{ w with idle := w.idle + 1 }, [.closeReturn], []⟩
  | .closeReturn => some ⟨{ w with log := w.log ++ [.closeReturned] }, [], []⟩
  | .abortAll => some ⟨w, [.abort (w.handles.entries.map Sigma.snd)], []⟩
  | .abort tasks => some (abortStep w tasks)
  | .wait n => match choice with
    | .go => some ⟨w, [.load n w.idle], []⟩
    | .stop => some ⟨w, [], []⟩
  | .load n ticket => some ⟨w, [if w.active = 0 then .waitReturn n else .sleep n ticket], []⟩
  | .sleep n ticket => sleepStep w choice n ticket
  | .waitReturn n => some ⟨{ w with log := w.log ++ [.waitReturned n] }, [], []⟩

/-- The calls that the environment may make at any time. -/
inductive Start
  | spawn
  | close
  | abortAll
  | wait

def start (b : Start) (w : World) : Effect :=
  match b with
  | .spawn => ⟨w, [.spawn], []⟩
  | .close => ⟨w, [.close], []⟩
  | .abortAll => ⟨w, [.abortAll], []⟩
  | .wait =>
    ⟨{ w with waits := w.waits + 1, log := w.log ++ [.waitCalled w.waits] }, [.wait w.waits], []⟩

/-- The tracker and its tasks. -/
def tracker : Tasks.System World Frame Lock Choice Start where
  wants := Frame.wants
  holds := Frame.holds
  exec := exec
  boot := start

abbrev Pool := Tasks.Pool World Frame

/-- `FlowTaskTracker::default`. -/
def initial : Pool := ⟨.init, []⟩

/-! ## How steps end -/

/-- The steps that leave the world alone. -/
inductive Moves (w : World) : Frame → List Frame → List (List Frame) → Prop
  | spawn (isOpen : w.closed = false) : Moves w .spawn [.issueId] []
  | spawnWorker (id : UInt64) (task : Nat) :
      Moves w (.spawnWorker id task) [.spawnReaper id task] [[.worker task]]
  | spawnReaper (id : UInt64) (task : Nat) :
      Moves w (.spawnReaper id task) [.insertHandle id task] [[.awaitRegistration id task]]
  | registered (id : UInt64) {task : Nat} (sent : task ∈ w.registered) :
      Moves w (.awaitRegistration id task) [.join id task] []
  | joined (id : UInt64) {task : Nat} (ended : task ∈ w.finished) :
      Moves w (.join id task) [.remove id task] []
  | closeIdle : Moves w .loadAtClose [.notifyAtClose] []
  | closeBusy : Moves w .loadAtClose [.closeReturn] []
  | abortAll (tasks : List Nat) : Moves w .abortAll [.abort tasks] []
  | abortEnd : Moves w (.abort []) [] []
  | wait (n : Nat) : Moves w (.wait n) [.load n w.idle] []
  | loadIdle (n ticket : Nat) (isIdle : w.active = 0) :
      Moves w (.load n ticket) [.waitReturn n] []
  | loadBusy (n ticket : Nat) (busy : w.active ≠ 0) : Moves w (.load n ticket) [.sleep n ticket] []
  | woken (n : Nat) {ticket : Nat} (notified : w.idle ≠ ticket) :
      Moves w (.sleep n ticket) [.wait n] []
  | waitDropped (n : Nat) : Moves w (.wait n) [] []
  | sleepDropped (n ticket : Nat) : Moves w (.sleep n ticket) [] []

/-- A step of `f` and what it does, for every step there is. -/
inductive Outcome (w : World) : Frame → Effect → Prop
  | quiet {f : Frame} {frames : List Frame} {spawned : List (List Frame)}
      (moves : Moves w f frames spawned) : Outcome w f ⟨w, frames, spawned⟩
  | rejected : Outcome w .spawn ⟨{ w with log := w.log ++ [.rejected] }, [], []⟩
  | issueId : Outcome w .issueId ⟨{ w with nextId := w.nextId + 1 }, [.accept w.nextId], []⟩
  | accept (id : UInt64) : Outcome w (.accept id) (acceptStep w id)
  | insertHandle (id : UInt64) (task : Nat) :
      Outcome w (.insertHandle id task)
        ⟨{ w with handles := w.handles.insert id task }, [.register task], []⟩
  | register (task : Nat) :
      Outcome w (.register task) ⟨{ w with registered := task :: w.registered }, [], []⟩
  | ended (task : Nat) :
      Outcome w (.worker task) ⟨{ w with finished := task :: w.finished }, [], []⟩
  | remove (id : UInt64) (task : Nat) : Outcome w (.remove id task) (removeStep w id task)
  | subtract (task : Nat) : Outcome w (.subtract task) (subtractStep w task)
  | notify : Outcome w .notify ⟨{ w with idle := w.idle + 1 }, [], []⟩
  | close : Outcome w .close (closeStep w)
  | notifyAtClose :
      Outcome w .notifyAtClose ⟨{ w with idle := w.idle + 1 }, [.closeReturn], []⟩
  | closeReturn : Outcome w .closeReturn ⟨{ w with log := w.log ++ [.closeReturned] }, [], []⟩
  | abort (task : Nat) (tasks : List Nat) :
      Outcome w (.abort (task :: tasks))
        ⟨{ w with aborted := task :: w.aborted }, [.abort tasks], []⟩
  | waitReturn (n : Nat) :
      Outcome w (.waitReturn n) ⟨{ w with log := w.log ++ [.waitReturned n] }, [], []⟩

section Inversion

variable {choice : Choice} {w : World} {r : Effect}

theorem spawnStep_outcome : Outcome w .spawn (spawnStep w) := by
  unfold spawnStep
  split
  · exact .rejected
  · rename_i hopen
    exact .quiet (.spawn (Bool.eq_false_iff.mpr hopen))

theorem workerStep_outcome {task : Nat} (h : workerStep w choice task = some r) :
    Outcome w (.worker task) r := by
  unfold workerStep at h
  dsimp only at h
  split at h
  · cases h
    exact .ended task
  · split at h <;> cases h
    exact .ended task

theorem abortStep_outcome (tasks : List Nat) : Outcome w (.abort tasks) (abortStep w tasks) := by
  cases tasks with
  | nil => exact .quiet .abortEnd
  | cons task tasks => exact .abort task tasks

theorem sleepStep_outcome {n ticket : Nat} (h : sleepStep w choice n ticket = some r) :
    Outcome w (.sleep n ticket) r := by
  unfold sleepStep at h
  split at h
  · split at h
    · cases h
    · rename_i hidle
      cases h
      exact .quiet (.woken n hidle)
  · cases h
    exact .quiet (.sleepDropped n ticket)

theorem exec_outcome {f : Frame} (h : exec choice w f = some r) : Outcome w f r := by
  cases f with
  | spawn => cases h; exact spawnStep_outcome
  | issueId => cases h; exact .issueId
  | accept id => cases h; exact .accept id
  | spawnWorker id task => cases h; exact .quiet (.spawnWorker id task)
  | spawnReaper id task => cases h; exact .quiet (.spawnReaper id task)
  | insertHandle id task => cases h; exact .insertHandle id task
  | register task => cases h; exact .register task
  | worker task => exact workerStep_outcome h
  | awaitRegistration id task =>
    obtain ⟨hsent, h⟩ := Option.ite_none_right_eq_some.mp h
    cases h
    exact .quiet (.registered id hsent)
  | join id task =>
    obtain ⟨hended, h⟩ := Option.ite_none_right_eq_some.mp h
    cases h
    exact .quiet (.joined id hended)
  | remove id task => cases h; exact .remove id task
  | subtract task => cases h; exact .subtract task
  | notify => cases h; exact .notify
  | close => cases h; exact .close
  | loadAtClose =>
    cases h
    split
    · exact .quiet .closeIdle
    · exact .quiet .closeBusy
  | notifyAtClose => cases h; exact .notifyAtClose
  | closeReturn => cases h; exact .closeReturn
  | abortAll => cases h; exact .quiet (.abortAll _)
  | abort tasks => cases h; exact abortStep_outcome tasks
  | wait n =>
    cases choice with
    | go => cases h; exact .quiet (.wait n)
    | stop => cases h; exact .quiet (.waitDropped n)
  | load n ticket =>
    cases h
    split
    · rename_i hidle
      exact .quiet (.loadIdle n ticket hidle)
    · rename_i hbusy
      exact .quiet (.loadBusy n ticket hbusy)
  | sleep n ticket => exact sleepStep_outcome h
  | waitReturn n => cases h; exact .waitReturn n

end Inversion

end Nowhere.Portal.FlowTasks
