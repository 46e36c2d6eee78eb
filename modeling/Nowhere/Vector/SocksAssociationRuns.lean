import Nowhere.Lib.Slots
import Nowhere.Vector.SocksAssociation

/-!
# Runs of a SOCKS UDP association

Every step of the association is one of a few changes (`Change`, `change_of_step`), and each group
of invariants is kept by all of them: the endpoint and what goes to it (`Confined`), the map of the
flows beside the tasks (`Listed`), the permits (`Paid`), and the order of the packets of one target
(`Ordered`).
-/

namespace Nowhere.Vector.Association

open Assoc Protocol Relay Common.Socks
open scoped List

/-! ## What a task can do -/

/-- A step of a task that was running. -/
structure Task.Goes (endpoint : Option SocketAddr) (k : Task) (s : TaskStep) : Prop where
  wasOpen : k.isOpen = true
  target : s.task.target = k.target
  written : s.task.outbound.written <+ k.outbound.written
  room : s.task.outbound.queue.length ≤ k.outbound.queue.length
  held : s.task.held + s.released = k.held
  emptied : s.task.isOpen = false → s.task.held = 0
  replies : ∀ r ∈ s.replies, k.leg = .replying r.1 r.2
  next : ∀ a packet, s.task.leg = .replying a packet →
    endpoint = some a ∧ ∃ payload, encodeUdpPacketInto [] k.target payload = .ok packet

section Tasks

variable {endpoint : Option SocketAddr} {k : Task} {s : TaskStep} {leg : TaskLeg}

theorem Task.goes_leg (hopen : k.isOpen = true) {leg : TaskLeg}
    (hheld : k.held = queueCost k.outbound.queue)
    (hleg : Task.held { k with leg := leg } = queueCost k.outbound.queue)
    (hstill : Task.isOpen { k with leg := leg } = true)
    (hnext : ∀ a packet, leg = .replying a packet →
      endpoint = some a ∧ ∃ payload, encodeUdpPacketInto [] k.target payload = .ok packet) :
    k.Goes endpoint (k.goes leg) where
  wasOpen := hopen
  target := rfl
  written := List.Sublist.refl _
  room := Nat.le_refl _
  held := hleg.trans hheld.symm
  emptied := fun h => absurd (hstill.symm.trans h) nofun
  replies := nofun
  next := hnext

theorem Task.goes_returns (hopen : k.isOpen = true)
    (hheld : k.held = queueCost k.outbound.queue) : k.Goes endpoint k.returns where
  wasOpen := hopen
  target := rfl
  written := by
    change k.outbound.taken ++ [] <+ k.outbound.taken ++ k.outbound.queue
    rw [List.append_nil]
    exact List.sublist_append_left _ _
  room := Nat.zero_le _
  held := by
    rw [hheld]
    exact Nat.zero_add _
  emptied := fun _ => rfl
  replies := nofun
  next := nofun

/-- The packet at hand is dropped, sent or not. -/
theorem Task.goes_sent {payload : List UInt8} (hleg : k.leg = .sending payload)
    (hsending : Task.held { k with leg := leg } = queueCost k.outbound.queue)
    (hreplying : ∀ a packet, leg ≠ .replying a packet)
    (hstill : Task.isOpen { k with leg := leg } = true) :
    k.Goes endpoint ⟨{ k with leg := leg }, cost payload, []⟩ where
  wasOpen := by simp [Task.isOpen, hleg]
  target := rfl
  written := List.Sublist.refl _
  room := Nat.le_refl _
  held := by
    change Task.held { k with leg := leg } + cost payload = k.held
    rw [hsending, Task.held, hleg]
  emptied := fun h => absurd (hstill.symm.trans h) nofun
  replies := nofun
  next := fun a packet h => absurd h (hreplying a packet)

theorem goes_of_taskStep {e : TaskEvent} (h : taskStep endpoint k e = some s) :
    k.Goes endpoint s := by
  obtain ⟨target, outbound, leg⟩ := k
  unfold taskStep at h
  dsimp only at h
  split at h
  case h_1 | h_6 | h_10 =>
    cases h
    exact Task.goes_leg rfl rfl rfl rfl fun _ _ h => by cases h
  case h_2 | h_11 =>
    cases h
    exact Task.goes_returns rfl rfl
  case h_7 | h_8 =>
    cases h
    exact Task.goes_sent rfl rfl (fun _ _ h => by cases h) rfl
  · split at h
    · cases h
    · rename_i payload rest hqueue
      cases h
      exact {
        wasOpen := rfl
        target := rfl
        written := by
          change (outbound.take 1).written <+ outbound.written
          rw [Pipe.written_take]
        room := by simp [Task.goes, Pipe.take]
        held := by simp [Task.goes, Task.held, Pipe.take, queueCost, hqueue, Nat.add_comm]
        emptied := fun h => by cases h
        replies := fun _ h => by cases h
        next := fun _ _ h => by cases h }
  · split at h
    · cases h
      exact Task.goes_leg rfl rfl rfl rfl fun _ _ h => by cases h
    · cases h
  · rename_i payload
    split at h
    · rename_i a packet hpacket
      cases h
      refine Task.goes_leg rfl rfl rfl rfl ?_
      rintro _ _ ⟨⟩
      exact ⟨rfl, payload, hpacket⟩
    · cases h
      exact Task.goes_leg rfl rfl rfl rfl fun _ _ h => by cases h
  · cases h
    exact {
      wasOpen := rfl
      target := rfl
      written := List.Sublist.refl _
      room := Nat.le_refl _
      held := rfl
      emptied := fun h => by cases h
      replies := List.forall_mem_singleton.mpr rfl
      next := fun _ _ h => by cases h }
  · cases h

end Tasks

/-! ## What a step can do -/

/-- A datagram of the client that names a target. -/
structure Accepted (c : Config) (w : World) (source : SocketAddr) (packet : List UInt8)
    (target : SocksAddress) (payload : List UInt8) : Prop where
  phase : w.phase = .looping
  ip : ipOf source = ipOf c.peer
  endpoint : w.endpoint = none ∨ w.endpoint = some source
  packet : decodeUdpPacket packet = .ok (target, 0, payload)
  port : target.port ≠ 0

/-- The endpoint is the source of the datagram from now on, if it was not before. -/
def World.accept (w : World) (source : SocketAddr) (packet : List UInt8) : World :=
  { w with endpoint := some source, arrived := w.arrived ++ [(source, packet)] }

/-- The flow of the target, if it has one, has returned. -/
def World.Closed (w : World) (target : SocksAddress) : Prop :=
  ∀ i k, w.flows.lookup target = some i → w.tasks[i]? = some k → k.isOpen = false

inductive Change (c : Config) (w : World) : World → Prop
  | ignores (source : SocketAddr) (packet : List UInt8) :
      Change c w { w with arrived := w.arrived ++ [(source, packet)] }
  | drops {source : SocketAddr} {packet payload : List UInt8} {target : SocksAddress}
      (accepted : Accepted c w source packet target payload) : Change c w (w.accept source packet)
  | forgets {source : SocketAddr} {packet payload : List UInt8} {target : SocksAddress}
      (accepted : Accepted c w source packet target payload) (closed : w.Closed target) :
      Change c w { w.accept source packet with flows := w.flows.erase target }
  | queues {source : SocketAddr} {packet payload : List UInt8} {target : SocksAddress} {i : Nat}
      {k : Task} (accepted : Accepted c w source packet target payload)
      (flow : w.flows.lookup target = some i) (task : w.tasks[i]? = some k)
      (isOpen : k.isOpen = true) (room : k.outbound.queue.length < queueCapacity)
      (paid : cost payload ≤ w.available) :
      Change c w { w.accept source packet with
        tasks := w.tasks.set i { k with outbound := k.outbound.push [payload] }
        available := w.available - cost payload }
  | opens {source : SocketAddr} {packet payload : List UInt8} {target : SocksAddress}
      {flows : Map SocksAddress Nat} (accepted : Accepted c w source packet target payload)
      (closed : w.Closed target)
      (erased : flows = w.flows.erase target) (few : flows.entries.length < c.maxFlows)
      (paid : cost payload ≤ w.available) :
      Change c w { w.accept source packet with
        flows := flows.insert target w.tasks.length
        tasks := w.tasks ++ [⟨target, Pipe.empty.push [payload], .opening⟩]
        available := w.available - cost payload }
  | goes {i : Nat} {k : Task} {s : TaskStep} (task : w.tasks[i]? = some k)
      (goes : k.Goes w.endpoint s) :
      Change c w { w with
        tasks := w.tasks.set i s.task
        available := w.available + s.released
        clientDown := w.clientDown ++ s.replies }
  | joins {i : Nat} {k : Task} (task : w.tasks[i]? = some k) (leg : k.leg = .returned) :
      Change c w { w with
        tasks := w.tasks.set i { k with leg := .joined }
        flows := retain w.flows fun _ j => w.isOpenAt j }
  | stops (phase : w.phase = .looping) :
      Change c w { w with
        phase := .ending
        flows := ∅
        tasks := w.tasks.map fun k => { k with outbound := k.outbound.close .dropped } }
  | ends (joined : ∀ k ∈ w.tasks, k.leg = .joined) : Change c w { w with phase := .ended }
  | budget {available others : Nat} (same : available + others = w.available + w.others) :
      Change c w { w with available := available, others := others }

section Changes

variable {c : Config} {w w' : World} {source : SocketAddr} {packet payload : List UInt8}
  {target : SocksAddress}

/-- A new flow is opened, or there are too many. -/
theorem change_of_openFlow (haccepted : Accepted c w source packet target payload)
    (hclosed : w.Closed target) (hpaid : cost payload ≤ w.available) :
    Change c w ({ w.accept source packet with flows := w.flows.erase target }.openFlow c target
      payload) := by
  unfold World.openFlow
  split
  · exact .forgets haccepted hclosed
  · rename_i hfew
    exact .opens haccepted hclosed rfl (Nat.lt_of_not_le hfew) hpaid

/-- What `try_send` answers for the flow of the target. -/
theorem trySend_cases {i : Nat} (hflow : w.flows.lookup target = some i) (payload : List UInt8) :
    (∃ k, w.tasks[i]? = some k ∧ k.isOpen = true ∧ k.outbound.queue.length < queueCapacity ∧
      w.trySend i payload = .sent { k with outbound := k.outbound.push [payload] }) ∨
    w.trySend i payload = .full ∨
    w.trySend i payload = .closed ∧ w.Closed target := by
  unfold World.trySend
  cases htask : w.tasks[i]? with
  | none =>
    refine .inr (.inr ⟨rfl, fun j k hj hk => ?_⟩)
    cases hflow.symm.trans hj
    cases htask.symm.trans hk
  | some k =>
    dsimp only
    unfold Task.trySend
    split
    · rename_i hclosed
      refine .inr (.inr ⟨rfl, fun j k' hj hk => ?_⟩)
      cases hflow.symm.trans hj
      cases htask.symm.trans hk
      exact Bool.eq_false_of_not_eq_true hclosed
    · rename_i hopen
      split
      · rename_i hroom
        exact .inl ⟨k, rfl, not_not.mp hopen, hroom, rfl⟩
      · exact .inr (.inl rfl)

theorem change_of_enqueue (haccepted : Accepted c w source packet target payload) :
    Change c w ((w.accept source packet).enqueue c target payload) := by
  unfold World.enqueue
  split
  · exact .drops haccepted
  · rename_i hpaid
    have hpaid' : cost payload ≤ w.available := Nat.le_of_not_lt hpaid
    split
    · rename_i hflow
      change w.flows.lookup target = none at hflow
      have hclosed : w.Closed target := fun i k h => by cases hflow.symm.trans h
      have hchange := change_of_openFlow haccepted hclosed hpaid'
      rw [erase_of_lookup_none hflow] at hchange
      exact hchange
    · rename_i i hflow
      change w.flows.lookup target = some i at hflow
      rcases trySend_cases hflow payload with ⟨k, htask, hopen, hroom, hsent⟩ | hfull |
        ⟨hreturned, hclosed⟩
      · rw [show (w.accept source packet).trySend i payload = _ from hsent]
        exact .queues haccepted hflow htask hopen hroom hpaid'
      · rw [show (w.accept source packet).trySend i payload = _ from hfull]
        exact .drops haccepted
      · rw [show (w.accept source packet).trySend i payload = _ from hreturned]
        exact change_of_openFlow haccepted hclosed hpaid'

theorem change_of_receive (hphase : w.phase = .looping) (source : SocketAddr)
    (packet : List UInt8) :
    Change c w ({ w with arrived := w.arrived ++ [(source, packet)] }.receive c source packet) := by
  unfold World.receive
  split
  · exact .ignores source packet
  · rename_i hip
    split
    · exact .ignores source packet
    · rename_i target fragment payload hpacket
      split
      · exact .ignores source packet
      · rename_i hvalid
        obtain ⟨hfragment, hport⟩ := not_or.mp hvalid
        rw [not_not.mp hfragment] at hpacket
        have haccepted (h : w.endpoint = none ∨ w.endpoint = some source) :
            Accepted c w source packet target payload :=
          ⟨hphase, not_not.mp hip, h, hpacket, hport⟩
        unfold acceptUdpSource
        rw [if_neg hip]
        cases hendpoint : w.endpoint with
        | none => exact change_of_enqueue (haccepted (.inl hendpoint))
        | some expected =>
          dsimp only
          split
          · rename_i hsource
            cases of_decide_eq_true hsource
            exact change_of_enqueue (haccepted (.inr hendpoint))
          · rw [← hendpoint]
            exact .ignores source packet

theorem change_of_step {e : Event} (h : step c w e = some w') : Change c w w' := by
  cases e with
  | datagram source packet =>
    simp only [step] at h
    split at h
    · rename_i hphase
      cases h
      exact change_of_receive hphase source packet
    · cases h
  | task i e =>
    simp only [step] at h
    split at h
    · cases h
    · rename_i k htask
      obtain ⟨s, hs, rfl⟩ := Option.map_eq_some_iff.mp h
      exact .goes htask (goes_of_taskStep hs)
  | joined i =>
    simp only [step, World.join] at h
    split at h
    · cases h
    · rename_i k htask
      split at h
      · rename_i hleg
        cases h
        exact .joins htask hleg
      · cases h
  | stops =>
    simp only [step] at h
    split at h
    · rename_i hphase
      cases h
      exact .stops hphase
    · cases h
  | ends =>
    simp only [step] at h
    split at h
    · rename_i hends
      cases h
      refine .ends fun k hk => ?_
      exact of_decide_eq_true (List.all_eq_true.mp hends.2 k hk)
    · cases h
  | othersTake n | othersReturn n =>
    simp only [step] at h
    split at h
    · cases h
      exact .budget (by omega)
    · cases h

end Changes

/-! ## One task of many -/

/-- An update that keeps the target of a task. -/
theorem map_target_set {tasks : List Task} {i : Nat} {k k' : Task} (h : tasks[i]? = some k)
    (htarget : k'.target = k.target) :
    (tasks.set i k').map Task.target = tasks.map Task.target := by
  obtain ⟨front, back, rfl, _, hset⟩ := Slots.exists_split h
  rw [hset]
  simp [htarget]

/-! ## The endpoint -/

/-- The endpoint has sent a datagram to the target. -/
def Named (endpoint : Option SocketAddr) (arrived : List (SocketAddr × List UInt8))
    (target : SocksAddress) : Prop :=
  target.port ≠ 0 ∧ ∃ a packet payload, endpoint = some a ∧ (a, packet) ∈ arrived ∧
    decodeUdpPacket packet = .ok (target, 0, payload)

/-- A task serves a target that was named by the client, and replies to the endpoint only. -/
structure Task.Serves (endpoint : Option SocketAddr) (arrived : List (SocketAddr × List UInt8))
    (k : Task) : Prop where
  named : Named endpoint arrived k.target
  replies : ∀ a packet, k.leg = .replying a packet →
    endpoint = some a ∧ ∃ payload, encodeUdpPacketInto [] k.target payload = .ok packet

structure Confined (c : Config) (w : World) : Prop where
  pinned : ∀ a, w.endpoint = some a → ipOf a = ipOf c.peer
  unpinned : w.endpoint = none → w.tasks = []
  tasks : ∀ k ∈ w.tasks, k.Serves w.endpoint w.arrived
  replies : ∀ r ∈ w.clientDown, w.endpoint = some r.1 ∧ ∃ target payload,
    Named w.endpoint w.arrived target ∧ encodeUdpPacketInto [] target payload = .ok r.2

section Confined

variable {c : Config} {w w' : World} {target : SocksAddress}

theorem Named.append {endpoint : Option SocketAddr} {arrived : List (SocketAddr × List UInt8)}
    (h : Named endpoint arrived target) (more : List (SocketAddr × List UInt8)) :
    Named endpoint (arrived ++ more) target := by
  obtain ⟨hport, a, packet, payload, hendpoint, hmem, hdecode⟩ := h
  exact ⟨hport, a, packet, payload, hendpoint, List.mem_append_left _ hmem, hdecode⟩

theorem confined_start (c : Config) (requestedPort : Option UInt16) :
    Confined c (.start c requestedPort) where
  pinned := by
    intro a ha
    obtain ⟨port, _, rfl⟩ := Option.map_eq_some_iff.mp ha
    cases c.peer <;> rfl
  unpinned := fun _ => rfl
  tasks := nofun
  replies := nofun

theorem Confined.arrives (h : Confined c w) (x : SocketAddr × List UInt8) :
    Confined c { w with arrived := w.arrived ++ [x] } where
  pinned := h.pinned
  unpinned := h.unpinned
  tasks k hk := { h.tasks k hk with named := (h.tasks k hk).named.append _ }
  replies r hr := by
    obtain ⟨hendpoint, target, payload, hnamed, hencode⟩ := h.replies r hr
    exact ⟨hendpoint, target, payload, hnamed.append _, hencode⟩

theorem Confined.accept (h : Confined c w) {source : SocketAddr} {packet payload : List UInt8}
    (haccepted : Accepted c w source packet target payload) :
    Confined c (w.accept source packet) := by
  rcases haccepted.endpoint with hnone | hsome
  · exact {
      pinned := by
        rintro a ⟨⟩
        exact haccepted.ip
      unpinned := nofun
      tasks := by
        intro k hk
        rw [show (w.accept source packet).tasks = [] from h.unpinned hnone] at hk
        cases hk
      replies := by
        intro r hr
        cases hnone.symm.trans (h.replies r hr).1 }
  · have harrives := h.arrives (source, packet)
    rw [World.accept, ← hsome]
    exact harrives

/-- A task is replaced by one that serves the client as well. -/
theorem Confined.set (h : Confined c w) {i : Nat} {k : Task} (htask : w.tasks[i]? = some k)
    (k' : Task) (hserves : k'.Serves w.endpoint w.arrived) (flows : Map SocksAddress Nat)
    (available : Nat) :
    Confined c { w with tasks := w.tasks.set i k', flows := flows, available := available } where
  pinned := h.pinned
  unpinned := by
    intro hnone
    have hempty := h.unpinned hnone
    rw [hempty] at htask
    cases htask
  tasks := Slots.forall_set h.tasks hserves
  replies := h.replies

theorem Confined.change (h : Confined c w) (hchange : Change c w w') : Confined c w' := by
  cases hchange with
  | ignores source packet => exact h.arrives (source, packet)
  | drops accepted => exact h.accept accepted
  | forgets accepted => exact { h.accept accepted with }
  | @queues source packet payload target i k accepted flow task =>
    have hserves := (h.accept accepted).tasks k (List.mem_of_getElem? task)
    exact (h.accept accepted).set task { k with outbound := k.outbound.push [payload] }
      { hserves with } _ _
  | @opens source packet payload target flows accepted =>
    have haccept := h.accept accepted
    have hnamed : Named (some source) (w.arrived ++ [(source, packet)]) target :=
      ⟨accepted.port, source, packet, payload, rfl, by simp, accepted.packet⟩
    exact {
      pinned := haccept.pinned
      unpinned := nofun
      tasks := List.forall_mem_append.mpr
        ⟨haccept.tasks, List.forall_mem_singleton.mpr ⟨hnamed, nofun⟩⟩
      replies := haccept.replies }
  | @goes i k s task goes =>
    have hserves := h.tasks k (List.mem_of_getElem? task)
    have hset := h.set task s.task
      { named := goes.target ▸ hserves.named
        replies := goes.target ▸ goes.next } w.flows (w.available + s.released)
    refine { hset with replies := List.forall_mem_append.mpr ⟨hset.replies, ?_⟩ }
    intro r hr
    obtain ⟨hendpoint, payload, hencode⟩ := hserves.replies r.1 r.2 (goes.replies r hr)
    exact ⟨hendpoint, k.target, payload, hserves.named, hencode⟩
  | @joins i k task leg =>
    have hserves := h.tasks k (List.mem_of_getElem? task)
    exact h.set task { k with leg := .joined } { hserves with replies := nofun } _ w.available
  | stops =>
    exact {
      pinned := h.pinned
      unpinned := fun hnone => by
        rw [h.unpinned hnone]
        rfl
      tasks := List.forall_mem_map.mpr fun k hmem => { h.tasks k hmem with }
      replies := h.replies }
  | ends | budget => exact { h with }

end Confined

/-! ## The flows -/

/-- The targets of the tasks that still have their end of the queue. -/
def openTargets (tasks : List Task) : List SocksAddress :=
  (tasks.filter Task.isOpen).map Task.target

/-- The map has every open flow, under the place of its task, and its entry for a target is the last
task for it. -/
structure Listed (c : Config) (w : World) : Prop where
  last : ∀ target i, w.flows.lookup target = some i → ∃ front back,
    w.tasks.map Task.target = front ++ target :: back ∧ front.length = i ∧ target ∉ back
  listed : w.phase = .looping → ∀ i k, w.tasks[i]? = some k → k.isOpen = true →
    w.flows.lookup k.target = some i
  distinct : (openTargets w.tasks).Nodup
  flows : w.flows.entries.length ≤ c.maxFlows
  live : (openTargets w.tasks).length ≤ c.maxFlows

section Listed

variable {c : Config} {w w' : World}

theorem listed_start (c : Config) (requestedPort : Option UInt16) :
    Listed c (.start c requestedPort) where
  last := nofun
  listed := nofun
  distinct := .nil
  flows := Nat.zero_le _
  live := Nat.zero_le _

theorem openTargets_append (tasks more : List Task) :
    openTargets (tasks ++ more) = openTargets tasks ++ openTargets more := by
  simp [openTargets]

theorem openTargets_cons (k : Task) (tasks : List Task) :
    openTargets (k :: tasks) = openTargets [k] ++ openTargets tasks :=
  openTargets_append [k] tasks

variable {tasks : List Task} {i : Nat} {target : SocksAddress}

/-- A task that is updated may have dropped its queue, but does not get it back. -/
theorem openTargets_set {k k' : Task} (htask : tasks[i]? = some k) (htarget : k'.target = k.target)
    (hopen : k'.isOpen = true → k.isOpen = true) :
    openTargets (tasks.set i k') <+ openTargets tasks := by
  obtain ⟨front, back, rfl, _, hset⟩ := Slots.exists_split htask
  have hone : openTargets [k'] <+ openTargets [k] := by
    cases hk' : k'.isOpen with
    | false => simp [openTargets, hk']
    | true => simp [openTargets, hk', hopen hk', htarget]
  rw [hset, openTargets_append, openTargets_append, openTargets_cons k', openTargets_cons k]
  exact (hone.append_right _).append_left _

theorem Listed.set (h : Listed c w) {k : Task} (htask : w.tasks[i]? = some k) (k' : Task)
    (htarget : k'.target = k.target) (hopen : k'.isOpen = true → k.isOpen = true) :
    Listed c { w with tasks := w.tasks.set i k' } where
  last := by
    change ∀ target i, w.flows.lookup target = some i → ∃ front back,
      (w.tasks.set _ k').map Task.target = front ++ target :: back ∧ _
    rw [map_target_set htask htarget]
    exact h.last
  listed := by
    intro hphase j k'' hk'' hopen''
    rcases Slots.getElem?_set_cases hk'' with ⟨rfl, rfl⟩ | hold
    · rw [htarget]
      exact h.listed hphase j k htask (hopen hopen'')
    · exact h.listed hphase j k'' hold hopen''
  distinct := h.distinct.sublist (openTargets_set htask htarget hopen)
  flows := h.flows
  live := (openTargets_set htask htarget hopen).length_le.trans h.live

/-- Entries whose task has returned may go. -/
theorem Listed.shrink (h : Listed c w) (flows : Map SocksAddress Nat)
    (hsub : ∀ target i, flows.lookup target = some i → w.flows.lookup target = some i)
    (hkeeps : w.phase = .looping → ∀ i k, w.tasks[i]? = some k → k.isOpen = true →
      w.flows.lookup k.target = some i → flows.lookup k.target = some i)
    (hlength : flows.entries.length ≤ w.flows.entries.length) :
    Listed c { w with flows := flows } where
  last := fun target i hi => h.last target i (hsub target i hi)
  listed := fun hphase i k hk hopen => hkeeps hphase i k hk hopen (h.listed hphase i k hk hopen)
  distinct := h.distinct
  flows := hlength.trans h.flows
  live := h.live

/-- The flow of a target that has none, or whose task has returned, may be erased. -/
theorem Listed.erase (h : Listed c w) (hclosed : w.Closed target) :
    Listed c { w with flows := w.flows.erase target } := by
  refine h.shrink (w.flows.erase target) ?_ ?_ ?_
  · intro t i hi
    rw [lookup_erase] at hi
    split at hi
    · cases hi
    · exact hi
  · intro _ i k hk hopen hi
    rw [lookup_erase, if_neg ?_]
    · exact hi
    · intro heq
      rw [heq] at hi
      exact Bool.false_ne_true ((hclosed i k hi hk).symm.trans hopen)
  · rw [entries_erase]
    exact (List.kerase_sublist _ _).length_le

theorem mem_openTargets (h : target ∈ openTargets tasks) :
    ∃ (i : Nat) (k : Task), tasks[i]? = some k ∧ k.isOpen = true ∧ k.target = target := by
  obtain ⟨k, hk, rfl⟩ := List.mem_map.mp h
  obtain ⟨hmem, hopen⟩ := List.mem_filter.mp hk
  obtain ⟨i, hi⟩ := List.mem_iff_getElem?.mp hmem
  exact ⟨i, k, hi, hopen, rfl⟩

/-- There are at most as many open flows as entries. -/
theorem Listed.length_openTargets (h : Listed c w) (hphase : w.phase = .looping) :
    (openTargets w.tasks).length ≤ w.flows.entries.length := by
  have hkeys : openTargets w.tasks ⊆ w.flows.keys := by
    intro target htarget
    obtain ⟨i, k, hk, hopen, rfl⟩ := mem_openTargets htarget
    exact AList.mem_keys.mp (AList.lookup_isSome.mp (by rw [h.listed hphase i k hk hopen]; rfl))
  have hle := (h.distinct.subperm hkeys).length_le
  rwa [AList.keys, List.keys, List.length_map] at hle

/-- A flow for a target without one. -/
theorem Listed.open (h : Listed c w) (hphase : w.phase = .looping) (k : Task)
    (hnone : w.flows.lookup k.target = none) (hfew : w.flows.entries.length < c.maxFlows) :
    Listed c { w with
      flows := w.flows.insert k.target w.tasks.length
      tasks := w.tasks ++ [k] } where
  last := by
    intro target i hi
    rw [lookup_insert] at hi
    rw [List.map_append]
    split at hi
    · rename_i heq
      cases hi
      exact ⟨w.tasks.map Task.target, [], by rw [heq]; rfl, List.length_map _, nofun⟩
    · rename_i hne
      obtain ⟨front, back, hsplit, hlength, hback⟩ := h.last target i hi
      refine ⟨front, back ++ [k.target], ?_, hlength, ?_⟩
      · rw [hsplit, List.append_assoc]
        rfl
      · intro hmem
        rcases List.mem_append.mp hmem with hold | hnew
        · exact hback hold
        · exact hne (List.mem_singleton.mp hnew)
  listed := by
    intro _ i k' hk' hopen
    rw [lookup_insert]
    rw [List.getElem?_append] at hk'
    split at hk'
    · have hold := h.listed hphase i k' hk' hopen
      split
      · rename_i heq
        rw [heq, hnone] at hold
        cases hold
      · exact hold
    · rename_i hge
      obtain ⟨hi, rfl⟩ : i = w.tasks.length ∧ k' = k := by
        cases hsub : i - w.tasks.length with
        | zero =>
          rw [hsub] at hk'
          exact ⟨by omega, (Option.some.inj hk').symm⟩
        | succ n =>
          rw [hsub] at hk'
          cases hk'
      rw [if_pos rfl, hi]
  distinct := by
    rw [openTargets_append, List.nodup_append]
    refine ⟨h.distinct, ?_, ?_⟩
    · cases hk : k.isOpen <;> simp [openTargets, hk]
    · intro target htarget target' htarget' heq
      subst heq
      obtain ⟨i, k', hk', hopen, rfl⟩ := mem_openTargets htarget
      obtain ⟨_, k'', hk'', _, hk⟩ := mem_openTargets htarget'
      rw [List.mem_singleton.mp (List.mem_of_getElem? hk'')] at hk
      have hold := h.listed hphase i k' hk' hopen
      rw [← hk, hnone] at hold
      cases hold
  flows := by
    change (w.flows.insert k.target w.tasks.length).entries.length ≤ c.maxFlows
    rw [length_entries, total_insert_of_none hnone, ← length_entries]
    omega
  live := by
    have hle := h.length_openTargets hphase
    have hone : (openTargets [k]).length ≤ 1 := by
      unfold openTargets
      rw [List.length_map]
      exact List.length_filter_le _ _
    rw [openTargets_append, List.length_append]
    omega

theorem Listed.change (h : Listed c w) (hchange : Change c w w') : Listed c w' := by
  cases hchange with
  | ignores | drops => exact { h with }
  | forgets accepted closed => exact { h.erase closed with }
  | @queues source packet payload target i k accepted flow task isOpen =>
    exact { h.set task { k with outbound := k.outbound.push [payload] } rfl fun _ => isOpen with }
  | @opens source packet payload target flows accepted closed erased few =>
    subst erased
    have hnone : (w.flows.erase target).lookup target = none := AList.lookup_erase target w.flows
    exact { (h.erase closed).open accepted.phase ⟨target, Pipe.empty.push [payload], .opening⟩
      hnone few with }
  | @goes i k s task goes => exact { h.set task s.task goes.target fun _ => goes.wasOpen with }
  | @joins i k task leg =>
    have hset := h.set task { k with leg := .joined } rfl nofun
    have hjoined (j : Nat) (k' : Task) (hk' : (w.tasks.set i { k with leg := .joined })[j]? =
        some k') (hopen : k'.isOpen = true) : w.isOpenAt j = true := by
      rcases Slots.getElem?_set_cases hk' with ⟨_, rfl⟩ | hold
      · cases hopen
      · rw [World.isOpenAt, hold]
        exact hopen
    refine hset.shrink (retain w.flows fun _ j => w.isOpenAt j) ?_ ?_ ?_
    · intro target j hj
      rw [lookup_retain] at hj
      exact (Option.filter_eq_some_iff.mp hj).1
    · intro _ j k' hk' hopen hj
      rw [lookup_retain]
      exact Option.filter_eq_some_iff.mpr ⟨hj, hjoined j k' hk' hopen⟩
    · exact List.length_filter_le _ _
  | stops =>
    have htargets : openTargets (w.tasks.map fun k =>
        { k with outbound := k.outbound.close .dropped }) = openTargets w.tasks := by
      unfold openTargets
      rw [List.filter_map, List.map_map]
      rfl
    exact {
      last := nofun
      listed := nofun
      distinct := htargets ▸ h.distinct
      flows := Nat.zero_le _
      live := htargets ▸ h.live }
  | ends =>
    exact { h with listed := nofun }
  | budget => exact { h with }

end Listed

/-! ## The budget -/

/-- All permits that a list of tasks holds. -/
def heldBy (tasks : List Task) : Nat := (tasks.map Task.held).sum

structure Paid (c : Config) (w : World) : Prop where
  budget : w.available + w.others + heldBy w.tasks = c.budget
  room : ∀ k ∈ w.tasks, k.outbound.queue.length ≤ queueCapacity
  emptied : ∀ k ∈ w.tasks, k.isOpen = false → k.held = 0
  joined : w.phase = .ended → ∀ k ∈ w.tasks, k.leg = .joined

section Paid

variable {c : Config} {w w' : World}

theorem paid_start (c : Config) (requestedPort : Option UInt16) :
    Paid c (.start c requestedPort) :=
  ⟨rfl, nofun, nofun, nofun⟩

theorem heldBy_append (tasks more : List Task) :
    heldBy (tasks ++ more) = heldBy tasks + heldBy more :=
  Slots.sum_append Task.held tasks more

/-- What one task takes or gives back is what the budget loses or gets. -/
theorem Paid.set (h : Paid c w) {i : Nat} {k : Task} (htask : w.tasks[i]? = some k) (k' : Task)
    (available : Nat) (hpaid : available + k'.held = w.available + k.held)
    (hroom : k'.outbound.queue.length ≤ queueCapacity)
    (hemptied : k'.isOpen = false → k'.held = 0) (hphase : w.phase ≠ .ended) :
    Paid c { w with tasks := w.tasks.set i k', available := available } := by
  refine ⟨?_, Slots.forall_set h.room hroom, Slots.forall_set h.emptied hemptied,
    fun hended => absurd hended hphase⟩
  have hbudget := h.budget
  have hheld : heldBy (w.tasks.set i k') + k.held = heldBy w.tasks + k'.held :=
    Slots.sum_set Task.held htask k'
  change available + w.others + heldBy (w.tasks.set i k') = c.budget
  omega

theorem held_push (k : Task) (payload : List UInt8) :
    Task.held { k with outbound := k.outbound.push [payload] } = k.held + cost payload := by
  simp only [Task.held, Pipe.push, queueCost, List.map_append, List.sum_append,
    List.map_singleton, List.sum_singleton]
  omega

theorem held_opening (target : SocksAddress) (payload : List UInt8) :
    Task.held ⟨target, Pipe.empty.push [payload], .opening⟩ = cost payload := by
  simp [Task.held, Pipe.push, Pipe.empty, queueCost]

theorem Paid.change (h : Paid c w) (hchange : Change c w w') : Paid c w' := by
  cases hchange with
  | ignores | drops | forgets => exact { h with }
  | @queues source packet payload target i k accepted flow task isOpen room paid =>
    refine { h.set task { k with outbound := k.outbound.push [payload] }
      (w.available - cost payload) ?_ ?_ ?_ ?_ with }
    · rw [held_push]
      omega
    · change (k.outbound.queue ++ [payload]).length ≤ queueCapacity
      rw [List.length_append]
      exact room
    · exact fun hclosed => absurd (isOpen.symm.trans hclosed) nofun
    · rw [accepted.phase]
      exact nofun
  | @opens source packet payload target flows accepted closed erased few paid =>
    have hbudget := h.budget
    have hnew : heldBy [⟨target, Pipe.empty.push [payload], .opening⟩] = cost payload :=
      held_opening target payload
    refine ⟨?_, List.forall_mem_append.mpr ⟨h.room, List.forall_mem_singleton.mpr ?_⟩,
      List.forall_mem_append.mpr ⟨h.emptied, List.forall_mem_singleton.mpr nofun⟩,
      fun hended => absurd (accepted.phase.symm.trans hended) nofun⟩
    · change w.available - cost payload + w.others + heldBy (w.tasks ++ [_]) = c.budget
      rw [heldBy_append, hnew]
      omega
    · exact show 1 ≤ queueCapacity by decide
  | @goes i k s task goes =>
    have hheld := goes.held
    have hmem := List.mem_of_getElem? task
    refine { h.set task s.task (w.available + s.released) ?_ ?_ goes.emptied ?_ with }
    · omega
    · exact goes.room.trans (h.room k hmem)
    · intro hended
      have hopen := goes.wasOpen
      rw [Task.isOpen, h.joined hended k hmem] at hopen
      exact absurd hopen nofun
  | @joins i k task leg =>
    have hmem := List.mem_of_getElem? task
    have hheld : Task.held { k with leg := .joined } = k.held := by simp [Task.held, leg]
    refine { h.set task { k with leg := .joined } w.available ?_ (h.room k hmem) ?_ ?_ with }
    · rw [hheld]
    · intro _
      rw [hheld]
      exact h.emptied k hmem (by simp [Task.isOpen, leg])
    · intro hended
      exact absurd (leg.symm.trans (h.joined hended k hmem)) nofun
  | stops =>
    have hheld : heldBy (w.tasks.map fun k =>
        { k with outbound := k.outbound.close .dropped }) = heldBy w.tasks := by
      rw [heldBy, List.map_map]
      rfl
    refine ⟨?_, List.forall_mem_map.mpr h.room, List.forall_mem_map.mpr h.emptied, nofun⟩
    change w.available + w.others + heldBy (w.tasks.map _) = c.budget
    rw [hheld]
    exact h.budget
  | ends joined => exact { h with joined := fun _ => joined }
  | @budget available others same =>
    refine ⟨?_, h.room, h.emptied, h.joined⟩
    change available + others + heldBy w.tasks = c.budget
    rw [same]
    exact h.budget

end Paid

/-! ## The order of the packets -/

/-- All packets for a target that were put into a queue, through one flow after the other. -/
def history (target : SocksAddress) (tasks : List Task) : List (List UInt8) :=
  (tasks.filter fun k => k.target = target).flatMap fun k => k.outbound.written

/-- The payload of a datagram of the endpoint to the target. -/
def wanted (endpoint : Option SocketAddr) (target : SocksAddress)
    (datagram : SocketAddr × List UInt8) : Option (List UInt8) :=
  match decodeUdpPacket datagram.2 with
  | .error _ => none
  | .ok (t, fragment, payload) =>
    if endpoint = some datagram.1 ∧ t = target ∧ fragment = 0 then some payload else none

def Ordered (w : World) : Prop :=
  ∀ target, history target w.tasks <+ w.arrived.filterMap (wanted w.endpoint target)

section Ordered

variable {c : Config} {w w' : World} {target : SocksAddress}

theorem history_append (tasks more : List Task) :
    history target (tasks ++ more) = history target tasks ++ history target more := by
  simp [history]

theorem history_cons_self (k : Task) (tasks : List Task) (h : k.target = target) :
    history target (k :: tasks) = k.outbound.written ++ history target tasks := by
  simp [history, h]

theorem history_cons_of_ne (k : Task) (tasks : List Task) (h : k.target ≠ target) :
    history target (k :: tasks) = history target tasks := by
  simp [history, h]

variable {tasks : List Task} {i : Nat} {source : SocketAddr} {packet payload : List UInt8}
  {t : SocksAddress}

theorem history_of_not_mem (h : target ∉ tasks.map Task.target) :
    history target tasks = [] := by
  have hfilter : tasks.filter (fun k => k.target = target) = [] := by
    refine List.filter_eq_nil_iff.mpr fun k hk htarget => ?_
    exact h (of_decide_eq_true htarget ▸ List.mem_map_of_mem hk)
  rw [history, hfilter]
  rfl

/-- A task that is updated loses nothing but the end of its queue. -/
theorem history_set {k k' : Task} (htask : tasks[i]? = some k) (htarget : k'.target = k.target)
    (hwritten : k'.outbound.written <+ k.outbound.written) :
    history target (tasks.set i k') <+ history target tasks := by
  obtain ⟨front, back, rfl, _, hset⟩ := Slots.exists_split htask
  rw [hset, history_append, history_append]
  refine List.Sublist.append_left ?_ _
  by_cases h : k.target = target
  · rw [history_cons_self k' back (htarget.trans h), history_cons_self k back h]
    exact hwritten.append_right _
  · rw [history_cons_of_ne k' back (htarget ▸ h), history_cons_of_ne k back h]

/-- A packet for the last task of its target comes behind all others for it. -/
theorem history_push {k : Task} (htask : tasks[i]? = some k) {front back : List SocksAddress}
    (hsplit : tasks.map Task.target = front ++ k.target :: back) (hlength : front.length = i)
    (hback : k.target ∉ back) :
    history target (tasks.set i { k with outbound := k.outbound.push [payload] }) =
      history target tasks ++ if k.target = target then [payload] else [] := by
  obtain ⟨front', back', rfl, hlength', hset⟩ := Slots.exists_split htask
  have hback' : back'.map Task.target = back := by
    rw [List.map_append, List.map_cons] at hsplit
    have htail := (List.append_inj hsplit (by rw [List.length_map, hlength', hlength])).2
    exact (List.cons.inj htail).2
  rw [hset, history_append, history_append]
  by_cases h : k.target = target
  · have hnone : history target back' = [] :=
      history_of_not_mem (by rw [hback', ← h]; exact hback)
    rw [history_cons_self { k with outbound := k.outbound.push [payload] } back' h,
      history_cons_self k back' h, hnone, if_pos h, Pipe.written_push]
    simp only [List.append_nil, List.append_assoc]
  · rw [history_cons_of_ne { k with outbound := k.outbound.push [payload] } back' h,
      history_cons_of_ne k back' h, if_neg h, List.append_nil]

theorem wanted_accepted (h : decodeUdpPacket packet = .ok (t, 0, payload)) :
    wanted (some source) target (source, packet) = if t = target then some payload else none := by
  unfold wanted
  rw [h]
  simp

theorem ordered_start (c : Config) (requestedPort : Option UInt16) :
    Ordered (.start c requestedPort) := fun _ => List.Sublist.refl _

/-- A datagram that is accepted and dropped does no harm to the order. -/
theorem Ordered.accept (h : Ordered w) (hconfined : Confined c w)
    (haccepted : Accepted c w source packet t payload) (target : SocksAddress) :
    history target w.tasks <+ w.arrived.filterMap (wanted (some source) target) := by
  rcases haccepted.endpoint with hnone | hsome
  · rw [hconfined.unpinned hnone]
    exact List.nil_sublist _
  · rw [← hsome]
    exact h target

theorem Ordered.change (h : Ordered w) (hconfined : Confined c w) (hlisted : Listed c w)
    (hchange : Change c w w') : Ordered w' := by
  have hmore (endpoint : Option SocketAddr) (target : SocksAddress)
      (x : SocketAddr × List UInt8) : w.arrived.filterMap (wanted endpoint target) <+
        (w.arrived ++ [x]).filterMap (wanted endpoint target) :=
    (List.sublist_append_left _ _).filterMap _
  intro target
  cases hchange with
  | ignores => exact (h target).trans (hmore _ _ _)
  | drops accepted | forgets accepted =>
    exact (h.accept hconfined accepted target).trans (hmore _ _ _)
  | @queues source packet payload t i k accepted flow task =>
    obtain ⟨front, back, hsplit, rfl, hback⟩ := hlisted.last t i flow
    have hk : k.target = t := by
      have hget := congrArg (·[front.length]?) hsplit
      simp only [List.getElem?_map, task, List.getElem?_append_right (Nat.le_refl _),
        Nat.sub_self, List.getElem?_cons_zero, Option.map_some] at hget
      exact Option.some.inj hget
    subst hk
    change history target (w.tasks.set front.length _) <+
      (w.arrived ++ [(source, packet)]).filterMap (wanted (some source) target)
    rw [history_push task hsplit rfl hback, List.filterMap_append]
    refine (h.accept hconfined accepted target).append ?_
    rw [List.filterMap_cons, wanted_accepted accepted.packet]
    by_cases ht : k.target = target <;> simp [ht]
  | @opens source packet payload t flows accepted =>
    change history target (w.tasks ++ [_]) <+
      (w.arrived ++ [(source, packet)]).filterMap (wanted (some source) target)
    rw [history_append, List.filterMap_append]
    refine (h.accept hconfined accepted target).append ?_
    rw [List.filterMap_cons, wanted_accepted accepted.packet]
    by_cases ht : t = target <;> simp [ht, history, Pipe.written, Pipe.push, Pipe.empty]
  | goes task goes => exact (history_set task goes.target goes.written).trans (h target)
  | @joins i k task =>
    refine List.Sublist.trans ?_ (h target)
    exact history_set task rfl (List.Sublist.refl _)
  | stops =>
    have hhistory : history target (w.tasks.map fun k =>
        { k with outbound := k.outbound.close .dropped }) = history target w.tasks := by
      unfold history
      rw [List.filter_map, List.flatMap_map]
      rfl
    change history target (w.tasks.map _) <+ _
    rw [hhistory]
    exact h target
  | ends | budget => exact h target

end Ordered

end Nowhere.Vector.Association
