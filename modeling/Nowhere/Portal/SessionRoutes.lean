import Nowhere.Portal.SessionSteps

/-!
# The routes of a session

A session is a routing table in the sense of `Nowhere.Protocol.Routing`, in every interleaving of
its tasks: each step that touches the routes, their ready flags or the reassembler is one event of
the table (`Outcome.advances`). What makes this work is that the frames which act on an earlier
look at `udp_flows` still hold its lock (`Coherent.free`, `Coherent.taking`), and that a receiver
and its flow never lose track of each other (`Coherent.owners`).
-/

namespace Nowhere.Portal.Session

open Protocol Common Assoc

/-! ## Locks -/

variable {w : World} {f : Frame} {cfg : Config} {flowId : FlowId} {route : Nat}

theorem Moves.locked {frames : List Frame} {spawned : List (List Frame)}
    (h : Moves w f frames spawned) :
    (∀ g ∈ frames ++ spawned.flatten, g.holds = []) ∨
      ∃ g, frames = [g] ∧ spawned = [] ∧ g.holds = [.flows] ∧ f.wants = some .flows := by
  cases h with
  | installInsert => exact .inr ⟨_, rfl, rfl, rfl, rfl⟩
  | removeUdpUplink => exact .inr ⟨_, rfl, rfl, rfl, rfl⟩
  | closeFlows => exact .inr ⟨_, rfl, rfl, rfl, rfl⟩
  | pushFragment => exact .inr ⟨_, rfl, rfl, rfl, rfl⟩
  | _ => exact .inl (by simp [Frame.holds])

theorem Outcome.locked {r : Effect} (h : Outcome cfg w f r) :
    (∀ g ∈ r.all, g.holds = []) ∨
      ∃ g, r.frames = [g] ∧ r.spawned = [] ∧ g.holds = [.flows] ∧ f.wants = some .flows := by
  cases h with
  | quiet moves => exact moves.locked
  | received reads =>
    left
    cases reads <;> simp [Tasks.Effect.all, Frame.holds]
  | _ => exact .inl (by simp [Tasks.Effect.all, Frame.holds, installInsertStep, closeChannelStep,
      removeReassemblyStep, closeReassemblyStep, Session.loopEnd, expireStep, relayReject,
      activateStep])

theorem disciplined (cfg : Config) : (session cfg).Disciplined where
  boot := by
    intro b w g hg
    cases b <;> simp [session, start, Tasks.Effect.all] at hg <;> subst hg <;> rfl
  frames := by
    intro choice w f r h l
    change (r.frames.countP fun g => l ∈ g.holds) ≤
      (if l ∈ f.holds then 1 else 0) + if f.wants = some l then 1 else 0
    rcases (exec_outcome h).locked with hfree | ⟨g, hframes, _, hholds, hwants⟩
    · have hzero : (r.frames.countP fun g => l ∈ g.holds) = 0 := by
        rw [List.countP_eq_zero]
        intro g hg
        simp [hfree g (List.mem_append_left _ hg)]
      omega
    · rw [hframes, hwants]
      by_cases hl : Lock.flows = l
      · simp [hholds, hl]
      · have hne : l ≠ Lock.flows := fun heq => hl heq.symm
        simp [hholds, hne]
  spawned := by
    intro choice w f r h t ht g hg
    rcases (exec_outcome h).locked with hfree | ⟨_, _, hspawned, _⟩
    · exact hfree g (List.mem_append_right _ (List.mem_flatten.mpr ⟨t, ht, hg⟩))
    · rw [hspawned] at ht
      cases ht

theorem exclusive {cond : Choice → World → Frame → Prop} {p : Pool}
    (h : (session cfg).Reach cond (initial cfg) p) : (session cfg).Exclusive p.bag :=
  (disciplined cfg).exclusive (by simp [Tasks.System.Exclusive, initial, Tasks.Pool.bag,
    Tasks.Pool.frames]) h

/-! ## Sessions as routing tables -/

/-- The flow and the route of the receiver that a frame owns. -/
def Frame.receiver : Frame → Option (FlowId × Nat)
  | .submitUdp flowId route | .pairing flowId route | .dropReceiver flowId route
  | .relay flowId route _ => some (flowId, route)
  | _ => none

def table (w : World) : Table Reservation where
  routes flowId := (w.udpFlows.lookup flowId).map fun state => ⟨state.route, w.ready state.route⟩
  installed := w.nextRoute
  reassembler := w.udpReassembler

theorem table_routes {state : UdpState} (h : w.udpFlows.lookup flowId = some state) :
    (table w).routes flowId = some ⟨state.route, w.ready state.route⟩ := by
  simp [table, h]

theorem readyRoute_eq_some :
    w.readyRoute flowId = some route ↔
      w.udpFlows.lookup flowId = some ⟨route⟩ ∧ w.ready route = true := by
  rw [World.readyRoute, Option.filter_eq_some_iff, Option.map_eq_some_iff]
  constructor
  · rintro ⟨⟨⟨route'⟩, hfound, rfl⟩, hready⟩
    exact ⟨hfound, hready⟩
  · rintro ⟨hfound, hready⟩
    exact ⟨⟨_, hfound, rfl⟩, hready⟩

theorem table_of_readyRoute (h : w.readyRoute flowId = some route) :
    (table w).routes flowId = some ⟨route, true⟩ := by
  obtain ⟨hfound, hready⟩ := readyRoute_eq_some.mp h
  rw [table_routes hfound, hready]

/-- The steps of the table, up to the routes that its map spells out. -/
theorem step_table {w' : World} {t : Table Reservation} {e : Table.Event Reservation}
    (step : (table w).Step e t) (hroutes : ∀ flowId, (table w').routes flowId = t.routes flowId)
    (hinstalled : w'.nextRoute = t.installed) (hreassembler : w'.udpReassembler = t.reassembler) :
    (table w).Step e (table w') := by
  rw [Table.eq_of_routes (t := table w') hroutes hinstalled hreassembler]
  exact step

/-- A step of the world, seen from the table. -/
abbrev Advances (w w' : World) : Prop := Table.Advances w.log (table w) w'.log (table w')

/-- What holds of a session between any two steps. -/
structure Coherent (cfg : Config) (w : World) (fs : Multiset Frame) : Prop where
  run : Table.Run cfg.reassembly w.log (table w)
  owners : ∀ g ∈ fs, ∀ flowId route, g.receiver = some (flowId, route) →
    .install flowId route ∈ w.log
  free : ∀ flowId, .installInsert flowId ∈ fs → w.udpFlows.lookup flowId = none
  taking : ∀ number flowId fragment route, .pushFragment number flowId fragment route ∈ fs →
    w.readyRoute flowId = some route
  queued : ∀ route, ∀ d ∈ (w.channels route).queue, Table.Delivered w.log route d.payload

section Advances

variable {cfg : Config} {w : World} {fs : Multiset Frame} {route : Nat} {flowId : FlowId}

/-- A ready flag that belongs to one flow is no concern of the others. -/
theorem Coherent.update_ready (h : Coherent cfg w fs) {flowId' : FlowId}
    (hinstall : .install flowId route ∈ w.log) (hne : flowId' ≠ flowId) (b : Bool) :
    ((w.udpFlows.lookup flowId').map fun state =>
        (⟨state.route, Function.update w.ready route b state.route⟩ : Route)) =
      (table w).routes flowId' := by
  refine Option.map_congr fun state hfound => ?_
  have hroute : state.route ≠ route := by
    rintro rfl
    exact hne (h.run.served.owner (table_routes hfound) hinstall).symm
  rw [Function.update_of_ne hroute]

theorem Coherent.install_of_lookup (h : Coherent cfg w fs) {state : UdpState}
    (hfound : w.udpFlows.lookup flowId = some state) :
    .install flowId state.route ∈ w.log := by
  obtain ⟨i, hinstalled, _⟩ := h.run.served.routes flowId _ (table_routes hfound)
  exact List.mem_of_getElem? hinstalled.install

theorem Coherent.advances_install (h : Coherent cfg w fs) {flowId : FlowId}
    (hfree : w.udpFlows.lookup flowId = none) :
    Advances w (installInsertStep w flowId).world := by
  refine .event (.install flowId w.nextRoute) rfl ?_
  refine step_table (Table.Step.install (t := table w) (by simp [table, hfree]))
    (fun flowId' => ?_) rfl rfl
  change Option.map _ (AList.lookup flowId' (w.udpFlows.insert flowId _)) = _
  rw [lookup_insert]
  by_cases hf : flowId' = flowId
  · subst hf
    simp [table, installInsertStep]
  · simp only [if_neg hf, Function.update_of_ne hf]
    refine Option.map_congr fun state hfound => ?_
    have hlt : state.route < w.nextRoute := h.run.served.number_lt (table_routes hfound)
    simp only [installInsertStep, Function.update_of_ne (Nat.ne_of_lt hlt)]

theorem Coherent.advances_remove (h : Coherent cfg w fs) (flowId : FlowId) :
    Advances w (removeReassemblyStep w flowId).world := by
  refine .event (.remove flowId) rfl (step_table (.remove flowId) (fun flowId' => ?_) rfl rfl)
  change Option.map _ (AList.lookup flowId' (w.udpFlows.erase flowId)) = _
  rw [lookup_erase]
  by_cases hf : flowId' = flowId
  · subst hf
    simp
  · simp only [if_neg hf, Function.update_of_ne hf, removeReassemblyStep]
    cases hfound : w.udpFlows.lookup flowId with
    | none => rfl
    | some state => exact h.update_ready (h.install_of_lookup hfound) hf false

theorem advances_clear : Advances w (closeReassemblyStep w).world :=
  .event .clear rfl .clear

theorem advances_expire : Advances w (expireStep w).world :=
  .event (.expire w.now) rfl (.expire w.now)

theorem Coherent.advances_activate (h : Coherent cfg w fs)
    (hinstall : .install flowId route ∈ w.log) :
    Advances w (activateStep w flowId route).world := by
  by_cases hfound : w.udpFlows.lookup flowId = some ⟨route⟩
  · refine .event (.activate flowId route) (by simp [activateStep, hfound]) ?_
    refine step_table (.activate (table_routes hfound)) (fun flowId' => ?_) rfl rfl
    by_cases hf : flowId' = flowId
    · subst hf
      simp [table, activateStep, hfound]
    · simp only [Function.update_of_ne hf]
      exact h.update_ready hinstall hf true
  · -- the route is gone, and its flag is nobody's any more
    refine .same (by simp [activateStep, hfound]) (Table.eq_of_routes (fun flowId' => ?_) rfl rfl)
    by_cases hf : flowId' = flowId
    · subst hf
      refine Option.map_congr fun state hstate => ?_
      have hne : state.route ≠ route := by
        rintro rfl
        exact hfound hstate
      simp only [activateStep, Function.update_of_ne hne]
    · exact h.update_ready hinstall hf true

theorem Outcome.advances {r : Effect} (h : Outcome cfg w f r) (hc : Coherent cfg w (f ::ₘ fs)) :
    Advances w r.world := by
  have hself : f ∈ f ::ₘ fs := Multiset.mem_cons_self f fs
  cases h with
  | install flowId => exact hc.advances_install (hc.free flowId hself)
  | remove flowId cause => exact hc.advances_remove flowId
  | clear => exact advances_clear
  | expire => exact advances_expire
  | dataRefused number payload ready =>
    exact .event _ rfl (.data (table_of_readyRoute ready) rfl number payload false)
  | dataEnqueued number budget ready =>
    exact .event _ rfl (.data (table_of_readyRoute ready) rfl number _ true)
  | fragmentKept number budget result =>
    have hready := hc.taking _ _ _ _ hself
    exact .event _ rfl
      (Table.Step.fragment (t := table w) (table_of_readyRoute hready) rfl result number false)
  | fragmentEnqueued number budget result =>
    have hready := hc.taking _ _ _ _ hself
    exact .event _ rfl
      (Table.Step.fragment (t := table w) (table_of_readyRoute hready) rfl result number true)
  | activated flowId route => exact hc.advances_activate (hc.owners _ hself flowId route rfl)
  | _ => exact .same rfl rfl

end Advances

/-! ## Coherence -/

section Coherence

variable {cfg : Config} {w : World} {f g : Frame} {r : Effect} {others : Multiset Frame}

/-- A receiver passes from frame to frame, or has just been made. -/
theorem Moves.receiver {frames : List Frame} {spawned : List (List Frame)}
    (h : Moves w f frames spawned) (hg : g ∈ frames ++ spawned.flatten) {owned : FlowId × Nat}
    (howned : g.receiver = some owned) : f.receiver = some owned := by
  cases h <;> simp at hg <;> grind [Frame.receiver]

variable {flowId : FlowId} {route : Nat}

theorem Outcome.receiver (h : Outcome cfg w f r) (hg : g ∈ r.all)
    (howned : g.receiver = some (flowId, route)) :
    f.receiver = some (flowId, route) ∨ r.world.log = w.log ++ [.install flowId route] := by
  cases h with
  | quiet moves => exact .inl (moves.receiver hg howned)
  | install flowId =>
    simp only [Tasks.Effect.all, installInsertStep, List.flatten_nil, List.append_nil,
      List.mem_singleton] at hg
    subst hg
    cases howned
    exact .inr rfl
  | received reads =>
    cases reads <;> simp [Tasks.Effect.all] at hg <;> rcases hg with rfl | rfl <;> cases howned
  | rejected =>
    simp only [Tasks.Effect.all, relayReject, List.flatten_nil, List.append_nil,
      List.mem_singleton] at hg
    subst hg
    exact .inl howned
  | activated =>
    simp only [Tasks.Effect.all, activateStep, List.flatten_nil, List.append_nil,
      List.mem_singleton] at hg
    subst hg
    exact .inl howned
  | requested | committed | relayed =>
    simp only [Tasks.Effect.all, List.flatten_nil, List.append_nil, List.mem_singleton] at hg
    subst hg
    exact .inl howned
  | _ =>
    simp [Tasks.Effect.all, closeChannelStep, removeReassemblyStep, closeReassemblyStep,
      Session.loopEnd, expireStep] at hg
    try (subst hg; cases howned)

theorem Outcome.inserts (h : Outcome cfg w f r) (hg : .installInsert flowId ∈ r.all) :
    r.world = w ∧ w.closed = false ∧ w.udpFlows.lookup flowId = none := by
  cases h with
  | quiet moves =>
    cases moves <;> simp [Tasks.Effect.all] at hg
    subst hg
    exact ⟨rfl, by assumption, by assumption⟩
  | received reads => cases reads <;> simp [Tasks.Effect.all] at hg
  | _ =>
    simp [Tasks.Effect.all, installInsertStep, closeChannelStep, removeReassemblyStep,
      closeReassemblyStep, Session.loopEnd, expireStep, relayReject, activateStep] at hg

theorem Outcome.pushes (h : Outcome cfg w f r) {number : Nat} {fragment : UdpFragment}
    (hg : .pushFragment number flowId fragment route ∈ r.all) :
    r.world = w ∧ w.readyRoute flowId = some route := by
  cases h with
  | quiet moves =>
    cases moves <;> simp [Tasks.Effect.all] at hg
    obtain ⟨-, rfl, -, rfl⟩ := hg
    exact ⟨rfl, by assumption⟩
  | received reads => cases reads <;> simp [Tasks.Effect.all] at hg
  | _ =>
    simp [Tasks.Effect.all, installInsertStep, closeChannelStep, removeReassemblyStep,
      closeReassemblyStep, Session.loopEnd, expireStep, relayReject, activateStep] at hg

/-- Only a task that holds `udp_flows` changes the map or clears a ready flag. -/
theorem Outcome.keeps_flows (h : Outcome cfg w f r) :
    Lock.flows ∈ f.holds ∨ r.world.udpFlows = w.udpFlows ∧
      ∀ route, w.ready route = true → r.world.ready route = true := by
  cases h with
  | install | remove | clear | fragmentKept | fragmentEnqueued => exact .inl (by simp [Frame.holds])
  | activated flowId route =>
    refine .inr ⟨rfl, fun route' hready => ?_⟩
    by_cases hroute : route' = route
    · simp [activateStep, hroute]
    · simp only [activateStep, Function.update_of_ne hroute, hready]
  | _ => exact .inr ⟨rfl, fun _ hready => hready⟩

/-- A packet in a channel was there before, or the step has just handed it over. -/
theorem Outcome.queued (h : Outcome cfg w f r) {d : BudgetedDatagram}
    (hd : d ∈ (r.world.channels route).queue) :
    d ∈ (w.channels route).queue ∨ ∃ e, r.world.log = w.log ++ [e] ∧
      e.delivers = some (route, d.payload) := by
  cases h with
  | install flowId =>
    rcases Channel.mem_update hd with hd | ⟨_, ⟨⟩⟩
    exact .inl hd
  | closeChannel route' =>
    rcases Channel.mem_update hd with hd | ⟨_, ⟨⟩⟩
    exact .inl hd
  | @dataEnqueued flowId route' payload permit channel number budget ready sent =>
    rcases Channel.mem_update_trySend sent hd with hd | ⟨rfl, rfl⟩
    · exact .inl hd
    · exact .inr ⟨_, rfl, rfl⟩
  | @fragmentEnqueued flowId fragment route' n e payload reservation evicted channel number budget
      result complete sent =>
    rcases Channel.mem_update_trySend sent hd with hd | ⟨rfl, rfl⟩
    · exact .inl hd
    · exact .inr ⟨_, rfl, by simp [Table.Event.delivers, complete]⟩
  | @relayed route' d' queue flowId queued =>
    rcases Channel.mem_update hd with hd | ⟨rfl, hd⟩
    · exact .inl hd
    · left
      rw [queued]
      exact List.mem_cons_of_mem _ hd
  | _ => exact .inl hd

theorem Coherent.step (hc : Coherent cfg w (f ::ₘ others))
    (hex : (session cfg).Exclusive (f ::ₘ others)) (h : Outcome cfg w f r) :
    Coherent cfg r.world (↑r.all + others) := by
  have hadvances := h.advances hc
  obtain ⟨more, hlog⟩ := hadvances.extends
  have hold {g : Frame} (hg : g ∈ others) : g ∈ f ::ₘ others := Multiset.mem_cons_of_mem hg
  -- a frame that has looked at `udp_flows` keeps it locked
  have hkept {g : Frame} (hg : g ∈ others) (hholds : Lock.flows ∈ g.holds) :
      r.world.udpFlows = w.udpFlows ∧ ∀ route, w.ready route = true → r.world.ready route = true :=
    h.keeps_flows.resolve_left fun hf => hex.absurd hg hf hholds
  refine ⟨hadvances.run hc.run, ?_, ?_, ?_, ?_⟩
  · intro g hg flowId route howned
    have hof {g' : Frame} (hg' : g' ∈ f ::ₘ others) (h' : g'.receiver = some (flowId, route)) :
        .install flowId route ∈ r.world.log := by
      rw [hlog]
      exact List.mem_append_left _ (hc.owners g' hg' flowId route h')
    rcases Multiset.mem_add.mp hg with hg | hg
    · rcases h.receiver hg howned with hf | hinstall
      · exact hof (Multiset.mem_cons_self _ _) hf
      · simp [hinstall]
    · exact hof (hold hg) howned
  · intro flowId hg
    rcases Multiset.mem_add.mp hg with hg | hg
    · obtain ⟨hworld, _, hfree⟩ := h.inserts hg
      rw [hworld]
      exact hfree
    · rw [(hkept hg (by simp [Frame.holds])).1]
      exact hc.free flowId (hold hg)
  · intro number flowId fragment route hg
    rcases Multiset.mem_add.mp hg with hg | hg
    · obtain ⟨hworld, hready⟩ := h.pushes hg
      rw [hworld]
      exact hready
    · obtain ⟨hflows, hflags⟩ := hkept hg (by simp [Frame.holds])
      obtain ⟨hfound, hready⟩ := readyRoute_eq_some.mp (hc.taking _ _ _ _ (hold hg))
      rw [readyRoute_eq_some, hflows]
      exact ⟨hfound, hflags route hready⟩
  · intro route d hd
    rcases h.queued hd with hd | ⟨e, he, hdelivers⟩
    · rw [hlog]
      exact (hc.queued route d hd).append more
    · rw [he]
      exact Table.delivered_last hdelivers

theorem coherent {cond : Choice → World → Frame → Prop} {p : Pool}
    (h : (session cfg).Reach cond (initial cfg) p) : Coherent cfg p.world p.bag := by
  refine h.bag_invariant (I := Coherent cfg) ?_ ?_ ?_
  · exact ⟨.new, by simp [initial, Tasks.Pool.bag, Tasks.Pool.frames],
      by simp [initial, Tasks.Pool.bag, Tasks.Pool.frames],
      by simp [initial, Tasks.Pool.bag, Tasks.Pool.frames],
      by simp [initial, World.init, Channel.new]⟩
  · intro p b _ hc
    cases b <;>
      exact ⟨hc.run, by simpa [session, start, Tasks.Effect.all, Frame.receiver] using hc.owners,
        by simpa [session, start, Tasks.Effect.all] using hc.free,
        by simpa [session, start, Tasks.Effect.all, World.readyRoute] using hc.taking, hc.queued⟩
  · intro p c f others r hreach hbag hc _ _ hexec
    have hex := exclusive hreach
    rw [hbag] at hex
    exact hc.step hex (exec_outcome hexec)

end Coherence

/-! ## After `close` -/

/-- `udp_flows` and the reassembler are empty. -/
def World.Empty (w : World) : Prop :=
  (∀ flowId, w.udpFlows.lookup flowId = none) ∧ ∀ key, w.udpReassembler.slots.lookup key = none

/-- The session is closed and empty, and no task is about to change that. -/
structure Over (w : World) (fs : Multiset Frame) : Prop where
  closed : w.closed = true
  empty : w.Empty
  no_insert : ∀ flowId, .installInsert flowId ∉ fs
  no_push : ∀ number flowId fragment route, .pushFragment number flowId fragment route ∉ fs

section Over

variable {cfg : Config} {w : World} {f : Frame} {r : Effect} {others : Multiset Frame}

theorem Outcome.closed (h : Outcome cfg w f r) (hclosed : w.closed = true) :
    r.world.closed = true := by
  cases h with
  | closing => rfl
  | _ => exact hclosed

/-- Nothing is removed from an empty reassembler. -/
theorem lookup_removes {s s' : DatagramReassembler Reservation} {gone : Dropped Reservation}
    (h : s.Removes s' gone) (hempty : ∀ key, s.slots.lookup key = none) (key : ReassemblyKey) :
    s'.slots.lookup key = none := by
  rw [Option.eq_none_iff_forall_ne_some]
  intro slot hfound
  have hbefore := (h.kept hfound).1
  rw [hempty key] at hbefore
  cases hbefore

theorem Outcome.empty (h : Outcome cfg w f r) (hover : Over w (f ::ₘ others)) :
    r.world.Empty := by
  have hself : f ∈ f ::ₘ others := Multiset.mem_cons_self f others
  obtain ⟨hflows, hslots⟩ := hover.empty
  cases h with
  | install flowId => exact absurd hself (hover.no_insert flowId)
  | fragmentKept | fragmentEnqueued => exact absurd hself (hover.no_push _ _ _ _)
  | remove flowId cause =>
    refine ⟨fun flowId' => ?_, lookup_removes (DatagramReassembler.removes_removeFlow _ _) hslots⟩
    change (w.udpFlows.erase flowId).lookup flowId' = none
    rw [lookup_erase]
    split
    · rfl
    · exact hflows flowId'
  | clear => exact ⟨fun _ => rfl, lookup_removes (DatagramReassembler.removes_clear _) hslots⟩
  | expire => exact ⟨hflows, lookup_removes (DatagramReassembler.removes_expire _ _) hslots⟩
  | _ => exact ⟨hflows, hslots⟩

theorem Over.step (hover : Over w (f ::ₘ others)) (h : Outcome cfg w f r) :
    Over r.world (↑r.all + others) := by
  refine ⟨h.closed hover.closed, h.empty hover, ?_, ?_⟩
  · intro flowId hg
    rcases Multiset.mem_add.mp hg with hg | hg
    · have hopen := (h.inserts hg).2.1
      rw [hover.closed] at hopen
      cases hopen
    · exact hover.no_insert flowId (Multiset.mem_cons_of_mem hg)
  · intro number flowId fragment route hg
    rcases Multiset.mem_add.mp hg with hg | hg
    · have hfound := (readyRoute_eq_some.mp (h.pushes hg).2).1
      rw [hover.empty.1 flowId] at hfound
      cases hfound
    · exact hover.no_push _ _ _ _ (Multiset.mem_cons_of_mem hg)

variable {cond : Choice → World → Frame → Prop} {p q : Pool}

/-- The `close` that clears the session is the one that set the flag. -/
theorem closed_of_closing (h : (session cfg).Reach cond (initial cfg) p) :
    .closeFlows ∈ p.bag ∨ .closeReassembly ∈ p.bag → p.world.closed = true := by
  refine h.bag_invariant
    (I := fun w fs => .closeFlows ∈ fs ∨ .closeReassembly ∈ fs → w.closed = true) ?_ ?_ ?_
  · simp [initial, Tasks.Pool.bag, Tasks.Pool.frames]
  · intro p b _ ih
    cases b <;> simpa [session, start, Tasks.Effect.all] using ih
  · intro p c f others r _ _ ih _ _ hexec hg
    have houtcome := exec_outcome hexec
    by_cases hold : .closeFlows ∈ f ::ₘ others ∨ .closeReassembly ∈ f ::ₘ others
    · exact houtcome.closed (ih hold)
    · have hnew : .closeFlows ∈ r.all ∨ .closeReassembly ∈ r.all := by
        simp only [Multiset.mem_add, Multiset.mem_coe, Multiset.mem_cons] at hg hold
        tauto
      cases houtcome with
      | closing => rfl
      | quiet moves =>
        cases moves <;> simp [Tasks.Effect.all] at hnew
        exact ih (.inl (Multiset.mem_cons_self _ _))
      | received reads => cases reads <;> simp [Tasks.Effect.all] at hnew
      | _ =>
        simp [Tasks.Effect.all, installInsertStep, closeChannelStep, removeReassemblyStep,
          closeReassemblyStep, Session.loopEnd, expireStep, relayReject, activateStep] at hnew

/-- When `close` has cleared the session, it is over. -/
theorem over_of_clear {i : Nat} {c : Choice} {rest : List Frame}
    (hreach : (session cfg).Reachable (initial cfg) p)
    (htask : p.tasks[i]? = some (.closeReassembly :: rest))
    (hstep : (session cfg).step p (.run i c) = some q) : Over q.world q.bag := by
  obtain ⟨f, rest', r, hi, hbag, _, hexec, hworld, hbag'⟩ := (session cfg).bag_run hstep
  cases htask.symm.trans hi
  cases hexec
  have hex := exclusive hreach
  rw [hbag] at hex
  rw [hworld, hbag']
  have hclosed : p.world.closed = true :=
    closed_of_closing hreach (.inr (by rw [hbag]; exact Multiset.mem_cons_self _ _))
  -- whoever has looked at the map before the call took the lock is done with it
  have hunlocked {g : Frame} (hg : g ∈ ↑(closeReassemblyStep p.world).all + p.others i) :
      Lock.flows ∉ g.holds := by
    intro hholds
    rcases Multiset.mem_add.mp hg with hg | hg
    · cases hg
    · exact hex.absurd hg (by simp [session, Frame.holds]) hholds
  exact ⟨hclosed, ⟨fun _ => rfl, fun _ => rfl⟩,
    fun flowId hg => hunlocked hg (by simp [Frame.holds]),
    fun number flowId fragment route hg => hunlocked hg (by simp [Frame.holds])⟩

theorem over_reach (hp : Over p.world p.bag) (h : (session cfg).Reach cond p q) :
    Over q.world q.bag := by
  refine h.bag_invariant (I := Over) hp ?_ ?_
  · intro p b _ hover
    cases b <;>
      exact ⟨hover.closed, hover.empty,
        by simpa [session, start, Tasks.Effect.all] using hover.no_insert,
        by simpa [session, start, Tasks.Effect.all] using hover.no_push⟩
  · intro p c f others r _ _ hover _ _ hexec
    exact hover.step (exec_outcome hexec)

end Over

end Nowhere.Portal.Session
