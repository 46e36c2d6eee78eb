import Nowhere.Vector.QuicSession

/-!
# The routes of Vector's QUIC session

Vector's session is a routing table like Portal's (`Nowhere.Protocol.Routing`). Its ready flag is
a field of the map and is only touched under `routes`, so a step needs nothing from other tasks
except that a fragment's route is still there when `reassembler` has been locked
(`Coherent.taking`).
-/

namespace Nowhere.Vector.QuicSession

open Protocol Common Assoc

/-! ## How steps end -/

/-- The steps that leave the world alone. -/
inductive Moves (w : World) : Frame → List Frame → Prop
  | registerAgain (flowId : FlowId) : Moves w (.registerUdp flowId) []
  | routeGone (flowId : FlowId) : Moves w (.activateUdp flowId) []
  | removeUdp (flowId : FlowId) : Moves w (.removeUdp flowId) [.removeFlow flowId]
  | clearUdp : Moves w .clearUdp [.clearReassembler]
  | loopEnd : Moves w .select [.clearUdp]
  | cleanup : Moves w .select [.expire, .select]
  | noRouteForData (number : Nat) (flowId : FlowId) (payload : List UInt8) :
      Moves w (.receiveData number flowId payload) []
  | noRouteForFragment (number : Nat) (flowId : FlowId) (fragment : UdpFragment) :
      Moves w (.receiveFragment number flowId fragment) []
  | pushFragment {flowId : FlowId} {route : Nat} (number : Nat) (fragment : UdpFragment)
      (ready : w.readyRoute flowId = some route) :
      Moves w (.receiveFragment number flowId fragment)
        [.pushFragment number flowId fragment route]

/-- A step of `f` and what it does, for every step there is. -/
inductive Outcome (w : World) : Frame → Effect → Prop
  | quiet {f : Frame} {frames : List Frame} (moves : Moves w f frames) :
      Outcome w f ⟨w, frames, []⟩
  | install {flowId : FlowId} (free : w.routes.lookup flowId = none) :
      Outcome w (.registerUdp flowId)
        ⟨{ w with
            routes := w.routes.insert flowId ⟨w.nextRoute, false⟩
            channels := Function.update w.channels w.nextRoute .new
            nextRoute := w.nextRoute + 1
            log := w.log ++ [.install flowId w.nextRoute] }, [], []⟩
  | activate {flowId : FlowId} {route : UdpRoute} (found : w.routes.lookup flowId = some route) :
      Outcome w (.activateUdp flowId)
        ⟨{ w with
            routes := w.routes.insert flowId { route with ready := true }
            log := w.log ++ [.activate flowId route.sender] }, [], []⟩
  | remove {f : Frame} {flowId : FlowId}
      (by_frame : f = .removeFlow flowId ∨ f = .removeClosed flowId) :
      Outcome w f (removeFlowStep w flowId)
  | clear : Outcome w .clearReassembler (clearReassemblerStep w)
  | received {d : Datagram} {datagrams : List Datagram} (pending : w.datagrams = d :: datagrams) :
      Outcome w .select ⟨{ w with datagrams }, dispatch d ++ [.select], []⟩
  | expire : Outcome w .expire (expireStep w)
  | dataRefused {flowId : FlowId} {route : Nat} {frames : List Frame} (number : Nat)
      (payload : List UInt8) (ready : w.readyRoute flowId = some route)
      (next : frames = [] ∨ frames = [.removeFlow flowId]) :
      Outcome w (.receiveData number flowId payload)
        ⟨{ w with log := w.log ++ [.data flowId route number payload false] }, frames, []⟩
  | dataEnqueued {flowId : FlowId} {route : Nat} {payload : List UInt8} {permit : Reservation}
      {channel : Channel} (number budget : Nat) (ready : w.readyRoute flowId = some route)
      (sent : (w.channels route).trySend ⟨payload, permit⟩ = .ok channel) :
      Outcome w (.receiveData number flowId payload)
        ⟨{ w with
            channels := Function.update w.channels route channel
            queueBudget := budget
            log := w.log ++ [.data flowId route number payload true] }, [], []⟩
  | fragmentKept {flowId : FlowId} {fragment : UdpFragment} {route n : Nat} {frames : List Frame}
      {e : Protocol.Effect Reservation} (number budget : Nat)
      (result : w.reassembler.apply
        (.push (fragmentPush w.reassembler w.queueBudget w.now n flowId fragment)) = .ok e)
      (next : frames = [] ∨ frames = [.removeClosed flowId]) :
      Outcome w (.pushFragment number flowId fragment route)
        ⟨{ w with
            reassembler := e.state
            queueBudget := budget
            log := w.log ++ [.fragment route number
              (fragmentPush w.reassembler w.queueBudget w.now n flowId fragment) e false] },
          frames, []⟩
  | fragmentEnqueued {flowId : FlowId} {fragment : UdpFragment} {route n : Nat}
      {e : Protocol.Effect Reservation} {payload : List UInt8} {reservation : Reservation}
      {evicted : Bool} {channel : Channel} (number budget : Nat)
      (result : w.reassembler.apply
        (.push (fragmentPush w.reassembler w.queueBudget w.now n flowId fragment)) = .ok e)
      (complete : e.outcome = some (.complete payload reservation evicted))
      (sent : (w.channels route).trySend ⟨payload, reservation⟩ = .ok channel) :
      Outcome w (.pushFragment number flowId fragment route)
        ⟨{ w with
            channels := Function.update w.channels route channel
            reassembler := e.state
            queueBudget := budget
            log := w.log ++ [.fragment route number
              (fragmentPush w.reassembler w.queueBudget w.now n flowId fragment) e true] },
          [], []⟩

section Inversion

variable {choice : Choice} {w : World} {r : Effect}

theorem registerUdpStep_outcome (flowId : FlowId) :
    Outcome w (.registerUdp flowId) (registerUdpStep w flowId) := by
  unfold registerUdpStep
  split
  · exact .quiet (.registerAgain flowId)
  · rename_i hfree
    exact .install (by simpa using hfree)

theorem activateUdpStep_outcome (flowId : FlowId) :
    Outcome w (.activateUdp flowId) (activateUdpStep w flowId) := by
  unfold activateUdpStep
  split
  · exact .quiet (.routeGone flowId)
  · rename_i hfound
    exact .activate hfound

theorem selectStep_outcome (h : selectStep w choice = some r) : Outcome w .select r := by
  unfold selectStep at h
  split at h
  · split at h <;> cases h
    exact .quiet .loopEnd
  · cases h
    exact .quiet .cleanup
  · split at h
    · cases h
      rename_i hpending
      exact .received hpending
    · split at h <;> cases h
      exact .quiet .loopEnd
  · cases h

theorem receiveDataStep_outcome (number : Nat) (flowId : FlowId) (payload : List UInt8) :
    Outcome w (.receiveData number flowId payload) (receiveDataStep w number flowId payload) := by
  unfold receiveDataStep
  split
  · exact .quiet (.noRouteForData number flowId payload)
  · rename_i hready
    dsimp only
    split
    · exact .dataRefused number payload hready (.inl rfl)
    · split
      · exact .dataRefused number payload hready (.inl rfl)
      · exact .dataRefused number payload hready (.inr rfl)
      · rename_i hsent
        exact .dataEnqueued number _ hready hsent

theorem receiveFragmentStep_outcome (number : Nat) (flowId : FlowId) (fragment : UdpFragment) :
    Outcome w (.receiveFragment number flowId fragment)
      (receiveFragmentStep w number flowId fragment) := by
  unfold receiveFragmentStep
  split
  · exact .quiet (.noRouteForFragment number flowId fragment)
  · rename_i hready
    exact .quiet (.pushFragment number fragment hready)

theorem pushFragmentStep_outcome {number route : Nat} {flowId : FlowId} {fragment : UdpFragment}
    (h : pushFragmentStep w choice number flowId fragment route = some r) :
    Outcome w (.pushFragment number flowId fragment route) r := by
  unfold pushFragmentStep at h
  split at h
  · dsimp only at h
    split at h
    · cases h
    · rename_i hresult
      split at h
      · rename_i hcomplete
        split at h <;> cases h
        · exact .fragmentKept number _ hresult (.inl rfl)
        · exact .fragmentKept number _ hresult (.inr rfl)
        · rename_i hsent
          exact .fragmentEnqueued number _ hresult hcomplete hsent
      · cases h
        exact .fragmentKept number _ hresult (.inl rfl)
  · cases h

theorem exec_outcome {f : Frame} (h : exec choice w f = some r) : Outcome w f r := by
  cases f with
  | registerUdp flowId =>
    cases h
    exact registerUdpStep_outcome flowId
  | activateUdp flowId =>
    cases h
    exact activateUdpStep_outcome flowId
  | removeUdp flowId =>
    cases h
    exact .quiet (.removeUdp flowId)
  | removeFlow flowId =>
    cases h
    exact .remove (.inl rfl)
  | clearUdp =>
    cases h
    exact .quiet .clearUdp
  | clearReassembler =>
    cases h
    exact .clear
  | select => exact selectStep_outcome h
  | expire =>
    cases h
    exact .expire
  | receiveData number flowId payload =>
    cases h
    exact receiveDataStep_outcome number flowId payload
  | receiveFragment number flowId fragment =>
    cases h
    exact receiveFragmentStep_outcome number flowId fragment
  | pushFragment number flowId fragment route => exact pushFragmentStep_outcome h
  | removeClosed flowId =>
    cases h
    exact .remove (.inr rfl)

theorem mem_dispatch {d : Datagram} {g : Frame} (hg : g ∈ dispatch d) :
    (∃ number flowId payload, g = .receiveData number flowId payload) ∨
      (∃ number flowId fragment, g = .receiveFragment number flowId fragment) ∨
      ∃ flowId, g = .removeUdp flowId := by
  unfold dispatch at hg
  split at hg
  · exact .inl ⟨_, _, _, List.mem_singleton.mp hg⟩
  · exact .inr (.inl ⟨_, _, _, List.mem_singleton.mp hg⟩)
  · exact .inr (.inr ⟨_, List.mem_singleton.mp hg⟩)
  · cases hg

end Inversion

/-! ## Locks -/

variable {w : World} {flowId : FlowId}

/-- The locks that the frames after a step hold are those the frame held or was given. -/
theorem Outcome.locked {f : Frame} {r : Effect} (h : Outcome w f r) :
    r.spawned = [] ∧ ((∀ g ∈ r.frames, g.holds = []) ∨
      ∃ g, r.frames = [g] ∧ ∀ l ∈ g.holds, l ∈ f.holds ∨ f.wants = some l) := by
  cases h with
  | quiet moves =>
    refine ⟨rfl, ?_⟩
    cases moves with
    | removeUdp => exact .inr ⟨_, rfl, by simp [Frame.holds, Frame.wants]⟩
    | clearUdp => exact .inr ⟨_, rfl, by simp [Frame.holds, Frame.wants]⟩
    | pushFragment => exact .inr ⟨_, rfl, by simp [Frame.holds, Frame.wants]⟩
    | _ => exact .inl (by simp [Frame.holds])
  | received =>
    refine ⟨rfl, .inl fun g hg => ?_⟩
    rcases List.mem_append.mp hg with hg | hg
    · rcases mem_dispatch hg with ⟨_, _, _, rfl⟩ | ⟨_, _, _, rfl⟩ | ⟨_, rfl⟩ <;> rfl
    · rw [List.mem_singleton.mp hg]
      rfl
  | dataRefused number payload ready next =>
    refine ⟨rfl, ?_⟩
    rcases next with rfl | rfl
    · exact .inl (by simp)
    · exact .inr ⟨_, rfl, by simp [Frame.holds, Frame.wants]⟩
  | fragmentKept number budget result next =>
    refine ⟨rfl, ?_⟩
    rcases next with rfl | rfl
    · exact .inl (by simp)
    · exact .inr ⟨_, rfl, by simp [Frame.holds, Frame.wants]⟩
  | _ => exact ⟨rfl, .inl (by simp [removeFlowStep, clearReassemblerStep, expireStep])⟩

theorem disciplined : session.Disciplined where
  boot := by
    intro b w g hg
    cases b with
    | recv route =>
      simp only [session, start] at hg
      split at hg <;> cases hg
    | _ => simp [session, start, Tasks.Effect.all] at hg <;> subst hg <;> rfl
  frames := by
    intro choice w f r h l
    change (r.frames.countP fun g => l ∈ g.holds) ≤
      (if l ∈ f.holds then 1 else 0) + if f.wants = some l then 1 else 0
    rcases (exec_outcome h).locked.2 with hfree | ⟨g, hframes, hholds⟩
    · have hzero : (r.frames.countP fun g => l ∈ g.holds) = 0 := by
        rw [List.countP_eq_zero]
        intro g hg
        simp [hfree g hg]
      omega
    · rw [hframes]
      by_cases hl : l ∈ g.holds
      · rcases hholds l hl with hheld | hwanted
        · simp [hl, hheld]
        · simp [hl, hwanted]
      · simp [hl]
  spawned := by
    intro choice w f r h t ht
    rw [(exec_outcome h).locked.1] at ht
    cases ht

theorem exclusive {cfg : Config} {cond : Choice → World → Frame → Prop} {p : Pool}
    (h : session.Reach cond (initial cfg) p) : session.Exclusive p.bag :=
  disciplined.exclusive (by simp [Tasks.System.Exclusive, initial, Tasks.Pool.bag,
    Tasks.Pool.frames]) h

/-! ## Sessions as routing tables -/

def table (w : World) : Table Reservation where
  routes flowId := (w.routes.lookup flowId).map fun route => ⟨route.sender, route.ready⟩
  installed := w.nextRoute
  reassembler := w.reassembler

theorem table_routes {route : UdpRoute} (h : w.routes.lookup flowId = some route) :
    (table w).routes flowId = some ⟨route.sender, route.ready⟩ := by
  simp [table, h]

theorem table_of_readyRoute {route : Nat} (h : w.readyRoute flowId = some route) :
    (table w).routes flowId = some ⟨route, true⟩ := by
  obtain ⟨state, hstate, rfl⟩ := Option.map_eq_some_iff.mp h
  obtain ⟨hfound, hready⟩ := Option.filter_eq_some_iff.mp hstate
  rw [table_routes hfound, hready]

/-- The steps of the table, up to the routes that its map spells out. -/
theorem step_table {w' : World} {t : Table Reservation} {e : Table.Event Reservation}
    (step : (table w).Step e t) (hroutes : ∀ flowId, (table w').routes flowId = t.routes flowId)
    (hinstalled : w'.nextRoute = t.installed) (hreassembler : w'.reassembler = t.reassembler) :
    (table w).Step e (table w') := by
  rw [Table.eq_of_routes (t := table w') hroutes hinstalled hreassembler]
  exact step

/-- A step of the world, seen from the table. -/
abbrev Advances (w w' : World) : Prop := Table.Advances w.log (table w) w'.log (table w')

/-- What holds of a session between any two steps. -/
structure Coherent (cfg : Config) (w : World) (fs : Multiset Frame) : Prop where
  run : Table.Run cfg.reassembly w.log (table w)
  taking : ∀ number flowId fragment route, .pushFragment number flowId fragment route ∈ fs →
    w.readyRoute flowId = some route
  queued : ∀ route, ∀ d ∈ (w.channels route).queue, Table.Delivered w.log route d.payload

section Coherence

variable {cfg : Config} {w : World} {f : Frame} {r : Effect} {fs others : Multiset Frame}

/-- The map after an insertion, as a table. -/
theorem routes_insert (flowId flowId' : FlowId) (route : UdpRoute) :
    (((w.routes.insert flowId route).lookup flowId').map fun route =>
        (⟨route.sender, route.ready⟩ : Route)) =
      Function.update (table w).routes flowId (some ⟨route.sender, route.ready⟩) flowId' := by
  rw [lookup_insert]
  by_cases hf : flowId' = flowId
  · subst hf
    simp
  · rw [if_neg hf, Function.update_of_ne hf]
    rfl

theorem advances_remove (flowId : FlowId) : Advances w (removeFlowStep w flowId).world := by
  refine .event (.remove flowId) rfl (step_table (.remove flowId) (fun flowId' => ?_) rfl rfl)
  change Option.map _ (AList.lookup flowId' (w.routes.erase flowId)) = _
  rw [lookup_erase]
  by_cases hf : flowId' = flowId
  · subst hf
    simp
  · simp only [if_neg hf, Function.update_of_ne hf]
    rfl

theorem Outcome.advances (h : Outcome w f r) (hc : Coherent cfg w (f ::ₘ fs)) :
    Advances w r.world := by
  have hself : f ∈ f ::ₘ fs := Multiset.mem_cons_self f fs
  cases h with
  | @install flowId free =>
    refine .event (.install flowId w.nextRoute) rfl ?_
    exact step_table (Table.Step.install (t := table w) (by simp [table, free]))
      (fun flowId' => routes_insert flowId flowId' _) rfl rfl
  | @activate flowId route found =>
    refine .event (.activate flowId route.sender) rfl ?_
    exact step_table (.activate (table_routes found))
      (fun flowId' => routes_insert flowId flowId' _) rfl rfl
  | remove => exact advances_remove _
  | clear => exact .event .clear rfl .clear
  | expire => exact .event (.expire w.now) rfl (.expire w.now)
  | dataRefused number payload ready =>
    exact .event _ rfl (.data (table_of_readyRoute ready) rfl number payload false)
  | dataEnqueued number budget ready =>
    exact .event _ rfl (.data (table_of_readyRoute ready) rfl number _ true)
  | fragmentKept number budget result =>
    have hready := hc.taking _ _ _ _ hself
    exact .event _ rfl
      (Table.Step.fragment (t := table w) (table_of_readyRoute hready) rfl result number false)
  | fragmentEnqueued number budget result =>
    have hready := hc.taking _ _ _ _ hself
    exact .event _ rfl
      (Table.Step.fragment (t := table w) (table_of_readyRoute hready) rfl result number true)
  | _ => exact .same rfl rfl

variable {number route : Nat} {flowId : FlowId} {fragment : UdpFragment} {d : BudgetedDatagram}
  {b : Start}

theorem Outcome.pushes (h : Outcome w f r) {number route : Nat} {flowId : FlowId}
    {fragment : UdpFragment} (hg : .pushFragment number flowId fragment route ∈ r.all) :
    r.world = w ∧ w.readyRoute flowId = some route := by
  cases h with
  | quiet moves =>
    cases moves <;> simp [Tasks.Effect.all] at hg
    obtain ⟨-, rfl, -, rfl⟩ := hg
    exact ⟨rfl, by assumption⟩
  | received =>
    simp only [Tasks.Effect.all, List.flatten_nil, List.append_nil] at hg
    rcases List.mem_append.mp hg with hg | hg
    · rcases mem_dispatch hg with ⟨_, _, _, heq⟩ | ⟨_, _, _, heq⟩ | ⟨_, heq⟩ <;> cases heq
    · simp at hg
  | dataRefused number payload ready next | fragmentKept number budget result next =>
    rcases next with rfl | rfl <;> simp [Tasks.Effect.all] at hg
  | _ => simp [Tasks.Effect.all, removeFlowStep, clearReassemblerStep, expireStep] at hg

/-- Only a task that has locked `routes` changes the map. -/
theorem Outcome.keeps_routes (h : Outcome w f r) :
    Lock.routes ∈ f.holds ∨ f.wants = some .routes ∨ r.world.routes = w.routes := by
  cases h with
  | install | activate => exact .inr (.inl rfl)
  | remove by_frame => rcases by_frame with rfl | rfl <;> exact .inl (by simp [Frame.holds])
  | clear => exact .inl (by simp [Frame.holds])
  | _ => exact .inr (.inr rfl)

/-- A packet in a channel was there before, or the step has just handed it over. -/
theorem Outcome.queued (h : Outcome w f r) (hd : d ∈ (r.world.channels route).queue) :
    d ∈ (w.channels route).queue ∨ ∃ e, r.world.log = w.log ++ [e] ∧
      e.delivers = some (route, d.payload) := by
  cases h with
  | install free =>
    rcases Channel.mem_update hd with hd | ⟨_, ⟨⟩⟩
    exact .inl hd
  | @dataEnqueued flowId route' payload permit channel number budget ready sent =>
    rcases Channel.mem_update_trySend sent hd with hd | ⟨rfl, rfl⟩
    · exact .inl hd
    · exact .inr ⟨_, rfl, rfl⟩
  | @fragmentEnqueued flowId fragment route' n e payload reservation evicted channel number budget
      result complete sent =>
    rcases Channel.mem_update_trySend sent hd with hd | ⟨rfl, rfl⟩
    · exact .inl hd
    · exact .inr ⟨_, rfl, by simp [Table.Event.delivers, complete]⟩
  | _ => exact .inl hd

theorem Coherent.step (hc : Coherent cfg w (f ::ₘ others))
    (hex : session.Exclusive (f ::ₘ others)) (hfree : session.Free f (f ::ₘ others))
    (h : Outcome w f r) : Coherent cfg r.world (↑r.all + others) := by
  have hadvances := h.advances hc
  obtain ⟨more, hlog⟩ := hadvances.extends
  refine ⟨hadvances.run hc.run, ?_, ?_⟩
  · intro number flowId fragment route hg
    rcases Multiset.mem_add.mp hg with hg | hg
    · obtain ⟨hworld, hready⟩ := h.pushes hg
      rw [hworld]
      exact hready
    · -- the frame keeps `routes` locked
      have hholds : Lock.routes ∈ (Frame.pushFragment number flowId fragment route).holds := by
        simp [Frame.holds]
      have hold : Frame.pushFragment number flowId fragment route ∈ f ::ₘ others :=
        Multiset.mem_cons_of_mem hg
      have hroutes : r.world.routes = w.routes := by
        rcases h.keeps_routes with hf | hf | hroutes
        · exact absurd hholds (hex.absurd hg hf)
        · exact absurd hholds (hfree _ hf _ hold)
        · exact hroutes
      rw [World.readyRoute, hroutes]
      exact hc.taking _ _ _ _ hold
  · intro route d hd
    rcases h.queued hd with hd | ⟨e, he, hdelivers⟩
    · rw [hlog]
      exact (hc.queued route d hd).append more
    · rw [he]
      exact Table.delivered_last hdelivers

/-- Reading or dropping a receiver adds nothing to a channel. -/
theorem start_queued (hd : d ∈ ((start b w).world.channels route).queue) :
    d ∈ (w.channels route).queue := by
  cases b with
  | recv route' =>
    simp only [start] at hd
    split at hd
    · exact hd
    · rename_i hqueue
      by_cases hroute : route = route'
      · subst hroute
        simp only [Function.update_self] at hd
        rw [hqueue]
        exact List.mem_cons_of_mem _ hd
      · simp only [Function.update_of_ne hroute] at hd
        exact hd
  | dropReceiver route' =>
    by_cases hroute : route = route'
    · simp [start, hroute, Channel.close] at hd
    · simp only [start, Function.update_of_ne hroute] at hd
      exact hd
  | _ => exact hd

theorem start_pushes :
    .pushFragment number flowId fragment route ∉ (start b w).all := by
  intro hg
  cases b with
  | recv route' =>
    simp only [start] at hg
    split at hg <;> cases hg
  | _ => simp [start, Tasks.Effect.all] at hg

theorem start_table (b : Start) :
    (start b w).world.log = w.log ∧ (start b w).world.routes = w.routes ∧
      table (start b w).world = table w := by
  cases b with
  | recv route' =>
    simp only [start]
    split <;> exact ⟨rfl, rfl, rfl⟩
  | _ => exact ⟨rfl, rfl, rfl⟩

theorem coherent {cond : Choice → World → Frame → Prop} {p : Pool}
    (h : session.Reach cond (initial cfg) p) : Coherent cfg p.world p.bag := by
  refine h.bag_invariant (I := Coherent cfg) ?_ ?_ ?_
  · exact ⟨.new, by simp [initial, Tasks.Pool.bag, Tasks.Pool.frames],
      by simp [initial, World.init, Channel.new]⟩
  · intro p b _ hc
    change Coherent cfg (start b p.world).world (↑(start b p.world).all + p.bag)
    obtain ⟨hlog, hroutes, htable⟩ := start_table (w := p.world) b
    refine ⟨by rw [hlog, htable]; exact hc.run, ?_, ?_⟩
    · intro number flowId fragment route hg
      rw [World.readyRoute, hroutes]
      exact hc.taking _ _ _ _ ((Multiset.mem_add.mp hg).resolve_left start_pushes)
    · intro route d hd
      rw [hlog]
      exact hc.queued route d (start_queued hd)
  · intro p c f others r hreach hbag hc hfree _ hexec
    have hex := exclusive hreach
    rw [hbag] at hex
    exact hc.step hex hfree (exec_outcome hexec)

end Coherence

end Nowhere.Vector.QuicSession
