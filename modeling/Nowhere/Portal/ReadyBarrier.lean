import Nowhere.Portal.SessionRoutes

/-!
# The READY barrier

Before a relay activates its route, it asks the datagram loop to drain the DATAGRAMs that have
already arrived, and waits for the answer. Three things make this a barrier. Each route asks at
most once, and its question is in one place at a time: with the relay, in the channel, with the
loop, or answered (`tickets_le`). A ready flag, an accepted frame and a READY all come after the
answer `true` (`Acknowledged`). And the answer `true` is given when the queue is empty and
nothing is left of the DATAGRAMs that were taken from it, because there is a single loop and it
finishes one DATAGRAM before it looks at the next (`alone_while_draining`).
-/

namespace Nowhere.Portal.Session

open Protocol Common Assoc

/-! ## Questions and answers -/

/-- The route whose question is still with its relay, or already with the datagram loop. -/
def Frame.ticket : Frame → Option Nat
  | .submitUdp _ route | .pairing _ route | .relay _ route .dialing
  | .relay _ route .preparing | .commitUdpReady route _ | .commitCheck route _ => some route
  | _ => none

/-- Whether a question is in the channel, or answered. -/
def World.asked (w : World) (route : Nat) : Nat :=
  w.requests.count route + (w.acknowledged route).isSome.toNat

/-- The places in which the question of a route is. -/
def tickets (route : Nat) (w : World) (fs : Multiset Frame) : Nat :=
  fs.countP (fun g => g.ticket = some route) + w.asked route

section Tickets

variable {cfg : Config} {w : World} {f : Frame} {r : Effect} {route : Nat}

/-- What a frame adds to the count. -/
def Frame.stake (route : Nat) (f : Frame) : Nat := if f.ticket = some route then 1 else 0

theorem tickets_cons (route : Nat) (w : World) (f : Frame) (fs : Multiset Frame) :
    tickets route w (f ::ₘ fs) = f.stake route + tickets route w fs := by
  rw [tickets, tickets, Multiset.countP_cons, Frame.stake]
  omega

theorem tickets_add (route : Nat) (w : World) (frames : List Frame) (fs : Multiset Frame) :
    tickets route w (↑frames + fs) =
      frames.countP (fun g => decide (g.ticket = some route)) + tickets route w fs := by
  rw [tickets, tickets, Multiset.countP_add, Multiset.coe_countP]
  omega

theorem Moves.stake {frames : List Frame} {spawned : List (List Frame)}
    (h : Moves w f frames spawned) (route : Nat) :
    (frames ++ spawned.flatten).countP (fun g => decide (g.ticket = some route)) ≤
      f.stake route := by
  cases h <;> simp [Frame.stake, Frame.ticket, List.countP_cons]

theorem asked_loopEnd (w : World) (route : Nat) :
    (loopEnd w).world.asked route ≤ w.asked route := by
  simp only [World.asked, loopEnd, List.count_nil, Nat.zero_add]
  by_cases hmem : route ∈ w.requests
  · have hcount := List.count_pos_iff.mpr hmem
    simp only [hmem, if_true, Option.isSome_some, Bool.toNat_true]
    omega
  · simp only [hmem, if_false]
    omega

theorem asked_acknowledge (w : World) (route route' : Nat) (ok : Bool) :
    (w.acknowledge route' ok).asked route ≤
      w.asked route + if some route' = some route then 1 else 0 := by
  simp only [World.asked, World.acknowledge]
  by_cases hroute : route = route'
  · subst hroute
    simp only [Function.update_self, Option.isSome_some, Bool.toNat_true, if_true]
    omega
  · simp only [Function.update_of_ne hroute]
    omega

theorem Answers.ticket {ok : Bool} (h : Answers w route f ok) : f.ticket = some route := by
  cases h <;> rfl

theorem Reads.ticket {g : Frame} (h : Reads f g) : g.ticket = f.ticket := by
  cases h <;> rfl

/-- No step multiplies a question; only an installation makes a new one. -/
theorem Outcome.stake (h : Outcome cfg w f r) (route : Nat) :
    r.all.countP (fun g => decide (g.ticket = some route)) + r.world.asked route ≤
        f.stake route + w.asked route ∧ r.world.nextRoute = w.nextRoute ∨
      r.all.countP (fun g => decide (g.ticket = some route)) + r.world.asked route ≤
        (if route = w.nextRoute then 1 else 0) + w.asked route ∧
        r.world.nextRoute = w.nextRoute + 1 := by
  cases h with
  | quiet moves =>
    have hstake := moves.stake route
    exact .inl ⟨by simpa only [Tasks.Effect.all, Nat.add_le_add_iff_right] using hstake, rfl⟩
  | install flowId =>
    refine .inr ⟨?_, rfl⟩
    simp only [Tasks.Effect.all, installInsertStep, List.flatten_nil, List.append_nil,
      List.countP_cons, List.countP_nil, Frame.ticket, Option.some.injEq, decide_eq_true_eq,
      World.asked]
    split <;> split <;> omega
  | loopEnd =>
    have hend := asked_loopEnd w route
    have hnone : (Session.loopEnd w).all = [] := rfl
    rw [hnone, List.countP_nil]
    exact .inl ⟨by omega, rfl⟩
  | @loopAbort _ route' answers =>
    have hend := asked_loopEnd (w.acknowledge route' false) route
    have hanswer := asked_acknowledge w route route' false
    have hnone : (Session.loopEnd (w.acknowledge route' false)).all = [] := rfl
    rw [Frame.stake, answers.ticket, hnone, List.countP_nil]
    exact .inl ⟨by omega, rfl⟩
  | @answered _ route' ok answers =>
    have hanswer := asked_acknowledge w route route' ok
    rw [Frame.stake, answers.ticket]
    refine .inl ⟨?_, rfl⟩
    simp only [Tasks.Effect.all, List.flatten_nil, List.append_nil, List.countP_cons,
      List.countP_nil, Frame.ticket]
    simp only [reduceCtorEq, decide_false, Bool.false_eq_true, if_false]
    omega
  | @request route' requests pending =>
    refine .inl ⟨?_, rfl⟩
    simp only [Tasks.Effect.all, List.flatten_nil, List.append_nil, List.countP_cons,
      List.countP_nil, Frame.ticket, Frame.stake, World.asked, pending, List.count_cons,
      Option.some.injEq, decide_eq_true_eq, reduceCtorEq, if_false, beq_iff_eq]
    omega
  | received reads =>
    refine .inl ⟨?_, rfl⟩
    simp only [Tasks.Effect.all, List.flatten_nil, List.append_nil, List.countP_cons,
      List.countP_nil, reads.ticket, Frame.stake, World.asked, decide_eq_true_eq]
    simp only [Frame.ticket, reduceCtorEq, if_false]
    omega
  | requested flowId =>
    refine .inl ⟨?_, rfl⟩
    simp only [Tasks.Effect.all, List.flatten_nil, List.append_nil, List.countP_cons,
      List.countP_nil, Frame.ticket, Frame.stake, World.asked, List.count_append, List.count_cons,
      List.count_nil, Option.some.injEq, decide_eq_true_eq, reduceCtorEq, if_false, beq_iff_eq]
    omega
  | rejected | committed | activated | relayed =>
    refine .inl ⟨?_, rfl⟩
    simp [Tasks.Effect.all, relayReject, activateStep, Frame.ticket, World.asked]
  | _ =>
    refine .inl ⟨?_, rfl⟩
    simp [Tasks.Effect.all, closeChannelStep, removeReassemblyStep, closeReassemblyStep,
      expireStep, Frame.ticket, World.asked]

/-- The question of a route is in one place at most, and nowhere before the route is there. -/
theorem tickets_le {cond : Choice → World → Frame → Prop} {p : Pool}
    (h : (session cfg).Reach cond (initial cfg) p) (route : Nat) :
    tickets route p.world p.bag ≤ if route < p.world.nextRoute then 1 else 0 := by
  refine h.bag_invariant
    (I := fun w fs => tickets route w fs ≤ if route < w.nextRoute then 1 else 0) ?_ ?_ ?_
  · simp [tickets, World.asked, initial, Tasks.Pool.bag, Tasks.Pool.frames, World.init]
  · intro p b _ ih
    have hnew : ((session cfg).boot b p.world).all.countP
        (fun g => decide (g.ticket = some route)) = 0 := by
      cases b <;> rfl
    rw [tickets_add, hnew, Nat.zero_add]
    cases b <;> exact ih
  · intro p c f others r _ _ ih _ _ hexec
    rw [tickets_cons] at ih
    rw [tickets_add]
    simp only [tickets] at ih ⊢
    rcases (exec_outcome hexec).stake route with ⟨hstake, hnext⟩ | ⟨hstake, hnext⟩
    · rw [hnext]
      omega
    · rw [hnext]
      split at ih <;> split at hstake <;> split <;> omega

end Tickets

/-! ## After the answer -/

/-- The route of a relay that has been told to go on. -/
def Frame.goesOn : Frame → Option Nat
  | .relay _ route .committing | .relay _ route .activating | .relay _ route .running => some route
  | _ => none

/-- The number of the DATAGRAM that a frame is dealing with. -/
def Frame.carries : Frame → Option Nat
  | .handleDatagram d _ => some d.number
  | .handleUnfragmentedUdp number .. | .handleUdpFragment number .. | .pushFragment number .. =>
    some number
  | _ => none

/-- Whatever follows the answer `true` follows it. -/
structure Acknowledged (w : World) (fs : Multiset Frame) : Prop where
  relays : ∀ g ∈ fs, ∀ route, g.goesOn = some route → w.acknowledged route = some true
  ready : ∀ route, w.ready route = true → w.acknowledged route = some true
  used : ∀ e ∈ w.log, ∀ route number, e.uses = some (route, number) →
    w.acknowledged route = some true
  activated : ∀ flowId route, .activate flowId route ∈ w.log → w.acknowledged route = some true
  results : ∀ route, (route, .ready) ∈ w.results → w.acknowledged route = some true

section Acknowledged

variable {cfg : Config} {w : World} {f g : Frame} {r : Effect} {others : Multiset Frame}
  {route : Nat} {ok : Bool} {cond : Choice → World → Frame → Prop} {p : Pool}

/-- An answered question is nowhere else. -/
theorem answered_only (htickets : tickets route w (f ::ₘ others) ≤ 1)
    (hanswer : w.acknowledged route = some ok) : f.ticket ≠ some route ∧ route ∉ w.requests := by
  rw [tickets_cons, tickets, World.asked, hanswer, Option.isSome_some, Bool.toNat_true] at htickets
  constructor
  · intro hf
    rw [Frame.stake, if_pos hf] at htickets
    omega
  · intro hmem
    have hcount := List.count_pos_iff.mpr hmem
    omega

theorem Outcome.acknowledged (h : Outcome cfg w f r) (htickets : tickets route w (f ::ₘ others) ≤ 1)
    (hanswer : w.acknowledged route = some ok) : r.world.acknowledged route = some ok := by
  obtain ⟨hticket, hrequests⟩ := answered_only htickets hanswer
  have hne {route' : Nat} {ok' : Bool} (hanswers : Answers w route' f ok') : route ≠ route' := by
    rintro rfl
    exact hticket hanswers.ticket
  cases h with
  | loopEnd =>
    simp only [Session.loopEnd, if_neg hrequests]
    exact hanswer
  | loopAbort answers =>
    simp only [Session.loopEnd, World.acknowledge, if_neg hrequests,
      Function.update_of_ne (hne answers)]
    exact hanswer
  | answered answers =>
    simp only [World.acknowledge, Function.update_of_ne (hne answers)]
    exact hanswer
  | _ => exact hanswer

theorem Outcome.goesOn (h : Outcome cfg w f r) (hg : g ∈ r.all) (hgo : g.goesOn = some route) :
    f.goesOn = some route ∨ w.acknowledged route = some true := by
  cases h with
  | quiet moves =>
    cases moves with
    | prepared flowId acknowledged =>
      simp only [Tasks.Effect.all, List.flatten_nil, List.append_nil, List.mem_singleton] at hg
      subst hg
      cases hgo
      exact .inr acknowledged
    | _ =>
      simp [Tasks.Effect.all] at hg
      try rcases hg with rfl | rfl
      all_goals cases hgo
  | received reads =>
    simp only [Tasks.Effect.all, List.flatten_nil, List.append_nil, List.mem_cons,
      List.not_mem_nil, or_false] at hg
    rcases hg with rfl | rfl
    · cases hgo
    · cases reads <;> cases hgo
  | committed | activated | relayed =>
    simp only [Tasks.Effect.all, activateStep, List.flatten_nil, List.append_nil,
      List.mem_singleton] at hg
    subst hg
    exact .inl hgo
  | _ =>
    simp [Tasks.Effect.all, installInsertStep, closeChannelStep, removeReassemblyStep,
      closeReassemblyStep, Session.loopEnd, expireStep, relayReject] at hg
    try (subst hg; cases hgo)

theorem Outcome.ready (h : Outcome cfg w f r) (hready : r.world.ready route = true) :
    w.ready route = true ∨ f.goesOn = some route := by
  cases h with
  | install flowId =>
    simp only [installInsertStep] at hready
    by_cases hroute : route = w.nextRoute
    · rw [hroute, Function.update_self] at hready
      cases hready
    · rw [Function.update_of_ne hroute] at hready
      exact .inl hready
  | remove flowId cause =>
    simp only [removeReassemblyStep] at hready
    cases hfound : w.udpFlows.lookup flowId with
    | none =>
      rw [hfound] at hready
      exact .inl hready
    | some state =>
      rw [hfound, Option.elim_some] at hready
      by_cases hroute : route = state.route
      · rw [hroute, Function.update_self] at hready
        cases hready
      · rw [Function.update_of_ne hroute] at hready
        exact .inl hready
  | clear =>
    simp only [closeReassemblyStep, Bool.and_eq_true] at hready
    exact .inl hready.1
  | activated flowId route' =>
    simp only [activateStep] at hready
    by_cases hroute : route = route'
    · exact .inr (by rw [hroute]; rfl)
    · rw [Function.update_of_ne hroute] at hready
      exact .inl hready
  | _ => exact .inl hready

/-- A DATAGRAM is taken for a route by the frame that deals with it, while the route is ready. -/
theorem Outcome.uses (h : Outcome cfg w f r) (hc : Coherent cfg w (f ::ₘ others))
    {e : Table.Event Reservation} {number : Nat} (he : e ∈ r.world.log)
    (huses : e.uses = some (route, number)) :
    e ∈ w.log ∨ w.ready route = true ∧ f.carries = some number := by
  have hself : f ∈ f ::ₘ others := Multiset.mem_cons_self f others
  have hlast {e' : Table.Event Reservation} (he : e ∈ w.log ++ [e']) : e ∈ w.log ∨ e = e' := by
    simpa using he
  cases h with
  | install | remove | clear | expire =>
    rcases hlast he with he | rfl
    · exact .inl he
    · cases huses
  | dataRefused number payload ready | dataEnqueued number budget ready =>
    rcases hlast he with he | rfl
    · exact .inl he
    · cases huses
      exact .inr ⟨(readyRoute_eq_some.mp ready).2, rfl⟩
  | fragmentKept | fragmentEnqueued =>
    rcases hlast he with he | rfl
    · exact .inl he
    · cases huses
      exact .inr ⟨(readyRoute_eq_some.mp (hc.taking _ _ _ _ hself)).2, rfl⟩
  | activated flowId route' =>
    simp only [activateStep] at he
    split at he
    · rcases hlast he with he | rfl
      · exact .inl he
      · cases huses
    · exact .inl he
  | _ => exact .inl he

theorem Outcome.activates (h : Outcome cfg w f r) {flowId : FlowId}
    (he : .activate flowId route ∈ r.world.log) :
    .activate flowId route ∈ w.log ∨ f.goesOn = some route := by
  cases h with
  | activated flowId' route' =>
    simp only [activateStep] at he
    split at he
    · rcases List.mem_append.mp he with he | he
      · exact .inl he
      · cases List.mem_singleton.mp he
        exact .inr rfl
    · exact .inl he
  | install | remove | clear | expire | dataRefused | dataEnqueued | fragmentKept
  | fragmentEnqueued =>
    rcases List.mem_append.mp he with he | he
    · exact .inl he
    · cases List.mem_singleton.mp he
  | _ => exact .inl he

theorem Outcome.results (h : Outcome cfg w f r) (hresult : (route, .ready) ∈ r.world.results) :
    (route, .ready) ∈ w.results ∨ f.goesOn = some route := by
  cases h with
  | rejected =>
    rcases List.mem_cons.mp hresult with heq | hresult
    · cases heq
    · exact .inl hresult
  | committed =>
    rcases List.mem_cons.mp hresult with heq | hresult
    · cases heq
      exact .inr rfl
    · exact .inl hresult
  | _ => exact .inl hresult

theorem Acknowledged.step (ha : Acknowledged w (f ::ₘ others))
    (htickets : ∀ route, tickets route w (f ::ₘ others) ≤ 1)
    (hc : Coherent cfg w (f ::ₘ others)) (h : Outcome cfg w f r) :
    Acknowledged r.world (↑r.all + others) := by
  have hstable {route : Nat} (hanswer : w.acknowledged route = some true) :
      r.world.acknowledged route = some true :=
    h.acknowledged (htickets route) hanswer
  have hself {route : Nat} (hgo : f.goesOn = some route) : w.acknowledged route = some true :=
    ha.relays f (Multiset.mem_cons_self _ _) route hgo
  refine ⟨?_, ?_, ?_, ?_, ?_⟩
  · intro g hg route hgo
    rcases Multiset.mem_add.mp hg with hg | hg
    · rcases h.goesOn hg hgo with hgo | hanswer
      · exact hstable (hself hgo)
      · exact hstable hanswer
    · exact hstable (ha.relays g (Multiset.mem_cons_of_mem hg) route hgo)
  · intro route hready
    rcases h.ready hready with hready | hgo
    · exact hstable (ha.ready route hready)
    · exact hstable (hself hgo)
  · intro e he route number huses
    rcases h.uses hc he huses with he | ⟨hready, _⟩
    · exact hstable (ha.used e he route number huses)
    · exact hstable (ha.ready route hready)
  · intro flowId route he
    rcases h.activates he with he | hgo
    · exact hstable (ha.activated flowId route he)
    · exact hstable (hself hgo)
  · intro route hresult
    rcases h.results hresult with hresult | hgo
    · exact hstable (ha.results route hresult)
    · exact hstable (hself hgo)

theorem tickets_le_one (h : (session cfg).Reach cond (initial cfg) p) (route : Nat) :
    tickets route p.world p.bag ≤ 1 := by
  have hle := tickets_le h route
  split at hle <;> omega

theorem acknowledged (h : (session cfg).Reach cond (initial cfg) p) :
    Acknowledged p.world p.bag := by
  refine h.bag_invariant (I := Acknowledged) ?_ ?_ ?_
  · exact ⟨by simp [initial, Tasks.Pool.bag, Tasks.Pool.frames], by simp [initial, World.init],
      by simp [initial, World.init], by simp [initial, World.init], by simp [initial, World.init]⟩
  · intro p b _ ha
    cases b <;>
      exact ⟨by simpa [session, start, Tasks.Effect.all, Frame.goesOn] using ha.relays, ha.ready,
        ha.used, ha.activated, ha.results⟩
  · intro p c f others r hreach hbag ha _ _ hexec
    have hc := coherent hreach
    have htickets := tickets_le_one hreach
    rw [hbag] at hc
    simp only [hbag] at htickets
    exact ha.step htickets hc (exec_outcome hexec)

end Acknowledged

/-! ## The loop -/

/-- The datagram loop between two DATAGRAMs, or what it goes on with after this one. -/
def Frame.reader : Frame → Bool
  | .select | .commitUdpReady .. | .commitCheck .. => true
  | _ => false

/-- What the loop does before it goes on. -/
def Frame.handler : Frame → Bool
  | .expire | .handleDatagram .. | .handleUnfragmentedUdp .. | .handleUdpFragment ..
  | .pushFragment .. | .removeUdpUplink .. | .removeReassembly .. => true
  | _ => false

/-- The frames that only the loop has. -/
def Frame.loops (f : Frame) : Bool :=
  f.reader || f.carries.isSome || match f with | .datagramLoop => true | _ => false

/-- The stacks of tasks: a task that has nothing to do with the loop, the loop at rest, or the
loop while it deals with something. -/
inductive LoopStack : List Frame → Prop
  | other {t : List Frame} (h : ∀ f ∈ t, f.loops = false) : LoopStack t
  | starting : LoopStack [.datagramLoop]
  | resting {f : Frame} (h : f.reader = true) : LoopStack [f]
  | handling {f g : Frame} (hf : f.handler = true)
      (hg : g = .select ∨ ∃ route deadline, g = .commitCheck route deadline) : LoopStack [f, g]

section Loop

variable {cfg : Config} {w : World} {f g : Frame} {r : Effect}

theorem Outcome.other (h : Outcome cfg w f r) (hf : f.loops = false) :
    ∀ g ∈ r.all, g.loops = false := by
  intro g hg
  cases h with
  | quiet moves =>
    cases moves <;> simp [Tasks.Effect.all] at hg <;>
      first
      | (subst hg; rfl)
      | (rcases hg with rfl | rfl <;> rfl)
      | cases hf
  | received reads => cases reads <;> cases hf
  | loopAbort answers | answered answers => cases answers <;> cases hf
  | loopStart | loopEnd | request | dataRefused | dataEnqueued | fragmentKept
  | fragmentEnqueued => cases hf
  | _ =>
    simp [Tasks.Effect.all, installInsertStep, closeChannelStep, removeReassemblyStep,
      closeReassemblyStep, expireStep, relayReject, activateStep] at hg
    try (subst hg; rfl)

theorem Outcome.handles (h : Outcome cfg w f r) (hf : f.handler = true) :
    r.spawned = [] ∧ (r.frames = [] ∨ ∃ g, r.frames = [g] ∧ g.handler = true) := by
  cases h with
  | quiet moves =>
    cases moves with
    | data | fragment | closeFrame | pushFragment | removeUdpUplink =>
      exact ⟨rfl, .inr ⟨_, rfl, rfl⟩⟩
    | invalid | noRouteForData | noRouteForFragment => exact ⟨rfl, .inl rfl⟩
    | _ => cases hf
  | received reads => cases reads <;> cases hf
  | loopAbort answers | answered answers => cases answers <;> cases hf
  | remove | expire | dataRefused | dataEnqueued | fragmentKept | fragmentEnqueued =>
    exact ⟨rfl, .inl rfl⟩
  | _ => cases hf

theorem Outcome.resting (h : Outcome cfg w f r) (hf : f.reader = true) :
    r.spawned = [] ∧ LoopStack r.frames := by
  cases h with
  | quiet moves =>
    cases moves with
    | cleanup => exact ⟨rfl, .handling rfl (.inl rfl)⟩
    | drainOn => exact ⟨rfl, .resting rfl⟩
    | _ => cases hf
  | received reads =>
    cases reads with
    | select => exact ⟨rfl, .handling rfl (.inl rfl)⟩
    | drain route deadline => exact ⟨rfl, .handling rfl (.inr ⟨route, deadline, rfl⟩)⟩
  | answered | request => exact ⟨rfl, .resting rfl⟩
  | loopEnd | loopAbort => exact ⟨rfl, .other (by simp [Session.loopEnd])⟩
  | _ => cases hf

theorem Outcome.starting (h : Outcome cfg w .datagramLoop r) :
    r.spawned = [] ∧ LoopStack r.frames := by
  cases h with
  | quiet moves =>
    cases moves
    exact ⟨rfl, .other (by simp)⟩
  | received reads => cases reads
  | loopAbort answers | answered answers => cases answers
  | loopStart => exact ⟨rfl, .resting rfl⟩

variable {cond : Choice → World → Frame → Prop} {p : Pool}

theorem loopStack (h : (session cfg).Reach cond (initial cfg) p) : ∀ t ∈ p.tasks, LoopStack t := by
  refine h.stack_invariant (T := LoopStack) (by simp [initial]) ?_ ?_
  · intro p b _ t ht
    cases b <;> simp [session, start] at ht <;> subst ht
    case datagramLoop => exact .starting
    all_goals exact .other (by simp [Frame.loops, Frame.reader, Frame.carries])
  · intro p c f rest r _ _ hstack _ _ hexec
    have houtcome := exec_outcome hexec
    cases hstack with
    | other hother =>
      have hnew := houtcome.other (hother f List.mem_cons_self)
      refine ⟨.other fun g hg => ?_, fun t ht => .other fun g hg => ?_⟩
      · rcases List.mem_append.mp hg with hg | hg
        · exact hnew g (List.mem_append_left _ hg)
        · exact hother g (List.mem_cons_of_mem _ hg)
      · exact hnew g (List.mem_append_right _ (List.mem_flatten.mpr ⟨t, ht, hg⟩))
    | starting =>
      obtain ⟨hspawned, hframes⟩ := houtcome.starting
      rw [hspawned, List.append_nil]
      exact ⟨hframes, by simp⟩
    | resting hreader =>
      obtain ⟨hspawned, hframes⟩ := houtcome.resting hreader
      rw [hspawned, List.append_nil]
      exact ⟨hframes, by simp⟩
    | handling hf hg =>
      obtain ⟨hspawned, hframes⟩ := houtcome.handles hf
      rw [hspawned]
      refine ⟨?_, by simp⟩
      rcases hframes with hframes | ⟨f', hframes, hf'⟩
      · rw [hframes]
        exact .resting (by rcases hg with rfl | ⟨_, _, rfl⟩ <;> rfl)
      · rw [hframes]
        exact .handling hf' hg

theorem Outcome.readers (h : Outcome cfg w f r) :
    r.all.countP (fun g => decide (g.reader = true)) +
        (decide (r.world.udpReadyRx = .untaken)).toNat ≤
      (if f.reader = true then 1 else 0) + (decide (w.udpReadyRx = .untaken)).toNat := by
  cases h with
  | quiet moves => cases moves <;> simp [Tasks.Effect.all, Frame.reader]
  | received reads => cases reads <;> exact Nat.le_refl _
  | loopEnd | loopAbort => simp [Tasks.Effect.all, Session.loopEnd]
  | answered answers => cases answers <;> exact Nat.le_refl _
  | loopStart untaken => simp [Tasks.Effect.all, Frame.reader, untaken]
  | _ => exact Nat.le_refl _

/-- There is one loop, because `take_udp_ready_requests` gives out the receiver once. -/
theorem one_reader (h : (session cfg).Reach cond (initial cfg) p) :
    p.bag.countP (fun g => g.reader = true) +
      (decide (p.world.udpReadyRx = .untaken)).toNat ≤ 1 := by
  refine h.bag_invariant (I := fun w fs => fs.countP (fun g => g.reader = true) +
    (decide (w.udpReadyRx = .untaken)).toNat ≤ 1) ?_ ?_ ?_
  · simp [initial, Tasks.Pool.bag, Tasks.Pool.frames, World.init]
  · intro p b _ ih
    have hnew :
        ((session cfg).boot b p.world).all.countP (fun g => decide (g.reader = true)) = 0 := by
      cases b <;> rfl
    rw [Multiset.countP_add, Multiset.coe_countP, hnew, Nat.zero_add]
    cases b <;> exact ih
  · intro p c f others r _ _ ih _ _ hexec
    rw [Multiset.countP_cons] at ih
    rw [Multiset.countP_add, Multiset.coe_countP]
    have hstep := (exec_outcome hexec).readers
    omega

/-- While the queue is being looked at for a ready request, no task is dealing with a DATAGRAM
that was taken from it. -/
theorem alone_while_draining (h : (session cfg).Reach cond (initial cfg) p) {route deadline : Nat}
    (hdrain : .commitUdpReady route deadline ∈ p.bag) : ∀ g ∈ p.bag, g.carries = none := by
  intro g hg
  by_contra hcarries
  have hone := one_reader h
  have hstacks := loopStack h
  obtain ⟨t, ht, hdrain⟩ := Tasks.Pool.mem_bag.mp hdrain
  obtain ⟨t', ht', hg⟩ := Tasks.Pool.mem_bag.mp hg
  obtain ⟨i, hi⟩ := List.getElem?_of_mem ht
  obtain ⟨j, hj⟩ := List.getElem?_of_mem ht'
  -- the drain is all there is of its task
  have hrest : t = [.commitUdpReady route deadline] := by
    cases hstacks t ht with
    | other hother => cases hother _ hdrain
    | starting => simp at hdrain
    | resting => rw [List.mem_singleton.mp hdrain]
    | handling hf hg =>
      simp only [List.mem_cons, List.not_mem_nil, or_false] at hdrain
      rcases hdrain with rfl | rfl
      · cases hf
      · rcases hg with hg | ⟨_, _, hg⟩ <;> cases hg
  -- the other frame has the loop under it
  have hreader : ∃ x ∈ t', x.reader = true := by
    cases hstacks t' ht' with
    | other hother =>
      have hfree := hother g hg
      simp only [Frame.loops, Bool.or_eq_false_iff, Option.isSome_eq_false_iff,
        Option.isNone_iff_eq_none] at hfree
      exact absurd hfree.1.2 hcarries
    | starting =>
      rw [List.mem_singleton.mp hg] at hcarries
      exact absurd rfl hcarries
    | resting hreader => exact ⟨_, List.mem_singleton_self _, hreader⟩
    | @handling _ base _ hbase =>
      exact ⟨base, by simp, by rcases hbase with rfl | ⟨_, _, rfl⟩ <;> rfl⟩
  have hij : i ≠ j := by
    rintro rfl
    have htt : t = t' := Option.some.inj (hi.symm.trans hj)
    rw [← htt, hrest] at hg
    rw [List.mem_singleton.mp hg] at hcarries
    exact hcarries rfl
  have htwo := Tasks.System.two_le_countP_flatten (P := fun g => g.reader) hij hi hj
    ⟨_, hdrain, rfl⟩ hreader
  rw [Tasks.Pool.bag, Multiset.coe_countP, Tasks.Pool.frames] at hone
  simp only [Bool.decide_eq_true] at hone
  omega

end Loop

/-! ## The barrier -/

/-- The DATAGRAM waits to be read, or is being dealt with. -/
def InFlight (w : World) (fs : Multiset Frame) (number : Nat) : Prop :=
  (∃ d ∈ w.datagrams, d.number = number) ∨ ∃ g ∈ fs, g.carries = some number

/-- Of certain DATAGRAMs, none was taken for the route, and none will be. -/
structure Barred (route : Nat) (old : Nat → Prop) (w : World) (fs : Multiset Frame) : Prop where
  gone : w.acknowledged route = some true → ∀ number, old number → ¬ InFlight w fs number
  unused : ∀ e ∈ w.log, ∀ number, e.uses = some (route, number) → ¬ old number
  arrived : ∀ number, old number → number < w.nextDatagram

section Barrier

variable {cfg : Config} {w : World} {f g : Frame} {r : Effect} {others : Multiset Frame}
  {route number : Nat} {old : Nat → Prop} {p : Pool}

theorem Outcome.carries (h : Outcome cfg w f r) (hg : g ∈ r.all)
    (hcarries : g.carries = some number) :
    f.carries = some number ∨ ∃ d ∈ w.datagrams, d.number = number := by
  cases h with
  | quiet moves =>
    cases moves <;> simp [Tasks.Effect.all] at hg <;>
      first
      | (subst hg; exact .inl hcarries)
      | (subst hg; cases hcarries)
      | (rcases hg with rfl | rfl <;> cases hcarries)
  | @received _ g' d datagrams reads pending =>
    simp only [Tasks.Effect.all, List.flatten_nil, List.append_nil, List.mem_cons,
      List.not_mem_nil, or_false] at hg
    rcases hg with rfl | rfl
    · refine .inr ⟨d, ?_, Option.some.inj hcarries⟩
      rw [pending]
      exact List.mem_cons_self
    · cases reads <;> cases hcarries
  | _ =>
    simp [Tasks.Effect.all, installInsertStep, closeChannelStep, removeReassemblyStep,
      closeReassemblyStep, Session.loopEnd, expireStep, relayReject, activateStep] at hg
    try (subst hg; cases hcarries)

theorem Outcome.datagrams (h : Outcome cfg w f r) :
    (∀ d ∈ r.world.datagrams, d ∈ w.datagrams) ∧ r.world.nextDatagram = w.nextDatagram := by
  cases h with
  | received reads pending =>
    refine ⟨fun d hd => ?_, rfl⟩
    rw [pending]
    exact List.mem_cons_of_mem _ hd
  | _ => exact ⟨fun _ hd => hd, rfl⟩

theorem Outcome.inFlight (h : Outcome cfg w f r)
    (hflight : InFlight r.world (↑r.all + others) number) :
    InFlight w (f ::ₘ others) number := by
  rcases hflight with ⟨d, hd, hnumber⟩ | ⟨g, hg, hcarries⟩
  · exact .inl ⟨d, h.datagrams.1 d hd, hnumber⟩
  · rcases Multiset.mem_add.mp hg with hg | hg
    · rcases h.carries hg hcarries with hf | hd
      · exact .inr ⟨f, Multiset.mem_cons_self _ _, hf⟩
      · exact .inl hd
    · exact .inr ⟨g, Multiset.mem_cons_of_mem hg, hcarries⟩

/-- The end of the loop only refuses. -/
theorem loopEnd_refuses (hanswer : (loopEnd w).world.acknowledged route = some true) :
    w.acknowledged route = some true := by
  simp only [loopEnd] at hanswer
  split at hanswer
  · cases hanswer
  · exact hanswer

/-- The answer `true` comes from a drain that has found the queue empty. -/
theorem Outcome.answers (h : Outcome cfg w f r)
    (hanswer : r.world.acknowledged route = some true) :
    w.acknowledged route = some true ∨ ∃ deadline, f = .commitUdpReady route deadline ∧
      w.datagrams = [] ∧ r = ⟨w.acknowledge route true, [.select], []⟩ := by
  cases h with
  | loopEnd => exact .inl (loopEnd_refuses hanswer)
  | @loopAbort _ route' answers =>
    have hbefore := loopEnd_refuses hanswer
    by_cases hroute : route = route'
    · simp [World.acknowledge, hroute] at hbefore
    · simp only [World.acknowledge, Function.update_of_ne hroute] at hbefore
      exact .inl hbefore
  | @answered _ route' ok answers =>
    by_cases hroute : route = route'
    · subst hroute
      simp only [World.acknowledge, Function.update_self, Option.some.injEq] at hanswer
      subst hanswer
      cases answers with
      | drained deadline empty connected => exact .inr ⟨deadline, rfl, empty, rfl⟩
    · simp only [World.acknowledge, Function.update_of_ne hroute] at hanswer
      exact .inl hanswer
  | _ => exact .inl hanswer

theorem Barred.step (hb : Barred route old w (f ::ₘ others))
    (hc : Coherent cfg w (f ::ₘ others)) (ha : Acknowledged w (f ::ₘ others))
    (halone : ∀ deadline, f = .commitUdpReady route deadline → ∀ g ∈ others, g.carries = none)
    (h : Outcome cfg w f r) : Barred route old r.world (↑r.all + others) := by
  refine ⟨?_, ?_, ?_⟩
  · intro hanswer number hold hflight
    rcases h.answers hanswer with hbefore | ⟨deadline, hf, hempty, rfl⟩
    · exact hb.gone hbefore number hold (h.inFlight hflight)
    · -- the queue is empty, and the loop has dealt with all it took from it
      rcases hflight with ⟨d, hd, _⟩ | ⟨g, hg, hcarries⟩
      · change d ∈ w.datagrams at hd
        rw [hempty] at hd
        cases hd
      · rcases Multiset.mem_add.mp hg with hg | hg
        · simp only [Tasks.Effect.all, List.flatten_nil, List.append_nil, Multiset.mem_coe,
            List.mem_singleton] at hg
          subst hg
          cases hcarries
        · rw [halone deadline hf g hg] at hcarries
          cases hcarries
  · intro e he number huses hold
    rcases h.uses hc he huses with he | ⟨hready, hcarries⟩
    · exact hb.unused e he number huses hold
    · exact hb.gone (ha.ready route hready) number hold
        (.inr ⟨f, Multiset.mem_cons_self _ _, hcarries⟩)
  · intro number hold
    rw [h.datagrams.2]
    exact hb.arrived number hold

/-- What arrives later has another number. -/
theorem barred_boot (hb : Barred route old p.world p.bag) (b : Start) :
    Barred route old ((session cfg).boot b p.world).world
      (↑((session cfg).boot b p.world).all + p.bag) := by
  have hflight {number : Nat} (hold : old number)
      (h : InFlight ((session cfg).boot b p.world).world
        (↑((session cfg).boot b p.world).all + p.bag) number) :
      InFlight p.world p.bag number := by
    rcases h with ⟨d, hd, hnumber⟩ | ⟨g, hg, hcarries⟩
    · cases b with
      | arrive data =>
        rcases List.mem_append.mp hd with hd | hd
        · exact .inl ⟨d, hd, hnumber⟩
        · rw [List.mem_singleton.mp hd] at hnumber
          have hlt := hb.arrived number hold
          rw [← hnumber] at hlt
          exact absurd hlt (Nat.lt_irrefl _)
      | _ => exact .inl ⟨d, hd, hnumber⟩
    · rcases Multiset.mem_add.mp hg with hg | hg
      · cases b <;> simp [session, start, Tasks.Effect.all] at hg <;> subst hg <;> cases hcarries
      · exact .inr ⟨g, hg, hcarries⟩
  refine ⟨fun hanswer number hold h => ?_, ?_, ?_⟩
  · exact hb.gone (by cases b <;> exact hanswer) number hold (hflight hold h)
  · cases b <;> exact hb.unused
  · intro number hold
    have hlt := hb.arrived number hold
    cases b with
    | arrive data => exact Nat.lt_succ_of_lt hlt
    | _ => exact hlt

theorem barred {p later : Pool} (hp : (session cfg).Reachable (initial cfg) p)
    (hb : Barred route old p.world p.bag) (h : (session cfg).Reachable p later) :
    Barred route old later.world later.bag := by
  refine h.bag_invariant (I := Barred route old) hb (fun p b _ hb => barred_boot hb b) ?_
  intro q c f others r hreach hbag hb _ _ hexec
  have hq := hp.trans hreach
  have hc := coherent hq
  have ha := acknowledged hq
  have hself : f ∈ q.bag := by
    rw [hbag]
    exact Multiset.mem_cons_self _ _
  rw [hbag] at hc ha
  refine hb.step hc ha ?_ (exec_outcome hexec)
  intro deadline hf g hg
  rw [hf] at hself
  exact alone_while_draining hq hself g (by rw [hbag]; exact Multiset.mem_cons_of_mem hg)

/-- The numbers in the queue are those that have been given out. -/
theorem numbered (h : (session cfg).Reachable (initial cfg) p) :
    ∀ d ∈ p.world.datagrams, d.number < p.world.nextDatagram := by
  refine h.bag_invariant (I := fun w _ => ∀ d ∈ w.datagrams, d.number < w.nextDatagram) ?_ ?_ ?_
  · simp [initial, World.init]
  · intro p b _ ih
    cases b with
    | arrive data =>
      intro d hd
      rcases List.mem_append.mp hd with hd | hd
      · exact Nat.lt_succ_of_lt (ih d hd)
      · rw [List.mem_singleton.mp hd]
        exact Nat.lt_succ_self _
    | _ => exact ih
  · intro p c f others r _ _ ih _ _ hexec d hd
    obtain ⟨hsub, hnext⟩ := (exec_outcome hexec).datagrams
    rw [hnext]
    exact ih d (hsub d hd)

/-- While the question of a route is with the loop, it has no answer. -/
theorem unanswered_while_draining (h : (session cfg).Reachable (initial cfg) p) (hg : g ∈ p.bag)
    (hticket : g.ticket = some route) : p.world.acknowledged route = none := by
  have htickets := tickets_le_one h route
  have hpos : 0 < p.bag.countP (fun g => g.ticket = some route) :=
    Multiset.countP_pos.mpr ⟨g, hg, hticket⟩
  rw [tickets, World.asked] at htickets
  cases hanswer : p.world.acknowledged route with
  | none => rfl
  | some ok =>
    rw [hanswer, Option.isSome_some, Bool.toNat_true] at htickets
    omega

end Barrier

/-! ## Flows that are refused -/

/-- The ways in which a drain is cut short. -/
inductive CutShort (route : Nat) (w : World) : Frame → Prop
  | deadline {deadline : Nat} (passed : deadline ≤ w.now) :
      CutShort route w (.commitCheck route deadline)
  | shutdown {deadline : Nat} (cancelled : w.shutdown = true) :
      CutShort route w (.commitCheck route deadline)
  | receiveError {deadline : Nat} (empty : w.datagrams = []) (lost : w.disconnected = true) :
      CutShort route w (.commitUdpReady route deadline)

/-- The route is never activated: no READY was written for it, and if its relay is still there,
all it can do is reject the flow, unless it is aborted before. -/
structure Refused (cfg : Config) (route : Nat) (p : Pool) : Prop where
  unready : p.world.ready route = false
  not_activated : ∀ flowId, .activate flowId route ∉ p.world.log
  no_ready : (route, .ready) ∉ p.world.results
  waiting : ∀ flowId stage, .relay flowId route stage ∈ p.bag → stage = .awaiting
  rejects : ∀ j flowId rest q, p.tasks[j]? = some (.relay flowId route .awaiting :: rest) →
    (session cfg).step p (.run j .go) = some q →
    q.world.results = (route, .reject .internalError) :: p.world.results

section Refused

variable {cfg : Config} {route : Nat}

theorem refused {p : Pool} (h : (session cfg).Reachable (initial cfg) p)
    (hanswer : p.world.acknowledged route = some false) : Refused cfg route p := by
  have ha := acknowledged h
  have hno {P : Prop} (htrue : p.world.acknowledged route = some true) : P := by
    rw [hanswer] at htrue
    cases htrue
  refine ⟨?_, ?_, ?_, ?_, ?_⟩
  · rw [← Bool.not_eq_true]
    exact fun hready => hno (ha.ready route hready)
  · exact fun flowId he => hno (ha.activated flowId route he)
  · exact fun hresult => hno (ha.results route hresult)
  · intro flowId stage hg
    have hearly (hticket : (Frame.relay flowId route stage).ticket = some route) : False := by
      have hnone := unanswered_while_draining h hg hticket
      rw [hanswer] at hnone
      cases hnone
    cases stage with
    | dialing | preparing => exact (hearly rfl).elim
    | awaiting => rfl
    | committing | activating | running => exact hno (ha.relays _ hg route rfl)
  · intro j flowId rest q htask hstep
    obtain ⟨f, rest', r, hj, _, hexec, rfl⟩ := (session cfg).step_run hstep
    cases htask.symm.trans hj
    simp only [session, exec, relayStep, hanswer] at hexec
    cases hexec
    rfl

/-- An answer is final. -/
theorem acknowledged_final {p later : Pool} (hp : (session cfg).Reachable (initial cfg) p)
    {ok : Bool} (hanswer : p.world.acknowledged route = some ok)
    (h : (session cfg).Reachable p later) : later.world.acknowledged route = some ok := by
  refine h.bag_invariant (I := fun w _ => w.acknowledged route = some ok) hanswer ?_ ?_
  · intro p b _ ih
    cases b <;> exact ih
  · intro q c f others r hreach hbag ih _ _ hexec
    have htickets := tickets_le_one (hp.trans hreach) route
    rw [hbag] at htickets
    exact (exec_outcome hexec).acknowledged htickets ih

theorem CutShort.refuses {p q : Pool} {j : Nat} {f : Frame} {rest : List Frame}
    (h : CutShort route p.world f) (htask : p.tasks[j]? = some (f :: rest))
    (hstep : (session cfg).step p (.run j .go) = some q) :
    q.world.acknowledged route = some false := by
  obtain ⟨f', rest', r, hj, _, hexec, rfl⟩ := (session cfg).step_run hstep
  cases htask.symm.trans hj
  cases h with
  | deadline passed =>
    simp only [session, exec, commitCheckStep, passed, decide_true, Bool.or_true, if_true] at hexec
    cases hexec
    exact Function.update_self ..
  | shutdown cancelled =>
    simp only [session, exec, commitCheckStep, cancelled, Bool.true_or, if_true] at hexec
    cases hexec
    exact Function.update_self ..
  | receiveError empty lost =>
    simp only [session, exec, commitUdpReadyStep, empty, lost] at hexec
    cases hexec
    exact Function.update_self ..

end Refused

/-- **The READY barrier.** Take any moment at which the datagram loop looks at the queue for the
ready request of a route. Of the DATAGRAMs that are in the queue then, none is ever taken for the
route, directly or as a part of a packet. If the drain is cut short, the flow is refused. -/
theorem no_early_datagram {cfg : Config} {p later : Pool} {i route deadline : Nat}
    {rest : List Frame} (hreach : (session cfg).Reachable (initial cfg) p)
    (htask : p.tasks[i]? = some (.commitUdpReady route deadline :: rest))
    (hlater : (session cfg).Reachable p later) :
    (∀ e ∈ later.world.log, ∀ number, e.uses = some (route, number) →
      ∀ d ∈ p.world.datagrams, d.number ≠ number) ∧
    (∀ packet ∈ (later.world.channels route).queue,
      Table.MadeFrom later.world.log (fun number => ∀ d ∈ p.world.datagrams, d.number ≠ number)
        route packet.payload) ∧
    ∀ j f rest' next final, later.tasks[j]? = some (f :: rest') → CutShort route later.world f →
      (session cfg).step later (.run j .go) = some next → (session cfg).Reachable next final →
      Refused cfg route final := by
  have hdrain : Frame.commitUdpReady route deadline ∈ p.bag := by
    rw [Tasks.Pool.bag_of_top htask]
    exact Multiset.mem_cons_self _ _
  have hnone := unanswered_while_draining hreach hdrain rfl
  have hbarred : Barred route (fun number => ∃ d ∈ p.world.datagrams, d.number = number)
      p.world p.bag := by
    refine ⟨fun hanswer => ?_, fun e he number huses => ?_, ?_⟩
    · rw [hnone] at hanswer
      cases hanswer
    · have hanswer := (acknowledged hreach).used e he route number huses
      rw [hnone] at hanswer
      cases hanswer
    · rintro number ⟨d, hd, rfl⟩
      exact numbered hreach d hd
  have hlast := hreach.trans hlater
  have hunused : ∀ e ∈ later.world.log, ∀ number, e.uses = some (route, number) →
      ∀ d ∈ p.world.datagrams, d.number ≠ number := by
    intro e he number huses d hd hnumber
    exact (barred hreach hbarred hlater).unused e he number huses ⟨d, hd, hnumber⟩
  refine ⟨hunused, ?_, ?_⟩
  · intro packet hpacket
    have hc := coherent hlast
    obtain ⟨n, horigin⟩ := (hc.queued route packet hpacket).origin hc.run
    exact horigin.madeFrom hunused
  · intro j f rest' next final hj hcut hstep hfinal
    have hnext : (session cfg).Reachable (initial cfg) next :=
      .step _ hlast (fun _ _ _ _ _ _ => trivial) hstep
    exact refused (hnext.trans hfinal)
      (acknowledged_final hnext (hcut.refuses hj hstep) hfinal)

namespace Sample

def barrier : Config := ⟨1024, 100⟩

/-- Route 0 of flow 7 is about to be drained, and a DATA frame for the flow has arrived. -/
def draining : List (Tasks.Act Choice Start) :=
  [.boot (.openUdp 7), .run 0 .go, .run 0 .go, .run 0 .go, .run 0 .paired, .run 1 .dialed,
    .run 1 .go, .boot .datagramLoop, .run 2 .go, .boot (.arrive [0, 0, 0, 0, 7, 98]),
    .run 2 .request]

/-- The DATA frame is drained, the route activated, and the next DATA frame delivered. -/
def activated : List (Tasks.Act Choice Start) :=
  [.run 2 .go, .run 2 .go, .run 2 .go, .run 2 .go, .run 2 .go, .run 1 .go, .run 1 .written,
    .run 1 .go, .boot (.arrive [0, 0, 0, 0, 7, 99]), .run 2 .datagram, .run 2 .go, .run 2 .go]

/-- Task `i` looks at the queue for the ready request of the route. -/
def drains (i route deadline : Nat) (p : Pool) : Bool :=
  match p.tasks[i]? with
  | some (.commitUdpReady route' deadline' :: _) =>
    decide (route' = route ∧ deadline' = deadline)
  | _ => false

theorem drains_spec {i route deadline : Nat} {p : Pool} (h : drains i route deadline p = true) :
    ∃ rest, p.tasks[i]? = some (.commitUdpReady route deadline :: rest) := by
  unfold drains at h
  split at h
  · rename_i route' deadline' rest htask
    obtain ⟨rfl, rfl⟩ := of_decide_eq_true h
    exact ⟨rest, htask⟩
  · cases h

theorem secondData_delivered :
    ∃ p later, (session barrier).Reachable (initial barrier) p ∧
      p.world.datagrams = [⟨0, [0, 0, 0, 0, 7, 98]⟩] ∧ (session barrier).Reachable p later ∧
      (later.world.channels 0).queue.map BudgetedDatagram.payload = [[99]] ∧
      (∀ e ∈ later.world.log, ∀ number, e.uses = some (0, number) →
        ∀ d ∈ p.world.datagrams, d.number ≠ number) ∧
      ∀ packet ∈ (later.world.channels 0).queue,
        Table.MadeFrom later.world.log (fun number => ∀ d ∈ p.world.datagrams, d.number ≠ number)
          0 packet.payload := by
  have hrun : ((session barrier).run (initial barrier) draining).any (fun p =>
      drains 2 0 100 p && decide (p.world.datagrams = [⟨0, [0, 0, 0, 0, 7, 98]⟩]) &&
        ((session barrier).run p activated).any fun later =>
          decide ((later.world.channels 0).queue.map BudgetedDatagram.payload = [[99]])) =
        true := by
    decide +kernel
  obtain ⟨p, hreach, hp⟩ := Tasks.System.exists_reachable_of_run hrun
  simp only [Bool.and_eq_true, decide_eq_true_eq] at hp
  obtain ⟨⟨hdrains, hdatagrams⟩, hlater⟩ := hp
  obtain ⟨rest, htask⟩ := drains_spec hdrains
  obtain ⟨later, hlater, hqueue⟩ := Tasks.System.exists_reachable_of_run hlater
  have hbarrier := no_early_datagram hreach htask hlater
  exact ⟨p, later, hreach, hdatagrams, hlater, of_decide_eq_true hqueue, hbarrier.1, hbarrier.2.1⟩

end Sample

end Nowhere.Portal.Session
