import Nowhere.Portal.SessionRoutes

/-!
# Removals that come late

`remove_udp_uplink` takes a flow id and removes whatever route the flow has by then. It is called
when a CLOSE has been read, when a receiver is dropped and when a submission has failed, and every
one of these may come late: in between, the route it was meant for can be removed on another way
and the flow id be used again. Then it ends the route of the new flow
(`Sample.lateRemovals_hit_newcomer`).

If a flow id is only used again when nothing of its earlier use is left (`QuietInstall`), every
removal finds the route it was meant for (`removed_by_own_cause`).
-/

namespace Nowhere.Portal.Session

open Protocol Common Assoc

/-- The flow that a CLOSE frame names. -/
def closes (d : Datagram) : Option FlowId :=
  match decodeUdpFrameOwned d.data with
  | .ok (.close flowId) => some flowId
  | _ => none

/-- The flow whose route a frame will remove, now or later. -/
def Frame.flow : Frame → Option FlowId
  | .submitUdp flowId _ | .pairing flowId _ | .dropReceiver flowId _ | .relay flowId _ _
  | .removeUdpUplink flowId _ | .removeReassembly flowId _ => some flowId
  | .handleDatagram d _ => closes d
  | _ => none

/-- A flow gets a route only when nothing is left that will remove an earlier one. -/
def QuietInstall (p : Pool) (a : Tasks.Act Choice Start) : Prop :=
  ∀ i c flowId rest, a = .run i c → p.tasks[i]? = some (.installInsert flowId :: rest) →
    ∀ g ∈ p.bag, g.flow ≠ some flowId

/-- The call was made for this route: the route was there when the CLOSE was read, or the
receiver or the submission is its own. -/
def Cause.Fits (route : Nat) : Cause → Prop
  | .closeFrame installed => route < installed
  | .receiver route' | .failure route' => route' = route

def Frame.Fits (route : Nat) : Frame → Prop
  | .submitUdp _ route' | .pairing _ route' | .dropReceiver _ route' | .relay _ route' _ =>
    route' = route
  | .removeUdpUplink _ cause | .removeReassembly _ cause => cause.Fits route
  | .handleDatagram _ installed => route < installed
  | _ => True

/-- Whatever will remove the route of a flow was meant for it. -/
def Attributed (w : World) (fs : Multiset Frame) : Prop :=
  ∀ g ∈ fs, ∀ flowId route, g.flow = some flowId → w.udpFlows.lookup flowId = some ⟨route⟩ →
    g.Fits route

section Attribution

variable {cfg : Config} {w : World} {f g : Frame} {r : Effect} {flowId : FlowId} {state : UdpState}

theorem Moves.attributed {frames : List Frame} {spawned : List (List Frame)}
    (h : Moves w f frames spawned) (hg : g ∈ frames ++ spawned.flatten)
    (hflow : g.flow = some flowId) :
    f.flow = some flowId ∧ ∀ route, f.Fits route → g.Fits route := by
  cases h with
  | closeFrame installed decoded =>
    simp only [List.flatten_nil, List.append_nil, List.mem_singleton] at hg
    subst hg
    refine ⟨?_, fun route hfits => hfits⟩
    rw [← hflow, Frame.flow, Frame.flow, closes, decoded]
  | _ =>
    simp at hg
    try rcases hg with rfl | rfl
    all_goals simp_all [Frame.flow, Frame.Fits, Cause.Fits]

/-- A frame that will remove a route was made by one that would have, or is a DATAGRAM that was
just read, or the submission of the new route. -/
theorem Outcome.attributed (h : Outcome cfg w f r) (hg : g ∈ r.all) (hflow : g.flow = some flowId) :
    (f.flow = some flowId ∧ ∀ route, f.Fits route → g.Fits route) ∨
      (∃ d, g = .handleDatagram d w.nextRoute) ∨
      f = .installInsert flowId ∧ g = .submitUdp flowId w.nextRoute := by
  cases h with
  | quiet moves => exact .inl (moves.attributed hg hflow)
  | install flowId' =>
    simp only [Tasks.Effect.all, installInsertStep, List.flatten_nil, List.append_nil,
      List.mem_singleton] at hg
    subst hg
    cases hflow
    exact .inr (.inr ⟨rfl, rfl⟩)
  | @received _ g' d _ reads =>
    simp only [Tasks.Effect.all, List.flatten_nil, List.append_nil, List.mem_cons,
      List.not_mem_nil, or_false] at hg
    rcases hg with rfl | rfl
    · exact .inr (.inl ⟨d, rfl⟩)
    · cases reads <;> cases hflow
  | rejected | requested | committed | activated | relayed =>
    simp only [Tasks.Effect.all, relayReject, activateStep, List.flatten_nil, List.append_nil,
      List.mem_singleton] at hg
    subst hg
    exact .inl ⟨hflow, fun route hfits => hfits⟩
  | _ =>
    simp [Tasks.Effect.all, closeChannelStep, removeReassemblyStep, closeReassemblyStep,
      Session.loopEnd, expireStep] at hg
    try (subst hg; cases hflow)

/-- A flow that has a route after a step had it before, unless it was just installed. -/
theorem Outcome.lookup_of_lookup (h : Outcome cfg w f r)
    (hfound : r.world.udpFlows.lookup flowId = some state) :
    w.udpFlows.lookup flowId = some state ∨ f = .installInsert flowId ∧ state = ⟨w.nextRoute⟩ := by
  cases h with
  | install flowId' =>
    simp only [installInsertStep, lookup_insert] at hfound
    split at hfound
    · rename_i hf
      cases hfound
      exact .inr ⟨by rw [hf], rfl⟩
    · exact .inl hfound
  | remove flowId' cause =>
    simp only [removeReassemblyStep, lookup_erase] at hfound
    split at hfound
    · cases hfound
    · exact .inl hfound
  | clear => cases hfound
  | _ => exact .inl hfound

/-- A route that a step takes from its flow. -/
theorem Outcome.lookup_lost (h : Outcome cfg w f r) (hfound : w.udpFlows.lookup flowId = some state)
    (hgone : r.world.udpFlows.lookup flowId ≠ some state) :
    f = .closeReassembly ∨ f = .installInsert flowId ∨
      ∃ cause, f = .removeReassembly flowId cause := by
  cases h with
  | install flowId' =>
    simp only [installInsertStep, lookup_insert] at hgone
    split at hgone
    · rename_i hf
      exact .inr (.inl (by rw [hf]))
    · exact absurd hfound hgone
  | remove flowId' cause =>
    simp only [removeReassemblyStep, lookup_erase] at hgone
    split at hgone
    · rename_i hf
      exact .inr (.inr ⟨cause, by rw [hf]⟩)
    · exact absurd hfound hgone
  | clear => exact .inl rfl
  | _ => exact absurd hfound hgone

theorem Outcome.of_installInsert (h : Outcome cfg w (.installInsert flowId) r) :
    r = installInsertStep w flowId := by
  cases h with
  | quiet moves => cases moves
  | install => rfl
  | received reads => cases reads
  | loopAbort answers | answered answers => cases answers

theorem attributed_step {others : Multiset Frame} (hc : Coherent cfg w (f ::ₘ others))
    (hattributed : Attributed w (f ::ₘ others)) (h : Outcome cfg w f r)
    (hquiet : ∀ flowId, f = .installInsert flowId → ∀ g ∈ others, g.flow ≠ some flowId) :
    Attributed r.world (↑r.all + others) := by
  intro g hg flowId route hflow hfound
  have hold {g' : Frame} (hg' : g' ∈ f ::ₘ others) (hflow' : g'.flow = some flowId)
      (hbefore : w.udpFlows.lookup flowId = some ⟨route⟩) : g'.Fits route :=
    hattributed g' hg' flowId route hflow' hbefore
  rcases Multiset.mem_add.mp hg with hg | hg
  · rcases h.attributed hg hflow with ⟨hf, hfits⟩ | ⟨d, rfl⟩ | ⟨rfl, rfl⟩
    · rcases h.lookup_of_lookup hfound with hbefore | ⟨rfl, _⟩
      · exact hfits route (hold (Multiset.mem_cons_self _ _) hf hbefore)
      · cases hf
    · -- the CLOSE was read when the route was there
      rcases h.lookup_of_lookup hfound with hbefore | ⟨rfl, _⟩
      · exact hc.run.served.number_lt (table_routes hbefore)
      · rw [h.of_installInsert] at hg
        simp [Tasks.Effect.all, installInsertStep] at hg
    · rw [h.of_installInsert] at hfound
      simp only [installInsertStep, lookup_insert, if_pos, Option.some.injEq,
        UdpState.mk.injEq] at hfound
      exact hfound
  · rcases h.lookup_of_lookup hfound with hbefore | ⟨hf, _⟩
    · exact hold (Multiset.mem_cons_of_mem hg) hflow hbefore
    · exact absurd hflow (hquiet flowId hf g hg)

theorem attributed {p : Pool} (h : (session cfg).ReachBy QuietInstall (initial cfg) p) :
    Attributed p.world p.bag := by
  refine h.bag_invariant (I := Attributed) ?_ ?_ ?_
  · intro g hg
    simp [initial, Tasks.Pool.bag, Tasks.Pool.frames] at hg
  · intro p b _ hattributed g hg flowId route hflow hfound
    have hworld : p.world.udpFlows.lookup flowId = some ⟨route⟩ := by
      cases b <;> exact hfound
    rcases Multiset.mem_add.mp hg with hg | hg
    · exfalso
      cases b <;> simp [session, start, Tasks.Effect.all] at hg <;> subst hg <;> cases hflow
    · exact hattributed g hg flowId route hflow hworld
  · intro p i c f rest r hreach htask hbag hattributed hquiet hexec
    have hc := coherent hreach.reachable
    rw [hbag] at hc
    refine attributed_step hc hattributed (exec_outcome hexec) ?_
    intro flowId hf g hg
    subst hf
    exact hquiet i c flowId rest rfl htask g (by rw [hbag]; exact Multiset.mem_cons_of_mem hg)

end Attribution

/-- **Removals find their own route.** Provided that a flow id is used again only when nothing of
its earlier use is left, the route of a flow is removed by `close`, for a CLOSE that was read
after the route was installed, when the route's own receiver is dropped, or after the route's own
submission failed. -/
theorem removed_by_own_cause {cfg : Config} {p q : Pool} {a : Tasks.Act Choice Start}
    {flowId : FlowId} {route : Nat}
    (hreach : (session cfg).ReachBy QuietInstall (initial cfg) p)
    (hfound : p.world.udpFlows.lookup flowId = some ⟨route⟩)
    (hstep : (session cfg).step p a = some q)
    (hgone : q.world.udpFlows.lookup flowId ≠ some ⟨route⟩) :
    ∃ i c f rest, a = .run i c ∧ p.tasks[i]? = some (f :: rest) ∧
      (f = .closeReassembly ∨
        (∃ installed, f = .removeReassembly flowId (.closeFrame installed) ∧ route < installed) ∨
        f = .removeReassembly flowId (.receiver route) ∨
        f = .removeReassembly flowId (.failure route)) := by
  cases a with
  | boot b =>
    cases hstep
    exact absurd hfound (by cases b <;> exact hgone)
  | run i c =>
    obtain ⟨f, rest, r, htask, hbag, _, hexec, hworld, _⟩ := (session cfg).bag_run hstep
    have hself : f ∈ p.bag := by
      rw [hbag]
      exact Multiset.mem_cons_self _ _
    rw [hworld] at hgone
    refine ⟨i, c, f, rest, rfl, htask, ?_⟩
    rcases (exec_outcome hexec).lookup_lost hfound hgone with rfl | rfl | ⟨cause, rfl⟩
    · exact .inl rfl
    · -- an installation only happens where there is no route
      have hfree := (coherent hreach.reachable).free flowId hself
      rw [hfound] at hfree
      cases hfree
    · have hfits := attributed hreach _ hself flowId route rfl hfound
      cases cause with
      | closeFrame installed => exact .inr (.inl ⟨installed, rfl, hfits⟩)
      | receiver route' =>
        cases hfits
        exact .inr (.inr (.inl rfl))
      | failure route' =>
        cases hfits
        exact .inr (.inr (.inr rfl))

namespace Sample

def config : Config := ⟨1024, 100⟩

/-- Task `i` takes the UDP OPEN of flow 7 to its submission. -/
def openFlow (i : Nat) : List (Tasks.Act Choice Start) :=
  [.boot (.openUdp 7), .run i .go, .run i .go, .run i .go]

/-- The submission of the first OPEN fails. Its receiver is dropped and removes route 0; before
the error is dealt with, a second OPEN installs route 1 and is submitted. -/
def cleanupLate : List (Tasks.Act Choice Start) :=
  openFlow 0 ++ [.run 0 .failed, .run 0 .go, .run 0 .go, .run 0 .go, .run 0 .go] ++
    openFlow 1 ++ [.run 1 .pending, .run 0 .go]

/-- The first flow is with its relay when its CLOSE arrives. A second OPEN installs route 1, the
relay ends, and the second OPEN is submitted before the relay drops the receiver of route 0. -/
def dropLate : List (Tasks.Act Choice Start) :=
  openFlow 0 ++ [.run 0 .paired, .boot .datagramLoop, .run 2 .go, .boot (.arrive [2, 0, 0, 0, 7]),
    .run 2 .datagram, .run 2 .go, .run 2 .go, .run 2 .go] ++
    openFlow 4 ++ [.run 1 .cancelled, .run 4 .pending, .run 1 .go, .run 1 .go]

/-- The first frame of task `i` is this removal. -/
def removes (i : Nat) (flowId : FlowId) (cause : Cause) (p : Pool) : Bool :=
  match p.tasks[i]? with
  | some (.removeReassembly flowId' cause' :: _) => decide (flowId' = flowId ∧ cause' = cause)
  | _ => false

variable {i : Nat} {cause : Cause} {p : Pool}

theorem removes_spec {flowId : FlowId} (h : removes i flowId cause p = true) :
    ∃ rest, p.tasks[i]? = some (.removeReassembly flowId cause :: rest) := by
  unfold removes at h
  split at h
  · rename_i flowId' cause' rest htask
    obtain ⟨rfl, rfl⟩ := of_decide_eq_true h
    exact ⟨rest, htask⟩
  · cases h

/-- The first frame of task `i` removes route 1 of flow 7, for another cause. -/
def hits (i : Nat) (cause : Cause) (p : Pool) : Bool :=
  removes i 7 cause p && decide (p.world.udpFlows.lookup 7 = some ⟨1⟩) &&
    ((session config).step p (.run i .go)).any fun q =>
      decide (q.world.udpFlows.lookup 7 = none)

theorem hits_spec (h : hits i cause p = true) :
    ∃ q rest, p.tasks[i]? = some (.removeReassembly 7 cause :: rest) ∧
      p.world.udpFlows.lookup 7 = some ⟨1⟩ ∧
      (session config).step p (.run i .go) = some q ∧ q.world.udpFlows.lookup 7 = none := by
  simp only [hits, Bool.and_eq_true, decide_eq_true_eq] at h
  obtain ⟨⟨hremoves, hfound⟩, hstep⟩ := h
  obtain ⟨rest, htask⟩ := removes_spec hremoves
  obtain ⟨q, hq, hgone⟩ := Option.any_eq_true _ _ |>.mp hstep
  exact ⟨q, rest, htask, hfound, hq, of_decide_eq_true hgone⟩

/-- The cleanup after the failed submission of route 0, and the drop of route 0's receiver, each
remove route 1. -/
theorem lateRemovals_hit_newcomer :
    (∃ p q rest, (session config).Reachable (initial config) p ∧
      p.tasks[0]? = some (.removeReassembly 7 (.failure 0) :: rest) ∧
      p.world.udpFlows.lookup 7 = some ⟨1⟩ ∧
      (session config).step p (.run 0 .go) = some q ∧ q.world.udpFlows.lookup 7 = none) ∧
    ∃ p q rest, (session config).Reachable (initial config) p ∧
      p.tasks[1]? = some (.removeReassembly 7 (.receiver 0) :: rest) ∧
      p.world.udpFlows.lookup 7 = some ⟨1⟩ ∧
      (session config).step p (.run 1 .go) = some q ∧ q.world.udpFlows.lookup 7 = none := by
  constructor
  · have hrun : ((session config).run (initial config) cleanupLate).any
        (hits 0 (.failure 0)) = true := by
      decide +kernel
    obtain ⟨p, hreach, hp⟩ := Tasks.System.exists_reachable_of_run hrun
    obtain ⟨q, rest, hhit⟩ := hits_spec hp
    exact ⟨p, q, rest, hreach, hhit⟩
  · have hrun : ((session config).run (initial config) dropLate).any
        (hits 1 (.receiver 0)) = true := by
      decide +kernel
    obtain ⟨p, hreach, hp⟩ := Tasks.System.exists_reachable_of_run hrun
    obtain ⟨q, rest, hhit⟩ := hits_spec hp
    exact ⟨p, q, rest, hreach, hhit⟩

/-- `QuietInstall`, computed. -/
def quietInstall (p : Pool) : Tasks.Act Choice Start → Bool
  | .boot _ => true
  | .run i _ => match p.tasks[i]? with
    | some (.installInsert flowId :: _) => p.frames.all fun g => decide (g.flow ≠ some flowId)
    | _ => true

theorem quietInstall_spec (p : Pool) (a : Tasks.Act Choice Start) (h : quietInstall p a = true) :
    QuietInstall p a := by
  rintro i c flowId rest rfl htask g hg
  simp only [quietInstall, htask, List.all_eq_true, decide_eq_true_eq] at h
  exact h g (by simpa [Tasks.Pool.bag] using hg)

/-- A flow id is used twice, and each time closed by a CLOSE; the second one is about to remove
its route. -/
def reused : List (Tasks.Act Choice Start) :=
  openFlow 0 ++ [.run 0 .paired, .boot .datagramLoop, .run 2 .go, .boot (.arrive [2, 0, 0, 0, 7]),
    .run 2 .datagram, .run 2 .go, .run 2 .go, .run 2 .go, .run 1 .cancelled, .run 1 .go, .run 1 .go,
    .run 1 .go, .run 1 .go] ++
    openFlow 4 ++ [.run 4 .pending, .boot (.arrive [2, 0, 0, 0, 7]), .run 2 .datagram, .run 2 .go,
    .run 2 .go]

theorem reused_removed_by_close :
    ∃ p q, (session config).ReachBy QuietInstall (initial config) p ∧
      p.world.udpFlows.lookup 7 = some ⟨1⟩ ∧
      (session config).step p (.run 2 .go) = some q ∧ q.world.udpFlows.lookup 7 = none ∧
      ∃ i c f rest, Tasks.Act.run 2 Choice.go = .run (B := Start) i c ∧
        p.tasks[i]? = some (f :: rest) ∧
        (f = .closeReassembly ∨
          (∃ installed, f = .removeReassembly 7 (.closeFrame installed) ∧ 1 < installed) ∨
          f = .removeReassembly 7 (.receiver 1) ∨ f = .removeReassembly 7 (.failure 1)) := by
  have hpasses : (session config).passes quietInstall (initial config) reused = true := by
    decide +kernel
  have hrun : ((session config).run (initial config) reused).any
      (hits 2 (.closeFrame 2)) = true := by
    decide +kernel
  obtain ⟨p, hreach, hp⟩ := Tasks.System.exists_reachBy_of_run quietInstall_spec hpasses hrun
  obtain ⟨q, rest, htask, hfound, hstep, hgone⟩ := hits_spec hp
  refine ⟨p, q, hreach, hfound, hstep, hgone, ?_⟩
  exact removed_by_own_cause hreach hfound hstep (by rw [hgone]; simp)

end Sample

end Nowhere.Portal.Session
