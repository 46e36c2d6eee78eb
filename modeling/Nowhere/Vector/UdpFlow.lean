import Nowhere.Vector.FlowId
import Nowhere.Vector.QuicRoutes

/-!
# The UDP flows of Vector

The life of a UDP flow in `src/vector/udp_flow.rs`: `open_udp` takes a lease, opens the lanes,
registers a route with the QUIC session of the lanes if the downlink is QUIC, sets the lanes up and
activates the route; the `UdpTunnel` it returns owns route and lease. Every call on state that is
shared with other flows is one step, so the flows interleave in every way between these calls. The
sessions take the steps of `QuicSession` at any time, and other flows take leases too.

`open_udp` may be dropped where it waits: for the lanes, and for their setup. The second place is
after the registration, and nothing removes the route then.
-/

namespace Nowhere.Vector.UdpFlow

open Protocol Assoc

inductive CarrierMode
  | tcp
  | udp
  deriving DecidableEq, Repr

structure Config where
  up : CarrierMode
  down : CarrierMode
  limit : Nat
  session : QuicSession.Config

/-- How far a flow is. Sessions are numbered; `quic` is the session of the flow's lanes. -/
inductive Phase
  -- `open_udp` waits for `open_lane`
  | opening
  | registering (quic : Option Nat)
  -- `open_udp` waits in `setup_udp_lanes`
  | settingUp (quic : Option Nat)
  | activating (quic : Option Nat)
  -- `open_udp` is about to remove the route and to return an error
  | failing (quic : Option Nat)
  | tunnel (quic : Option Nat)
  -- nothing is left but the lease
  | leaving
  -- a TCP flow
  | tcp
  deriving DecidableEq, Repr

/-- A flow that holds the lease of `id`. -/
structure Flow where
  id : FlowId
  phase : Phase
  deriving DecidableEq, Repr

structure World where
  allocator : FlowIdAllocator
  sessions : Nat → QuicSession.World
  flows : List Flow

def World.init (cfg : Config) : World where
  allocator := .new cfg.limit
  sessions := fun _ => .init cfg.session
  flows := []

namespace World

variable (w : World)

/-- The route of a flow in a session. -/
def route (q : Nat) (id : FlowId) : Option QuicSession.UdpRoute := (w.sessions q).routes.lookup id

def onSession (q : Nat) (s : QuicSession.World) : World :=
  { w with sessions := Function.update w.sessions q s }

def move (i : Nat) (f : Flow) (phase : Phase) : World :=
  { w with flows := w.flows.set i { f with phase } }

/-- `remove_udp` on the session of the lanes, if there is one. -/
def removeUdp (quic : Option Nat) (id : FlowId) : World :=
  match quic with
  | none => w
  | some q => w.onSession q (QuicSession.removeFlowStep (w.sessions q) id).world

def allocate (phase : Phase) : World :=
  match w.allocator.allocate with
  | (.ok id, allocator) => { w with allocator, flows := w.flows ++ [⟨id, phase⟩] }
  | (.error _, allocator) => { w with allocator }

end World

/-- What a flow does next, or what becomes of what it waits for. -/
inductive Event
  | lanesOpened (session : Nat)
  | lanesFailed
  | registerUdp
  | setupDone
  | setupFailed
  | activateUdp
  | removeUdp
  -- `UdpTunnel::close`
  | close
  -- `UdpTunnel::drop`, or the end of a TCP flow
  | drop
  -- `FlowLease::drop`
  | dropLease
  -- the future of `open_udp` is dropped
  | cancel
  deriving DecidableEq, Repr

section Steps

variable (cfg : Config) (w : World) (i : Nat) (f : Flow)

/-- The session of the lanes that were opened. -/
def quicOf (session : Nat) : Option Nat :=
  if cfg.up = .udp ∨ cfg.down = .udp then some session else none

/-- A route that exists is a duplicate; then `open_udp` returns an error. -/
def registerUdp (quic : Option Nat) : Option World :=
  if cfg.down = .udp then match quic with
    -- the lanes of a QUIC downlink have a session
    | none => none
    | some q =>
      if (w.route q f.id).isSome then some (w.move i f .leaving)
      else
        let registered := (QuicSession.registerUdpStep (w.sessions q) f.id).world
        some ((w.onSession q registered).move i f (.settingUp quic))
  else some (w.move i f (.settingUp quic))

def activateUdp (quic : Option Nat) : Option World :=
  if cfg.down = .udp then match quic with
    | none => none
    | some q =>
      if (w.route q f.id).isSome then
        let activated := (QuicSession.activateUdpStep (w.sessions q) f.id).world
        some ((w.onSession q activated).move i f (.tunnel quic))
      else some (w.move i f (.failing quic))
  else some (w.move i f (.tunnel quic))

def advance (event : Event) : Option World :=
  match f.phase, event with
  | .opening, .lanesOpened session => some (w.move i f (.registering (quicOf cfg session)))
  | .opening, .lanesFailed => some (w.move i f .leaving)
  | .opening, .cancel => some (w.move i f .leaving)
  | .registering quic, .registerUdp => registerUdp cfg w i f quic
  | .settingUp quic, .setupDone => some (w.move i f (.activating quic))
  | .settingUp quic, .setupFailed => some (w.move i f (.failing quic))
  | .settingUp _, .cancel => some (w.move i f .leaving)
  | .activating quic, .activateUdp => activateUdp cfg w i f quic
  | .failing quic, .removeUdp => some ((w.removeUdp quic f.id).move i f .leaving)
  | .tunnel quic, .close => some (w.removeUdp quic f.id)
  | .tunnel quic, .drop => some ((w.removeUdp quic f.id).move i f .leaving)
  | .tcp, .drop => some (w.move i f .leaving)
  | .leaving, .dropLease =>
    some { w with allocator := w.allocator.release f.id, flows := w.flows.eraseIdx i }
  | _, _ => none

end Steps

inductive Action
  | openUdp
  | openTcp
  | flow (i : Nat) (event : Event)
  -- a task of a session runs, or something happens to the session from outside
  | session (q : Nat) (choice : QuicSession.Choice) (frame : QuicSession.Frame)
  | outside (q : Nat) (start : QuicSession.Start)

/-- The calls that only `open_udp` makes. -/
def callOfFlow : QuicSession.Frame → Bool
  | .registerUdp _ | .activateUdp _ => true
  | _ => false

def step (cfg : Config) (w : World) : Action → Option World
  | .openUdp => some (w.allocate .opening)
  | .openTcp => some (w.allocate .tcp)
  | .flow i event => (w.flows[i]?).bind fun f => advance cfg w i f event
  | .session q choice frame =>
    if callOfFlow frame then none
    else (QuicSession.exec choice (w.sessions q) frame).map fun e => w.onSession q e.world
  | .outside q start => some (w.onSession q (QuicSession.start start (w.sessions q)).world)

/-- The states after runs whose steps all satisfy `cond`. -/
inductive Reach (cfg : Config) (cond : World → Action → Prop) : World → Prop
  | init : Reach cfg cond (.init cfg)
  | step {w w' : World} {a : Action} (prior : Reach cfg cond w) (holds : cond w a)
      (next : step cfg w a = some w') : Reach cfg cond w'

/-! ## Routes and their owners -/

/-- The flow is responsible for its route in session `q`. -/
def Phase.Owns (q : Nat) : Phase → Prop
  | .settingUp quic | .activating quic | .failing quic | .tunnel quic => quic = some q
  | _ => False

/-- Every route has an owner, who holds the lease of its id. -/
structure Owned (w : World) : Prop where
  nodup : (w.flows.map Flow.id).Nodup
  active : w.allocator.active = (w.flows.map Flow.id).toFinset
  owner : ∀ q id, w.route q id ≠ none → ∃ f ∈ w.flows, f.id = id ∧ f.phase.Owns q

theorem init_owned (cfg : Config) : Owned (.init cfg) where
  nodup := List.nodup_nil
  active := rfl
  owner _ _ hroute := absurd rfl hroute

variable {w : World}

theorem Owned.owns (h : Owned w) {f : Flow} (hf : f ∈ w.flows) {q : Nat}
    (hroute : w.route q f.id ≠ none) : f.phase.Owns q := by
  obtain ⟨g, hg, hid, howns⟩ := h.owner q f.id hroute
  rwa [List.inj_on_of_nodup_map h.nodup hg hf hid] at howns

section Steps

variable {cfg : Config} {w w' : World}

@[simp]
theorem route_onSession (w : World) (q q' : Nat) (s : QuicSession.World) (id : FlowId) :
    (w.onSession q s).route q' id = if q' = q then s.routes.lookup id else w.route q' id := by
  unfold World.route World.onSession
  by_cases hq : q' = q
  · subst hq
    simp
  · simp [hq]

variable {quic : Option Nat} {id id' : FlowId} {i q : Nat} {f : Flow} {phase : Phase}
  {s : QuicSession.World} {route : QuicSession.UdpRoute}

/-- Removing never adds a route, and the flow's own is gone. -/
theorem route_removeUdp (h : (w.removeUdp quic id).route q id' ≠ none) :
    w.route q id' ≠ none ∧ ¬ (id' = id ∧ quic = some q) := by
  cases quic with
  | none => exact ⟨h, nofun⟩
  | some q' =>
    have herase : (QuicSession.removeFlowStep (w.sessions q') id).world.routes =
        (w.sessions q').routes.erase id := rfl
    rw [World.removeUdp, route_onSession, herase, lookup_erase] at h
    by_cases hq : q = q'
    · subst hq
      rw [if_pos rfl] at h
      by_cases hid : id' = id
      · exact absurd (if_pos hid) h
      · rw [if_neg hid] at h
        exact ⟨h, fun hown => hid hown.1⟩
    · rw [if_neg hq] at h
      exact ⟨h, fun hown => hq (Option.some.inj hown.2).symm⟩

theorem ids_set {flows : List Flow} (hf : flows[i]? = some f) (phase : Phase) :
    (flows.set i { f with phase }).map Flow.id = flows.map Flow.id := by
  obtain ⟨hi, rfl⟩ := List.getElem?_eq_some_iff.mp hf
  rw [List.map_set]
  apply List.ext_getElem
  · simp
  · intro j hj hj'
    rw [List.getElem_set]
    split
    · rename_i hij
      subst hij
      rw [List.getElem_map]
    · rfl

/-- A flow goes on. Its route may be new, and it must own what is there. -/
theorem Owned.move (h : Owned w) (hf : w.flows[i]? = some f)
    (hallocator : w'.allocator = w.allocator) (hflows : w'.flows = w.flows.set i { f with phase })
    (hroutes : ∀ q id, w'.route q id ≠ none → id = f.id ∨ w.route q id ≠ none)
    (howns : ∀ q, w'.route q f.id ≠ none → phase.Owns q) : Owned w' := by
  have hids : w'.flows.map Flow.id = w.flows.map Flow.id := by rw [hflows, ids_set hf]
  obtain ⟨hi, hget⟩ := List.getElem?_eq_some_iff.mp hf
  refine ⟨hids ▸ h.nodup, by rw [hallocator, h.active, hids], fun q id hroute => ?_⟩
  by_cases hid : id = f.id
  · subst hid
    refine ⟨{ f with phase }, ?_, rfl, howns q hroute⟩
    rw [hflows]
    exact List.mem_set hi _
  · -- the owner of another route is another flow
    obtain ⟨g, hg, hgid, hgowns⟩ := h.owner q id ((hroutes q id hroute).resolve_left hid)
    refine ⟨g, ?_, hgid, hgowns⟩
    obtain ⟨j, hj, rfl⟩ := List.mem_iff_getElem.mp hg
    have hij : i ≠ j := by
      rintro rfl
      exact hid (hgid.symm.trans (congrArg Flow.id hget))
    rw [hflows]
    exact List.mem_iff_getElem.mpr ⟨j, by rwa [List.length_set], List.getElem_set_ne hij _⟩

/-- A flow goes on without touching the sessions. -/
theorem Owned.stay (h : Owned w) (hf : w.flows[i]? = some f)
    (howns : ∀ q, w.route q f.id ≠ none → f.phase.Owns q → phase.Owns q) :
    Owned (w.move i f phase) :=
  h.move hf rfl rfl (fun _ _ hroute => .inr hroute) fun q hroute =>
    howns q hroute (h.owns (List.mem_of_getElem? hf) hroute)

/-- A flow that owned no route has none. -/
theorem Owned.leave (h : Owned w) (hf : w.flows[i]? = some f) (hnone : ∀ q, ¬ f.phase.Owns q) :
    Owned (w.move i f phase) :=
  h.stay hf fun q _ howns => absurd howns (hnone q)

theorem Owned.allocate (h : Owned w) (phase : Phase) : Owned (w.allocate phase) := by
  unfold World.allocate
  have hfresh := @FlowIdAllocator.allocate_fresh w.allocator
  split
  · rename_i id allocator heq
    rw [heq] at hfresh
    obtain ⟨_, hnew, hactive⟩ := hfresh rfl
    rw [h.active, List.mem_toFinset] at hnew
    refine ⟨?_, ?_, fun q id' hroute => ?_⟩
    · rw [List.map_append, List.map_singleton]
      exact List.nodup_append_comm.mp (h.nodup.cons hnew)
    · rw [hactive, h.active, List.map_append, List.map_singleton, List.toFinset_append]
      ext other
      simp
    · obtain ⟨f, hf, hid, howns⟩ := h.owner q id' hroute
      exact ⟨f, List.mem_append_left _ hf, hid, howns⟩
  · rename_i e allocator heq
    have hactive := @FlowIdAllocator.allocate_error_active w.allocator
    rw [heq] at hactive
    exact ⟨h.nodup, (hactive rfl).trans h.active, h.owner⟩

/-- Fewer routes still have their owners. -/
theorem Owned.shrink (h : Owned w) (hallocator : w'.allocator = w.allocator)
    (hflows : w'.flows = w.flows)
    (hroutes : ∀ q id, w'.route q id ≠ none → w.route q id ≠ none) : Owned w' where
  nodup := hflows ▸ h.nodup
  active := by rw [hallocator, hflows, h.active]
  owner q id hroute := by
    rw [hflows]
    exact h.owner q id (hroutes q id hroute)

theorem Owned.dropLease (h : Owned w) (hf : w.flows[i]? = some f) (hleaving : f.phase = .leaving) :
    Owned { w with allocator := w.allocator.release f.id, flows := w.flows.eraseIdx i } := by
  obtain ⟨hi, hget⟩ := List.getElem?_eq_some_iff.mp hf
  have hi' : i < (w.flows.map Flow.id).length := by rwa [List.length_map]
  have hids : (w.flows.eraseIdx i).map Flow.id = (w.flows.map Flow.id).erase f.id := by
    have herase := h.nodup.erase_getElem i hi'
    rw [List.getElem_map, hget] at herase
    rw [herase, List.eraseIdx_map]
  refine ⟨?_, ?_, fun q id hroute => ?_⟩
  · rw [hids]
    exact h.nodup.erase f.id
  · ext id
    simp only [FlowIdAllocator.release, h.active, hids, Finset.mem_erase, List.mem_toFinset,
      h.nodup.mem_erase_iff]
  · obtain ⟨g, hg, hid, howns⟩ := h.owner q id hroute
    obtain ⟨j, hj, rfl⟩ := List.mem_iff_getElem.mp hg
    refine ⟨_, List.mem_eraseIdx_iff_getElem.mpr ⟨j, hj, ?_, rfl⟩, hid, howns⟩
    rintro rfl
    rw [hget, hleaving] at howns
    exact howns

/-- A route that is written in a session is the only one that can be new. -/
theorem route_insert {q' : Nat} (hs : s.routes = (w.sessions q).routes.insert id route)
    (h : (w.onSession q s).route q' id' ≠ none) : id' = id ∧ q' = q ∨ w.route q' id' ≠ none := by
  rw [route_onSession, hs, lookup_insert] at h
  by_cases hq : q' = q
  · subst hq
    by_cases hid : id' = id
    · exact .inl ⟨hid, rfl⟩
    · rw [if_pos rfl, if_neg hid] at h
      exact .inr h
  · rw [if_neg hq] at h
    exact .inr h

/-- A flow goes on as the owner of the route that it has written. -/
theorem Owned.insert (h : Owned w) (hf : w.flows[i]? = some f)
    (hs : s.routes = (w.sessions q).routes.insert f.id route) (hown : phase.Owns q)
    (howns : ∀ q', f.phase.Owns q' → phase.Owns q') : Owned ((w.onSession q s).move i f phase) := by
  refine h.move hf rfl rfl (fun q' id hr => ?_) fun q' hr => ?_
  · exact (route_insert hs hr).imp_left And.left
  · rcases route_insert hs hr with ⟨_, rfl⟩ | hold
    · exact hown
    · exact howns q' (h.owns (List.mem_of_getElem? hf) hold)

theorem Owned.registerUdp (h : Owned w) (hf : w.flows[i]? = some f)
    (hphase : f.phase = .registering quic) (hstep : registerUdp cfg w i f quic = some w') :
    Owned w' := by
  have hnone : ∀ q, ¬ f.phase.Owns q := by
    intro q howns
    rw [hphase] at howns
    exact howns
  unfold UdpFlow.registerUdp at hstep
  split at hstep
  · cases quic with
    | none => cases hstep
    | some q =>
      simp only at hstep
      split at hstep
      · cases hstep
        exact h.leave hf hnone
      · rename_i hfree
        cases hstep
        have hlookup : (w.sessions q).routes.lookup f.id = none :=
          Option.not_isSome_iff_eq_none.mp hfree
        have hinsert : (QuicSession.registerUdpStep (w.sessions q) f.id).world.routes =
            (w.sessions q).routes.insert f.id ⟨(w.sessions q).nextRoute, false⟩ := by
          rw [QuicSession.registerUdpStep, hlookup]
          rfl
        exact h.insert hf hinsert rfl fun q' howns => absurd howns (hnone q')
  · cases hstep
    exact h.leave hf hnone

theorem Owned.activateUdp (h : Owned w) (hf : w.flows[i]? = some f)
    (hphase : f.phase = .activating quic) (hstep : activateUdp cfg w i f quic = some w') :
    Owned w' := by
  have howns : ∀ q, f.phase.Owns q → quic = some q := by
    intro q howns
    rwa [hphase] at howns
  unfold UdpFlow.activateUdp at hstep
  split at hstep
  · cases quic with
    | none => cases hstep
    | some q =>
      simp only at hstep
      split at hstep
      · rename_i hfound
        cases hstep
        obtain ⟨route, hroute⟩ := Option.isSome_iff_exists.mp hfound
        have hlookup : (w.sessions q).routes.lookup f.id = some route := hroute
        have hinsert : (QuicSession.activateUdpStep (w.sessions q) f.id).world.routes =
            (w.sessions q).routes.insert f.id { route with ready := true } := by
          rw [QuicSession.activateUdpStep, hlookup]
        exact h.insert hf hinsert rfl howns
      · cases hstep
        exact h.stay hf fun q _ hown => howns q hown
  · cases hstep
    exact h.stay hf fun q _ hown => howns q hown

/-- A flow whose route is removed first leaves none. -/
theorem Owned.remove (h : Owned w) (hf : w.flows[i]? = some f)
    (howns : ∀ q, f.phase.Owns q → quic = some q) :
    Owned ((w.removeUdp quic f.id).move i f .leaving) := by
  have hallocator : (w.removeUdp quic f.id).allocator = w.allocator := by cases quic <;> rfl
  have hflows : (w.removeUdp quic f.id).flows = w.flows := by cases quic <;> rfl
  have hset : ((w.removeUdp quic f.id).move i f .leaving).flows =
      w.flows.set i { f with phase := .leaving } := by rw [World.move, hflows]
  refine h.move hf hallocator hset (fun q id hr => .inr (route_removeUdp hr).1) fun q hr => ?_
  obtain ⟨hold, hnot⟩ := route_removeUdp hr
  exact hnot ⟨rfl, howns q (h.owns (List.mem_of_getElem? hf) hold)⟩

theorem Owned.close (h : Owned w) (id : FlowId) :
    Owned (w.removeUdp quic id) := by
  refine h.shrink ?_ ?_ fun q id hroute => (route_removeUdp hroute).1
  · cases quic <;> rfl
  · cases quic <;> rfl

/-- What a session does by itself adds no route. -/
theorem exec_routes {choice : QuicSession.Choice} {frame : QuicSession.Frame}
    {e : QuicSession.Effect} (h : QuicSession.exec choice s frame = some e)
    (hcall : ¬ callOfFlow frame = true) (hroute : e.world.routes.lookup id ≠ none) :
    s.routes.lookup id ≠ none := by
  cases QuicSession.exec_outcome h with
  | install | activate => exact absurd rfl hcall
  | @remove _ flowId _ =>
    have herase : (QuicSession.removeFlowStep s flowId).world.routes = s.routes.erase flowId := rfl
    rw [herase, lookup_erase] at hroute
    split at hroute
    · exact absurd rfl hroute
    · exact hroute
  | clear => exact absurd rfl hroute
  | _ => exact hroute

theorem start_routes (start : QuicSession.Start) (s : QuicSession.World) :
    (QuicSession.start start s).world.routes = s.routes := by
  cases start with
  | recv route =>
    unfold QuicSession.start
    simp only
    split <;> rfl
  | _ => rfl

/-- No `open_udp` is dropped in `setup_udp_lanes` while its route is there. -/
def Careful (w : World) (a : Action) : Prop :=
  ∀ i f q, a = .flow i .cancel → w.flows[i]? = some f → f.phase = .settingUp (some q) →
    w.route q f.id = none

theorem Owned.advance {event : Event} (h : Owned w) (hf : w.flows[i]? = some f)
    (hcareful : Careful w (.flow i event)) (hstep : advance cfg w i f event = some w') :
    Owned w' := by
  unfold UdpFlow.advance at hstep
  split at hstep
  -- before the registration there is no route
  · rename_i hphase
    cases hstep
    exact h.leave hf (by simp [hphase, Phase.Owns])
  · rename_i hphase
    cases hstep
    exact h.leave hf (by simp [hphase, Phase.Owns])
  · rename_i hphase
    cases hstep
    exact h.leave hf (by simp [hphase, Phase.Owns])
  · rename_i quic hphase
    exact h.registerUdp hf hphase hstep
  -- the lanes are set up, or not
  · rename_i quic hphase
    cases hstep
    exact h.stay hf (by simp [hphase, Phase.Owns])
  · rename_i quic hphase
    cases hstep
    exact h.stay hf (by simp [hphase, Phase.Owns])
  · rename_i quic hphase
    cases hstep
    refine h.stay hf fun q hroute howns => ?_
    rw [hphase] at howns
    exact hroute (hcareful i f q rfl hf (hphase.trans (congrArg _ howns)))
  · rename_i quic hphase
    exact h.activateUdp hf hphase hstep
  -- errors and tunnels remove the route
  · rename_i quic hphase
    cases hstep
    exact h.remove hf (by simp [hphase, Phase.Owns])
  · rename_i quic hphase
    cases hstep
    exact h.close f.id
  · rename_i quic hphase
    cases hstep
    exact h.remove hf (by simp [hphase, Phase.Owns])
  · rename_i hphase
    cases hstep
    exact h.leave hf (by simp [hphase, Phase.Owns])
  · rename_i hphase
    cases hstep
    exact h.dropLease hf hphase
  · cases hstep

theorem Owned.step {a : Action} (h : Owned w) (hcareful : Careful w a)
    (hstep : step cfg w a = some w') : Owned w' := by
  cases a with
  | openUdp =>
    cases hstep
    exact h.allocate .opening
  | openTcp =>
    cases hstep
    exact h.allocate .tcp
  | flow i event =>
    obtain ⟨f, hf, hadvance⟩ := Option.bind_eq_some_iff.mp hstep
    exact h.advance hf hcareful hadvance
  | session q choice frame =>
    simp only [UdpFlow.step] at hstep
    split at hstep
    · cases hstep
    · rename_i hcall
      obtain ⟨e, hexec, rfl⟩ := Option.map_eq_some_iff.mp hstep
      refine h.shrink rfl rfl fun q' id hroute => ?_
      rw [route_onSession] at hroute
      by_cases hq : q' = q
      · subst hq
        rw [if_pos rfl] at hroute
        exact exec_routes hexec hcall hroute
      · rwa [if_neg hq] at hroute
  | outside q start =>
    cases hstep
    refine h.shrink rfl rfl fun q' id hroute => ?_
    rw [route_onSession, start_routes] at hroute
    by_cases hq : q' = q
    · subst hq
      rwa [if_pos rfl] at hroute
    · rwa [if_neg hq] at hroute

theorem owned_of_reach (h : Reach cfg Careful w) : Owned w := by
  induction h with
  | init => exact init_owned cfg
  | step _ hcareful hstep ih => exact ih.step hcareful hstep

end Steps

/-! ## Routes follow the leases -/

/-- Every route has a live lease, a flow that has left `open_udp` without a tunnel or has dropped it
has no route, and neither has one that is about to register. -/
structure FollowsLeases (w : World) : Prop where
  leased : ∀ q id, w.route q id ≠ none → id ∈ w.flows.map Flow.id
  left : ∀ f ∈ w.flows, f.phase = .leaving → ∀ q, w.route q f.id = none
  unregistered : ∀ f ∈ w.flows, ∀ quic, f.phase = .registering quic → ∀ q, w.route q f.id = none

theorem Owned.followsLeases (h : Owned w) : FollowsLeases w where
  leased q id hroute := by
    obtain ⟨f, hf, rfl, _⟩ := h.owner q id hroute
    exact List.mem_map_of_mem hf
  left f hf hphase q := by
    by_contra hroute
    have howns := h.owns hf hroute
    rw [hphase] at howns
    exact howns
  unregistered f hf quic hphase q := by
    by_contra hroute
    have howns := h.owns hf hroute
    rw [hphase] at howns
    exact howns

/-- **Routes follow the leases**, in every state that is reached without dropping an `open_udp` that
waits in `setup_udp_lanes` with its route registered. A step that does drop one breaks this. -/
theorem routes_follow_leases {cfg : Config} {w : World} (h : Reach cfg Careful w) :
    FollowsLeases w ∧
      ∀ a w', step cfg w a = some w' → (FollowsLeases w' ↔ Careful w a) := by
  have howned := owned_of_reach h
  refine ⟨howned.followsLeases, fun a w' hstep => ⟨fun hfollows => ?_, fun hcareful => ?_⟩⟩
  · rintro i f q rfl hf hphase
    obtain ⟨f', hf', hadvance⟩ := Option.bind_eq_some_iff.mp hstep
    obtain rfl := Option.some.inj (hf.symm.trans hf')
    unfold advance at hadvance
    simp only [hphase] at hadvance
    cases hadvance
    have hmem : { f with phase := .leaving } ∈ (w.move i f .leaving).flows :=
      List.mem_set (List.getElem?_eq_some_iff.mp hf).1 _
    exact hfollows.left _ hmem rfl q
  · exact (howned.step hcareful hstep).followsLeases

namespace Sample

/-- The downlink is QUIC. -/
def config : Config := ⟨.tcp, .udp, 4, ⟨1000⟩⟩

/-- The states after a list of steps, all of which are possible. -/
def run (w : World) : List Action → Option World
  | [] => some w
  | a :: actions => (step config w a).bind fun w' => run w' actions

theorem reach_run {cond : World → Action → Prop} {w' : World} {actions : List Action}
    (h : Reach config cond w) (hcond : ∀ a ∈ actions, ∀ w, cond w a)
    (hrun : run w actions = some w') : Reach config cond w' := by
  induction actions generalizing w with
  | nil =>
    cases hrun
    exact h
  | cons a actions ih =>
    obtain ⟨v, hstep, hrest⟩ := Option.bind_eq_some_iff.mp hrun
    exact ih (h.step (hcond a List.mem_cons_self w) hstep)
      (fun b hb => hcond b (List.mem_cons_of_mem a hb)) hrest

/-- A flow that has registered its route. -/
def registered : List Action := [.openUdp, .flow 0 (.lanesOpened 0), .flow 0 .registerUdp]

/-- `open_udp` is dropped while it waits for READY: flow 1 keeps its route and loses its lease. -/
theorem cancelled_setup_leaves_route :
    ∃ w, Reach config (fun _ _ => True) w ∧ w.route 0 1 = some ⟨0, false⟩ ∧ w.flows = [] ∧
      w.allocator.active = ∅ ∧ ¬ FollowsLeases w := by
  have hrun :
      (run (.init config) (registered ++ [.flow 0 .cancel, .flow 0 .dropLease])).isSome := by
    decide
  have hreach := reach_run (.init : Reach config (fun _ _ => True) _) (fun _ _ _ => trivial)
    (Option.some_get hrun).symm
  refine ⟨_, hreach, rfl, rfl, rfl, fun hfollows => ?_⟩
  have hleased := hfollows.leased 0 1 nofun
  cases hleased

/-- The same flow before it is dropped. -/
theorem registered_follows_lease :
    ∃ w, Reach config Careful w ∧ w.route 0 1 = some ⟨0, false⟩ ∧ FollowsLeases w ∧
      ∀ w', step config w (.flow 0 .cancel) = some w' → ¬ FollowsLeases w' := by
  have hrun : (run (.init config) registered).isSome := by decide
  have hcareful : ∀ a ∈ registered, ∀ w, Careful w a := by
    rintro a ha w i f q rfl
    simp [registered] at ha
  have hreach := reach_run (.init : Reach config Careful _) hcareful (Option.some_get hrun).symm
  obtain ⟨hfollows, hnext⟩ := routes_follow_leases hreach
  refine ⟨_, hreach, rfl, hfollows, fun w' hstep hfollows' => ?_⟩
  have hnone := (hnext _ w' hstep).mp hfollows' 0 ⟨1, .settingUp (some 0)⟩ 0 rfl rfl rfl
  cases hnone

end Sample

end Nowhere.Vector.UdpFlow
