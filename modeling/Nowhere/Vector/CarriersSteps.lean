import Nowhere.Lib.Slots
import Nowhere.Vector.Carriers

/-!
# What the carriers can do

Every step of the carriers is one of the changes below (`Change`, `change_of_step`): a step of the
pool (`PoolStep`), of a lane that is opened (`LaneStep`) or of a flow, with what was true when it
was made.
-/

namespace Nowhere.Vector.Carriers

open Protocol Common.Socks
open UdpFlow (CarrierMode)

/-- `maintain` goes on to another leg, and nothing else changes but that a notification may have
been taken. -/
inductive MaintainLeg.Moves (w : World) : MaintainLeg → Bool → Prop
  | stops (leg : w.maintain = .checking) : Moves w .clearing w.notified
  | retains (leg : w.maintain = .checking) : Moves w .retaining w.notified
  | cools (leg : w.maintain = .joining true) (joined : w.connectors = []) :
      Moves w .cooling w.notified
  | waits (leg : w.maintain = .joining false) (joined : w.connectors = []) :
      Moves w .waiting w.notified
  | checks (leg : w.maintain = .cooling ∨ w.maintain = .waiting) {notified : Bool} :
      Moves w .checking notified

/-- A step of the pool or of one of its tasks. -/
inductive PoolStep (c : Config) (w : World) : World → Prop
  | maintains {leg : MaintainLeg} {notified : Bool} (moves : MaintainLeg.Moves w leg notified) :
      PoolStep c w { w with maintain := leg, notified := notified }
  | clears (leg : w.maintain = .clearing) :
      PoolStep c w ({ w with idle := [], maintain := .returned }.dropTls w.idle)
  | retains (leg : w.maintain = .retaining) :
      PoolStep c w ({ w with
        idle := w.idle.filter fun lane => !lane.expired w.now
        maintain := .counting }.dropTls (w.idle.filter fun lane => lane.expired w.now))
  | spawns {missing : Nat} (leg : w.maintain = .counting)
      (short : w.idle.length + w.preparing + missing = c.pool) :
      PoolStep c w { w with
        preparing := w.preparing + missing
        connectors := List.replicate missing .dialing
        maintain := .joining false
        missed := false }
  | rests (leg : w.maintain = .counting) (full : c.pool ≤ w.idle.length + w.preparing) :
      PoolStep c w { w with maintain := .waiting, missed := false }
  | stores {lane : TlsLane} {connectFailed : Bool} (leg : w.maintain = .storing lane connectFailed)
      (room : w.idle.length < c.pool) :
      PoolStep c w { w with idle := w.idle ++ [lane], maintain := .joining connectFailed }
  | discards {lane : TlsLane} {connectFailed : Bool}
      (leg : w.maintain = .storing lane connectFailed)
      (full : c.pool ≤ w.idle.length ∨ w.cancelled = true) :
      PoolStep c w ({ w with maintain := .joining connectFailed }.dropTls [lane])
  | joins {i : Nat} {k : Connector} {connectFailed : Bool} {leg : MaintainLeg}
      (joining : w.maintain = .joining connectFailed) (task : w.connectors[i]? = some k)
      (done : (∃ lane, k = .ready lane ∧ leg = .storing lane connectFailed) ∨
        k = .failed ∧ leg = .joining true) :
      PoolStep c w { w with
        connectors := w.connectors.eraseIdx i
        preparing := w.preparing - 1
        maintain := leg }
  | aborts :
      PoolStep c w ({ w with
        maintain := .aborted
        connectors := []
        dropped := w.dropped ++ w.connectors.flatMap Connector.wires }.dropTls
          (w.maintain.lanes ++ w.connectors.flatMap Connector.lanes))
  | connector {i : Nat} {k k' : Connector} {w₁ : World} {e : ConnectorEvent}
      (task : w.connectors[i]? = some k) (step : connectorStep c w k e = some (w₁, k')) :
      PoolStep c w { w₁ with connectors := w.connectors.set i k' }

/-- A step of a lane that is opened: what else happens, and where the lane is then. -/
inductive LaneStep (c : Config) (w : World) : LaneLeg → World → LaneLeg → Prop
  -- `acquire`
  | searches (empty : w.idle = []) : LaneStep c w .acquiring w .dialing
  | takes {lane : TlsLane} {idle : List TlsLane} (front : w.idle = lane :: idle) :
      LaneStep c w .acquiring { w with idle := idle, notified := true } (.opened lane.intoParts)
  | skips {lane : TlsLane} {idle : List TlsLane} (front : w.idle = lane :: idle) :
      LaneStep c w .acquiring ({ w with idle := idle }.dropTls [lane]) .acquiring
  | dials (exporter : TlsExporter) :
      LaneStep c w .dialing { w with linkTcp := w.linkTcp + 1, notified := true }
        (.opened ⟨⟨.tls exporter, []⟩, (Source.tls exporter).auth c, false⟩)
  | dialFails : LaneStep c w .dialing { w with missed := true } .failed
  -- `get`
  | finds {leg : LaneLeg} {q : Nat} (looked : leg = .looking ∨ leg = .rechecking)
      (live : w.liveSession = some q) : LaneStep c w leg w (.opening q)
  | queues : LaneStep c w .looking w .queued
  | locks (free : w.isLocked = false) : LaneStep c w .queued w .rechecking
  | sleeps (none : w.liveSession = none) : LaneStep c w .rechecking w .sleeping
  | gives : LaneStep c w .sleeping w .failed
  | connecting {leg : LaneLeg}
      (locked : leg = .rechecking ∧ w.retryAfter = none ∧ w.liveSession = none ∨
        leg = .sleeping ∧ ∀ t, w.retryAfter = some t → t ≤ w.now) :
      LaneStep c w leg { w with attempts := w.attempts ++ [Attempt.mk w.now none] } .connecting
  | connects (exporter : TlsExporter) :
      LaneStep c w .connecting
        { w with sessions := w.sessions ++ [Session.mk exporter true 1 false] }
        (.connected w.sessions.length)
  | connectFails : LaneStep c w .connecting (w.failConnect c).1 .failed
  | forgives (q : Nat) : LaneStep c w (.connected q) { w with retryAfter := none } (.storing q)
  | shares (q : Nat) : LaneStep c w (.storing q) { w with state := some q } (.opening q)
  -- `open_bi`
  | opensFirst {q : Nat} {s : Session} (session : w.sessions[q]? = some s)
      (first : s.firstStream = true) :
      LaneStep c w (.opening q)
        { w with sessions := w.sessions.set q { s with firstStream := false } }
        (.opened ⟨⟨.quic q s.exporter 0, []⟩, (Source.quic q s.exporter 0).auth c, true⟩)
  | opensNext {q : Nat} {s : Session} (session : w.sessions[q]? = some s)
      (first : s.firstStream = false) :
      LaneStep c w (.opening q)
        { w with sessions := w.sessions.set q { s with streams := s.streams + 1 } }
        (.opened ⟨⟨.quic q s.exporter s.streams, []⟩, none, false⟩)
  | misses (q : Nat) : LaneStep c w (.opening q) w .failed

/-- The lane at place `i` of the flow at place `k` is opened. -/
structure Opening (w : World) (k i : Nat) (f : Flow) (leg : LaneLeg) : Prop where
  flow : w.flows[k]? = some f
  phase : f.leg = .opening
  lane : f.lanes[i]? = some leg

inductive Change (c : Config) (w : World) : World → Prop
  | environment {now : Nat} {cancelled : Bool} (later : w.now ≤ now)
      (stays : w.cancelled = true → cancelled = true) :
      Change c w { w with now := now, cancelled := cancelled }
  | closes (qs : List Nat) {state : Option Nat}
      (same : state = w.state ∨ state = none ∧ ∀ q, w.state = some q → q ∈ qs) :
      Change c w { w with state := state, sessions := closeSessions qs w.sessions }
  | pool {w' : World} (step : PoolStep c w w') : Change c w w'
  | starts {kind : FlowKind} {id : FlowId} {address : SocksAddress} {target : Target}
      (valid : toTarget address = .ok target) :
      Change c w { w with
        flows := w.flows ++
          [⟨id, kind, target, c.plan.map fun lane => startLane lane.1, .opening⟩] }
  | lane {k i : Nat} {f : Flow} {leg leg' : LaneLeg} {w₁ : World} (opening : Opening w k i f leg)
      (step : LaneStep c w leg w₁ leg') : Change c w (w₁.setLane k i f leg')
  | flow {k : Nat} {f f' : Flow} {e : FlowEvent} (flow : w.flows[k]? = some f)
      (step : flowStep c f e = some (some f')) : Change c w { w with flows := w.flows.set k f' }
  | dropsFlow {k : Nat} {f : Flow} (flow : w.flows[k]? = some f) : Change c w (w.dropFlow k f)
  | same : Change c w w

section Steps

variable {c : Config} {w w' w₁ : World} {leg' : LaneLeg}

/-- A task of the pool changes the counter of the links by what it has, and may drop its stream. -/
theorem connectorStep_eq {k k' : Connector} {e : ConnectorEvent}
    (h : connectorStep c w k e = some (w₁, k')) :
    ∃ links dropped, w₁ = { w with linkTcp := links, dropped := w.dropped ++ dropped } ∧
      links + k.lanes.length = w.linkTcp + k'.lanes.length := by
  unfold connectorStep at h
  split at h
  case h_1 | h_2 | h_3 =>
    cases h
    exact ⟨w.linkTcp, [], by rw [List.append_nil], rfl⟩
  · split at h
    · cases h
      exact ⟨w.linkTcp + 1, [], by rw [List.append_nil], rfl⟩
    · cases h
  · cases h
    exact ⟨w.linkTcp, _, rfl, rfl⟩
  · cases h

/-- What the pool leaves alone. -/
structure PoolStep.Frame (w w' : World) : Prop where
  now : w'.now = w.now
  flows : w'.flows = w.flows
  sessions : w'.sessions = w.sessions
  state : w'.state = w.state
  retryAfter : w'.retryAfter = w.retryAfter
  attempts : w'.attempts = w.attempts
  dropped : ∀ wire ∈ w.dropped, wire ∈ w'.dropped

theorem PoolStep.frame (h : PoolStep c w w') : PoolStep.Frame w w' := by
  have hmore {dropped more : List Wire} : ∀ wire ∈ dropped, wire ∈ dropped ++ more :=
    fun _ hwire => List.mem_append_left _ hwire
  cases h with
  | clears | retains | discards => exact ⟨rfl, rfl, rfl, rfl, rfl, rfl, hmore⟩
  | aborts => exact ⟨rfl, rfl, rfl, rfl, rfl, rfl, fun _ hwire => hmore _ (hmore _ hwire)⟩
  | connector task step =>
    obtain ⟨links, dropped, rfl, _⟩ := connectorStep_eq step
    exact ⟨rfl, rfl, rfl, rfl, rfl, rfl, hmore⟩
  | _ => exact ⟨rfl, rfl, rfl, rfl, rfl, rfl, fun _ hwire => hwire⟩

theorem poolStep_of_maintainStep (h : maintainStep c w = some w') : PoolStep c w w' := by
  unfold maintainStep at h
  split at h
  · rename_i hleg
    cases h
    split
    · exact .maintains (.stops hleg)
    · exact .maintains (.retains hleg)
  · rename_i hleg
    cases h
    exact .clears hleg
  · rename_i hleg
    cases h
    exact .retains hleg
  · rename_i hleg
    dsimp only at h
    split at h
    · cases h
      exact .spawns hleg (by omega)
    · cases h
      exact .rests hleg (by omega)
  · rename_i connectFailed hleg
    split at h
    · rename_i hjoined
      cases h
      cases connectFailed with
      | true => exact .maintains (.cools hleg hjoined)
      | false => exact .maintains (.waits hleg hjoined)
    · cases h
  · rename_i lane connectFailed hleg
    split at h
    · rename_i hroom
      cases h
      exact .stores hleg hroom.1
    · rename_i hfull
      cases h
      refine .discards hleg ?_
      by_cases hlength : w.idle.length < c.pool
      · exact .inr (by simpa [hlength] using hfull)
      · exact .inl (by omega)
  · cases h

theorem poolStep_of_joinStep {i : Nat} (h : joinStep w i = some w') : PoolStep c w w' := by
  unfold joinStep at h
  split at h
  · rename_i lane hleg htask
    cases h
    exact .joins hleg htask (.inl ⟨lane, rfl, rfl⟩)
  · rename_i hleg htask
    cases h
    exact .joins hleg htask (.inr ⟨rfl, rfl⟩)
  · cases h

theorem poolStep_of_abortStep (h : abortStep w = some w') : PoolStep c w w' := by
  unfold abortStep at h
  split at h
  · cases h
  · cases h
  · cases h
    exact .aborts

theorem laneStep_of_takeIdle (usable : Bool) :
    LaneStep c w .acquiring (w.takeIdle usable).1 (w.takeIdle usable).2 := by
  unfold World.takeIdle
  split
  · rename_i hidle
    exact .searches hidle
  · rename_i lane idle hidle
    split
    · exact .takes hidle
    · exact .skips hidle

theorem laneStep_of_openBi {q : Nat} (h : w.openBi c q = some (w₁, leg')) :
    LaneStep c w (.opening q) w₁ leg' := by
  unfold World.openBi at h
  split at h
  · cases h
  · rename_i s hsession
    split at h
    · rename_i hfirst
      cases h
      exact .opensFirst hsession hfirst
    · rename_i hfirst
      split at h
      · cases h
        exact .opensNext hsession (by simpa using hfirst)
      · cases h

theorem laneStep_sound {leg : LaneLeg} {e : LaneEvent} (h : laneStep c w leg e = some (w₁, leg')) :
    LaneStep c w leg w₁ leg' := by
  unfold laneStep at h
  split at h
  · rename_i usable
    have htake : w.takeIdle usable = (w₁, leg') := Option.some.inj h
    have hstep := laneStep_of_takeIdle (c := c) (w := w) usable
    rwa [htake] at hstep
  · cases h
    exact .dials _
  · cases h
    exact .dialFails
  · cases h
    cases hlive : w.liveSession with
    | none => exact .queues
    | some q => exact .finds (.inl rfl) hlive
  · split at h
    · cases h
    · rename_i hfree
      cases h
      exact .locks (by simpa using hfree)
  · split at h
    · rename_i hlive
      cases h
      exact .finds (.inr rfl) hlive
    · rename_i hlive _
      cases h
      exact .sleeps hlive
    · rename_i hlive hretry
      cases h
      exact .connecting (.inl ⟨rfl, hretry, hlive⟩)
  · split at h
    · rename_i hlate
      cases h
      refine .connecting (.inr ⟨rfl, fun t ht => ?_⟩)
      rw [ht] at hlate
      exact of_decide_eq_true hlate
    · cases h
  · split at h
    · cases h
      exact .gives
    · cases h
  · cases h
    exact .connects _
  · cases h
    exact .connectFails
  · cases h
    exact .forgives _
  · cases h
    exact .shares _
  · exact laneStep_of_openBi h
  · split at h
    · cases h
    · cases h
      exact .misses _
  · cases h

theorem change_of_step {e : Event} (h : step c w e = some w') : Change c w w' := by
  cases e with
  | tick n =>
    cases h
    exact .environment (Nat.le_add_right _ _) id
  | shutdown =>
    cases h
    exact .environment (Nat.le_refl _) fun _ => rfl
  | sessionCloses q =>
    cases h
    exact .closes [q] (.inl rfl)
  | managerCloses =>
    cases h
    exact .closes _ (.inr ⟨rfl, fun q hq => by rw [hq]; exact List.mem_singleton_self q⟩)
  | maintain => exact .pool (poolStep_of_maintainStep h)
  | wakes =>
    simp only [step] at h
    split at h
    · rename_i hleg
      cases h
      exact .pool (.maintains (.checks hleg))
    · cases h
  | notified =>
    simp only [step] at h
    split at h
    · rename_i hleg
      cases h
      exact .pool (.maintains (.checks (.inr hleg.1)))
    · cases h
  | abort => exact .pool (poolStep_of_abortStep h)
  | connector i e =>
    simp only [step] at h
    split at h
    · cases h
    · rename_i k htask
      obtain ⟨⟨w₁, k'⟩, hstep, rfl⟩ := Option.map_eq_some_iff.mp h
      exact .pool (.connector htask hstep)
  | joined i => exact .pool (poolStep_of_joinStep h)
  | start kind id address =>
    simp only [step] at h
    split at h
    · cases h
      exact .same
    · rename_i hvalid
      cases h
      exact .starts hvalid
  | lane k i e =>
    simp only [step, openLaneStep] at h
    split at h
    · cases h
    · rename_i f hflow
      split at h
      · rename_i leg hleg hlane
        obtain ⟨⟨w₁, leg'⟩, hstep, rfl⟩ := Option.map_eq_some_iff.mp h
        exact .lane ⟨hflow, hleg, hlane⟩ (laneStep_sound hstep)
      · cases h
  | flow k e =>
    simp only [step] at h
    split at h
    · cases h
    · rename_i f hflow
      obtain ⟨f', hstep, rfl⟩ := Option.map_eq_some_iff.mp h
      cases f' with
      | none => exact .dropsFlow hflow
      | some f' => exact .flow hflow hstep
  | drops k =>
    obtain ⟨f, hflow, rfl⟩ := Option.map_eq_some_iff.mp h
    exact .dropsFlow hflow

end Steps

end Nowhere.Vector.Carriers
