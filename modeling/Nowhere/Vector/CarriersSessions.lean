import Nowhere.Vector.CarriersPool

/-!
# The shared QUIC session

Only one task connects at a time (`Locked`). All lanes that are on a session that is not closed are
on the one that `QuicManager` keeps (`Shared`). A first stream that is dropped has sent the
authentication frame, or its session is closed (`Begun`). After a failure nobody connects before the
cooldown is over (`Cooled`).
-/

namespace Nowhere.Vector.Carriers

open Protocol Common.Socks
open UdpFlow (CarrierMode)

/-! ## The connect lock -/

def LaneLeg.locks (leg : LaneLeg) : Nat := if leg.holdsLock then 1 else 0

def Locked (w : World) : Prop := w.sumLanes LaneLeg.locks ≤ 1

section Locks

variable {c : Config} {w w' : World}

theorem LaneLeg.locks_shape (leg : LaneLeg) : leg.shape.locks = leg.locks := by
  cases leg <;> rfl

theorem sumLanes_locks_of_free (h : w.isLocked = false) : w.sumLanes LaneLeg.locks = 0 := by
  by_contra hne
  obtain ⟨f, hf, leg, hleg, hlocks⟩ := World.exists_of_sumLanes_pos (Nat.pos_of_ne_zero hne)
  have hholds : leg.holdsLock = true := by simpa [LaneLeg.locks, Nat.pos_iff_ne_zero] using hlocks
  have hlocked : w.isLocked = true :=
    List.any_eq_true.mpr ⟨f, hf, List.any_eq_true.mpr ⟨leg, hleg, hholds⟩⟩
  rw [hlocked] at h
  cases h

variable {w₁ : World} {k i : Nat} {f : Flow} {leg leg' : LaneLeg}

/-- The lane at hand is the only one that can have the lock. -/
theorem Locked.setLane (h : Locked w) (hopening : Opening w k i f leg) (hflows : w₁.flows = w.flows)
    (hlocks : leg'.locks ≤ leg.locks) : Locked (w₁.setLane k i f leg') := by
  have hsum := World.sumLanes_setLane (g := LaneLeg.locks) w₁ leg' hopening hflows
  unfold Locked at h ⊢
  omega

/-- When the one that has the lock gives it up, nobody has it. -/
theorem Locked.forall_free (h : Locked w) (hopening : Opening w k i f leg)
    (hflows : w₁.flows = w.flows) (hleg : leg.locks = 1) (hleg' : leg'.locks = 0) :
    ∀ f' ∈ (w₁.setLane k i f leg').flows, ∀ l ∈ f'.lanes, l.holdsLock = false := by
  intro f' hf l hl
  have hsum := World.sumLanes_setLane (g := LaneLeg.locks) w₁ leg' hopening hflows
  have hle := Nat.le_trans (Slots.le_sum LaneLeg.locks hl)
    (Slots.le_sum (fun f => Slots.sum LaneLeg.locks f.lanes) hf)
  change l.locks ≤ (w₁.setLane k i f leg').sumLanes LaneLeg.locks at hle
  unfold Locked at h
  by_contra hne
  rw [LaneLeg.locks, if_pos (by simpa using hne)] at hle
  omega

theorem Locked.change (h : Locked w) (hchange : Change c w w') : Locked w' := by
  cases hchange with
  | pool step =>
    unfold Locked World.sumLanes
    rw [step.frame.flows]
    exact h
  | starts valid =>
    unfold Locked
    rw [World.sumLanes_starts fun mode => by cases mode <;> rfl]
    exact h
  | lane opening step =>
    cases step with
    | locks free =>
      have hsum := World.sumLanes_setLane (g := LaneLeg.locks) w .rechecking opening rfl
      rw [sumLanes_locks_of_free free] at hsum
      exact Nat.le_of_eq hsum
    | connecting locked =>
      refine h.setLane opening rfl ?_
      rcases locked with ⟨rfl, _⟩ | ⟨rfl, _⟩ <;> exact Nat.le_refl _
    | _ => exact h.setLane opening rfl (by simp [LaneLeg.locks, LaneLeg.holdsLock])
  | flow flow step =>
    exact Nat.le_trans (Nat.le_of_eq (World.sumLanes_flow LaneLeg.locks_shape flow step)) h
  | dropsFlow flow =>
    have hsum := World.sumLanes_dropFlow (g := LaneLeg.locks) flow
    unfold Locked at h ⊢
    omega
  | _ => exact h

end Locks

/-! ## The session that is shared -/

def Source.session : Source → Option Nat
  | .tls _ => none
  | .quic q _ _ => some q

def LaneLeg.source (leg : LaneLeg) : Option Source := leg.lane.map fun lane => lane.wire.source

/-- The session that a leg has. -/
def LaneLeg.session : LaneLeg → Option Nat
  | .connected q | .storing q | .opening q => some q
  | leg => leg.source.bind Source.session

/-- The lane has found no live session, and is about to connect or has connected. -/
def LaneLeg.connects : LaneLeg → Bool
  | .sleeping | .connecting | .connected _ | .storing _ => true
  | _ => false

theorem LaneLeg.holdsLock_of_connects {leg : LaneLeg} (h : leg.connects = true) :
    leg.holdsLock = true := by
  cases leg <;> first | rfl | cases h

structure LaneLeg.Shares (w : World) (leg : LaneLeg) : Prop where
  known : ∀ q, leg.session = some q → q < w.sessions.length
  current : ∀ q, leg.session = some q → w.isLive q = true →
    leg.connects = true ∨ w.state = some q
  stale : leg.connects = true → w.liveSession = none

structure Shared (w : World) : Prop where
  state : ∀ q, w.state = some q → q < w.sessions.length
  lanes : ∀ f ∈ w.flows, ∀ leg ∈ f.lanes, leg.Shares w

/-- Sessions are made and closed, and otherwise stay. -/
structure Grows (w w' : World) : Prop where
  length : w.sessions.length ≤ w'.sessions.length
  live : ∀ q < w.sessions.length, w'.isLive q = true → w.isLive q = true

section Sharing

variable {c : Config} {w w' : World}

theorem grows_of_eq (h : w'.sessions = w.sessions) : Grows w w' where
  length := Nat.le_of_eq (congrArg List.length h.symm)
  live := by
    intro q _ hlive
    rwa [World.isLive, h] at hlive

variable {qs : List Nat} {q : Nat} {leg leg' : LaneLeg} {w₁ : World} {k i : Nat} {f : Flow}

/-- A session that is not closed is what it was before. -/
theorem getElem?_closeSessions {sessions : List Session} {s : Session}
    (h : (closeSessions qs sessions)[q]? = some s) (hlive : s.closed = false) :
    sessions[q]? = some s ∧ q ∉ qs := by
  rw [closeSessions, List.getElem?_mapIdx] at h
  obtain ⟨s₀, hs₀, rfl⟩ := Option.map_eq_some_iff.mp h
  split at hlive
  · cases hlive
  · rename_i hq
    rw [if_neg hq]
    exact ⟨hs₀, hq⟩

theorem isLive_iff :
    w.isLive q = true ↔ ∃ s, w.sessions[q]? = some s ∧ s.closed = false := by
  rw [World.isLive, Option.any_eq_true]
  simp only [Bool.not_eq_true']

theorem isLive_of_close {qs : List Nat} (h : w'.sessions = closeSessions qs w.sessions) {q : Nat}
    (hlive : w'.isLive q = true) : w.isLive q = true ∧ q ∉ qs := by
  obtain ⟨s, hs, hclosed⟩ := isLive_iff.mp hlive
  rw [h] at hs
  obtain ⟨hs, hq⟩ := getElem?_closeSessions hs hclosed
  exact ⟨isLive_iff.mpr ⟨s, hs, hclosed⟩, hq⟩

theorem grows_close (h : w'.sessions = closeSessions qs w.sessions) :
    Grows w w' where
  length := by rw [h, closeSessions, List.length_mapIdx]
  live := fun _ _ hlive => (isLive_of_close h hlive).1

theorem LaneStep.grows (h : LaneStep c w leg w₁ leg') :
    Grows w w₁ := by
  have hset {q : Nat} {s s' : Session} (hs : w.sessions[q]? = some s)
      (hclosed : s'.closed = s.closed) : Grows w { w with sessions := w.sessions.set q s' } := by
    refine ⟨Nat.le_of_eq List.length_set.symm, fun q' hq hlive => ?_⟩
    obtain ⟨x, hx, hopen⟩ := isLive_iff.mp hlive
    rcases Slots.getElem?_set_cases hx with ⟨rfl, rfl⟩ | hx
    · exact isLive_iff.mpr ⟨s, hs, hclosed ▸ hopen⟩
    · exact isLive_iff.mpr ⟨x, hx, hopen⟩
  cases h with
  | connects exporter =>
    refine ⟨by rw [List.length_append]; exact Nat.le_add_right _ _, fun q hq hlive => ?_⟩
    rwa [World.isLive, List.getElem?_append_left hq] at hlive
  | opensFirst session => exact hset session rfl
  | opensNext session => exact hset session rfl
  | _ => exact grows_of_eq rfl

theorem Grows.liveSession (h : Grows w w') (hstate : w'.state = w.state)
    (hknown : ∀ q, w.state = some q → q < w.sessions.length)
    (hnone : w.liveSession = none) : w'.liveSession = none := by
  unfold World.liveSession at hnone ⊢
  rw [hstate]
  refine Option.filter_eq_none_iff.mpr fun q hq hlive => ?_
  exact Option.filter_eq_none_iff.mp hnone q hq (h.live q (hknown q hq) hlive)

/-- What a lane knows of the sessions stays true when they grow. -/
theorem LaneLeg.Shares.grows (h : leg.Shares w) (hgrows : Grows w w') (hstate : w'.state = w.state)
    (hknown : ∀ q, w.state = some q → q < w.sessions.length) :
    leg.Shares w' where
  known := fun q hq => Nat.lt_of_lt_of_le (h.known q hq) hgrows.length
  current := by
    intro q hq hlive
    rw [hstate]
    exact h.current q hq (hgrows.live q (h.known q hq) hlive)
  stale := fun hconnects => hgrows.liveSession hstate hknown (h.stale hconnects)

theorem shared_start (c : Config) : Shared (.start c) := ⟨nofun, nofun⟩

/-- Sessions grow, and lanes go on with what they have. -/
theorem Shared.grows (h : Shared w) (hgrows : Grows w w') (hstate : w'.state = w.state)
    (hlanes : ∀ f ∈ w'.flows, ∀ leg ∈ f.lanes, leg.Shares w ∨ leg.Shares w') : Shared w' where
  state := by
    intro q hq
    rw [hstate] at hq
    exact Nat.lt_of_lt_of_le (h.state q hq) hgrows.length
  lanes := by
    intro f hf leg hleg
    rcases hlanes f hf leg hleg with hold | hnew
    · exact hold.grows hgrows hstate h.state
    · exact hnew

/-- The lanes of all flows after one has gone on. -/
theorem Opening.forall_setLane (hopening : Opening w k i f leg) (hflows : w₁.flows = w.flows)
    {P : LaneLeg → Prop} (h : ∀ f ∈ w.flows, ∀ leg ∈ f.lanes, P leg) (hleg : P leg') :
    ∀ f' ∈ (w₁.setLane k i f leg').flows, ∀ leg ∈ f'.lanes, P leg := by
  refine Slots.forall_set (hflows ▸ h) ?_
  exact Slots.forall_set (h f (List.mem_of_getElem? hopening.flow)) hleg

/-- A leg without a session that does not connect knows nothing. -/
theorem LaneLeg.shares_of_none (hsession : leg.session = none) (hconnects : leg.connects = false) :
    leg.Shares w where
  known := by simp [hsession]
  current := by simp [hsession]
  stale := by simp [hconnects]

theorem LaneLeg.shares_shape (leg : LaneLeg) : leg.shape.Shares w ↔ leg.Shares w := by
  cases leg <;>
    exact ⟨fun h => ⟨h.known, h.current, h.stale⟩, fun h => ⟨h.known, h.current, h.stale⟩⟩

/-- Lanes of the same shapes. -/
theorem exists_of_shape {legs legs' : List LaneLeg}
    (h : legs'.map LaneLeg.shape = legs.map LaneLeg.shape) (hleg' : leg' ∈ legs') :
    ∃ leg ∈ legs, leg.shape = leg'.shape := by
  have hmem : leg'.shape ∈ legs.map LaneLeg.shape := h ▸ List.mem_map_of_mem hleg'
  exact List.mem_map.mp hmem

/-- The lane at hand. -/
theorem Shared.opening (h : Shared w) (hopening : Opening w k i f leg) :
    leg.Shares w :=
  h.lanes f (List.mem_of_getElem? hopening.flow) leg (List.mem_of_getElem? hopening.lane)

/-- A new session is shared. No other lane is on a live one, and none is about to connect. -/
theorem Shared.shares (h : Shared w) (hlocked : Locked w) {k i : Nat} {f : Flow} {q : Nat}
    (hopening : Opening w k i f (.storing q)) :
    Shared ({ w with state := some q }.setLane k i f (.opening q)) := by
  have hstoring := h.opening hopening
  have hnone : w.liveSession = none := hstoring.stale rfl
  have hfree : ∀ f' ∈ ({ w with state := some q }.setLane k i f (.opening q)).flows,
      ∀ leg ∈ f'.lanes, leg.holdsLock = false := hlocked.forall_free hopening rfl rfl rfl
  have hothers : ∀ f' ∈ ({ w with state := some q }.setLane k i f (.opening q)).flows,
      ∀ leg ∈ f'.lanes, ∀ q', leg.session = some q' → q' < w.sessions.length ∧
        (w.isLive q' = true → leg.connects = true ∨ some q = some q') := by
    refine hopening.forall_setLane rfl (fun f' hf leg hleg q' hq => ?_) ?_
    · have hold := h.lanes f' hf leg hleg
      refine ⟨hold.known q' hq, fun hlive => (hold.current q' hq hlive).imp_right fun hstate => ?_⟩
      rw [World.liveSession, hstate, Option.filter_some, if_pos hlive] at hnone
      cases hnone
    · intro q' hq
      exact ⟨hstoring.known q' hq, fun _ => .inr hq⟩
  refine ⟨fun q' hq => hstoring.known q' hq, fun f' hf leg hleg => ?_⟩
  refine ⟨fun q' hq => (hothers f' hf leg hleg q' hq).1,
    fun q' hq => (hothers f' hf leg hleg q' hq).2, fun hconnects => ?_⟩
  have hholds := LaneLeg.holdsLock_of_connects hconnects
  rw [hfree f' hf leg hleg] at hholds
  cases hholds

/-- What a lane has found of the sessions. -/
theorem LaneStep.found (h : Shared w) (hstep : LaneStep c w leg w₁ leg') (hleg : leg.Shares w)
    (hstate : w₁.state = w.state) :
    leg'.Shares w₁ := by
  have hgrows := hstep.grows
  cases hstep with
  | @finds leg q looked live =>
    obtain ⟨hq, _⟩ := Option.filter_eq_some_iff.mp live
    refine ⟨?_, ?_, nofun⟩
    · rintro _ ⟨⟩
      exact h.state q hq
    · rintro _ ⟨⟩ _
      exact .inr hq
  | sleeps hnone => exact ⟨nofun, nofun, fun _ => hnone⟩
  | connecting locked =>
    have hnone : w.liveSession = none := by
      rcases locked with ⟨_, _, hnone⟩ | ⟨rfl, _⟩
      · exact hnone
      · exact hleg.stale rfl
    exact ⟨nofun, nofun, fun _ => hnone⟩
  | connects exporter =>
    refine ⟨?_, fun _ _ _ => .inl rfl, fun _ => ?_⟩
    · rintro _ ⟨⟩
      rw [List.length_append]
      exact Nat.lt_succ_self _
    · exact hgrows.liveSession hstate h.state (hleg.stale rfl)
  | forgives q => exact ⟨hleg.known, fun _ _ _ => .inl rfl, fun _ => hleg.stale rfl⟩
  | shares q => exact ⟨hleg.known, fun _ hq _ => .inr hq, nofun⟩
  | opensFirst | opensNext =>
    refine ⟨?_, ?_, nofun⟩
    · rintro q' ⟨⟩
      exact Nat.lt_of_lt_of_le (hleg.known _ rfl) hgrows.length
    · rintro q' ⟨⟩ hlive
      exact .inr ((hleg.current _ rfl (hgrows.live _ (hleg.known _ rfl) hlive)).resolve_left nofun)
  | _ => exact LaneLeg.shares_of_none rfl rfl

theorem Shared.change (h : Shared w) (hlocked : Locked w) (hchange : Change c w w') :
    Shared w' := by
  have hlanes : ∀ f ∈ w.flows, ∀ leg ∈ f.lanes, leg.Shares w ∨ leg.Shares w' :=
    fun f hf leg hleg => .inl (h.lanes f hf leg hleg)
  cases hchange with
  | environment => exact h.grows (grows_of_eq rfl) rfl hlanes
  | closes qs same =>
    rcases same with rfl | ⟨rfl, hclosed⟩
    · exact h.grows (grows_close rfl) rfl hlanes
    · -- the session that was shared is closed and forgotten
      refine ⟨nofun, fun f hf leg hleg => ?_⟩
      have hold := h.lanes f hf leg hleg
      have hgrows : Grows w { w with state := none, sessions := closeSessions qs w.sessions } :=
        grows_close rfl
      refine ⟨fun q hq => Nat.lt_of_lt_of_le (hold.known q hq) hgrows.length,
        fun q hq hlive => ?_, fun _ => rfl⟩
      obtain ⟨hlive, hmem⟩ := isLive_of_close rfl hlive
      exact (hold.current q hq hlive).imp_right fun hstate => absurd (hclosed q hstate) hmem
  | pool step =>
    refine h.grows (grows_of_eq step.frame.sessions) step.frame.state ?_
    rw [step.frame.flows]
    exact hlanes
  | starts valid =>
    refine h.grows (grows_of_eq rfl) rfl (List.forall_mem_append.mpr ⟨hlanes, ?_⟩)
    refine List.forall_mem_singleton.mpr (List.forall_mem_map.mpr fun lane _ => .inl ?_)
    cases lane.1 <;> exact LaneLeg.shares_of_none rfl rfl
  | @lane k i f leg leg' w₁ opening step =>
    by_cases hstate : w₁.state = w.state
    · have hnew := step.found h (h.opening opening) hstate
      have hgrows := step.grows
      refine h.grows { hgrows with } hstate ?_
      refine opening.forall_setLane step.flows (fun f hf leg hleg => hlanes f hf leg hleg) (.inr ?_)
      exact { hnew with }
    · cases step with
      | shares q => exact h.shares hlocked opening
      | _ => exact absurd rfl hstate
  | @flow k f f' e flow step =>
    refine h.grows (grows_of_eq rfl) rfl ?_
    refine Slots.forall_set hlanes fun leg' hleg' => ?_
    obtain ⟨leg, hleg, hshape⟩ := exists_of_shape (Flow.shape_step step) hleg'
    rw [← LaneLeg.shares_shape, ← hshape, LaneLeg.shares_shape]
    exact .inl (h.lanes f (List.mem_of_getElem? flow) leg hleg)
  | dropsFlow flow =>
    refine h.grows (grows_close rfl) rfl (Slots.forall_set hlanes ?_)
    intro leg hleg
    cases hleg
  | same => exact h

end Sharing

/-! ## First streams -/

/-- A flow has the first stream of the session, or it was dropped when the frame was written. -/
def World.HasFirst (c : Config) (w : World) (q : Nat) (exporter : TlsExporter) : Prop :=
  (∃ f ∈ w.flows, ∃ leg ∈ f.lanes, leg.source = some (.quic q exporter 0)) ∨
    ∃ wire ∈ w.dropped, wire.source = .quic q exporter 0 ∧
      authBytes (wire.source.auth c) <+: wire.written

def Begun (c : Config) (w : World) : Prop :=
  ∀ (q : Nat) (s : Session), w.sessions[q]? = some s → s.firstStream = false → s.closed = false →
    w.HasFirst c q s.exporter

section First

variable {c : Config} {w w' : World} {q : Nat} {exporter : TlsExporter}

theorem LaneLeg.source_shape (leg : LaneLeg) : leg.shape.source = leg.source := by
  cases leg <;> rfl

theorem World.HasFirst.mono (h : w.HasFirst c q exporter)
    (hflows : ∀ f ∈ w.flows, f ∈ w'.flows) (hdropped : ∀ wire ∈ w.dropped, wire ∈ w'.dropped) :
    w'.HasFirst c q exporter := by
  rcases h with ⟨f, hf, hleg⟩ | ⟨wire, hwire, hfirst⟩
  · exact .inl ⟨f, hflows f hf, hleg⟩
  · exact .inr ⟨wire, hdropped wire hwire, hfirst⟩

variable {f : Flow} {k i : Nat} {leg leg' : LaneLeg} {w₁ : World}

/-- The flow at a place goes on. -/
theorem World.HasFirst.set (h : w.HasFirst c q exporter) (f' : Flow) (hflow : w.flows[k]? = some f)
    (hflows : w'.flows = w.flows.set k f') (hdropped : ∀ wire ∈ w.dropped, wire ∈ w'.dropped)
    (hleg : (∃ leg ∈ f.lanes, leg.source = some (.quic q exporter 0)) → w'.HasFirst c q exporter) :
    w'.HasFirst c q exporter := by
  rcases h with hex | ⟨wire, hwire, hfirst⟩
  · rcases Slots.exists_set f' hflow hex with hf | hothers
    · exact hleg hf
    · exact .inl (hflows ▸ hothers)
  · exact .inr ⟨wire, hdropped wire hwire, hfirst⟩

/-- A lane that is opened has no stream yet, and no other lane loses its own. -/
theorem World.HasFirst.lane (h : w.HasFirst c q exporter) (hopening : Opening w k i f leg)
    (hstep : LaneStep c w leg w₁ leg') : (w₁.setLane k i f leg').HasFirst c q exporter := by
  refine h.set { f with lanes := f.lanes.set i leg' } hopening.flow ?_ ?_ fun hex => ?_
  · change w₁.flows.set k _ = _
    rw [hstep.flows]
  · intro wire hwire
    cases hstep <;> first | exact hwire | exact List.mem_append_left _ hwire
  · rcases Slots.exists_set leg' hopening.lane hex with hleg | hothers
    · have hnone : leg.source = none := by
        cases hstep with
        | finds looked => rcases looked with rfl | rfl <;> rfl
        | connecting locked => rcases locked with ⟨rfl, _⟩ | ⟨rfl, _⟩ <;> rfl
        | _ => rfl
      rw [hnone] at hleg
      cases hleg
    · have hk := (List.getElem?_eq_some_iff.mp hopening.flow).1
      refine .inl ⟨{ f with lanes := f.lanes.set i leg' }, ?_, hothers⟩
      change _ ∈ w₁.flows.set k _
      rw [hstep.flows]
      exact List.mem_set hk _

/-- A flow that has a first stream has sent the frame, or closes the session when it is dropped. -/
theorem PhysicalLane.At.authenticates {lane : PhysicalLane} {role : FlowRole} {p : Progress}
    (hat : lane.At c f role p) (hfirst : lane.wire.source.isFirst = true) :
    authBytes (lane.wire.source.auth c) <+: lane.wire.written ∨ lane.pendingQuicAuth = true := by
  cases p with
  | fresh => exact .inr (hat.2.trans hfirst)
  | writing rest => exact .inr (hat.2.2.trans hfirst)
  | written => exact .inl ((List.prefix_append _ _).trans hat.2.1)

theorem begun_start (c : Config) : Begun c (.start c) := nofun

theorem Begun.lane (h : Begun c w) (hopening : Opening w k i f leg)
    (hstep : LaneStep c w leg w₁ leg') :
    Begun c (w₁.setLane k i f leg') := by
  intro q s hs hfirst hclosed
  have hold {s₀ : Session} (hs₀ : w.sessions[q]? = some s₀) (hexporter : s₀.exporter = s.exporter)
      (hfirst₀ : s₀.firstStream = false) (hclosed₀ : s₀.closed = false) :
      (w₁.setLane k i f leg').HasFirst c q s.exporter :=
    hexporter ▸ (h q s₀ hs₀ hfirst₀ hclosed₀).lane hopening hstep
  cases hstep with
  | connects exporter =>
    rcases Nat.lt_or_ge q w.sessions.length with hq | hq
    · exact hold ((List.getElem?_append_left hq).symm.trans hs) rfl hfirst hclosed
    · have hnew := List.mem_of_getElem? ((List.getElem?_append_right hq).symm.trans hs)
      rw [List.mem_singleton.mp hnew] at hfirst
      cases hfirst
  | @opensFirst q' s' session first =>
    rcases Slots.getElem?_set_cases hs with ⟨rfl, rfl⟩ | hs
    · exact .inl ⟨_, List.mem_set (List.getElem?_eq_some_iff.mp hopening.flow).1 _, _,
        List.mem_set (List.getElem?_eq_some_iff.mp hopening.lane).1 _, rfl⟩
    · exact hold hs rfl hfirst hclosed
  | @opensNext q' s' session first =>
    rcases Slots.getElem?_set_cases hs with ⟨rfl, rfl⟩ | hs
    · exact hold session rfl first hclosed
    · exact hold hs rfl hfirst hclosed
  | _ => exact hold hs rfl hfirst hclosed

theorem Begun.change (h : Begun c w) (hwired : Wired c w) (hchange : Change c w w') :
    Begun c w' := by
  intro q s hs hfirst hclosed
  cases hchange with
  | environment => exact h q s hs hfirst hclosed
  | closes qs => exact h q s (getElem?_closeSessions hs hclosed).1 hfirst hclosed
  | pool step =>
    rw [step.frame.sessions] at hs
    refine (h q s hs hfirst hclosed).mono (fun f hf => ?_) step.frame.dropped
    rw [step.frame.flows]
    exact hf
  | starts =>
    exact (h q s hs hfirst hclosed).mono (fun f hf => List.mem_append_left _ hf) fun _ hw => hw
  | lane opening step => exact h.lane opening step q s hs hfirst hclosed
  | @flow k f f' e flow step =>
    refine (h q s hs hfirst hclosed).set f' flow rfl (fun _ hw => hw) ?_
    rintro ⟨leg, hleg, hsource⟩
    obtain ⟨leg', hleg', hshape⟩ := exists_of_shape (Flow.shape_step step).symm hleg
    have hk := (List.getElem?_eq_some_iff.mp flow).1
    refine .inl ⟨f', List.mem_set hk _, leg', hleg', ?_⟩
    rw [← LaneLeg.source_shape, hshape, LaneLeg.source_shape, hsource]
  | @dropsFlow k f flow =>
    obtain ⟨hs, hopen⟩ := getElem?_closeSessions hs hclosed
    refine (h q s hs hfirst hclosed).set { f with lanes := [], leg := .dropped } flow rfl
      (fun _ hw => List.mem_append_left _ hw) ?_
    rintro ⟨leg, hleg, hsource⟩
    obtain ⟨lane, hlane, hfirst⟩ := Option.map_eq_some_iff.mp hsource
    have hmem : lane ∈ f.opened := List.mem_filterMap.mpr ⟨leg, hleg, hlane⟩
    obtain ⟨j, mode, role, _, _, _, hat⟩ :=
      (hwired.flows f (List.mem_of_getElem? flow)).at hmem
    rcases hat.authenticates (by rw [hfirst]; rfl) with hsent | hpending
    · exact .inr ⟨lane.wire, List.mem_append_right _ (List.mem_map_of_mem hmem), hfirst, hsent⟩
    · refine absurd (List.mem_filterMap.mpr ⟨lane, hmem, ?_⟩) hopen
      rw [PhysicalLane.abandons, hfirst, hpending]
      rfl
  | same => exact h q s hs hfirst hclosed

end First

/-! ## The cooldown -/

/-- Whether the lane is in `connect`, or has just come back from it. -/
def LaneLeg.attempts : LaneLeg → Nat
  | .connecting | .connected _ => 1
  | _ => 0

/-- The cooldown after a failure is over, if the attempt has failed. -/
def Attempt.CooledBy (c : Config) (time : Nat) (a : Attempt) : Prop :=
  ∀ t, a.failed = some t → t + c.serviceCooldown ≤ time

structure Cooled (c : Config) (w : World) : Prop where
  apart : w.attempts.Pairwise fun a b => a.CooledBy c b.started
  retry : ∀ a ∈ w.attempts, ∀ t, a.failed = some t →
    t + c.serviceCooldown ≤ w.now ∨ w.retryAfter = some (t + c.serviceCooldown)
  pending : 0 < w.sumLanes LaneLeg.attempts → ∀ a ∈ w.attempts, a.CooledBy c w.now

section Cooldown

variable {c : Config} {w w' : World}

theorem LaneLeg.attempts_shape (leg : LaneLeg) : leg.shape.attempts = leg.attempts := by
  cases leg <;> rfl

variable {leg : LaneLeg} {k i : Nat} {f : Flow}

theorem LaneLeg.holdsLock_of_attempts (h : 0 < leg.attempts) :
    leg.holdsLock = true := by
  cases leg <;> first | rfl | cases h

theorem cooled_start (c : Config) : Cooled c (.start c) := ⟨.nil, nofun, fun _ => nofun⟩

/-- Nothing is forgotten that was to be waited for, and no lane begins an attempt. -/
theorem Cooled.frame (h : Cooled c w) (hattempts : w'.attempts = w.attempts)
    (hnow : w.now ≤ w'.now) (hretry : w'.retryAfter = w.retryAfter)
    (hlanes : w'.sumLanes LaneLeg.attempts ≤ w.sumLanes LaneLeg.attempts) : Cooled c w' where
  apart := by
    rw [hattempts]
    exact h.apart
  retry := by
    intro a ha t ht
    rw [hattempts] at ha
    rw [hretry]
    exact (h.retry a ha t ht).imp_left fun hle => Nat.le_trans hle hnow
  pending := by
    intro hpos a ha t ht
    rw [hattempts] at ha
    exact Nat.le_trans (h.pending (Nat.lt_of_lt_of_le hpos hlanes) a ha t ht) hnow

/-- A lane goes on that was in an attempt before, if it is in one now. -/
theorem Cooled.setLane (h : Cooled c w) {w₁ : World} {leg' : LaneLeg}
    (hopening : Opening w k i f leg) (hflows : w₁.flows = w.flows)
    (hattempts : w₁.attempts = w.attempts) (hnow : w₁.now = w.now)
    (hretry : w₁.retryAfter = w.retryAfter) (hleg : leg'.attempts ≤ leg.attempts) :
    Cooled c (w₁.setLane k i f leg') := by
  have hsum := World.sumLanes_setLane (g := LaneLeg.attempts) w₁ leg' hopening hflows
  exact h.frame hattempts (Nat.le_of_eq hnow.symm) hretry (by omega)

/-- The lane at hand is in an attempt. -/
theorem Cooled.past (h : Cooled c w) (hopening : Opening w k i f leg) (hleg : 0 < leg.attempts) :
    ∀ a ∈ w.attempts, a.CooledBy c w.now :=
  h.pending (Nat.lt_of_lt_of_le hleg (World.le_sumLanes (g := LaneLeg.attempts) hopening))

/-- An attempt begins when all failures are past. -/
theorem Cooled.connecting (h : Cooled c w) (hretry : ∀ t, w.retryAfter = some t → t ≤ w.now) :
    Cooled c ({ w with attempts := w.attempts ++ [Attempt.mk w.now none] }.setLane
      k i f .connecting) := by
  have hpast : ∀ a ∈ w.attempts, a.CooledBy c w.now := by
    intro a ha t ht
    rcases h.retry a ha t ht with hover | hwaits
    · exact hover
    · exact hretry _ hwaits
  have hall : ∀ a ∈ w.attempts ++ [Attempt.mk w.now none], a.CooledBy c w.now :=
    List.forall_mem_append.mpr ⟨hpast, List.forall_mem_singleton.mpr nofun⟩
  refine ⟨?_, fun a ha t ht => .inl (hall a ha t ht), fun _ => hall⟩
  refine List.pairwise_append.mpr ⟨h.apart, List.pairwise_singleton .., ?_⟩
  exact fun a ha => List.forall_mem_singleton.mpr (hpast a ha)

/-- The attempt of the one that has the lock is the last. -/
theorem Cooled.connectFails (h : Cooled c w) (hlocked : Locked w)
    (hopening : Opening w k i f .connecting) :
    Cooled c ((w.failConnect c).1.setLane k i f .failed) := by
  have hfree : ∀ f' ∈ ((w.failConnect c).1.setLane k i f .failed).flows,
      ∀ leg ∈ f'.lanes, leg.holdsLock = false := hlocked.forall_free hopening rfl rfl rfl
  have hpast := h.past hopening Nat.one_pos
  refine ⟨?_, ?_, fun hpos => ?_⟩
  · change (w.attempts.modify (w.attempts.length - 1) _).Pairwise _
    -- only the last has changed, and not the time when it started
    refine List.pairwise_iff_getElem.mpr fun i j hi hj hlt => ?_
    have hlength : j < w.attempts.length := List.length_modify .. ▸ hj
    have hapart := List.pairwise_iff_getElem.mp h.apart i j (by omega) hlength hlt
    have hlast : ¬ w.attempts.length - 1 = i := by omega
    rw [List.getElem_modify, List.getElem_modify, if_neg hlast]
    split <;> exact hapart
  · intro a ha t ht
    obtain ⟨j, hj⟩ := List.mem_iff_getElem?.mp ha
    change (w.attempts.modify _ _)[j]? = _ at hj
    rw [List.getElem?_modify] at hj
    obtain ⟨old, hold, rfl⟩ := Option.map_eq_some_iff.mp hj
    split at ht
    · cases ht
      exact .inr rfl
    · exact .inl (hpast old (List.mem_of_getElem? hold) t ht)
  · obtain ⟨f', hf, leg, hleg, hpos⟩ := World.exists_of_sumLanes_pos hpos
    have hholds := LaneLeg.holdsLock_of_attempts hpos
    rw [hfree f' hf leg hleg] at hholds
    cases hholds

theorem Cooled.change (h : Cooled c w) (hlocked : Locked w) (hchange : Change c w w') :
    Cooled c w' := by
  cases hchange with
  | environment later => exact h.frame rfl later rfl (Nat.le_refl _)
  | closes => exact { h with }
  | pool step =>
    obtain ⟨hnow, hflows, _, _, hretry, hattempts, _⟩ := step.frame
    refine h.frame hattempts (Nat.le_of_eq hnow.symm) hretry (Nat.le_of_eq ?_)
    rw [World.sumLanes, hflows]
    rfl
  | starts valid =>
    exact h.frame rfl (Nat.le_refl _) rfl
      (Nat.le_of_eq (World.sumLanes_starts (fun mode => by cases mode <;> rfl) _ _ _))
  | lane opening step =>
    cases step with
    | connecting locked =>
      refine h.connecting fun t ht => ?_
      rcases locked with ⟨_, hnone, _⟩ | ⟨_, hover⟩
      · rw [hnone] at ht
        cases ht
      · exact hover t ht
    | connects exporter => exact h.setLane opening rfl rfl rfl rfl (Nat.le_refl 1)
    | connectFails => exact h.connectFails hlocked opening
    | forgives q =>
      have hpast := h.past opening Nat.one_pos
      exact ⟨h.apart, fun a ha t ht => .inl (hpast a ha t ht), fun _ => hpast⟩
    | _ => exact h.setLane opening rfl rfl rfl rfl (Nat.zero_le _)
  | flow flow step =>
    exact h.frame rfl (Nat.le_refl _) rfl
      (Nat.le_of_eq (World.sumLanes_flow LaneLeg.attempts_shape flow step))
  | dropsFlow flow =>
    have hsum := World.sumLanes_dropFlow (g := LaneLeg.attempts) flow
    exact h.frame rfl (Nat.le_refl _) rfl (by omega)
  | same => exact h

end Cooldown

end Nowhere.Vector.Carriers
