import Nowhere.Vector.CarriersWires

/-!
# The pool

The pool and its tasks never have more lanes than configured, the counter of the TLS links says how
many lanes there are, and `maintain` does not sleep over a lane that was taken (`Pooled`).
-/

namespace Nowhere.Vector.Carriers

open Protocol Common.Socks
open UdpFlow (CarrierMode)

/-! ## Sums over the lanes of all flows -/

/-- What stays of a leg when its lane is used. -/
def LaneLeg.shape : LaneLeg → LaneLeg :=
  LaneLeg.map fun lane => ⟨⟨lane.wire.source, []⟩, none, false⟩

/-- Counts the lanes with a property. -/
def LaneLeg.count (p : PhysicalLane → Bool) : LaneLeg → Nat
  | .opened lane => if p lane then 1 else 0
  | _ => 0

def World.sumLanes (g : LaneLeg → Nat) (w : World) : Nat :=
  Slots.sum (fun f => Slots.sum g f.lanes) w.flows

section Sums

variable {c : Config} {w : World} {f f' : Flow} {g : LaneLeg → Nat}
  {change : PhysicalLane → PhysicalLane} {i k : Nat} {e : FlowEvent}

theorem LaneLeg.shape_map {change : PhysicalLane → PhysicalLane}
    (h : ∀ lane, (change lane).wire.source = lane.wire.source) (leg : LaneLeg) :
    (leg.map change).shape = leg.shape := by
  cases leg with
  | opened lane =>
    change LaneLeg.opened ⟨⟨(change lane).wire.source, []⟩, none, false⟩ = _
    rw [h lane]
    rfl
  | _ => rfl

theorem Flow.shape_onLane (h : ∀ lane, (change lane).wire.source = lane.wire.source) :
    (f.onLane i change).lanes.map LaneLeg.shape = f.lanes.map LaneLeg.shape := by
  apply List.ext_getElem?
  intro j
  change ((f.lanes.modify i (LaneLeg.map change)).map LaneLeg.shape)[j]? = _
  rw [List.getElem?_map, List.getElem?_map, List.getElem?_modify]
  cases f.lanes[j]? with
  | none => rfl
  | some leg =>
    by_cases hj : i = j
    · simp [hj, LaneLeg.shape_map h]
    · simp [hj]

theorem Flow.shape_begin (h : f.begin c i = some f') :
    f'.lanes.map LaneLeg.shape = f.lanes.map LaneLeg.shape := by
  unfold Flow.begin at h
  split at h
  · rename_i mode role lane hplan hlane
    split at h
    · cases h
      obtain ⟨front, back, heq, _, hset⟩ := Slots.exists_split hlane
      change (f.lanes.set i _).map LaneLeg.shape = _
      rw [hset, heq, List.map_append, List.map_append, List.map_cons, List.map_cons]
      rfl
    · cases h
  · cases h

/-- A step of a flow does not exchange its lanes. -/
theorem Flow.shape_step (h : flowStep c f e = some (some f')) :
    f'.lanes.map LaneLeg.shape = f.lanes.map LaneLeg.shape := by
  unfold flowStep at h
  split at h
  · split at h
    · exact Flow.shape_begin (Option.some.inj h)
    · split at h <;> cases h
  · cases h
    exact Flow.shape_onLane fun _ => rfl
  · split at h
    · split at h
      · exact (Flow.shape_begin (Option.some.inj h)).trans (Flow.shape_onLane fun _ => rfl)
      · cases h
        exact Flow.shape_onLane fun _ => rfl
    · cases h
  · cases h
    rfl
  · cases h
    rfl
  · split at h
    · cases h
      exact Flow.shape_onLane fun _ => rfl
    · cases h
  · cases h

theorem sum_of_shape {legs legs' : List LaneLeg} (hg : ∀ leg, g leg.shape = g leg)
    (h : legs'.map LaneLeg.shape = legs.map LaneLeg.shape) :
    Slots.sum g legs' = Slots.sum g legs := by
  have hshape (legs : List LaneLeg) : Slots.sum g legs = ((legs.map LaneLeg.shape).map g).sum := by
    rw [List.map_map]
    exact congrArg List.sum (List.map_congr_left fun leg _ => (hg leg).symm)
  rw [hshape, hshape, h]

theorem sum_count (p : PhysicalLane → Bool) (legs : List LaneLeg) :
    Slots.sum (LaneLeg.count p) legs = (legs.filterMap LaneLeg.lane).countP p := by
  induction legs with
  | nil => rfl
  | cons leg legs ih =>
    rw [Slots.sum_cons, ih]
    cases leg with
    | opened lane =>
      rw [List.filterMap_cons_some (show LaneLeg.lane (.opened lane) = some lane from rfl),
        List.countP_cons, Nat.add_comm]
      rfl
    | _ =>
      rw [List.filterMap_cons_none rfl]
      exact Nat.zero_add _

theorem World.exists_of_sumLanes_pos (h : 0 < w.sumLanes g) :
    ∃ f ∈ w.flows, ∃ leg ∈ f.lanes, 0 < g leg := by
  obtain ⟨f, hf, hpos⟩ := Slots.exists_of_sum_pos h
  exact ⟨f, hf, Slots.exists_of_sum_pos hpos⟩

theorem World.sumLanes_setLane (w₁ : World) {leg : LaneLeg} (leg' : LaneLeg)
    (h : Opening w k i f leg) (hflows : w₁.flows = w.flows) :
    (w₁.setLane k i f leg').sumLanes g + g leg = w.sumLanes g + g leg' := by
  have hlanes := Slots.sum_set g h.lane leg'
  have hset := Slots.sum_set (fun f => Slots.sum g f.lanes) h.flow
    { f with lanes := f.lanes.set i leg' }
  change Slots.sum _ (w₁.flows.set k _) + _ = Slots.sum _ w.flows + _
  rw [hflows]
  dsimp only at hset
  omega

theorem World.sumLanes_flow (hg : ∀ leg, g leg.shape = g leg) (hflow : w.flows[k]? = some f)
    (h : flowStep c f e = some (some f')) :
    World.sumLanes g { w with flows := w.flows.set k f' } = w.sumLanes g := by
  have hset := Slots.sum_set (fun f => Slots.sum g f.lanes) hflow f'
  have hsame := sum_of_shape hg (Flow.shape_step h)
  change Slots.sum _ (w.flows.set k f') = Slots.sum _ w.flows
  omega

theorem World.sumLanes_dropFlow (hflow : w.flows[k]? = some f) :
    (w.dropFlow k f).sumLanes g + Slots.sum g f.lanes = w.sumLanes g := by
  have hset := Slots.sum_set (fun f => Slots.sum g f.lanes) hflow
    { f with lanes := [], leg := .dropped }
  exact hset

theorem World.sumLanes_append (f : Flow) :
    World.sumLanes g { w with flows := w.flows ++ [f] } = w.sumLanes g + Slots.sum g f.lanes := by
  change Slots.sum _ (w.flows ++ [f]) = _
  rw [Slots.sum_append, Slots.sum_cons, Slots.sum_nil]
  rfl

/-- A flow that starts adds nothing if none of its lanes counts. -/
theorem World.sumLanes_starts (hg : ∀ mode, g (startLane mode) = 0) (id : FlowId) (kind : FlowKind)
    (target : Target) :
    World.sumLanes g { w with flows := w.flows ++
      [⟨id, kind, target, c.plan.map fun lane => startLane lane.1, .opening⟩] } = w.sumLanes g := by
  rw [World.sumLanes_append]
  refine Nat.add_eq_left.mpr (Nat.eq_zero_of_not_pos fun hpos => ?_)
  obtain ⟨leg, hleg, hpos⟩ := Slots.exists_of_sum_pos hpos
  obtain ⟨lane, _, rfl⟩ := List.mem_map.mp hleg
  exact Nat.ne_of_gt hpos (hg lane.1)

end Sums

/-! ## The pool -/

/-- Whether the leg has a TLS lane. -/
def LaneLeg.links : LaneLeg → Nat := LaneLeg.count PhysicalLane.isTls

def LaneLeg.acquirers (leg : LaneLeg) : Nat := if leg.acquires then 1 else 0

/-- `maintain` has tasks. -/
def MaintainLeg.joins : MaintainLeg → Bool
  | .joining _ | .storing _ _ => true
  | _ => false

/-- `maintain` waits, or will wait if nothing fails. -/
def MaintainLeg.listens : MaintainLeg → Bool
  | .joining false | .storing _ false | .waiting => true
  | _ => false

/-- The lanes that tasks of the pool have. -/
def readyLanes (connectors : List Connector) : Nat := Slots.sum (fun k => k.lanes.length) connectors

/-- The lanes that the pool has, or will have if nothing fails. -/
def World.stock (w : World) : Nat :=
  w.idle.length + w.maintain.lanes.length + w.connectors.length

structure Pooled (c : Config) (w : World) : Prop where
  links : w.linkTcp = w.idle.length + w.maintain.lanes.length +
    readyLanes w.connectors + w.sumLanes LaneLeg.links
  room : w.idle.length + w.maintain.lanes.length + w.preparing ≤ c.pool
  preparing : w.maintain ≠ .aborted → w.preparing = w.connectors.length
  connectors : w.maintain.joins = false → w.connectors = []
  returned : w.maintain = .returned → w.idle = []
  noticed : w.maintain.listens = true → w.stock < c.pool →
    w.notified = true ∨ w.missed = true ∨ w.cancelled = true ∨ 0 < w.sumLanes LaneLeg.acquirers

section Pool

variable {c : Config} {w w' : World}

theorem pooled_start (c : Config) : Pooled c (.start c) where
  links := by
    unfold World.start
    split <;> rfl
  room := by
    unfold World.start
    split <;> exact Nat.zero_le _
  preparing := fun _ => rfl
  connectors := fun _ => rfl
  returned := fun _ => rfl
  noticed := by
    intro hlistens
    unfold World.start at hlistens
    split at hlistens <;> cases hlistens

theorem LaneLeg.links_shape (leg : LaneLeg) : leg.shape.links = leg.links := by
  cases leg <;> rfl

theorem LaneLeg.acquires_of_pos {leg : LaneLeg} (h : 0 < leg.acquirers) : leg.acquires = true := by
  simpa [LaneLeg.acquirers, Nat.pos_iff_ne_zero] using h

theorem LaneLeg.acquirers_shape (leg : LaneLeg) : leg.shape.acquirers = leg.acquirers := by
  cases leg <;> rfl

variable {k i : Nat} {f : Flow} {w₁ : World} {leg leg' : LaneLeg}

theorem World.le_sumLanes {g : LaneLeg → Nat} (h : Opening w k i f leg) :
    g leg ≤ w.sumLanes g :=
  Nat.le_trans (Slots.le_sum g (List.mem_of_getElem? h.lane))
    (Slots.le_sum (fun f => Slots.sum g f.lanes) (List.mem_of_getElem? h.flow))

/-- Nothing happens to the pool, but that `maintain` may be woken. -/
structure SamePool (w w' : World) : Prop where
  linkTcp : w'.linkTcp = w.linkTcp
  idle : w'.idle = w.idle
  maintain : w'.maintain = w.maintain
  connectors : w'.connectors = w.connectors
  preparing : w'.preparing = w.preparing
  notified : w.notified = true → w'.notified = true
  missed : w.missed = true → w'.missed = true
  cancelled : w.cancelled = true → w'.cancelled = true

theorem Pooled.frame (h : Pooled c w) (hpool : SamePool w w')
    (hlinks : w'.sumLanes LaneLeg.links = w.sumLanes LaneLeg.links)
    (hacquirers : w.sumLanes LaneLeg.acquirers ≤ w'.sumLanes LaneLeg.acquirers ∨
      w'.missed = true) : Pooled c w' where
  links := by
    rw [hpool.linkTcp, hpool.idle, hpool.maintain, hpool.connectors, hlinks]
    exact h.links
  room := by
    rw [hpool.idle, hpool.maintain, hpool.preparing]
    exact h.room
  preparing := by
    rw [hpool.maintain, hpool.preparing, hpool.connectors]
    exact h.preparing
  connectors := by
    rw [hpool.maintain, hpool.connectors]
    exact h.connectors
  returned := by
    rw [hpool.maintain, hpool.idle]
    exact h.returned
  noticed := by
    rw [World.stock, hpool.maintain, hpool.idle, hpool.connectors]
    intro hlistens hshort
    rcases h.noticed hlistens hshort with hnotified | hmissed | hcancelled | hpos
    · exact .inl (hpool.notified hnotified)
    · exact .inr (.inl (hpool.missed hmissed))
    · exact .inr (.inr (.inl (hpool.cancelled hcancelled)))
    · rcases hacquirers with hle | hmissed
      · exact .inr (.inr (.inr (Nat.lt_of_lt_of_le hpos hle)))
      · exact .inr (.inl hmissed)

/-- A lane of a flow goes on without the pool. -/
theorem Pooled.setLane (h : Pooled c w) (hopening : Opening w k i f leg)
    (hflows : w₁.flows = w.flows) (hlinks : leg'.links = leg.links)
    (hacquirers : leg.acquirers ≤ leg'.acquirers ∨ w₁.missed = true) (hpool : SamePool w w₁) :
    Pooled c (w₁.setLane k i f leg') := by
  have hsum := World.sumLanes_setLane (g := LaneLeg.links) w₁ leg' hopening hflows
  have hsum' := World.sumLanes_setLane (g := LaneLeg.acquirers) w₁ leg' hopening hflows
  refine h.frame { hpool with } (by omega) ?_
  rcases hacquirers with hle | hmissed
  · exact .inl (by omega)
  · exact .inr hmissed

/-- A task of the pool goes on. -/
theorem Pooled.connector (h : Pooled c w) {k k' : Connector} {e : ConnectorEvent}
    (htask : w.connectors[i]? = some k) (hstep : connectorStep c w k e = some (w₁, k')) :
    Pooled c { w₁ with connectors := w.connectors.set i k' } := by
  obtain ⟨links, dropped, rfl, hmade⟩ := connectorStep_eq hstep
  have hlinks := h.links
  have hsum : readyLanes (w.connectors.set i k') + k.lanes.length =
      readyLanes w.connectors + k'.lanes.length := Slots.sum_set _ htask k'
  have hlength : (w.connectors.set i k').length = w.connectors.length := List.length_set
  refine ⟨?_, h.room, fun hne => (h.preparing hne).trans hlength.symm, fun hjoins => ?_, h.returned,
    fun hlistens hshort => h.noticed hlistens ?_⟩
  · change links = w.idle.length + w.maintain.lanes.length +
      readyLanes (w.connectors.set i k') + w.sumLanes LaneLeg.links
    omega
  · change w.connectors.set i k' = []
    rw [h.connectors hjoins]
    rfl
  · change _ + _ + (w.connectors.set i k').length < c.pool at hshort
    rwa [hlength] at hshort

/-- `maintain` has no tasks. -/
theorem Pooled.alone (h : Pooled c w) {leg : MaintainLeg} (hleg : w.maintain = leg)
    (hjoins : leg.joins = false) (haborted : leg ≠ .aborted) :
    w.connectors = [] ∧ w.preparing = w.connectors.length :=
  ⟨h.connectors (hleg ▸ hjoins), h.preparing (hleg ▸ haborted)⟩

theorem Pooled.moves (h : Pooled c w) {leg : MaintainLeg} {notified : Bool}
    (hmoves : MaintainLeg.Moves w leg notified) :
    Pooled c { w with maintain := leg, notified := notified } := by
  have hlinks := h.links
  have hroom := h.room
  obtain ⟨hbefore, hafter, haborted⟩ :
      w.maintain.lanes = [] ∧ leg.lanes = [] ∧ w.maintain ≠ .aborted := by
    cases hmoves with
    | checks hleg => rcases hleg with hleg | hleg <;> simp [hleg, MaintainLeg.lanes]
    | _ hleg => simp [hleg, MaintainLeg.lanes]
  have hempty : w.connectors = [] := by
    cases hmoves with
    | checks hleg => exact h.connectors (by rcases hleg with hleg | hleg <;> rw [hleg] <;> rfl)
    | cools _ hjoined => exact hjoined
    | waits _ hjoined => exact hjoined
    | _ hleg => exact h.connectors (by rw [hleg]; rfl)
  rw [hbefore] at hlinks hroom
  refine ⟨?_, ?_, fun _ => h.preparing haborted, fun _ => hempty, ?_, ?_⟩
  · change w.linkTcp = w.idle.length + leg.lanes.length + _ + w.sumLanes LaneLeg.links
    rw [hafter]
    exact hlinks
  · change w.idle.length + leg.lanes.length + w.preparing ≤ c.pool
    rw [hafter]
    exact hroom
  · cases hmoves <;> exact nofun
  · intro hlistens hshort
    cases hmoves with
    | waits hleg =>
      refine h.noticed (by rw [hleg]; rfl) ?_
      rw [World.stock, hleg]
      exact hshort
    | _ => cases hlistens

theorem Pooled.poolStep (h : Pooled c w) (hstep : PoolStep c w w') : Pooled c w' := by
  have hlinks := h.links
  have hroom := h.room
  cases hstep with
  | maintains moves => exact h.moves moves
  | clears leg =>
    obtain ⟨hempty, hpreparing⟩ := h.alone leg rfl (by simp)
    rw [leg] at hlinks
    refine ⟨?_, ?_, fun _ => hpreparing, fun _ => hempty, fun _ => rfl, by rintro ⟨⟩⟩
    · change w.linkTcp - w.idle.length = 0 + 0 + readyLanes w.connectors + w.sumLanes LaneLeg.links
      change _ = w.idle.length + 0 + _ + _ at hlinks
      omega
    · change 0 + 0 + w.preparing ≤ c.pool
      omega
  | retains leg =>
    obtain ⟨hempty, hpreparing⟩ := h.alone leg rfl (by simp)
    have hlength := List.length_eq_length_filter_add (l := w.idle) fun lane => lane.expired w.now
    rw [leg] at hlinks hroom
    change _ = w.idle.length + 0 + _ + _ at hlinks
    change w.idle.length + 0 + _ ≤ _ at hroom
    refine ⟨?_, ?_, fun _ => hpreparing, fun _ => hempty, by rintro ⟨⟩, by rintro ⟨⟩⟩
    · change w.linkTcp - (w.idle.filter fun lane => lane.expired w.now).length =
        (w.idle.filter fun lane => !lane.expired w.now).length + 0 + readyLanes w.connectors +
          w.sumLanes LaneLeg.links
      omega
    · change (w.idle.filter fun lane => !lane.expired w.now).length + 0 + w.preparing ≤ c.pool
      omega
  | @spawns missing leg short =>
    obtain ⟨hempty, hpreparing⟩ := h.alone leg rfl (by simp)
    rw [hempty, List.length_nil] at hpreparing
    rw [leg, hempty] at hlinks
    change _ = w.idle.length + 0 + 0 + _ at hlinks
    have hnone : readyLanes (List.replicate missing .dialing) = 0 := by
      rw [readyLanes, Slots.sum, List.map_replicate, List.sum_replicate]
      rfl
    refine ⟨?_, ?_, fun _ => ?_, by rintro ⟨⟩, by rintro ⟨⟩, fun _ hshort => ?_⟩
    · change w.linkTcp = w.idle.length + 0 + readyLanes (List.replicate missing .dialing) +
        w.sumLanes LaneLeg.links
      omega
    · change w.idle.length + 0 + (w.preparing + missing) ≤ c.pool
      omega
    · change w.preparing + missing = (List.replicate missing Connector.dialing).length
      rw [hpreparing, List.length_replicate, Nat.zero_add]
    · change w.idle.length + 0 + (List.replicate missing Connector.dialing).length < c.pool
        at hshort
      rw [List.length_replicate] at hshort
      omega
  | rests leg full =>
    obtain ⟨hempty, hpreparing⟩ := h.alone leg rfl (by simp)
    rw [leg] at hlinks hroom
    refine ⟨hlinks, hroom, fun _ => hpreparing, fun _ => hempty, by rintro ⟨⟩, fun _ hshort => ?_⟩
    change w.idle.length + 0 + w.connectors.length < c.pool at hshort
    omega
  | @stores lane connectFailed leg room =>
    have hpreparing := h.preparing (by simp [leg])
    have hnoticed := h.noticed
    rw [World.stock, leg] at hnoticed
    rw [leg] at hlinks hroom
    change _ = w.idle.length + 1 + _ + _ at hlinks
    change w.idle.length + 1 + _ ≤ _ at hroom
    have hlength : (w.idle ++ [lane]).length = w.idle.length + 1 := List.length_append
    refine ⟨?_, ?_, fun _ => hpreparing, by rintro ⟨⟩, by rintro ⟨⟩, fun hlistens hshort => ?_⟩
    · change w.linkTcp = (w.idle ++ [lane]).length + 0 + readyLanes w.connectors +
        w.sumLanes LaneLeg.links
      omega
    · change (w.idle ++ [lane]).length + 0 + w.preparing ≤ c.pool
      omega
    · change (w.idle ++ [lane]).length + 0 + w.connectors.length < c.pool at hshort
      refine hnoticed ?_ ?_
      · cases connectFailed with
        | true => cases hlistens
        | false => rfl
      · change w.idle.length + 1 + w.connectors.length < c.pool
        omega
  | @discards lane connectFailed leg full =>
    have hpreparing := h.preparing (by simp [leg])
    rw [leg] at hlinks hroom
    change _ = w.idle.length + 1 + _ + _ at hlinks
    change w.idle.length + 1 + _ ≤ _ at hroom
    refine ⟨?_, ?_, fun _ => hpreparing, by rintro ⟨⟩, by rintro ⟨⟩, fun _ _ => ?_⟩
    · change w.linkTcp - 1 = w.idle.length + 0 + readyLanes w.connectors + w.sumLanes LaneLeg.links
      omega
    · change w.idle.length + 0 + w.preparing ≤ c.pool
      omega
    · -- there is room for a lane that was prepared
      rcases full with hfull | hcancelled
      · omega
      · exact .inr (.inr (.inl hcancelled))
  | @joins i k connectFailed leg joining task done =>
    have hpreparing := h.preparing (by simp [joining])
    have hnoticed := h.noticed
    rw [World.stock, joining] at hnoticed
    rw [joining] at hlinks hroom
    change _ = w.idle.length + 0 + _ + _ at hlinks
    change w.idle.length + 0 + _ ≤ _ at hroom
    have hsum := Slots.sum_eraseIdx (fun k : Connector => k.lanes.length) task
    change readyLanes (w.connectors.eraseIdx i) + _ = readyLanes w.connectors at hsum
    have hi := (List.getElem?_eq_some_iff.mp task).1
    have hlength := List.length_eraseIdx_of_lt hi
    have hlanes : leg.lanes.length = k.lanes.length ∧ leg.lanes.length ≤ 1 := by
      rcases done with ⟨lane, rfl, rfl⟩ | ⟨rfl, rfl⟩
      · exact ⟨rfl, Nat.le_refl 1⟩
      · exact ⟨rfl, Nat.zero_le 1⟩
    refine ⟨?_, ?_, fun _ => ?_, ?_, ?_, ?_⟩
    · change w.linkTcp = w.idle.length + leg.lanes.length + readyLanes (w.connectors.eraseIdx i) +
        w.sumLanes LaneLeg.links
      omega
    · change w.idle.length + leg.lanes.length + (w.preparing - 1) ≤ c.pool
      omega
    · change w.preparing - 1 = (w.connectors.eraseIdx i).length
      omega
    · rcases done with ⟨lane, _, rfl⟩ | ⟨_, rfl⟩ <;> rintro ⟨⟩
    · rcases done with ⟨lane, _, rfl⟩ | ⟨_, rfl⟩ <;> rintro ⟨⟩
    · rcases done with ⟨lane, _, rfl⟩ | ⟨_, rfl⟩
      · intro hlistens hshort
        change w.idle.length + 1 + (w.connectors.eraseIdx i).length < c.pool at hshort
        refine hnoticed ?_ ?_
        · cases connectFailed with
          | true => cases hlistens
          | false => rfl
        · change w.idle.length + 0 + w.connectors.length < c.pool
          omega
      · rintro ⟨⟩
  | aborts =>
    have hsum : (w.connectors.flatMap Connector.lanes).length = readyLanes w.connectors :=
      List.length_flatMap
    refine ⟨?_, ?_, fun hne => absurd rfl hne, fun _ => rfl, by rintro ⟨⟩, by rintro ⟨⟩⟩
    · change w.linkTcp - (w.maintain.lanes ++ w.connectors.flatMap Connector.lanes).length =
        w.idle.length + 0 + 0 + w.sumLanes LaneLeg.links
      rw [List.length_append]
      omega
    · change w.idle.length + 0 + w.preparing ≤ c.pool
      omega
  | connector task step => exact h.connector task step

theorem Pooled.laneStep (h : Pooled c w) (opening : Opening w k i f leg)
    (hstep : LaneStep c w leg w₁ leg') :
    Pooled c (w₁.setLane k i f leg') := by
  have hlinks := h.links
  have hroom := h.room
  have hlength {lane : TlsLane} {idle : List TlsLane} (front : w.idle = lane :: idle) :
      w.idle.length = idle.length + 1 := congrArg List.length front
  cases hstep with
  | @takes lane idle front =>
    have hsum := World.sumLanes_setLane (g := LaneLeg.links) { w with
      idle := idle
      notified := true } (.opened lane.intoParts) opening rfl
    change _ + 0 = _ + 1 at hsum
    have hidle := hlength front
    refine ⟨?_, ?_, h.preparing, h.connectors, fun hreturned => ?_, fun _ _ => .inl rfl⟩
    · change w.linkTcp = idle.length + w.maintain.lanes.length + readyLanes w.connectors + _
      omega
    · change idle.length + w.maintain.lanes.length + w.preparing ≤ c.pool
      omega
    · exact absurd ((h.returned hreturned).symm.trans front) nofun
  | @skips lane idle front =>
    have hsum := World.sumLanes_setLane (g := LaneLeg.links)
      ({ w with idle := idle }.dropTls [lane]) .acquiring opening rfl
    have hsum' := World.sumLanes_setLane (g := LaneLeg.acquirers)
      ({ w with idle := idle }.dropTls [lane]) .acquiring opening rfl
    have hpos : 1 ≤ w.sumLanes LaneLeg.acquirers :=
      World.le_sumLanes (g := LaneLeg.acquirers) opening
    have hidle := hlength front
    refine ⟨?_, ?_, h.preparing, h.connectors, fun hreturned => ?_, fun _ _ => ?_⟩
    · change w.linkTcp - 1 =
        idle.length + w.maintain.lanes.length + readyLanes w.connectors + _
      omega
    · change idle.length + w.maintain.lanes.length + w.preparing ≤ c.pool
      omega
    · exact absurd ((h.returned hreturned).symm.trans front) nofun
    · exact .inr (.inr (.inr (by omega)))
  | dials exporter =>
    have hsum := World.sumLanes_setLane (g := LaneLeg.links) { w with
      linkTcp := w.linkTcp + 1
      notified := true }
      (.opened ⟨⟨.tls exporter, []⟩, (Source.tls exporter).auth c, false⟩) opening rfl
    change _ + 0 = _ + 1 at hsum
    refine ⟨?_, h.room, h.preparing, h.connectors, h.returned, fun _ _ => .inl rfl⟩
    change w.linkTcp + 1 = w.idle.length + w.maintain.lanes.length + readyLanes w.connectors + _
    omega
  | dialFails =>
    exact h.setLane opening rfl rfl (.inr rfl)
      ⟨rfl, rfl, rfl, rfl, rfl, id, fun _ => rfl, id⟩
  | finds looked =>
    refine h.setLane opening rfl ?_ (.inl ?_) ⟨rfl, rfl, rfl, rfl, rfl, id, id, id⟩ <;>
      rcases looked with rfl | rfl <;> rfl
  | connecting locked =>
    refine h.setLane opening rfl ?_ (.inl ?_) ⟨rfl, rfl, rfl, rfl, rfl, id, id, id⟩ <;>
      rcases locked with ⟨rfl, _⟩ | ⟨rfl, _⟩ <;> rfl
  | _ =>
    exact h.setLane opening rfl rfl (.inl (Nat.le_refl _))
      ⟨rfl, rfl, rfl, rfl, rfl, id, id, id⟩

theorem Pooled.change (h : Pooled c w) (hchange : Change c w w') : Pooled c w' := by
  cases hchange with
  | environment later stays =>
    exact h.frame ⟨rfl, rfl, rfl, rfl, rfl, id, id, stays⟩ rfl (.inl (Nat.le_refl _))
  | closes => exact h.frame ⟨rfl, rfl, rfl, rfl, rfl, id, id, id⟩ rfl (.inl (Nat.le_refl _))
  | pool step => exact h.poolStep step
  | starts valid =>
    refine h.frame ⟨rfl, rfl, rfl, rfl, rfl, fun hw => hw, fun hw => hw, fun hw => hw⟩
      (World.sumLanes_starts (fun mode => by cases mode <;> rfl) _ _ _) (.inl ?_)
    rw [World.sumLanes_append]
    exact Nat.le_add_right _ _
  | lane opening step => exact h.laneStep opening step
  | flow flow step =>
    exact h.frame ⟨rfl, rfl, rfl, rfl, rfl, id, id, id⟩
      (World.sumLanes_flow LaneLeg.links_shape flow step)
      (.inl (Nat.le_of_eq (World.sumLanes_flow LaneLeg.acquirers_shape flow step).symm))
  | @dropsFlow k f flow =>
    have hsum := World.sumLanes_dropFlow (g := LaneLeg.links) flow
    have hsum' := World.sumLanes_dropFlow (g := LaneLeg.acquirers) flow
    have hcount : Slots.sum LaneLeg.links f.lanes = f.opened.countP PhysicalLane.isTls :=
      sum_count _ _
    have hlinks := h.links
    refine ⟨?_, h.room, h.preparing, h.connectors, h.returned, fun hlistens hshort => ?_⟩
    · change w.linkTcp - f.opened.countP PhysicalLane.isTls =
        w.idle.length + w.maintain.lanes.length + readyLanes w.connectors + _
      omega
    · change _ ∨ (w.missed || f.lanes.any LaneLeg.acquires) = true ∨ _ ∨ _
      rcases h.noticed hlistens hshort with hnotified | hmissed | hcancelled | hpos
      · exact .inl hnotified
      · exact .inr (.inl (by rw [hmissed, Bool.true_or]))
      · exact .inr (.inr (.inl hcancelled))
      · rcases Nat.eq_zero_or_pos (Slots.sum LaneLeg.acquirers f.lanes) with hzero | hpos'
        · exact .inr (.inr (.inr (by omega)))
        · obtain ⟨leg, hleg, hacquires⟩ := Slots.exists_of_sum_pos hpos'
          have hany : f.lanes.any LaneLeg.acquires = true :=
            List.any_eq_true.mpr ⟨leg, hleg, LaneLeg.acquires_of_pos hacquires⟩
          exact .inr (.inl (by rw [hany, Bool.or_true]))
  | same => exact h

end Pool

end Nowhere.Vector.Carriers
