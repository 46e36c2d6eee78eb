import Nowhere.Vector.CarriersSteps

/-!
# What is written to the lanes

A lane is fresh, or its request is being written, or it is written (`Progress`), and that says what
is on its stream: the authentication frame of the connection comes first and once, wherever the lane
has been before (`PhysicalLane.At`). A step of a flow moves one lane on (`Flow.Sound.step`), and
whatever is dropped on the way is the front of an opening or begins with one (`Wired`).
-/

namespace Nowhere.Vector.Carriers

open Protocol Common.Socks
open UdpFlow (CarrierMode)

/-! ## Requests -/

/-- What a flow writes to a lane behind the authentication frame. -/
def Flow.request (c : Config) (f : Flow) (role : FlowRole) : List UInt8 :=
  writeFlowHeader (f.header c role) ++ (f.targetFor role).elim [] Target.wire

section Requests

variable {c : Config} {f : Flow} {role : FlowRole} {pendingAuth : Option AuthFrame}

theorem Flow.writeOpening_eq (htarget : f.target.Valid)
    (hvalid : (f.header c role).validate = .ok ()) :
    writeOpening pendingAuth (f.header c role) (f.targetFor role) =
      .ok (authBytes pendingAuth ++ f.request c role) := by
  unfold Flow.request Flow.targetFor
  split
  · rw [writeOpening, writeHeader_eq _ hvalid]
    simp
  · rw [writeOpening, writeOpenRequest_eq _ hvalid htarget]
    simp

theorem Flow.validate_of_writeOpening {bytes : List UInt8}
    (h : writeOpening pendingAuth (f.header c role) (f.targetFor role) = .ok bytes) :
    (f.header c role).validate = .ok () := by
  unfold Flow.targetFor at h
  split at h <;> exact (check_bind_eq_ok.mp h).1

theorem Flow.carriesTarget_header (f : Flow) (role : FlowRole) :
    (f.header c role).carriesTarget = (f.targetFor role).isSome := by
  cases role <;> rfl

theorem Flow.targetFor_some {target : Target} (h : f.targetFor role = some target) :
    target = f.target := by
  cases role <;> cases h <;> rfl

/-- A header that is valid is valid on the carrier of its lane. -/
theorem Flow.validateOn {mode : CarrierMode} {j : Nat} (hplan : c.plan[j]? = some (mode, role))
    (hvalid : (f.header c role).validate = .ok ()) :
    (f.header c role).validateOn (carrier mode) = .ok () := by
  rw [FlowHeader.validateOn, hvalid]
  have hmem := List.mem_of_getElem? hplan
  unfold Config.plan at hmem
  split at hmem
  · cases List.mem_singleton.mp hmem
    simp [bind, Except.bind, Flow.header]
  · rcases List.mem_pair.mp hmem with heq | heq <;>
      cases heq <;> simp [bind, Except.bind, Flow.header]

end Requests

/-! ## Lanes of a flow -/

inductive Progress
  | fresh
  | writing (rest : List UInt8)
  | written

/-- How far the lane at a place is. -/
def FlowLeg.progress (leg : FlowLeg) (j : Nat) : Progress :=
  match leg with
  | .opening | .dropped => .fresh
  | .writing i rest => if j < i then .written else if j = i then .writing rest else .fresh
  | .shutting | .awaiting | .tunnel => .written

/-- The stream that has the authentication frame of a QUIC session. -/
def Source.isFirst : Source → Bool
  | .quic _ _ 0 => true
  | _ => false

def PhysicalLane.At (c : Config) (f : Flow) (role : FlowRole) (lane : PhysicalLane) :
    Progress → Prop
  | .fresh =>
    lane.wire.written ++ authBytes lane.pendingAuth = authBytes (lane.wire.source.auth c) ∧
      lane.pendingQuicAuth = lane.wire.source.isFirst
  | .writing rest =>
    (f.header c role).validate = .ok () ∧
      lane.wire.written ++ rest = authBytes (lane.wire.source.auth c) ++ f.request c role ∧
      lane.pendingQuicAuth = lane.wire.source.isFirst
  | .written =>
    (f.header c role).validate = .ok () ∧
      authBytes (lane.wire.source.auth c) ++ f.request c role <+: lane.wire.written ∧
      lane.pendingQuicAuth = false

def LaneLeg.At (c : Config) (f : Flow) (mode : CarrierMode) (role : FlowRole) (p : Progress) :
    LaneLeg → Prop
  | .opened lane => lane.wire.source.carrier = carrier mode ∧ lane.At c f role p
  | .acquiring | .dialing => mode = .tcp ∧ p = .fresh
  | .failed => p = .fresh
  | _ => mode = .udp ∧ p = .fresh

/-- The lanes of a flow are as far as `p` says. -/
structure Flow.Has (c : Config) (f : Flow) (p : Nat → Progress) : Prop where
  target : f.target.Valid
  length : f.leg ≠ .dropped → f.lanes.length = c.plan.length
  short : f.lanes.length ≤ c.plan.length
  lanes : ∀ (j : Nat) (mode : CarrierMode) (role : FlowRole) (leg : LaneLeg),
    c.plan[j]? = some (mode, role) → f.lanes[j]? = some leg → leg.At c f mode role (p j)

def Flow.Sound (c : Config) (f : Flow) : Prop := f.Has c f.leg.progress

section Flows

variable {c : Config} {f f' : Flow} {p : Nat → Progress} {i : Nat}

theorem Flow.Has.congr (h : f.Has c p) {p' : Nat → Progress} {leg : FlowLeg}
    (hleg : leg ≠ .dropped → f.leg ≠ .dropped) (hp : ∀ j < f.lanes.length, p' j = p j) :
    Flow.Has c { f with leg := leg } p' where
  target := h.target
  length := fun hne => h.length (hleg hne)
  short := h.short
  lanes := fun j mode role l hplan hlane => by
    rw [hp j (List.getElem?_eq_some_iff.mp hlane).1]
    exact h.lanes j mode role l hplan hlane

/-- The lane at one place changes. -/
theorem Flow.Has.change (h : f.Has c p) {lanes : List LaneLeg} (q : Progress)
    (hlength : lanes.length = f.lanes.length) (hothers : ∀ j, i ≠ j → lanes[j]? = f.lanes[j]?)
    (hleg : ∀ mode role leg, c.plan[i]? = some (mode, role) → lanes[i]? = some leg →
      leg.At c f mode role q) :
    Flow.Has c { f with lanes := lanes } fun j => if j = i then q else p j where
  target := h.target
  length := fun hne => hlength.trans (h.length hne)
  short := hlength ▸ h.short
  lanes := by
    intro j mode role l hplan hlane
    by_cases hj : j = i
    · subst hj
      rw [if_pos rfl]
      exact hleg mode role l hplan hlane
    · rw [if_neg hj]
      exact h.lanes j mode role l hplan ((hothers j (Ne.symm hj)).symm.trans hlane)

/-- A lane is replaced. -/
theorem Flow.Has.set (h : f.Has c p) (leg : LaneLeg) (q : Progress)
    (hleg : ∀ mode role, c.plan[i]? = some (mode, role) → leg.At c f mode role q) :
    Flow.Has c { f with lanes := f.lanes.set i leg } fun j => if j = i then q else p j := by
  refine h.change q List.length_set (fun j hj => List.getElem?_set_ne hj) ?_
  intro mode role l hplan hlane
  rw [List.getElem?_set, if_pos rfl] at hlane
  cases (Option.ite_none_right_eq_some.mp hlane).2
  exact hleg mode role hplan

/-- Something happens to a lane that is not fresh. -/
theorem Flow.Has.onLane (h : f.Has c p) (change : PhysicalLane → PhysicalLane) (q : Progress)
    (hp : p i ≠ .fresh)
    (hchange : ∀ role lane, lane.At c f role (p i) →
      (change lane).wire.source = lane.wire.source ∧ (change lane).At c f role q) :
    (f.onLane i change).Has c fun j => if j = i then q else p j := by
  refine h.change q (List.length_modify ..) (fun j hj => List.getElem?_modify_ne _ _ hj) ?_
  intro mode role l hplan hlane
  rw [List.getElem?_modify_eq] at hlane
  obtain ⟨leg, hleg, rfl⟩ := Option.map_eq_some_iff.mp hlane
  have hat := h.lanes i mode role leg hplan hleg
  cases leg with
  | opened lane =>
    obtain ⟨hsource, hat'⟩ := hchange role lane hat.2
    exact ⟨by rw [hsource]; exact hat.1, hat'⟩
  | failed => exact absurd hat hp
  | _ => exact absurd hat.2 hp

/-- A request is made for a fresh lane. -/
theorem Flow.Has.begin (h : f.Has c p) (hleg : f.leg ≠ .dropped) (hp : p i = .fresh)
    (hbegin : f.begin c i = some f') :
    ∃ bytes, f'.leg = .writing i bytes ∧
      f'.Has c fun j => if j = i then .writing bytes else p j := by
  unfold Flow.begin at hbegin
  split at hbegin
  · rename_i mode role lane hplan hlane
    split at hbegin
    · rename_i bytes hbytes
      cases hbegin
      have hvalid := Flow.validate_of_writeOpening hbytes
      have heq := hbytes.symm.trans (Flow.writeOpening_eq h.target hvalid)
      cases heq
      refine ⟨_, rfl, ?_⟩
      have hset := h.set (i := i) (.opened { lane with pendingAuth := none })
        (.writing (authBytes lane.pendingAuth ++ f.request c role)) ?_
      · exact hset.congr (fun _ => hleg) fun _ _ => rfl
      · intro mode' role' hplan'
        cases hplan.symm.trans hplan'
        have hat := h.lanes i mode role _ hplan hlane
        rw [hp] at hat
        refine ⟨hat.1, hvalid, ?_, hat.2.2⟩
        rw [← List.append_assoc, hat.2.1]
    · cases hbegin
  · cases hbegin

theorem FlowLeg.progress_self (i : Nat) (rest : List UInt8) :
    (FlowLeg.writing i rest).progress i = .writing rest := by
  simp [FlowLeg.progress]

/-- The lane at hand is written. -/
theorem Flow.Sound.wrote (h : f.Sound c) {rest : List UInt8} (hleg : f.leg = .writing i rest)
    (n : Nat) :
    Flow.Sound c { f.onLane i fun lane =>
      { lane with wire := lane.wire.write (rest.take n) } with
        leg := .writing i (rest.drop n) } := by
  rw [Flow.Sound, hleg] at h
  refine (h.onLane _ (.writing (rest.drop n)) ?_ ?_).congr ?_ ?_
  · rw [FlowLeg.progress_self]
    exact nofun
  · intro role lane hat
    rw [FlowLeg.progress_self] at hat
    refine ⟨rfl, hat.1, ?_, hat.2.2⟩
    change (lane.wire.written ++ rest.take n) ++ rest.drop n = _
    rw [List.append_assoc, List.take_append_drop]
    exact hat.2.1
  · simp [Flow.onLane, hleg]
  · intro j _
    unfold FlowLeg.progress
    by_cases hj : j = i <;> simp [hj]

/-- The request of a lane has been sent, and with it the authentication frame. -/
theorem Flow.Sound.sent (h : f.Sound c) (hleg : f.leg = .writing i []) :
    (f.onLane i fun lane => { lane with pendingQuicAuth := false }).Has c fun j =>
      if j ≤ i then .written else .fresh := by
  rw [Flow.Sound, hleg] at h
  refine (h.onLane _ .written ?_ ?_).congr (fun hne => hne) ?_
  · rw [FlowLeg.progress_self]
    exact nofun
  · intro role lane hat
    rw [FlowLeg.progress_self] at hat
    refine ⟨rfl, hat.1, ?_, rfl⟩
    rw [← hat.2.1, List.append_nil]
  · intro j _
    unfold FlowLeg.progress
    grind

theorem Flow.Sound.step (h : f.Sound c) {e : FlowEvent}
    (hstep : flowStep c f e = some (some f')) : f'.Sound c := by
  have hopen : f.leg ≠ .dropped := by
    intro hleg
    unfold flowStep at hstep
    rw [hleg] at hstep
    cases hstep
  unfold flowStep at hstep
  split at hstep
  case h_4 | h_5 =>
    rename_i hleg
    rw [Flow.Sound, hleg] at h
    cases hstep
    exact h.congr (fun _ => hopen) fun _ _ => rfl
  · rename_i hleg
    rw [Flow.Sound, hleg] at h
    split at hstep
    · obtain ⟨bytes, hleg', hhas⟩ := h.begin hopen rfl (Option.some.inj hstep)
      rw [Flow.Sound, hleg']
      refine hhas.congr (fun hne => hne) fun j _ => ?_
      simp [FlowLeg.progress]
    · split at hstep <;> cases hstep
  · rename_i i rest n hleg
    cases hstep
    exact h.wrote hleg n
  · rename_i i rest hleg
    split at hstep
    · rename_i hrest
      subst hrest
      have hsent := h.sent hleg
      split at hstep
      · obtain ⟨bytes, hleg', hhas⟩ := hsent.begin hopen (by simp) (Option.some.inj hstep)
        rw [Flow.Sound, hleg']
        refine hhas.congr (fun hne => hne) fun j _ => ?_
        unfold FlowLeg.progress
        grind
      · rename_i hlast
        cases hstep
        refine hsent.congr (fun _ => hopen) fun j hj => ?_
        have hj : j ≤ i := by
          have hlength :
              (f.onLane i fun lane => { lane with pendingQuicAuth := false }).lanes.length =
                f.lanes.length := List.length_modify ..
          omega
        rw [if_pos hj]
        split <;> rfl
    · cases hstep
  · rename_i bytes hleg
    rw [Flow.Sound, hleg] at h
    split at hstep
    · cases hstep
      have hmore := h.onLane (i := 0) (fun lane =>
        { lane with wire := lane.wire.write bytes }) .written nofun ?_
      · rw [Flow.Sound]
        refine hmore.congr (fun hne => hne) fun j _ => ?_
        change f.leg.progress j = _
        rw [hleg]
        by_cases hj : j = 0 <;> simp [hj, FlowLeg.progress]
      · intro role lane hat
        exact ⟨rfl, hat.1, hat.2.1.trans (List.prefix_append _ _), hat.2.2⟩
    · cases hstep
  · cases hstep

end Flows

/-! ## All wires -/

/-- What is written is the front of an opening on this carrier, or an opening and what follows it.
The header is valid there, and has a valid target with it exactly if its role asks for one. -/
def Wire.Opens (c : Config) (wire : Wire) : Prop :=
  wire.written <+: authBytes (wire.source.auth c) ∨
    ∃ header target opening, header.validateOn wire.source.carrier = .ok () ∧
      header.carriesTarget = target.isSome ∧ (∀ t, target = some t → t.Valid) ∧
      writeOpening (wire.source.auth c) header target = .ok opening ∧
      (wire.written <+: opening ∨ opening <+: wire.written)

/-- A lane of the pool. -/
def TlsLane.Authenticated (c : Config) (lane : TlsLane) : Prop :=
  lane.pendingAuth = none ∧ lane.written = authBytes (lane.wire.source.auth c)

def Connector.Sound (c : Config) : Connector → Prop
  | .authenticating exporter written rest =>
    written ++ rest = authBytes ((Source.tls exporter).auth c)
  | .ready lane => lane.Authenticated c
  | .dialing | .failed => True

/-- The lanes that flows have. -/
def World.held (w : World) : List PhysicalLane := w.flows.flatMap Flow.opened

/-- The wires of a task of the pool. -/
def Connector.allWires (k : Connector) : List Wire := k.wires ++ k.lanes.map TlsLane.wire

/-- All wires, wherever they are. -/
def World.wires (w : World) : List Wire :=
  w.idle.map TlsLane.wire ++ w.maintain.lanes.map TlsLane.wire ++
    w.connectors.flatMap Connector.allWires ++ w.held.map PhysicalLane.wire ++ w.dropped

structure Wired (c : Config) (w : World) : Prop where
  idle : ∀ lane ∈ w.idle, lane.Authenticated c
  maintain : ∀ lane ∈ w.maintain.lanes, lane.Authenticated c
  connectors : ∀ k ∈ w.connectors, k.Sound c
  flows : ∀ f ∈ w.flows, f.Sound c
  sessions : ∀ s ∈ w.sessions, 0 < s.streams
  dropped : ∀ wire ∈ w.dropped, wire.Opens c

section Wires

variable {c : Config} {w w' : World}

theorem TlsLane.Authenticated.opens {lane : TlsLane} (h : lane.Authenticated c) :
    lane.wire.Opens c :=
  .inl (h.2 ▸ List.prefix_refl _)

variable {k : Connector} {f : Flow} {lane : PhysicalLane} {mode : CarrierMode} {role : FlowRole}
  {i : Nat} {target : Target} {w₁ : World} {leg leg' : LaneLeg}

theorem Connector.Sound.opens (h : k.Sound c) :
    ∀ wire ∈ k.wires, wire.Opens c := by
  intro wire hwire
  cases k with
  | authenticating exporter written rest =>
    rw [List.mem_singleton.mp hwire]
    exact .inl ⟨rest, h⟩
  | _ => cases hwire

theorem Connector.Sound.authenticated (h : k.Sound c) :
    ∀ lane ∈ k.lanes, lane.Authenticated c := by
  intro lane hlane
  cases k with
  | ready lane' =>
    rw [List.mem_singleton.mp hlane]
    exact h
  | _ => cases hlane

theorem PhysicalLane.At.opens {j : Nat} {p : Progress} (hat : lane.At c f role p)
    (htarget : f.target.Valid) (hplan : c.plan[j]? = some (mode, role))
    (hcarrier : lane.wire.source.carrier = carrier mode) : lane.wire.Opens c := by
  have hopening (hvalid : (f.header c role).validate = .ok ())
      (hwritten : lane.wire.written <+: authBytes (lane.wire.source.auth c) ++ f.request c role ∨
        authBytes (lane.wire.source.auth c) ++ f.request c role <+: lane.wire.written) :
      lane.wire.Opens c :=
    .inr ⟨f.header c role, f.targetFor role, _, hcarrier ▸ Flow.validateOn hplan hvalid,
      f.carriesTarget_header role, fun _ ht => Flow.targetFor_some ht ▸ htarget,
      Flow.writeOpening_eq htarget hvalid, hwritten⟩
  cases p with
  | fresh => exact .inl ⟨_, hat.1⟩
  | writing rest => exact hopening hat.1 (.inl ⟨rest, hat.2.1⟩)
  | written => exact hopening hat.1 (.inr hat.2.1)

theorem Flow.Sound.at (h : f.Sound c) (hlane : lane ∈ f.opened) :
    ∃ (j : Nat) (mode : CarrierMode) (role : FlowRole), c.plan[j]? = some (mode, role) ∧
      f.lanes[j]? = some (.opened lane) ∧
      lane.wire.source.carrier = carrier mode ∧ lane.At c f role (f.leg.progress j) := by
  obtain ⟨leg, hleg, hopened⟩ := List.mem_filterMap.mp hlane
  obtain ⟨j, hplace⟩ := List.mem_iff_getElem?.mp hleg
  obtain rfl : leg = .opened lane := by
    cases leg <;> cases hopened
    rfl
  have hj : j < c.plan.length :=
    Nat.lt_of_lt_of_le (List.getElem?_eq_some_iff.mp hplace).1 h.short
  obtain ⟨⟨mode, role⟩, hplan⟩ : ∃ entry, c.plan[j]? = some entry :=
    ⟨_, List.getElem?_eq_getElem hj⟩
  have hat := h.lanes j mode role _ hplan hplace
  exact ⟨j, mode, role, hplan, hplace, hat.1, hat.2⟩

theorem Flow.Sound.opens (h : f.Sound c) :
    ∀ lane ∈ f.opened, lane.wire.Opens c := by
  intro lane hlane
  obtain ⟨j, mode, role, hplan, _, hcarrier, hat⟩ := h.at hlane
  exact hat.opens h.target hplan hcarrier

theorem Flow.sound_dropped (h : f.target.Valid) :
    Flow.Sound c { f with lanes := [], leg := .dropped } where
  target := h
  length := fun hne => absurd rfl hne
  short := Nat.zero_le _
  lanes := fun j _ _ _ _ hlane => by cases hlane

/-- A lane that is opened goes on. -/
theorem Flow.Sound.setLane (h : f.Sound c) (hleg : f.leg = .opening) (leg' : LaneLeg)
    (hlane : f.lanes[i]? = some leg)
    (hat : ∀ mode role, leg.At c f mode role .fresh → leg'.At c f mode role .fresh) :
    Flow.Sound c { f with lanes := f.lanes.set i leg' } := by
  rw [Flow.Sound, hleg] at h
  have hset := h.set (i := i) leg' .fresh fun mode role hplan =>
    hat mode role (h.lanes i mode role leg hplan hlane)
  refine hset.congr (fun hne => hne) fun j _ => ?_
  change f.leg.progress j = _
  rw [hleg]
  by_cases hj : j = i <;> simp [hj, FlowLeg.progress]

theorem valid_of_toTarget {address : SocksAddress} (h : toTarget address = .ok target) :
    target.Valid := by
  cases address with
  | ip address => exact .inl ⟨address, h⟩
  | domain host port => exact .inr ⟨host, port, h⟩

theorem Flow.sound_start (kind : FlowKind) (id : FlowId) (h : target.Valid) :
    Flow.Sound c ⟨id, kind, target, c.plan.map fun lane => startLane lane.1, .opening⟩ where
  target := h
  length := fun _ => List.length_map _
  short := Nat.le_of_eq (List.length_map _)
  lanes := by
    intro j mode role leg hplan hlane
    change (c.plan.map fun lane => startLane lane.1)[j]? = some leg at hlane
    rw [List.getElem?_map, hplan] at hlane
    cases hlane
    cases mode with
    | tcp => exact ⟨rfl, rfl⟩
    | udp => exact ⟨rfl, rfl⟩

/-! ### Changes -/

theorem wired_start (c : Config) : Wired c (.start c) where
  idle := nofun
  maintain := by
    intro lane hlane
    unfold World.start at hlane
    split at hlane <;> cases hlane
  connectors := nofun
  flows := nofun
  sessions := nofun
  dropped := nofun

/-- A session that is closed is otherwise the same. -/
theorem forall_closeSessions {P : Session → Prop} (hP : ∀ s, P s → P { s with closed := true })
    {qs : List Nat} {sessions : List Session} (h : ∀ s ∈ sessions, P s) :
    ∀ s ∈ closeSessions qs sessions, P s := by
  intro s hs
  obtain ⟨q, hq, rfl⟩ := List.mem_mapIdx.mp hs
  split
  · exact hP _ (h _ (List.getElem_mem hq))
  · exact h _ (List.getElem_mem hq)

/-- Lanes of the pool are dropped. -/
theorem Wired.dropTls (h : Wired c w) {lanes : List TlsLane}
    (hlanes : ∀ lane ∈ lanes, lane.Authenticated c) : Wired c (w.dropTls lanes) := by
  refine { h with dropped := List.forall_mem_append.mpr ⟨h.dropped, ?_⟩ }
  exact List.forall_mem_map.mpr fun lane hlane => (hlanes lane hlane).opens

theorem Wired.connector (h : Wired c w) {k' : Connector} {e : ConnectorEvent}
    (htask : w.connectors[i]? = some k) (hstep : connectorStep c w k e = some (w₁, k')) :
    Wired c { w₁ with connectors := w.connectors.set i k' } := by
  have hk := h.connectors k (List.mem_of_getElem? htask)
  unfold connectorStep at hstep
  split at hstep
  · cases hstep
    exact { h with connectors := Slots.forall_set h.connectors rfl }
  · cases hstep
    exact { h with connectors := Slots.forall_set h.connectors trivial }
  · rename_i exporter written rest n
    cases hstep
    refine { h with connectors := Slots.forall_set h.connectors ?_ }
    change (written ++ rest.take n) ++ rest.drop n = _
    rw [List.append_assoc, List.take_append_drop]
    exact hk
  · split at hstep
    · rename_i hrest
      cases hstep
      refine { h with connectors := Slots.forall_set h.connectors ⟨rfl, ?_⟩ }
      rw [Connector.Sound, hrest, List.append_nil] at hk
      exact hk
    · cases hstep
  · cases hstep
    exact { h with
      connectors := Slots.forall_set h.connectors trivial
      dropped := List.forall_mem_append.mpr ⟨h.dropped, hk.opens⟩ }
  · cases hstep

theorem Wired.poolStep (h : Wired c w) (hstep : PoolStep c w w') : Wired c w' := by
  have hready {lane : TlsLane} {connectFailed : Bool}
      (hleg : w.maintain = .storing lane connectFailed) : ∀ l ∈ [lane], l.Authenticated c := by
    have hmaintain := h.maintain
    rw [hleg] at hmaintain
    exact hmaintain
  cases hstep with
  | maintains moves =>
    refine { h with maintain := ?_ }
    cases moves <;> exact nofun
  | clears =>
    refine Wired.dropTls ?_ h.idle
    exact { h with idle := nofun, maintain := nofun }
  | retains =>
    refine Wired.dropTls ?_ fun lane hlane => h.idle lane (List.mem_of_mem_filter hlane)
    exact { h with
      idle := fun lane hlane => h.idle lane (List.mem_of_mem_filter hlane)
      maintain := nofun }
  | spawns =>
    refine { h with maintain := nofun, connectors := fun k hk => ?_ }
    rw [List.eq_of_mem_replicate hk]
    exact trivial
  | rests => exact { h with maintain := nofun }
  | @stores lane connectFailed leg =>
    exact { h with
      idle := List.forall_mem_append.mpr ⟨h.idle, hready leg⟩
      maintain := nofun }
  | @discards lane connectFailed leg =>
    refine Wired.dropTls ?_ (hready leg)
    exact { h with maintain := nofun }
  | joins joining task done =>
    refine { h with
      maintain := ?_
      connectors := fun k hk => h.connectors k (List.mem_of_mem_eraseIdx hk) }
    rcases done with ⟨lane, rfl, rfl⟩ | ⟨_, rfl⟩
    · exact List.forall_mem_singleton.mpr (h.connectors _ (List.mem_of_getElem? task))
    · exact nofun
  | aborts =>
    refine Wired.dropTls ?_ (List.forall_mem_append.mpr ⟨h.maintain, fun lane hlane => ?_⟩)
    · refine { h with
        maintain := nofun
        connectors := nofun
        dropped := List.forall_mem_append.mpr ⟨h.dropped, fun wire hwire => ?_⟩ }
      obtain ⟨k, hk, hmem⟩ := List.mem_flatMap.mp hwire
      exact (h.connectors k hk).opens wire hmem
    · obtain ⟨k, hk, hmem⟩ := List.mem_flatMap.mp hlane
      exact (h.connectors k hk).authenticated lane hmem
  | connector task step => exact h.connector task step

/-- What happens beside a lane that goes on. -/
theorem Wired.laneStep (h : Wired c w) (hstep : LaneStep c w leg w₁ leg') : Wired c w₁ := by
  have htail {lane : TlsLane} {idle : List TlsLane} (hidle : w.idle = lane :: idle) :
      ∀ lane' ∈ idle, lane'.Authenticated c := fun lane' hlane =>
    h.idle lane' (hidle ▸ List.mem_cons_of_mem _ hlane)
  cases hstep with
  | takes front => exact { h with idle := htail front }
  | skips front =>
    refine Wired.dropTls ?_ fun lane' hlane => h.idle lane' ?_
    · exact { h with idle := htail front }
    · rw [front, List.mem_singleton.mp hlane]
      exact List.mem_cons_self
  | connects exporter =>
    exact { h with sessions :=
      List.forall_mem_append.mpr ⟨h.sessions, List.forall_mem_singleton.mpr Nat.one_pos⟩ }
  | opensFirst session =>
    have hs := h.sessions _ (List.mem_of_getElem? session)
    exact { h with sessions := Slots.forall_set h.sessions hs }
  | opensNext => exact { h with sessions := Slots.forall_set h.sessions (Nat.succ_pos _) }
  | _ => exact { h with }

/-- A lane that goes on stays on its carrier, and what it gets is fresh. -/
theorem LaneStep.at (h : Wired c w) (hstep : LaneStep c w leg w₁ leg')
    (hat : leg.At c f mode role .fresh) : leg'.At c f mode role .fresh := by
  cases hstep with
  | @takes lane idle front =>
    have hlane := h.idle lane (by rw [front]; exact List.mem_cons_self)
    refine ⟨by rw [hat.1]; rfl, ?_, rfl⟩
    change lane.written ++ authBytes lane.pendingAuth = _
    rw [hlane.1, hlane.2]
    exact List.append_nil _
  | dials => exact ⟨by rw [hat.1]; rfl, List.nil_append _, rfl⟩
  | dialFails => rfl
  | finds looked => rcases looked with rfl | rfl <;> exact hat
  | gives => rfl
  | connecting locked => rcases locked with ⟨rfl, _⟩ | ⟨rfl, _⟩ <;> exact hat
  | connectFails => rfl
  | opensFirst => exact ⟨by rw [hat.1]; rfl, List.nil_append _, rfl⟩
  | @opensNext q s session =>
    -- it is not the first stream, so it has no frame
    obtain ⟨n, hn⟩ := Nat.exists_eq_succ_of_ne_zero
      (Nat.pos_iff_ne_zero.mp (h.sessions s (List.mem_of_getElem? session)))
    rw [hn]
    exact ⟨by rw [hat.1]; rfl, rfl, rfl⟩
  | misses => rfl
  | _ => exact hat

theorem LaneStep.flows (h : LaneStep c w leg w₁ leg') :
    w₁.flows = w.flows := by
  cases h <;> rfl

theorem Wired.change (h : Wired c w) (hchange : Change c w w') : Wired c w' := by
  cases hchange with
  | environment => exact { h with }
  | closes => exact { h with sessions := forall_closeSessions (fun _ hs => hs) h.sessions }
  | pool step => exact h.poolStep step
  | starts valid =>
    refine { h with flows := List.forall_mem_append.mpr ⟨h.flows, ?_⟩ }
    exact List.forall_mem_singleton.mpr (Flow.sound_start _ _ (valid_of_toTarget valid))
  | @lane k i f leg leg' w₁ opening step =>
    have hbeside := h.laneStep step
    have hf := h.flows f (List.mem_of_getElem? opening.flow)
    refine { hbeside with flows := Slots.forall_set hbeside.flows ?_ }
    exact hf.setLane opening.phase leg' opening.lane fun _ _ hat => step.at h hat
  | @flow k f f' e flow step =>
    exact { h with
      flows := Slots.forall_set h.flows ((h.flows f (List.mem_of_getElem? flow)).step step) }
  | @dropsFlow k f flow =>
    have hf := h.flows f (List.mem_of_getElem? flow)
    exact { h with
      flows := Slots.forall_set h.flows (Flow.sound_dropped hf.target)
      sessions := forall_closeSessions (fun _ hs => hs) h.sessions
      dropped := List.forall_mem_append.mpr ⟨h.dropped, List.forall_mem_map.mpr hf.opens⟩ }
  | same => exact h

/-- Every wire opens. -/
theorem Wired.opens (h : Wired c w) : ∀ wire ∈ w.wires, wire.Opens c := by
  intro wire hwire
  simp only [World.wires, World.held, List.mem_append, List.mem_map, List.mem_flatMap,
    Connector.allWires] at hwire
  rcases hwire with (((⟨lane, hlane, rfl⟩ | ⟨lane, hlane, rfl⟩) | ⟨k, hk, hwire⟩) |
    ⟨lane, ⟨f, hf, hlane⟩, rfl⟩) | hdropped
  · exact (h.idle lane hlane).opens
  · exact (h.maintain lane hlane).opens
  · rcases hwire with hmem | ⟨lane, hlane, rfl⟩
    · exact (h.connectors k hk).opens wire hmem
    · exact ((h.connectors k hk).authenticated lane hlane).opens
  · exact (h.flows f hf).opens lane hlane
  · exact h.dropped wire hdropped

end Wires

end Nowhere.Vector.Carriers
