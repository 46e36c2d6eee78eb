import Nowhere.Vector.CarriersSessions

/-!
# Runs of the carriers

What holds in every state that the carriers reach, whatever fails, whenever a future is dropped and
in whatever order the tasks go on.
-/

namespace Nowhere.Vector.Carriers

open Protocol ByteStream Common.Socks
open UdpFlow (CarrierMode)

structure Sound (c : Config) (w : World) : Prop where
  wired : Wired c w
  pooled : Pooled c w
  locked : Locked w
  shared : Shared w
  begun : Begun c w
  cooled : Cooled c w

section Runs

variable {c : Config} {w w' : World}

theorem sound_start (c : Config) : Sound c (.start c) where
  wired := wired_start c
  pooled := pooled_start c
  locked := Nat.zero_le 1
  shared := shared_start c
  begun := begun_start c
  cooled := cooled_start c

theorem Sound.change (h : Sound c w) (hchange : Change c w w') : Sound c w' where
  wired := h.wired.change hchange
  pooled := h.pooled.change hchange
  locked := h.locked.change hchange
  shared := h.shared.change h.locked hchange
  begun := h.begun.change h.wired hchange
  cooled := h.cooled.change h.locked hchange

theorem sound_of_reachable (h : Machine.Reachable (step c) (.start c) w) : Sound c w :=
  h.invariant (sound_start c) fun _ _ _ hsound hstep => hsound.change (change_of_step hstep)

/-! ## What Portal reads -/

/-- The lanes of a flow that has its answer are open and their requests written. -/
theorem Flow.Sound.written {f : Flow} (h : f.Sound c) (htunnel : f.leg = .tunnel) {j : Nat}
    {mode : CarrierMode} {role : FlowRole} (hplan : c.plan[j]? = some (mode, role)) :
    ∃ lane, f.lanes[j]? = some (.opened lane) ∧ lane.wire.source.carrier = carrier mode ∧
      lane.At c f role .written := by
  have hprogress : f.leg.progress j = .written := by rw [htunnel]; rfl
  have hlength := h.length (by rw [htunnel]; exact nofun)
  have hj : j < f.lanes.length := hlength ▸ (List.getElem?_eq_some_iff.mp hplan).1
  have hlane := List.getElem?_eq_getElem hj
  have hat := h.lanes j mode role _ hplan hlane
  rw [hprogress] at hat
  cases hleg : f.lanes[j] with
  | opened lane =>
    rw [hleg] at hlane hat
    exact ⟨lane, hlane, hat.1, hat.2⟩
  | failed =>
    rw [hleg] at hat
    cases hat
  | _ =>
    rw [hleg] at hat
    cases hat.2

/-- The frame of a source is read on the connection that it was made for. -/
theorem Source.parses_readAuth (source : Source) {σ : Type} {reader : Input σ} :
    reader.Parses (Portal.readAuth c.hmac (source.context c) reader)
      (authBytes (source.auth c)) ((source.context c).map fun _ => c.sessionId) := by
  unfold Source.auth
  cases source.context c with
  | none => exact Portal.parses_readAuth c.hmac none
  | some context => exact Portal.parses_readAuth c.hmac (some (context, c.sessionId))

/-- Portal reads back what was written, and leaves what is behind it. -/
theorem PhysicalLane.At.readOpening {f : Flow} {lane : PhysicalLane} {role : FlowRole}
    (hat : lane.At c f role .written) (htarget : f.target.Valid) (hscope : f.target.Unscoped)
    (hvalid : (f.header c role).validateOn lane.wire.source.carrier = .ok ()) :
    ∃ opening payload,
      writeOpening (lane.wire.source.auth c) (f.header c role) (f.targetFor role) = .ok opening ∧
      lane.wire.written = opening ++ payload ∧
      ∀ (σ : Type) (reader : Input σ) (s : σ), reader.bytes s = lane.wire.written →
        ∃ rest, Portal.readOpening c.hmac (lane.wire.source.context c) lane.wire.source.carrier
            reader s = .ok (((lane.wire.source.context c).map fun _ => c.sessionId,
              f.header c role, f.targetFor role), rest) ∧
          (reader.buffered Portal.bufReaderLen).bytes rest = payload := by
  obtain ⟨hheader, ⟨payload, hwritten⟩, _⟩ := hat
  refine ⟨_, payload, Flow.writeOpening_eq htarget hheader, hwritten.symm, fun σ reader s hs => ?_⟩
  rw [← hwritten, List.append_assoc] at hs
  obtain ⟨s₁, hauth, hs₁⟩ := Source.parses_readAuth lane.wire.source s _ hs
  have hparses : (reader.buffered Portal.bufReaderLen).Parses
      (Portal.readFlow lane.wire.source.carrier (reader.buffered Portal.bufReaderLen))
      (f.request c role) (f.header c role, f.targetFor role) := by
    refine Portal.parses_readFlow hvalid (f.carriesTarget_header role) fun target htarget' => ?_
    rw [Flow.targetFor_some htarget']
    exact ⟨htarget, hscope⟩
  obtain ⟨rest, hflow, hrest⟩ := hparses ([], s₁) payload hs₁
  refine ⟨rest, ?_, hrest⟩
  simp only [Portal.readOpening, hauth, hflow, bind, Except.bind, pure, Except.pure]

/-- The first stream of a live session, once it was handed out, has the frame or a flow that will
write it. -/
theorem Sound.first (h : Sound c w) {q : Nat} {s : Session} (hs : w.sessions[q]? = some s)
    (hlive : s.closed = false) (htaken : s.firstStream = false) :
    ∃ wire ∈ w.wires, wire.source = .quic q s.exporter 0 ∧
      (authBytes (wire.source.auth c) <+: wire.written ∨
        ∃ lane ∈ w.held, lane.wire = wire ∧ lane.abandons = some q) := by
  rcases h.begun q s hs htaken hlive with ⟨f, hf, leg, hleg, hsource⟩ | ⟨wire, hwire, hfirst⟩
  · obtain ⟨lane, hlane, hfirst⟩ := Option.map_eq_some_iff.mp hsource
    have hopened : lane ∈ f.opened := List.mem_filterMap.mpr ⟨leg, hleg, hlane⟩
    have hheld : lane ∈ w.held := List.mem_flatMap.mpr ⟨f, hf, hopened⟩
    obtain ⟨j, mode, role, _, _, _, hat⟩ := (h.wired.flows f hf).at hopened
    refine ⟨lane.wire, ?_, hfirst, ?_⟩
    · exact List.mem_append_left _ (List.mem_append_right _ (List.mem_map_of_mem hheld))
    · refine (hat.authenticates (by rw [hfirst]; rfl)).imp_right fun hpending => ?_
      refine ⟨lane, hheld, rfl, ?_⟩
      rw [PhysicalLane.abandons, hfirst, hpending]
      rfl
  · exact ⟨wire, List.mem_append_right _ hwire, hfirst.1, .inl hfirst.2⟩

/-! ## Counts over all lanes -/

theorem countP_holdsLock (w : World) :
    (w.flows.flatMap Flow.lanes).countP LaneLeg.holdsLock = w.sumLanes LaneLeg.locks := by
  rw [Slots.countP_flatMap, funext fun f : Flow => Slots.countP_eq_sum LaneLeg.holdsLock f.lanes]
  rfl

theorem countP_isTls (w : World) :
    w.held.countP PhysicalLane.isTls = w.sumLanes LaneLeg.links := by
  rw [World.held, Slots.countP_flatMap, World.sumLanes, LaneLeg.links,
    funext fun f : Flow => sum_count PhysicalLane.isTls f.lanes]
  rfl

end Runs

/-! ## A session -/

def sessionConfig : Config where
  hmac := Sample.constantMac
  authKey := Sample.authContext.authKey
  sessionId := Sample.openingSession
  up := .tcp
  down := .udp
  pool := 1
  serviceCooldown := 100

def sampleExporter : TlsExporter := Sample.authContext.exporter

/-- The pool is filled. The first flow takes its lane, but the other half finds no session. The
second flow makes its own lane and waits for the cooldown; then it is set up and relays. -/
def session : List Event :=
  [.maintain, .maintain, .maintain, .connector 0 (.dialed sampleExporter),
    .connector 0 (.wrote 20), .connector 0 (.wrote 20), .connector 0 .ready, .joined 0, .maintain,
    .maintain,
    .start .tcp 1 (.domain [97, 46, 98] 80), .lane 0 0 (.takes true), .lane 0 1 .looks,
    .lane 0 1 .locks, .lane 0 1 .rechecks, .tick 7, .lane 0 1 .fails, .flow 0 .begins,
    .start .tcp 2 (.domain [97, 46, 98] 80), .lane 1 0 (.takes true),
    .lane 1 0 (.dialed sampleExporter), .lane 1 1 .looks, .lane 1 1 .locks, .lane 1 1 .rechecks,
    .tick 100, .lane 1 1 .wakes, .lane 1 1 (.connects sampleExporter), .lane 1 1 .clears,
    .lane 1 1 .stores, .lane 1 1 .opensBi, .flow 1 .begins, .flow 1 (.wrote 1000), .flow 1 .flushed,
    .flow 1 (.wrote 1000), .flow 1 .flushed, .flow 1 .ready, .flow 1 (.relays [104, 105])]

def sessionDone (w : World) : Bool :=
  decide (w.maintain = .waiting ∧ w.idle = [] ∧ w.notified = true ∧ w.state = some 0 ∧
    w.attempts = [⟨0, some 7⟩, ⟨107, none⟩] ∧ w.sessions = [⟨sampleExporter, false, 1, false⟩] ∧
    w.linkTcp = 1 ∧ w.dropped ≠ [] ∧
    (w.flows[1]?.map fun f => (f.leg, f.target)) = some (.tunnel, Sample.domainTarget))

theorem exists_sessionDone :
    ∃ w, Machine.Reachable (step sessionConfig) (.start sessionConfig) w ∧ sessionDone w = true :=
  Machine.exists_reachable_of_run
    (show (Machine.run (step sessionConfig) (.start sessionConfig) session).any sessionDone =
      true by decide +kernel)

/-! ## Results -/

/-- **Every stream is opened as Portal expects.** Whatever was written to a stream, at any time and
wherever it was dropped, is the front of an opening on its carrier or begins with one; the
authentication frame comes first, on every TLS connection and on the first stream of a session, and
on no other. -/
theorem carriers_streams_open {c : Config} {w : World}
    (h : Machine.Reachable (step c) (.start c) w) : ∀ wire ∈ w.wires, wire.Opens c :=
  (sound_of_reachable h).wired.opens

theorem carriers_streams_open_session :
    ∃ w, Machine.Reachable (step sessionConfig) (.start sessionConfig) w ∧ w.dropped ≠ [] ∧
      ∀ wire ∈ w.dropped, wire.Opens sessionConfig := by
  obtain ⟨w, hw, hdone⟩ := exists_sessionDone
  obtain ⟨_, _, _, _, _, _, _, hdropped, _⟩ := of_decide_eq_true hdone
  refine ⟨w, hw, hdropped, fun wire hwire => ?_⟩
  exact carriers_streams_open hw wire (List.mem_append_right _ hwire)

/-- **Portal reads the flow that was meant.** When a flow has its answer, each of its lanes is on
the carrier of its place and has an opening and a payload written to it, from which Portal reads
the session of Vector on a new connection, the header of the flow and its target, and is left with
the payload. The target has no flow label and scope, which are not on the wire. -/
theorem carriers_opening_read {c : Config} {w : World} {f : Flow}
    (h : Machine.Reachable (step c) (.start c) w) (hf : f ∈ w.flows) (htunnel : f.leg = .tunnel)
    (hscope : f.target.Unscoped) {j : Nat} {mode : CarrierMode} {role : FlowRole}
    (hplan : c.plan[j]? = some (mode, role)) :
    ∃ lane opening payload, f.lanes[j]? = some (.opened lane) ∧
      lane.wire.source.carrier = carrier mode ∧
      writeOpening (lane.wire.source.auth c) (f.header c role) (f.targetFor role) = .ok opening ∧
      lane.wire.written = opening ++ payload ∧
      ∀ (σ : Type) (reader : Input σ) (s : σ), reader.bytes s = lane.wire.written →
        ∃ rest, Portal.readOpening c.hmac (lane.wire.source.context c) (carrier mode) reader s =
            .ok (((lane.wire.source.context c).map fun _ => c.sessionId, f.header c role,
              f.targetFor role), rest) ∧
          (reader.buffered Portal.bufReaderLen).bytes rest = payload := by
  have hflow := (sound_of_reachable h).wired.flows f hf
  obtain ⟨lane, hlane, hcarrier, hat⟩ := hflow.written htunnel hplan
  have hvalid : (f.header c role).validateOn lane.wire.source.carrier = .ok () := by
    rw [hcarrier]
    exact Flow.validateOn hplan hat.1
  obtain ⟨opening, payload, hopening, hwritten, hread⟩ :=
    hat.readOpening hflow.target hscope hvalid
  rw [hcarrier] at hread
  exact ⟨lane, opening, payload, hlane, hcarrier, hopening, hwritten, hread⟩

theorem carriers_opening_read_session :
    ∃ w f, Machine.Reachable (step sessionConfig) (.start sessionConfig) w ∧ f ∈ w.flows ∧
      ∃ lane, f.lanes[1]? = some (.opened lane) ∧ lane.wire.source.carrier = .quic := by
  obtain ⟨w, hw, hdone⟩ := exists_sessionDone
  obtain ⟨_, _, _, _, _, _, _, _, hflow⟩ := of_decide_eq_true hdone
  obtain ⟨f, hf, heq⟩ := Option.map_eq_some_iff.mp hflow
  obtain ⟨htunnel, htarget⟩ := Prod.mk.inj heq
  have hmem := List.mem_of_getElem? hf
  have hplan : sessionConfig.plan[1]? = some (.udp, .attach) := rfl
  obtain ⟨lane, _, _, hlane, hcarrier, _⟩ :=
    carriers_opening_read hw hmem htunnel (htarget ▸ trivial) hplan
  exact ⟨w, f, hw, hmem, lane, hlane, hcarrier⟩

/-- **A live session is authenticated.** Once its first stream was handed out, the frame is written
to that stream, or a flow holds it and closes the session if it gives up before the frame is
written. -/
theorem quic_session_authenticated {c : Config} {w : World} {q : Nat} {s : Session}
    (h : Machine.Reachable (step c) (.start c) w) (hs : w.sessions[q]? = some s)
    (hlive : s.closed = false) (htaken : s.firstStream = false) :
    ∃ wire ∈ w.wires, wire.source = .quic q s.exporter 0 ∧
      (authBytes (wire.source.auth c) <+: wire.written ∨
        ∃ lane ∈ w.held, lane.wire = wire ∧ lane.abandons = some q) :=
  (sound_of_reachable h).first hs hlive htaken

theorem quic_session_authenticated_session :
    ∃ w, Machine.Reachable (step sessionConfig) (.start sessionConfig) w ∧
      ∃ wire ∈ w.wires, wire.source = .quic 0 sampleExporter 0 := by
  obtain ⟨w, hw, hdone⟩ := exists_sessionDone
  obtain ⟨_, _, _, _, _, hsessions, _⟩ := of_decide_eq_true hdone
  have hs : w.sessions[0]? = some ⟨sampleExporter, false, 1, false⟩ := by rw [hsessions]; rfl
  obtain ⟨wire, hwire, hsource, _⟩ := quic_session_authenticated hw hs rfl rfl
  exact ⟨w, hw, wire, hwire, hsource⟩

/-- **One session is shared.** All lanes that are on a session which is not closed are on the one
that is kept, but for one that was just connected. At most one task is behind the connect lock, and
none of those that have found no session goes on to connect while the kept one is live. -/
theorem quic_session_shared {c : Config} {w : World}
    (h : Machine.Reachable (step c) (.start c) w) :
    (∀ f ∈ w.flows, ∀ leg ∈ f.lanes, ∀ q, leg.session = some q → w.isLive q = true →
      leg.connects = true ∨ w.state = some q) ∧
    (w.flows.flatMap Flow.lanes).countP LaneLeg.holdsLock ≤ 1 ∧
    ∀ f ∈ w.flows, ∀ leg ∈ f.lanes, leg.connects = true → w.liveSession = none := by
  have hsound := sound_of_reachable h
  refine ⟨fun f hf leg hleg => (hsound.shared.lanes f hf leg hleg).current, ?_,
    fun f hf leg hleg => (hsound.shared.lanes f hf leg hleg).stale⟩
  rw [countP_holdsLock]
  exact hsound.locked

theorem quic_session_shared_session :
    ∃ w, Machine.Reachable (step sessionConfig) (.start sessionConfig) w ∧ w.state = some 0 ∧
      (w.flows.flatMap Flow.lanes).countP LaneLeg.holdsLock ≤ 1 := by
  obtain ⟨w, hw, hdone⟩ := exists_sessionDone
  obtain ⟨_, _, _, hstate, _⟩ := of_decide_eq_true hdone
  exact ⟨w, hw, hstate, (quic_session_shared hw).2.1⟩

/-- **Attempts are apart.** After a call of `connect` has failed, no flow calls it again before the
cooldown is over. -/
theorem quic_connect_cooldown {c : Config} {w : World}
    (h : Machine.Reachable (step c) (.start c) w) {i j : Nat} {a b : Attempt} {t : Nat}
    (hlt : i < j) (ha : w.attempts[i]? = some a) (hb : w.attempts[j]? = some b)
    (hfailed : a.failed = some t) : t + c.serviceCooldown ≤ b.started := by
  obtain ⟨hi, rfl⟩ := List.getElem?_eq_some_iff.mp ha
  obtain ⟨hj, rfl⟩ := List.getElem?_eq_some_iff.mp hb
  exact List.pairwise_iff_getElem.mp (sound_of_reachable h).cooled.apart i j hi hj hlt t hfailed

theorem quic_connect_cooldown_session :
    ∃ w, Machine.Reachable (step sessionConfig) (.start sessionConfig) w ∧
      w.attempts = [⟨0, some 7⟩, ⟨107, none⟩] ∧ 7 + sessionConfig.serviceCooldown ≤ 107 := by
  obtain ⟨w, hw, hdone⟩ := exists_sessionDone
  obtain ⟨_, _, _, _, hattempts, _⟩ := of_decide_eq_true hdone
  refine ⟨w, hw, hattempts, ?_⟩
  exact quic_connect_cooldown hw Nat.zero_lt_one (by rw [hattempts]; rfl)
    (by rw [hattempts]; rfl) rfl

/-- **The pool stays within its size.** The lanes that are ready, that `maintain` has at hand and
that are prepared are never more than the pool has room for; those that are ready have sent their
frame and nothing else. The gauge counts the TLS lanes, and a `maintain` that has returned has left
nothing. -/
theorem pool_bounded {c : Config} {w : World} (h : Machine.Reachable (step c) (.start c) w) :
    w.idle.length + w.maintain.lanes.length + w.preparing ≤ c.pool ∧
    (∀ lane ∈ w.idle, lane.Authenticated c) ∧
    w.linkTcp = w.idle.length + w.maintain.lanes.length + readyLanes w.connectors +
      w.held.countP PhysicalLane.isTls ∧
    (w.maintain = .returned → w.idle = [] ∧ w.connectors = []) := by
  obtain ⟨hwired, hpooled, _⟩ := sound_of_reachable h
  refine ⟨hpooled.room, hwired.idle, ?_, fun hreturned => ⟨hpooled.returned hreturned, ?_⟩⟩
  · rw [countP_isTls]
    exact hpooled.links
  · exact hpooled.connectors (by rw [hreturned]; rfl)

theorem pool_bounded_session :
    ∃ w, Machine.Reachable (step sessionConfig) (.start sessionConfig) w ∧ w.linkTcp = 1 ∧
      w.preparing ≤ 1 := by
  obtain ⟨w, hw, hdone⟩ := exists_sessionDone
  obtain ⟨_, _, _, _, _, _, hlinks, _⟩ := of_decide_eq_true hdone
  exact ⟨w, hw, hlinks, Nat.le_trans (Nat.le_add_left _ _) (pool_bounded hw).1⟩

/-- **No shortage is slept through.** While `maintain` waits and the pool is short, a notification
is there to wake it or a lane is about to give one, but for a shutdown and for an `acquire` that has
failed since `maintain` has last looked: that one has given no notification. -/
theorem pool_shortage_noticed {c : Config} {w : World}
    (h : Machine.Reachable (step c) (.start c) w) (hwaits : w.maintain = .waiting)
    (hshort : w.idle.length < c.pool) :
    w.notified = true ∨ w.missed = true ∨ w.cancelled = true ∨
      ∃ f ∈ w.flows, ∃ leg ∈ f.lanes, leg.acquires = true := by
  have hpooled := (sound_of_reachable h).pooled
  have hstock : w.stock = w.idle.length := by
    rw [World.stock, hpooled.connectors (by rw [hwaits]; rfl), hwaits]
    rfl
  have hnoticed := hpooled.noticed (by rw [hwaits]; rfl) (hstock ▸ hshort)
  refine hnoticed.imp_right (Or.imp_right (Or.imp_right fun hpos => ?_))
  obtain ⟨f, hf, leg, hleg, hacquires⟩ := World.exists_of_sumLanes_pos hpos
  exact ⟨f, hf, leg, hleg, LaneLeg.acquires_of_pos hacquires⟩

theorem pool_shortage_noticed_session :
    ∃ w, Machine.Reachable (step sessionConfig) (.start sessionConfig) w ∧ w.idle = [] ∧
      (w.notified = true ∨ w.missed = true ∨ w.cancelled = true ∨
        ∃ f ∈ w.flows, ∃ leg ∈ f.lanes, leg.acquires = true) := by
  obtain ⟨w, hw, hdone⟩ := exists_sessionDone
  obtain ⟨hwaits, hidle, _⟩ := of_decide_eq_true hdone
  exact ⟨w, hw, hidle, pool_shortage_noticed hw hwaits (by rw [hidle]; exact Nat.zero_lt_one)⟩

end Nowhere.Vector.Carriers
