import Nowhere.TcpExchange

/-!
# Runs of a TCP flow

Each of the four loops keeps what it took from its source (`Relay.Hop.Kept`), and no step of the
other side disturbs it: a loop sees its source grow and its target being read. What has to be said
about the setup is which bytes stand in front of the relayed ones, `PortalDown` on the lane and
`VectorDown` on the client's stream. `Sound` puts this together for every reachable state.
-/

namespace Nowhere.TcpExchange

open Protocol Relay Common.Socks Nowhere.Vector

namespace World

/-- Vector has not dropped its pipes yet. -/
def vectorWorks (w : World) : Bool :=
  match w.vectorLeg with
  | .returned => false
  | .relaying => !w.vector.phase.isOver
  | _ => true

def portalWorks (w : World) : Bool :=
  match w.portalLeg with
  | .returned => false
  | .relaying => !w.portal.phase.isOver
  | _ => true

end World

/-- The target of the loop is open until the loop shuts it down or its relay drops it. -/
structure Guarded (works : Bool) (h : Hop UInt8 Failure) : Prop where
  shuts : h.Shuts
  live : works = true → h.Live

section Guarded

variable {works works' : Bool} {h h' : Hop UInt8 Failure}

theorem Guarded.congr (hguarded : Guarded works h) (leg : h'.leg = h.leg)
    (closed : h'.target.closed = h.target.closed) (hworks : works' = true → works = true) :
    Guarded works' h' := by
  obtain ⟨hshuts, hlive⟩ := hguarded
  constructor
  · unfold Hop.Shuts
    rw [leg, closed]
    exact hshuts
  · intro hw
    unfold Hop.Live
    rw [leg, closed]
    exact hlive (hworks hw)

theorem Guarded.moves {l : Loop} (hlive : h.Live) (hmoves : l.Moves h h') (works : Bool) :
    Guarded works h' :=
  ⟨(hlive.moves hmoves).shuts, fun _ => hlive.moves hmoves⟩

theorem Guarded.dropped (hguarded : Guarded works h) (hworks : works = false) :
    Guarded works { h with target := h.target.close .dropped } :=
  ⟨hguarded.shuts.dropped, fun hw => absurd (hworks.symm.trans hw) nofun⟩

end Guarded

/-- What Portal has written to the downlink lane: nothing, one `REJECT`, or `READY` with what its
loop has passed on. -/
def PortalDown (c : Config) (w : World) : Prop :=
  match w.portalLeg with
  | .dialing => w.laneDown.written = [] ∧ w.laneDown.closed = none
  | .dialed => w.connected = true ∧ w.laneDown.written = [] ∧ w.laneDown.closed = none
  | .rejecting code rest => rest = encodeFlowResult (.reject code) ∧ w.laneDown.written = [] ∧
      w.laneDown.closed = none
  | .finishing code => w.laneDown.written = encodeFlowResult (.reject code) ∧
      w.laneDown.closed = none
  | .readying rest => w.connected = true ∧ rest = encodeFlowResult .ready ∧
      w.laneDown.written = [] ∧ w.laneDown.closed = none
  | .relaying => w.connected = true ∧
      Hop.Kept (targetToClient c) (encodeFlowResult .ready) [] w.portalDown ∧
      Guarded w.portalWorks w.portalDown
  | .returned => w.laneDown.written = [] ∨
      ∃ code, w.laneDown.written = encodeFlowResult (.reject code)

/-- Vector has its error from Portal, or it is its own. -/
def Refused (w : World) (result : SetupResult) : Prop :=
  w.setup = some (.error result) ∧ (result = .internalError ∨
    ∃ code, result = .ofErrorCode code ∧ w.laneDown.written = encodeFlowResult (.reject code))

/-- Vector has read `READY`. -/
def Ready (w : World) : Prop := w.setup = some (.ok ()) ∧ w.portalLeg = .relaying

/-- What Vector has written to its client: the reply, and what its loop has passed on. -/
def VectorDown (c : Config) (w : World) : Prop :=
  match w.vectorLeg with
  | .awaiting => w.setup = none ∧ w.laneDown.taken = [] ∧ w.clientDown.written = [] ∧
      w.clientDown.closed = none
  | .replying rest => Ready w ∧ w.laneDown.taken = encodeFlowResult .ready ∧
      w.clientDown.written ++ rest = reply replySucceeded ∧ w.clientDown.closed = none
  | .refusing result rest => Refused w result ∧
      w.clientDown.written ++ rest = reply (OpenFlowError.setup result).socksReply ∧
      w.clientDown.closed = none
  | .relaying => Ready w ∧
      Hop.Kept (portalToClient c) (reply replySucceeded) (encodeFlowResult .ready) w.vectorDown ∧
      Guarded w.vectorWorks w.vectorDown
  | .returned => w.clientDown.closed ≠ some .shutdown ∧
      ((w.setup = none ∧ w.clientDown.written = []) ∨
      (Ready w ∧ w.clientDown.written <+: reply replySucceeded) ∨
      ∃ result, Refused w result ∧
        w.clientDown.written <+: reply (OpenFlowError.setup result).socksReply)

structure Sound (c : Config) (w : World) : Prop where
  vectorIdle : w.vectorLeg ≠ .relaying → w.vector = .start ∧ w.clientUp.taken = []
  portalIdle : w.portalLeg ≠ .relaying → w.portal = .start ∧ w.targetDown.taken = []
  vectorUp : Hop.Kept (clientToPortal c) [] [] w.vectorUp
  vectorUpGuarded : Guarded w.vectorWorks w.vectorUp
  portalUp : Hop.Kept (clientToTarget c) [] [] w.portalUp
  portalUpGuarded : Guarded w.portalWorks w.portalUp
  portalDown : PortalDown c w
  vectorDown : VectorDown c w

section Frame

variable {c : Config} {w w' : World}

theorem Sound.portalRelays (h : Sound c w) (hleg : w.portalLeg = .relaying) :
    w.connected = true ∧ Hop.Kept (targetToClient c) (encodeFlowResult .ready) [] w.portalDown ∧
      Guarded w.portalWorks w.portalDown := by
  have hdown := h.portalDown
  rwa [PortalDown, hleg] at hdown

theorem Sound.vectorRelays (h : Sound c w) (hleg : w.vectorLeg = .relaying) :
    Ready w ∧ Hop.Kept (portalToClient c) (reply replySucceeded) (encodeFlowResult .ready)
      w.vectorDown ∧ Guarded w.vectorWorks w.vectorDown := by
  have hdown := h.vectorDown
  rwa [VectorDown, hleg] at hdown

/-- Portal's side does not notice what happens to the other pipes. -/
theorem PortalDown.congr (h : PortalDown c w) (leg : w'.portalLeg = w.portalLeg)
    (portal : w'.portal = w.portal) (connected : w'.connected = w.connected)
    (written : w'.laneDown.written = w.laneDown.written)
    (closed : w'.laneDown.closed = w.laneDown.closed)
    (taken : w'.targetDown.taken = w.targetDown.taken)
    (atEnd : w.targetDown.AtEnd → w'.targetDown.AtEnd) : PortalDown c w' := by
  have hworks : w'.portalWorks = w.portalWorks := by
    unfold World.portalWorks
    rw [leg, portal]
  unfold PortalDown at h ⊢
  rw [leg]
  cases hleg : w.portalLeg with
  | relaying =>
    rw [hleg] at h
    obtain ⟨hconnected, hkept, hguarded⟩ := h
    refine ⟨connected.trans hconnected, ?_, ?_⟩
    · refine hkept.congr ?_ taken written atEnd
      simp [World.portalDown, Copy.between, portal]
    · refine hguarded.congr ?_ closed (by rw [hworks]; exact id)
      simp [World.portalDown, Copy.between, portal]
  | _ =>
    rw [hleg] at h
    simpa only [written, closed, connected] using h

/-- Vector's side notices that the lane grows only when it reads. -/
theorem VectorDown.congr (h : VectorDown c w) (leg : w'.vectorLeg = w.vectorLeg)
    (vector : w'.vector = w.vector) (setup : w'.setup = w.setup)
    (relaying : w.portalLeg = .relaying → w'.portalLeg = .relaying)
    (rejected : ∀ code, w.laneDown.written = encodeFlowResult (.reject code) →
      w'.laneDown.written = encodeFlowResult (.reject code))
    (taken : w'.laneDown.taken = w.laneDown.taken)
    (atEnd : w.laneDown.AtEnd → w'.laneDown.AtEnd)
    (written : w'.clientDown.written = w.clientDown.written)
    (closed : w'.clientDown.closed = w.clientDown.closed) : VectorDown c w' := by
  have hworks : w'.vectorWorks = w.vectorWorks := by
    unfold World.vectorWorks
    rw [leg, vector]
  have hready : Ready w → Ready w' := fun hr => ⟨setup.trans hr.1, relaying hr.2⟩
  have hrefused : ∀ result, Refused w result → Refused w' result := by
    rintro result ⟨hsetup, hresult⟩
    refine ⟨setup.trans hsetup, hresult.imp_right ?_⟩
    rintro ⟨code, hcode, hwritten⟩
    exact ⟨code, hcode, rejected code hwritten⟩
  unfold VectorDown at h ⊢
  rw [leg]
  cases hleg : w.vectorLeg with
  | awaiting =>
    rw [hleg] at h
    simpa only [setup, taken, written, closed] using h
  | replying rest =>
    rw [hleg] at h
    simp only [taken, written, closed]
    exact ⟨hready h.1, h.2⟩
  | refusing result rest =>
    rw [hleg] at h
    simp only [written, closed]
    exact ⟨hrefused result h.1, h.2⟩
  | relaying =>
    rw [hleg] at h
    obtain ⟨hr, hkept, hguarded⟩ := h
    refine ⟨hready hr, ?_, ?_⟩
    · refine hkept.congr ?_ taken written atEnd
      simp [World.vectorDown, Copy.between, vector]
    · refine hguarded.congr ?_ closed (by rw [hworks]; exact id)
      simp [World.vectorDown, Copy.between, vector]
  | returned =>
    rw [hleg] at h
    simp only [setup, written, closed]
    refine ⟨h.1, ?_⟩
    rcases h.2 with h | h | ⟨result, h⟩
    · exact .inl h
    · exact .inr (.inl ⟨hready h.1, h.2⟩)
    · exact .inr (.inr ⟨result, hrefused result h.1, h.2⟩)

end Frame

/-! ## The start -/

variable {source target : Pipe UInt8} {c : Config}

theorem live_start (h : target.closed = none) :
    Hop.Live (Copy.start.between source target : Hop UInt8 Failure) := h

theorem guarded_start (h : target.closed = none) (works : Bool) :
    Guarded works (Copy.start.between source target : Hop UInt8 Failure) :=
  ⟨(live_start h).shuts, fun _ => live_start h⟩

theorem sound_start (c : Config) : Sound c .start where
  vectorIdle _ := ⟨rfl, rfl⟩
  portalIdle _ := ⟨rfl, rfl⟩
  vectorUp := Hop.kept_start rfl rfl
  vectorUpGuarded := guarded_start rfl _
  portalUp := Hop.kept_start rfl rfl
  portalUpGuarded := guarded_start rfl _
  portalDown := ⟨rfl, rfl⟩
  vectorDown := ⟨rfl, rfl, rfl, rfl⟩

/-! ## Vector's steps -/

section Vector

variable {c : Config} {w w' : World}

/-- Portal writes at most one setup result. -/
theorem PortalDown.result (h : PortalDown c w) :
    w.laneDown.written = [] ∨ (∃ code, w.laneDown.written = encodeFlowResult (.reject code)) ∨
      (w.connected = true ∧ w.portalLeg = .relaying ∧
        encodeFlowResult .ready <+: w.laneDown.written) := by
  unfold PortalDown at h
  cases hleg : w.portalLeg with
  | dialing => rw [hleg] at h; exact .inl h.1
  | dialed => rw [hleg] at h; exact .inl h.2.1
  | rejecting code rest => rw [hleg] at h; exact .inl h.2.1
  | finishing code => rw [hleg] at h; exact .inr (.inl ⟨code, h.1⟩)
  | readying rest => rw [hleg] at h; exact .inl h.2.2.1
  | relaying =>
    rw [hleg] at h
    obtain ⟨passed, hwritten, _⟩ := h.2.1.passed
    exact .inr (.inr ⟨h.1, rfl, passed, hwritten.symm⟩)
  | returned =>
    rw [hleg] at h
    exact h.imp_right .inl

variable {byte : UInt8} {rest : List UInt8} {hop : Hop UInt8 Failure}

/-- The first byte on the lane tells which setup result Portal has written. -/
theorem PortalDown.first (h : PortalDown c w) (hwritten : w.laneDown.written = byte :: rest) :
    ([byte] = encodeFlowResult .ready ∧ w.portalLeg = .relaying) ∨
      ∃ code, [byte] = encodeFlowResult (.reject code) ∧
        w.laneDown.written = encodeFlowResult (.reject code) := by
  rcases h.result with hempty | ⟨code, hcode⟩ | ⟨_, hleg, passed, hpassed⟩
  · cases hempty.symm.trans hwritten
  · exact .inr ⟨code, congrArg ([·]) (List.cons.inj (hwritten.symm.trans hcode)).1, hcode⟩
  · exact .inl ⟨congrArg ([·]) (List.cons.inj (hwritten.symm.trans hpassed.symm)).1, hleg⟩

/-- `open_tcp` returns, with `lane` as the rest of the downlink lane. -/
theorem Sound.opened (h : Sound c w) (hleg : w.vectorLeg = .awaiting) {lane : Pipe UInt8}
    (hwritten : lane.written = w.laneDown.written) (hclosed : lane.closed = w.laneDown.closed)
    {result : Except SetupResult Unit}
    (hok : result = .ok () → lane.taken = encodeFlowResult .ready ∧ w.portalLeg = .relaying)
    (herror : ∀ r, result = .error r → r = .internalError ∨
      ∃ code, r = .ofErrorCode code ∧ lane.written = encodeFlowResult (.reject code)) :
    Sound c ({ w with laneDown := lane }.opened result) := by
  have hworks : w.vectorWorks = true := by rw [World.vectorWorks, hleg]
  have hdown := h.vectorDown
  rw [VectorDown, hleg] at hdown
  obtain ⟨_, _, hclient, hclientClosed⟩ := hdown
  exact { h with
    vectorIdle := fun _ => h.vectorIdle (by simp [hleg])
    vectorUpGuarded := h.vectorUpGuarded.congr rfl rfl fun _ => hworks
    portalDown := h.portalDown.congr rfl rfl rfl hwritten hclosed rfl id
    vectorDown := by
      cases result with
      | ok u =>
        obtain ⟨htaken, hrelaying⟩ := hok rfl
        exact ⟨⟨rfl, hrelaying⟩, htaken, by simp [World.opened, hclient], hclientClosed⟩
      | error r =>
        exact ⟨⟨rfl, herror r rfl⟩, by simp [World.opened, hclient], hclientClosed⟩ }

/-- The result is read from the lane. -/
theorem Sound.result (h : Sound c w) (hleg : w.vectorLeg = .awaiting)
    (hqueue : w.laneDown.queue = byte :: rest) :
    Sound c ({ w with laneDown := w.laneDown.take 1 }.opened
      (readReady (decodeSetupResult [byte] >>= FlowResult.ofSetup))) := by
  have hdown := h.vectorDown
  rw [VectorDown, hleg] at hdown
  have hwritten : w.laneDown.written = byte :: rest := by
    rw [Pipe.written, hdown.2.1, hqueue]
    rfl
  have htaken : (w.laneDown.take 1).taken = [byte] := by
    simp [Pipe.take, hdown.2.1, hqueue]
  rcases h.portalDown.first hwritten with ⟨hbyte, hrelaying⟩ | ⟨code, hbyte, hcode⟩
  · rw [decodeFlowResult_iff.mpr hbyte]
    exact h.opened hleg (w.laneDown.written_take 1) rfl
      (fun _ => ⟨htaken.trans hbyte, hrelaying⟩) (fun r hr => by cases hr)
  · rw [decodeFlowResult_iff.mpr hbyte]
    refine h.opened hleg (w.laneDown.written_take 1) rfl (fun hr => by cases hr) ?_
    rintro r ⟨⟩
    exact .inr ⟨code, rfl, (w.laneDown.written_take 1).trans hcode⟩

theorem Sound.replied (h : Sound c w) (hleg : w.vectorLeg = .replying rest) (n : Nat) :
    Sound c { w with
      clientDown := w.clientDown.push (rest.take n)
      vectorLeg := if n < rest.length then .replying (rest.drop n) else .relaying } := by
  have hworks : w.vectorWorks = true := by rw [World.vectorWorks, hleg]
  have hidle := h.vectorIdle (by simp [hleg])
  have hdown := h.vectorDown
  rw [VectorDown, hleg] at hdown
  obtain ⟨hready, htaken, hwritten, hclosed⟩ := hdown
  exact { h with
    vectorIdle := fun _ => hidle
    vectorUpGuarded := h.vectorUpGuarded.congr rfl rfl fun _ => hworks
    vectorDown := by
      by_cases hlt : n < rest.length
      · simp only [hlt, if_true]
        refine ⟨hready, htaken, ?_, hclosed⟩
        rw [Pipe.written_push, List.append_assoc, List.take_append_drop, hwritten]
      · simp only [hlt, if_false]
        have hall : rest.take n = rest := List.take_of_length_le (Nat.le_of_not_lt hlt)
        refine ⟨hready, ?_, ?_⟩
        · unfold World.vectorDown
          dsimp only
          rw [hidle.1, hall]
          exact Hop.kept_start htaken (by rw [Pipe.written_push, hwritten])
        · unfold World.vectorDown
          dsimp only
          rw [hidle.1]
          exact guarded_start (show (w.clientDown.push _).closed = none from hclosed) _ }

theorem vectorDown_returned (hdown : VectorDown c w) (hleg : w.vectorLeg ≠ .relaying) :
    VectorDown c { w with vectorLeg := .returned } := by
  have hopen : w.clientDown.closed = none → w.clientDown.closed ≠ some .shutdown := by simp_all
  unfold VectorDown at hdown ⊢
  cases hl : w.vectorLeg with
  | awaiting =>
    rw [hl] at hdown
    exact ⟨hopen hdown.2.2.2, .inl ⟨hdown.1, hdown.2.2.1⟩⟩
  | replying rest =>
    rw [hl] at hdown
    exact ⟨hopen hdown.2.2.2, .inr (.inl ⟨hdown.1, rest, hdown.2.2.1⟩)⟩
  | refusing result rest =>
    rw [hl] at hdown
    exact ⟨hopen hdown.2.2, .inr (.inr ⟨result, hdown.1, rest, hdown.2.1⟩)⟩
  | relaying => exact absurd hl hleg
  | returned =>
    rw [hl] at hdown
    exact hdown

/-- `handle_client` gives up before it relays. -/
theorem Sound.vectorReturns (h : Sound c w) (hleg : w.vectorLeg ≠ .relaying) :
    Sound c { w with vectorLeg := .returned } := { h with
  vectorIdle := fun _ => h.vectorIdle hleg
  vectorUpGuarded := h.vectorUpGuarded.congr rfl rfl nofun
  vectorDown := vectorDown_returned h.vectorDown hleg }

theorem Sound.refused (h : Sound c w) {result : SetupResult}
    (hleg : w.vectorLeg = .refusing result rest) (n : Nat) :
    Sound c { w with
      clientDown := w.clientDown.push (rest.take n)
      vectorLeg := .refusing result (rest.drop n) } := by
  have hworks : w.vectorWorks = true := by rw [World.vectorWorks, hleg]
  have hdown := h.vectorDown
  rw [VectorDown, hleg] at hdown
  exact { h with
    vectorIdle := fun _ => h.vectorIdle (by simp [hleg])
    vectorUpGuarded := h.vectorUpGuarded.congr rfl rfl fun _ => hworks
    vectorDown := by
      refine ⟨hdown.1, ?_, hdown.2.2⟩
      rw [Pipe.written_push, List.append_assoc, List.take_append_drop]
      exact hdown.2.1 }

/-- What Vector writes to is dropped. -/
theorem Sound.dropVector (h : Sound c w) (hworks : w.vectorWorks = false) :
    Sound c w.dropVector := { h with
  vectorUp := h.vectorUp.congr rfl rfl rfl id
  vectorUpGuarded := h.vectorUpGuarded.dropped hworks
  portalUp := h.portalUp.congr rfl rfl rfl fun hend => hend.close _
  portalUpGuarded := h.portalUpGuarded.congr rfl rfl id
  vectorDown := by
    have hdown := h.vectorDown
    unfold VectorDown at hdown ⊢
    rw [show w.dropVector.vectorLeg = w.vectorLeg from rfl]
    cases hl : w.vectorLeg with
    | relaying =>
      rw [hl] at hdown
      exact ⟨hdown.1, hdown.2.1.congr rfl rfl rfl id, hdown.2.2.dropped hworks⟩
    | returned =>
      rw [hl] at hdown
      exact ⟨Pipe.closed_close_dropped hdown.1, hdown.2⟩
    | _ => simp [World.vectorWorks, hl] at hworks }

/-- One of the two loops has taken a step. -/
theorem Sound.endVector (h : Sound c w) (hleg : w.vectorLeg = .relaying) :
    Sound c w.endVector := by
  unfold World.endVector
  split
  · rename_i hover
    exact h.dropVector (by simp [World.vectorWorks, hleg, hover])
  · exact h

theorem Sound.vectorOver (h : Sound c w) (hleg : w.vectorLeg = .relaying)
    (result : Option (Except Failure Unit)) :
    Sound c { w with vector := { w.vector with phase := .finished result } }.dropVector := by
  have hdown := h.vectorRelays hleg
  refine Sound.dropVector ?_ (by simp [World.vectorWorks, hleg, Phase.isOver])
  exact { h with
    vectorIdle := fun hne => absurd hleg hne
    vectorUpGuarded := h.vectorUpGuarded.congr rfl rfl
      (by simp [World.vectorWorks, hleg, Phase.isOver])
    vectorDown := by
      rw [VectorDown, hleg]
      exact ⟨hdown.1, hdown.2.1, hdown.2.2.congr rfl rfl
        (by simp [World.vectorWorks, hleg, Phase.isOver])⟩ }

theorem vectorWorks_of_polls (hleg : w.vectorLeg = .relaying) {s : Side}
    (hpolls : w.vector.phase.polls s = true) : w.vectorWorks = true := by
  simp [World.vectorWorks, hleg, Phase.isOver_of_polls hpolls]

theorem Sound.vectorUpMoves (h : Sound c w) (hleg : w.vectorLeg = .relaying)
    (hpolls : w.vector.phase.polls .up = true) (hmoves : (clientToPortal c).Moves w.vectorUp hop)
    (phase : Phase Failure) :
    Sound c { w with
      vector := { w.vector with up := hop.copy, phase }
      clientUp := hop.source
      laneUp := hop.target } := by
  have hlive := h.vectorUpGuarded.live (vectorWorks_of_polls hleg hpolls)
  have hdown := h.vectorRelays hleg
  exact { h with
    vectorIdle := fun hne => absurd hleg hne
    vectorUp := h.vectorUp.moves hmoves
    vectorUpGuarded := .moves hlive hmoves _
    portalUp := h.portalUp.congr rfl hmoves.target_taken rfl
      fun hend => absurd hend (hlive.not_atEnd hmoves)
    portalUpGuarded := h.portalUpGuarded.congr rfl rfl id
    vectorDown := by
      rw [VectorDown, hleg]
      exact ⟨hdown.1, hdown.2.1, hdown.2.2.congr rfl rfl
        fun _ => vectorWorks_of_polls hleg hpolls⟩ }

theorem Sound.vectorDownMoves (h : Sound c w) (hleg : w.vectorLeg = .relaying)
    (hpolls : w.vector.phase.polls .down = true)
    (hmoves : (portalToClient c).Moves w.vectorDown hop) (phase : Phase Failure) :
    Sound c { w with
      vector := { w.vector with down := hop.copy, phase }
      laneDown := hop.source
      clientDown := hop.target } := by
  have hworks := vectorWorks_of_polls hleg hpolls
  have hdown := h.vectorRelays hleg
  obtain ⟨hready, hkept, hguarded⟩ := hdown
  exact { h with
    vectorIdle := fun hne => absurd hleg hne
    vectorUpGuarded := h.vectorUpGuarded.congr rfl rfl fun _ => hworks
    portalDown := h.portalDown.congr rfl rfl rfl hmoves.source.1 hmoves.source.2 rfl id
    vectorDown := by
      rw [VectorDown, hleg]
      exact ⟨hready, hkept.moves hmoves, .moves (hguarded.live hworks) hmoves _⟩ }

/-- Every step of Vector. -/
theorem Sound.vectorStep (h : Sound c w) {e : VectorEvent} (hstep : vectorStep c w e = some w') :
    Sound c w' := by
  unfold TcpExchange.vectorStep at hstep
  split at hstep
  -- it is given up before the relay
  case h_5 | h_6 | h_11 | h_12 | h_13 =>
    rename_i hleg
    cases hstep
    exact (h.vectorReturns (by simp [hleg])).dropVector rfl
  · rename_i hleg
    split at hstep
    · cases hstep
    · rename_i byte rest hqueue
      cases hstep
      exact h.result hleg hqueue
  · rename_i hleg
    cases hstep
    exact h.opened hleg rfl rfl nofun fun r hr => .inl (Except.error.inj hr).symm
  · rename_i rest n hleg
    split at hstep
    · cases hstep
      exact h.replied hleg n
    · cases hstep
  · rename_i result rest n hleg
    split at hstep
    · have hrefused := h.refused hleg n
      split at hstep
      · cases hstep
        exact hrefused
      · cases hstep
        exact (hrefused.vectorReturns nofun).dropVector rfl
    · cases hstep
  · rename_i a hleg
    split at hstep
    · rename_i hpolls
      obtain ⟨hop, hhop, rfl⟩ := Option.map_eq_some_iff.mp hstep
      exact (h.vectorUpMoves hleg hpolls (Loop.moves_of_step hhop) _).endVector hleg
    · cases hstep
  · rename_i a hleg
    split at hstep
    · rename_i hpolls
      obtain ⟨hop, hhop, rfl⟩ := Option.map_eq_some_iff.mp hstep
      exact (h.vectorDownMoves hleg hpolls (Loop.moves_of_step hhop) _).endVector hleg
    · cases hstep
  · rename_i hleg
    split at hstep
    · cases hstep
      exact h.vectorOver hleg _
    · cases hstep
  · rename_i hleg
    split at hstep
    · cases hstep
    · cases hstep
      exact h.vectorOver hleg _
  · cases hstep

end Vector

/-! ## Portal's steps -/

section Portal

variable {c : Config} {w w' : World} {leg : PortalLeg} {hop : Hop UInt8 Failure}

/-- A step of the setup that writes nothing. -/
theorem Sound.portalSets (h : Sound c w) (hleg : w.portalLeg ≠ .relaying) {leg : PortalLeg}
    (connected : Bool)
    (hworks : World.portalWorks { w with portalLeg := leg, connected } = true →
      w.portalWorks = true)
    (hdown : PortalDown c { w with portalLeg := leg, connected }) :
    Sound c { w with portalLeg := leg, connected } := { h with
  portalIdle := fun _ => h.portalIdle hleg
  portalUpGuarded := h.portalUpGuarded.congr rfl rfl hworks
  portalDown := hdown
  vectorDown := h.vectorDown.congr rfl rfl rfl (fun hr => absurd hr hleg) (fun _ => id) rfl id rfl
    rfl }

/-- The byte of the setup result is written. -/
theorem Sound.resultWritten (h : Sound c w) (hleg : w.portalLeg ≠ .relaying)
    (hworks : w.portalWorks = true) (hempty : w.laneDown.written = [])
    (hopen : w.laneDown.closed = none) {bytes : List UInt8}
    (hdown : PortalDown c { w with portalLeg := leg, laneDown := w.laneDown.push bytes }) :
    Sound c { w with portalLeg := leg, laneDown := w.laneDown.push bytes } := { h with
  portalIdle := fun _ => h.portalIdle hleg
  portalUpGuarded := h.portalUpGuarded.congr rfl rfl fun _ => hworks
  portalDown := hdown
  vectorDown := h.vectorDown.congr rfl rfl rfl (fun hr => absurd hr hleg)
    (fun _ hcode => absurd (hempty.symm.trans hcode) nofun) rfl
    (fun hend => absurd hopen hend.2) rfl rfl }

/-- What Portal writes to is dropped. -/
theorem Sound.dropPortal (h : Sound c w) (hworks : w.portalWorks = false) :
    Sound c w.dropPortal := { h with
  portalUp := h.portalUp.congr rfl rfl rfl id
  portalUpGuarded := h.portalUpGuarded.dropped hworks
  portalDown := by
    have hdown := h.portalDown
    unfold PortalDown at hdown ⊢
    rw [show w.dropPortal.portalLeg = w.portalLeg from rfl]
    cases hl : w.portalLeg with
    | relaying =>
      rw [hl] at hdown
      exact ⟨hdown.1, hdown.2.1.congr rfl rfl rfl id, hdown.2.2.dropped hworks⟩
    | returned =>
      rw [hl] at hdown
      exact hdown
    | _ => simp [World.portalWorks, hl] at hworks
  vectorDown := h.vectorDown.congr rfl rfl rfl id (fun _ => id) rfl (fun hend => hend.close _) rfl
    rfl }

theorem portalDown_returned (hdown : PortalDown c w) (hleg : w.portalLeg ≠ .relaying) :
    PortalDown c { w with portalLeg := .returned } :=
  hdown.result.imp_right (Or.resolve_right · fun hready => hleg hready.2.1)

/-- `relay_paired_tcp` returns before it relays. -/
theorem Sound.portalReturns (h : Sound c w) (hleg : w.portalLeg ≠ .relaying) :
    Sound c { w with portalLeg := .returned }.dropPortal := by
  have hreturned : Sound c { w with portalLeg := .returned } :=
    h.portalSets hleg w.connected nofun (portalDown_returned h.portalDown hleg)
  exact hreturned.dropPortal rfl

theorem Sound.portalFinishes (h : Sound c w) {code : FlowErrorCode}
    (hleg : w.portalLeg = .finishing code) :
    Sound c { w with
      portalLeg := .returned
      laneDown := w.laneDown.close .shutdown }.dropPortal := by
  have hdown := h.portalDown
  rw [PortalDown, hleg] at hdown
  have hne : w.portalLeg ≠ .relaying := by simp [hleg]
  refine Sound.dropPortal ?_ rfl
  exact { h with
    portalIdle := fun _ => h.portalIdle hne
    portalUpGuarded := h.portalUpGuarded.congr rfl rfl nofun
    portalDown := .inr ⟨code, hdown.1⟩
    vectorDown := h.vectorDown.congr rfl rfl rfl (fun hr => absurd hr hne) (fun _ => id) rfl
      (fun hend => hend.close _) rfl rfl }

theorem Sound.endPortal (h : Sound c w) (hleg : w.portalLeg = .relaying) :
    Sound c w.endPortal := by
  unfold World.endPortal
  split
  · rename_i hover
    exact h.dropPortal (by simp [World.portalWorks, hleg, hover])
  · exact h

theorem Sound.portalOver (h : Sound c w) (hleg : w.portalLeg = .relaying)
    (result : Option (Except Failure Unit)) :
    Sound c { w with portal := { w.portal with phase := .finished result } }.dropPortal := by
  have hdown := h.portalRelays hleg
  refine Sound.dropPortal ?_ (by simp [World.portalWorks, hleg, Phase.isOver])
  exact { h with
    portalIdle := fun hne => absurd hleg hne
    portalUpGuarded := h.portalUpGuarded.congr rfl rfl
      (by simp [World.portalWorks, hleg, Phase.isOver])
    portalDown := by
      rw [PortalDown, hleg]
      exact ⟨hdown.1, hdown.2.1, hdown.2.2.congr rfl rfl
        (by simp [World.portalWorks, hleg, Phase.isOver])⟩
    vectorDown := h.vectorDown }

theorem Sound.overPortal (h : Sound c w) (hleg : w.portalLeg = .relaying)
    (hstep : w.overPortal = some w') : Sound c w' := by
  unfold World.overPortal at hstep
  split at hstep
  · cases hstep
  · cases hstep
    exact h.portalOver hleg none

theorem portalWorks_of_polls (hleg : w.portalLeg = .relaying) {s : Side}
    (hpolls : w.portal.phase.polls s = true) : w.portalWorks = true := by
  simp [World.portalWorks, hleg, Phase.isOver_of_polls hpolls]

theorem Sound.portalUpMoves (h : Sound c w) (hleg : w.portalLeg = .relaying)
    (hpolls : w.portal.phase.polls .up = true) (hmoves : (clientToTarget c).Moves w.portalUp hop)
    (phase : Phase Failure) :
    Sound c { w with
      portal := { w.portal with up := hop.copy, phase }
      laneUp := hop.source
      targetUp := hop.target } := by
  have hworks := portalWorks_of_polls hleg hpolls
  have hdown := h.portalRelays hleg
  exact { h with
    portalIdle := fun hne => absurd hleg hne
    vectorUp := h.vectorUp.congr rfl rfl hmoves.source.1 id
    vectorUpGuarded := h.vectorUpGuarded.congr rfl hmoves.source.2 id
    portalUp := h.portalUp.moves hmoves
    portalUpGuarded := .moves (h.portalUpGuarded.live hworks) hmoves _
    portalDown := by
      rw [PortalDown, hleg]
      exact ⟨hdown.1, hdown.2.1, hdown.2.2.congr rfl rfl fun _ => hworks⟩
    vectorDown := h.vectorDown }

theorem Sound.portalDownMoves (h : Sound c w) (hleg : w.portalLeg = .relaying)
    (hpolls : w.portal.phase.polls .down = true)
    (hmoves : (targetToClient c).Moves w.portalDown hop) (phase : Phase Failure) :
    Sound c { w with
      portal := { w.portal with down := hop.copy, phase }
      targetDown := hop.source
      laneDown := hop.target } := by
  have hworks := portalWorks_of_polls hleg hpolls
  have hdown := h.portalRelays hleg
  obtain ⟨hconnected, hkept, hguarded⟩ := hdown
  have hlive := hguarded.live hworks
  have hready : ∀ code, w.laneDown.written ≠ encodeFlowResult (.reject code) := by
    intro code hcode
    obtain ⟨passed, hpassed, _⟩ := hkept.passed
    rw [show w.portalDown.target.written = w.laneDown.written from rfl, hcode] at hpassed
    have hsame := (List.cons.inj hpassed).1
    cases code <;> cases hsame
  exact { h with
    portalIdle := fun hne => absurd hleg hne
    portalUpGuarded := h.portalUpGuarded.congr rfl rfl fun _ => hworks
    portalDown := by
      rw [PortalDown, hleg]
      exact ⟨hconnected, hkept.moves hmoves, .moves hlive hmoves _⟩
    vectorDown := h.vectorDown.congr rfl rfl rfl id (fun code hcode => absurd hcode (hready code))
      hmoves.target_taken (fun hend => absurd hend (hlive.not_atEnd hmoves)) rfl rfl }

/-- Portal is about to write a `REJECT`. -/
theorem Sound.reject (h : Sound c w) (hleg : w.portalLeg ≠ .relaying)
    (hworks : w.portalWorks = true) (hempty : w.laneDown.written = [])
    (hopen : w.laneDown.closed = none) (code : FlowErrorCode) : Sound c (w.reject code) :=
  h.portalSets hleg w.connected (fun _ => hworks) ⟨rfl, hempty, hopen⟩

/-- `READY` is written, and the relay starts. -/
theorem portalDown_ready (hconnected : w.connected = true) (hempty : w.laneDown.written = [])
    (hopen : w.laneDown.closed = none) (hidle : w.portal = .start ∧ w.targetDown.taken = []) :
    PortalDown c { w with
      portalLeg := .relaying
      laneDown := w.laneDown.push (encodeFlowResult .ready) } := by
  refine ⟨hconnected, ?_, ?_⟩
  · unfold World.portalDown
    dsimp only
    rw [hidle.1]
    exact Hop.kept_start hidle.2 (by rw [Pipe.written_push, hempty, List.nil_append])
  · unfold World.portalDown
    dsimp only
    rw [hidle.1]
    exact guarded_start (show (w.laneDown.push _).closed = none from hopen) _

theorem eq_one_of_wrote {result : FlowResult} {n : Nat}
    (hn : 0 < n ∧ n ≤ (encodeFlowResult result).length) : n = 1 :=
  Nat.le_antisymm hn.2 hn.1

/-- Every step of Portal. -/
theorem Sound.portalStep (h : Sound c w) {e : PortalEvent} (hstep : portalStep c w e = some w') :
    Sound c w' := by
  have hdown := h.portalDown
  unfold TcpExchange.portalStep at hstep
  split at hstep
  -- it is given up before the relay
  case h_8 | h_9 | h_10 | h_17 | h_18 | h_19 | h_20 | h_21 =>
    rename_i hleg
    cases hstep
    exact h.portalReturns (by simp [hleg])
  · rename_i hleg
    rw [PortalDown, hleg] at hdown
    split at hstep
    · cases hstep
      exact h.reject (by simp [hleg]) (by simp [World.portalWorks, hleg]) hdown.1 hdown.2 _
    · cases hstep
  · rename_i hleg
    rw [PortalDown, hleg] at hdown
    cases hstep
    exact h.portalSets (by simp [hleg]) true (by simp [World.portalWorks, hleg]) ⟨rfl, hdown⟩
  · rename_i hleg
    rw [PortalDown, hleg] at hdown
    cases hstep
    exact h.reject (by simp [hleg]) (by simp [World.portalWorks, hleg]) hdown.1 hdown.2 _
  · rename_i hleg
    rw [PortalDown, hleg] at hdown
    split at hstep
    · cases hstep
      exact h.reject (by simp [hleg]) (by simp [World.portalWorks, hleg]) hdown.2.1 hdown.2.2 _
    · cases hstep
      exact h.portalSets (by simp [hleg]) w.connected (by simp [World.portalWorks, hleg])
        ⟨hdown.1, rfl, hdown.2⟩
  · rename_i code rest n hleg
    rw [PortalDown, hleg] at hdown
    obtain ⟨rfl, hempty, hopen⟩ := hdown
    split at hstep
    · rename_i hn
      cases hstep
      rw [eq_one_of_wrote hn]
      refine h.resultWritten (by simp [hleg]) (by simp [World.portalWorks, hleg]) hempty hopen ?_
      exact ⟨by simp [hempty]; rfl, hopen⟩
    · cases hstep
  · rename_i code hleg
    cases hstep
    exact h.portalFinishes hleg
  · rename_i rest n hleg
    rw [PortalDown, hleg] at hdown
    obtain ⟨hconnected, rfl, hempty, hopen⟩ := hdown
    have hne : w.portalLeg ≠ .relaying := by simp [hleg]
    split at hstep
    · rename_i hn
      cases hstep
      rw [eq_one_of_wrote hn]
      exact h.resultWritten hne (by simp [World.portalWorks, hleg]) hempty hopen
        (portalDown_ready hconnected hempty hopen (h.portalIdle hne))
    · cases hstep
  · rename_i a hleg
    split at hstep
    · rename_i hpolls
      obtain ⟨hop, hhop, rfl⟩ := Option.map_eq_some_iff.mp hstep
      exact (h.portalUpMoves hleg hpolls (Loop.moves_of_step hhop) _).endPortal hleg
    · cases hstep
  · rename_i a hleg
    split at hstep
    · rename_i hpolls
      obtain ⟨hop, hhop, rfl⟩ := Option.map_eq_some_iff.mp hstep
      exact (h.portalDownMoves hleg hpolls (Loop.moves_of_step hhop) _).endPortal hleg
    · cases hstep
  · rename_i hleg
    split at hstep
    · cases hstep
      exact h.portalOver hleg _
    · cases hstep
  · rename_i hleg
    split at hstep
    · exact h.overPortal hleg hstep
    · cases hstep
  · rename_i hleg
    exact h.overPortal hleg hstep
  · rename_i hleg
    exact h.overPortal hleg hstep
  · cases hstep

end Portal

/-! ## Every run -/

theorem Sound.step {w w' : World} (h : Sound c w) {e : Event} (hstep : step c w e = some w') :
    Sound c w' := by
  cases e with
  | clientWrites bytes =>
    simp only [TcpExchange.step] at hstep
    split at hstep
    · rename_i hopen
      cases hstep
      exact { h with
        vectorUp := h.vectorUp.congr rfl rfl rfl fun hend => absurd hopen hend.2
        vectorUpGuarded := h.vectorUpGuarded.congr rfl rfl id }
    · cases hstep
  | clientCloses =>
    cases hstep
    exact { h with
      vectorUp := h.vectorUp.congr rfl rfl rfl fun hend => hend.close _
      vectorUpGuarded := h.vectorUpGuarded.congr rfl rfl id }
  | clientReads n =>
    cases hstep
    exact { h with
      vectorDown := h.vectorDown.congr rfl rfl rfl id (fun _ => id) rfl id
        (w.clientDown.written_take n) rfl }
  | targetWrites bytes =>
    simp only [TcpExchange.step] at hstep
    split at hstep
    · rename_i hopen
      cases hstep
      exact { h with
        portalDown := h.portalDown.congr rfl rfl rfl rfl rfl rfl
          fun hend => absurd hopen.2 hend.2 }
    · cases hstep
  | targetCloses =>
    simp only [TcpExchange.step] at hstep
    split at hstep
    · cases hstep
      exact { h with
        portalDown := h.portalDown.congr rfl rfl rfl rfl rfl rfl fun hend => hend.close _ }
    · cases hstep
  | targetReads n =>
    simp only [TcpExchange.step] at hstep
    split at hstep
    · cases hstep
      exact { h with
        portalUp := h.portalUp.congr rfl rfl (w.targetUp.written_take n) id
        portalUpGuarded := h.portalUpGuarded.congr rfl rfl id }
    · cases hstep
  | cancel =>
    cases hstep
    exact { h with }
  | vector e => exact h.vectorStep hstep
  | portal e => exact h.portalStep hstep

theorem sound_of_reachable {w : World} (h : Machine.Reachable (step c) .start w) : Sound c w :=
  h.invariant (sound_start c) fun _ _ _ hw hstep => hw.step hstep

end Nowhere.TcpExchange
