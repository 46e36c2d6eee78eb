import Nowhere.Lib.Cycle
import Nowhere.Protocol.FragmentPlan
import Nowhere.Protocol.ReassemblyHistory

/-!
# Sending a packet as DATAGRAMs

`send_quic_udp_packet` of `src/common/datagram.rs`. The function plans the packet for the size that
the connection reports and starts over once, with a new packet id, if the connection refuses a
DATAGRAM as too large. What the connection answers is a parameter; each pass of the function's loop
is recorded as an `Attempt`, with the DATAGRAMs the connection has taken.
-/

namespace Nowhere.Common

open Protocol Bytes

/-- Result of one atomic UDP packet send attempt sequence. -/
inductive UdpDatagramSend
  | sent
  | droppedTooLarge
  deriving DecidableEq, Repr

/-- `quinn::SendDatagramError`. -/
inductive SendDatagramError
  | unsupportedByPeer
  | disabled
  | tooLarge
  | connectionLost
  deriving DecidableEq, Repr

/-- What the sender asks of a `quinn::Connection`. -/
structure Connection (σ : Type) where
  maxDatagramSize : σ → Option Nat × σ
  sendDatagramWait : List UInt8 → σ → Except SendDatagramError Unit × σ

inductive SendError
  | unsupported
  | datagram (error : SendDatagramError)
  | codec (error : Failure)
  deriving DecidableEq, Repr

/-- One pass of the loop. -/
structure Attempt where
  maxSize : Option Nat
  packetId : Option UInt32
  accepted : List (List UInt8)
  deriving DecidableEq, Repr

/-- How a pass ends; after `tooLarge` there may be another one. -/
inductive Pass
  | sent
  | tooLarge
  | failed (error : SendError)
  deriving DecidableEq, Repr

/-- The id of this plan and the counter after it. -/
def takePacketId (next : UInt32) : UInt32 × UInt32 :=
  let packetId := max next 1
  (packetId, max (packetId + 1) 1)

section Sender

variable {σ : Type} (conn : Connection σ)

/-- Sends one DATAGRAM; `rest` goes on after it. -/
def sendFrame (frame : List UInt8) (s : σ)
    (rest : σ → List (List UInt8) × Pass × σ) : List (List UInt8) × Pass × σ :=
  match conn.sendDatagramWait frame s with
  | (.ok (), s) =>
    let (accepted, pass, s) := rest s
    (frame :: accepted, pass, s)
  | (.error .tooLarge, s) => ([], .tooLarge, s)
  | (.error error, s) => ([], .failed (.datagram error), s)

/-- The loop over an iterator with fewer than `fuel` frames left. -/
def sendFragments : Nat → UdpFragments → σ → List (List UInt8) × Pass × σ
  | 0, _, s => ([], .sent, s)
  | fuel + 1, fragments, s =>
    match fragments.nextFrame with
    | .error error => ([], .failed (.codec error), s)
    | .ok none => ([], .sent, s)
    | .ok (some (fragment, rest)) => sendFrame conn fragment s (sendFragments fuel rest)

def attempt (flowId : FlowId) (payload : List UInt8) (next : UInt32) (s : σ) :
    Attempt × Pass × UInt32 × σ :=
  match conn.maxDatagramSize s with
  | (none, s) => (⟨none, none, []⟩, .failed .unsupported, next, s)
  | (some maxSize, s) =>
    if payload.length + udpHeaderLen ≤ maxSize then
      match encodeUdpDataHeader flowId with
      | .error error => (⟨some maxSize, none, []⟩, .failed (.codec error), next, s)
      | .ok header =>
        let (accepted, pass, s) := sendFrame conn (header ++ payload) s fun s => ([], .sent, s)
        (⟨some maxSize, none, accepted⟩, pass, next, s)
    else
      let (packetId, next) := takePacketId next
      match encodeUdpFragments flowId packetId payload maxSize with
      | .error error => (⟨some maxSize, some packetId, []⟩, .failed (.codec error), next, s)
      | .ok fragments =>
        let (accepted, pass, s) :=
          sendFragments conn (fragments.fragmentCount.toNat + 1) fragments s
        (⟨some maxSize, some packetId, accepted⟩, pass, next, s)

/-- One call, with the passes it made. -/
structure Call where
  payload : List UInt8
  attempts : List Attempt
  result : Except SendError UdpDatagramSend

/-- The passes of a call that has `passes` of them left. -/
def sendPasses (flowId : FlowId) (payload : List UInt8) :
    Nat → UInt32 → σ → Call × UInt32 × σ
  | 0, next, s => (⟨payload, [], .ok .droppedTooLarge⟩, next, s)
  | passes + 1, next, s =>
    match attempt conn flowId payload next s with
    | (this, .sent, next, s) => (⟨payload, [this], .ok .sent⟩, next, s)
    | (this, .failed error, next, s) => (⟨payload, [this], .error error⟩, next, s)
    | (this, .tooLarge, next, s) =>
      let (call, next, s) := sendPasses flowId payload passes next s
      ({ call with attempts := this :: call.attempts }, next, s)

def sendQuicUdpPacket (flowId : FlowId) (payload : List UInt8) (next : UInt32) (s : σ) :
    Call × UInt32 × σ :=
  sendPasses conn flowId payload 2 next s

/-- The calls of one flow, which share its counter. -/
def sendAll (flowId : FlowId) : List (List UInt8) → UInt32 → σ → List Call × UInt32 × σ
  | [], next, s => ([], next, s)
  | payload :: payloads, next, s =>
    let (call, next, s) := sendQuicUdpPacket conn flowId payload next s
    let (calls, next, s) := sendAll flowId payloads next s
    (call :: calls, next, s)

end Sender

/-! ## Packet ids -/

theorem toNat_max_one (x : UInt32) : (max x 1).toNat = max x.toNat 1 := by
  have hle : x ≤ 1 ↔ x.toNat ≤ 1 := UInt32.le_iff_toNat_le
  change (if x ≤ 1 then 1 else x).toNat = _
  rw [Nat.max_def]
  by_cases hx : x.toNat ≤ 1
  · rw [if_pos (hle.mpr hx), if_pos hx]
    rfl
  · rw [if_neg (mt hle.mp hx), if_neg hx]

theorem takePacketId_pos (next : UInt32) : 0 < (takePacketId next).1.toNat := by
  rw [takePacketId, toNat_max_one]
  exact Nat.lt_of_lt_of_le Nat.one_pos (Nat.le_max_right _ _)

theorem takePacketId_after (next : UInt32) :
    (takePacketId next).2.toNat = Cycle.after (2 ^ 32) (takePacketId next).1.toNat := by
  have hpos := takePacketId_pos next
  have hlt := (takePacketId next).1.toNat_lt
  have hmax : (takePacketId next).2 = max ((takePacketId next).1 + 1) 1 := rfl
  rw [hmax, toNat_max_one, UInt32.toNat_add, UInt32.toNat_one, Cycle.after]
  by_cases hwrap : (takePacketId next).1.toNat + 1 < 2 ^ 32
  · rw [if_pos hwrap, Nat.mod_eq_of_lt hwrap]
    omega
  · rw [if_neg hwrap, show (takePacketId next).1.toNat + 1 = 2 ^ 32 by omega, Nat.mod_self]
    rfl

/-- Once the counter is not zero, it is the next id. -/
theorem takePacketId_of_pos {next : UInt32} (h : 0 < next.toNat) :
    (takePacketId next).1 = next := by
  apply UInt32.toNat_inj.mp
  rw [takePacketId, toNat_max_one]
  omega

/-- The ids that are taken one after the other, with the counter before and after. -/
inductive Takes : UInt32 → List UInt32 → UInt32 → Prop
  | nil (next : UInt32) : Takes next [] next
  | cons {next last : UInt32} {ids : List UInt32} (rest : Takes (takePacketId next).2 ids last) :
      Takes next ((takePacketId next).1 :: ids) last

namespace Takes

variable {next middle last : UInt32} {ids more : List UInt32}

theorem append (h : Takes next ids middle) (h' : Takes middle more last) :
    Takes next (ids ++ more) last := by
  induction h with
  | nil => exact h'
  | cons _ ih => exact .cons (ih h')

theorem getElem_eq (h : Takes next ids last) {i : Nat} (hi : i < ids.length) :
    ids[i].toNat = (Cycle.after (2 ^ 32))^[i] (takePacketId next).1.toNat := by
  induction h generalizing i with
  | nil => exact absurd hi (Nat.not_lt_zero i)
  | @cons next last ids rest ih =>
    cases i with
    | zero => rfl
    | succ i =>
      have hpos : 0 < (takePacketId next).2.toNat := by
        rw [takePacketId_after]
        exact Cycle.after_pos _ _
      rw [List.getElem_cons_succ, ih (Nat.lt_of_succ_lt_succ hi), takePacketId_of_pos hpos,
        takePacketId_after, Function.iterate_succ_apply]

theorem ne (h : Takes next ids last) {i j : Nat} (hij : i < j) (hj : j < ids.length)
    (hround : j - i < 2 ^ 32 - 1) : ids[i] ≠ ids[j] := by
  intro heq
  refine Cycle.iterate_after_ne (takePacketId_pos next) (takePacketId next).1.toNat_lt hij hround ?_
  rw [← h.getElem_eq (hij.trans hj), ← h.getElem_eq hj, heq]

theorem ne_zero (h : Takes next ids last) {id : UInt32} (hid : id ∈ ids) : id ≠ 0 := by
  induction h with
  | nil => cases hid
  | @cons next last ids rest ih =>
    rcases List.mem_cons.mp hid with rfl | hrest
    · intro hzero
      have hpos := takePacketId_pos next
      rw [hzero] at hpos
      exact Nat.lt_irrefl 0 hpos
    · exact ih hrest

end Takes

/-! ## One pass -/

/-- The ids the plan of a pass could have been made with; a DATA frame needs none. -/
def Attempt.Uses (a : Attempt) (id : UInt32) : Prop :=
  ∀ taken, a.packetId = some taken → taken = id

/-- The frames are sent in order up to the first that is refused. -/
structure Goes (frames accepted : List (List UInt8)) (pass : Pass) : Prop where
  taken : accepted <+: frames
  sent : pass = .sent ↔ accepted = frames

/-- What a pass did for the packet: it followed the plan for the size it was told, or there was no
such plan. -/
inductive Tried (flowId : FlowId) (payload : List UInt8) (a : Attempt) (pass : Pass) : Prop
  | planned (m : Nat) (frames : List (List UInt8)) (size : a.maxSize = some m)
      (data : a.packetId = none ↔ payload.length + udpHeaderLen ≤ m)
      (plan : ∀ id, a.Uses id → encodeUdpDataFragments flowId id payload m = .ok frames)
      (goes : Goes frames a.accepted pass)
  | unplanned (nothing : a.accepted = []) (failed : pass ≠ .sent)
      (noPlan : ∀ m id frames, a.maxSize = some m → a.Uses id →
        encodeUdpDataFragments flowId id payload m ≠ .ok frames)

section Sender

variable {σ : Type} (conn : Connection σ) {frames : List (List UInt8)}

theorem sendFrame_goes {frame : List UInt8} {rest : σ → List (List UInt8) × Pass × σ}
    (hrest : ∀ s, Goes frames (rest s).1 (rest s).2.1) (s : σ) :
    Goes (frame :: frames) (sendFrame conn frame s rest).1 (sendFrame conn frame s rest).2.1 := by
  unfold sendFrame
  split
  · rename_i s' _
    obtain ⟨htaken, hsent⟩ := hrest s'
    refine ⟨List.cons_prefix_cons.mpr ⟨rfl, htaken⟩, hsent.trans ?_⟩
    simp
  · exact ⟨List.nil_prefix, by simp⟩
  · exact ⟨List.nil_prefix, by simp⟩

/-- The loop goes through the frames that the iterator would yield. -/
theorem sendFragments_goes {fuel : Nat} {it : UdpFragments}
    (hframes : it.collectFrom fuel = .ok frames) (s : σ) :
    Goes frames (sendFragments conn fuel it s).1 (sendFragments conn fuel it s).2.1 := by
  induction fuel generalizing it frames s with
  | zero =>
    cases hframes
    exact ⟨List.nil_prefix, iff_of_true rfl rfl⟩
  | succ fuel ih =>
    unfold UdpFragments.collectFrom at hframes
    unfold sendFragments
    cases hnext : it.nextFrame with
    | error error =>
      rw [hnext] at hframes
      cases hframes
    | ok next =>
      rw [hnext] at hframes
      cases next with
      | none =>
        cases hframes
        exact ⟨List.nil_prefix, iff_of_true rfl rfl⟩
      | some step =>
        obtain ⟨frame, rest⟩ := step
        cases htail : rest.collectFrom fuel with
        | error error =>
          simp only [bind, Except.bind, htail] at hframes
          cases hframes
        | ok tail =>
          simp only [bind, Except.bind, htail] at hframes
          cases hframes
          exact sendFrame_goes conn (fun s => ih htail s) s

variable {flowId : FlowId} {payload : List UInt8}

theorem attempt_takes (next : UInt32) (s : σ) :
    Takes next (attempt conn flowId payload next s).1.packetId.toList
      (attempt conn flowId payload next s).2.2.1 := by
  unfold attempt
  split
  · exact .nil next
  · split
    · split <;> exact .nil next
    · simp only
      split <;> exact .cons (.nil _)

section Accepted

variable (hflow : flowId ≠ 0) (hpayload : payload.length ≤ udpPacketMax)
include hflow hpayload

variable {m : Nat} {packetId : UInt32}

theorem tried_data (hfits : payload.length + udpHeaderLen ≤ m) {header : List UInt8}
    (hheader : encodeUdpDataHeader flowId = .ok header) (s : σ) :
    Tried flowId payload
      ⟨some m, none, (sendFrame conn (header ++ payload) s fun s => ([], .sent, s)).1⟩
      (sendFrame conn (header ++ payload) s fun s => ([], .sent, s)).2.1 := by
  rw [encodeUdpDataHeader, encodeBaseHeader, (validateFlowId_ok _).mpr hflow] at hheader
  cases hheader
  refine .planned m [udpFrameData :: (toBe 4 flowId.toNat ++ payload)] rfl (iff_of_true rfl hfits)
    (fun id _ => ?_) ?_
  · exact encodeUdpDataFragments_data hflow hpayload hfits
  · refine sendFrame_goes conn ?_ s
    intro s
    exact ⟨List.nil_prefix, iff_of_true rfl rfl⟩

theorem tried_fragments (hlarge : m < payload.length + udpHeaderLen) (hpacket : packetId ≠ 0)
    {fragments : UdpFragments} (hok : encodeUdpFragments flowId packetId payload m = .ok fragments)
    (s : σ) :
    Tried flowId payload
      ⟨some m, some packetId,
        (sendFragments conn (fragments.fragmentCount.toNat + 1) fragments s).1⟩
      (sendFragments conn (fragments.fragmentCount.toNat + 1) fragments s).2.1 := by
  by_cases hfits : udpFragmentHeaderLen < m ∧
      divCeil payload.length (m - udpFragmentHeaderLen) ≤ 255
  · rw [encodeUdpFragments_of_fits hflow hpacket hpayload hlarge hfits.1 hfits.2] at hok
    cases hok
    have hvalid := fragmentPlan_valid hflow hpacket hpayload hlarge hfits.1 hfits.2
    refine .planned m _ rfl (iff_of_false nofun (Nat.not_le_of_lt hlarge)) (fun id huses => ?_)
      (sendFragments_goes conn (hvalid.collect rfl) s)
    rw [← huses packetId rfl]
    exact encodeUdpDataFragments_fragments hflow hpacket hpayload hlarge hfits.1 hfits.2
  · obtain ⟨_, hbails⟩ := encodeUdpFragments_bails hflow hpacket hpayload hlarge hfits
    cases hok.symm.trans hbails

theorem tried_unplanned (hlarge : m < payload.length + udpHeaderLen) (hpacket : packetId ≠ 0)
    {error : Failure} (herror : encodeUdpFragments flowId packetId payload m = .error error) :
    Tried flowId payload ⟨some m, some packetId, []⟩ (.failed (.codec error)) := by
  refine .unplanned rfl nofun (fun m' id frames hsize huses hok => ?_)
  obtain rfl := Option.some.inj hsize
  obtain rfl := huses packetId rfl
  obtain ⟨hheader, hfits⟩ :=
    (encodeUdpDataFragments_isOk hflow hpacket hpayload).mp ⟨frames, hok⟩
  obtain ⟨hroom, hcount⟩ := hfits.resolve_left (by omega)
  cases herror.symm.trans
    (encodeUdpFragments_of_fits hflow hpacket hpayload hlarge hroom hcount)

theorem attempt_tried (next : UInt32) (s : σ) :
    Tried flowId payload (attempt conn flowId payload next s).1
      (attempt conn flowId payload next s).2.1 := by
  have hpacket : (takePacketId next).1 ≠ 0 := by
    intro hzero
    have hpos := takePacketId_pos next
    rw [hzero] at hpos
    exact Nat.lt_irrefl 0 hpos
  unfold attempt
  split
  · exact .unplanned rfl nofun nofun
  · rename_i m s' _
    split
    · rename_i hfits
      split
      · rename_i error herror
        rw [encodeUdpDataHeader, encodeBaseHeader, (validateFlowId_ok _).mpr hflow] at herror
        cases herror
      · rename_i header hheader
        exact tried_data conn hflow hpayload hfits hheader s'
    · rename_i hlarge
      simp only
      split
      · rename_i error herror
        exact tried_unplanned hflow hpayload (by omega) hpacket herror
      · rename_i fragments hok
        exact tried_fragments conn hflow hpayload (by omega) hpacket hok s'

end Accepted

/-! ## One call -/

/-- The ids that a call has taken, one for each plan it made or tried to make. -/
def Call.ids (call : Call) : List UInt32 := call.attempts.flatMap fun a => a.packetId.toList

/-- The DATAGRAMs of all passes that the connection has taken. -/
def Call.accepted (call : Call) : List (List UInt8) := call.attempts.flatMap Attempt.accepted

structure Handled (flowId : FlowId) (next : UInt32) (call : Call) (last : UInt32) : Prop where
  takes : Takes next call.ids last
  sent : call.result = .ok .sent → ∃ earlier this, call.attempts = earlier ++ [this] ∧
    Tried flowId call.payload this .sent
  unsent : call.result ≠ .ok .sent → ∀ a ∈ call.attempts, ∃ pass, pass ≠ .sent ∧
    Tried flowId call.payload a pass

/-- Another pass comes before the others. -/
theorem Handled.cons {next middle last : UInt32} {call : Call} {a : Attempt}
    (h : Handled flowId middle call last) (htakes : Takes next a.packetId.toList middle)
    (htried : Tried flowId call.payload a .tooLarge) :
    Handled flowId next { call with attempts := a :: call.attempts } last where
  takes := htakes.append h.takes
  sent hsent := by
    obtain ⟨earlier, this, hattempts, hthis⟩ := h.sent hsent
    exact ⟨a :: earlier, this, congrArg (a :: ·) hattempts, hthis⟩
  unsent hunsent a' ha' := by
    rcases List.mem_cons.mp ha' with rfl | hmem
    · exact ⟨.tooLarge, nofun, htried⟩
    · exact h.unsent hunsent a' hmem

theorem sendPasses_payload (flowId : FlowId) (payload : List UInt8) (passes : Nat) (next : UInt32)
    (s : σ) :
    (sendPasses conn flowId payload passes next s).1.payload = payload := by
  induction passes generalizing next s with
  | zero => rfl
  | succ passes ih =>
    unfold sendPasses
    split
    · rfl
    · rfl
    · exact ih _ _

theorem sendPasses_length_le (flowId : FlowId) (payload : List UInt8) (passes : Nat)
    (next : UInt32) (s : σ) :
    (sendPasses conn flowId payload passes next s).1.attempts.length ≤ passes := by
  induction passes generalizing next s with
  | zero => exact Nat.le_refl 0
  | succ passes ih =>
    unfold sendPasses
    split
    · exact Nat.le_add_left 1 passes
    · exact Nat.le_add_left 1 passes
    · exact Nat.succ_le_succ (ih _ _)

theorem sendPasses_handled (hflow : flowId ≠ 0) (hpayload : payload.length ≤ udpPacketMax)
    (passes : Nat) (next : UInt32) (s : σ) :
    Handled flowId next (sendPasses conn flowId payload passes next s).1
      (sendPasses conn flowId payload passes next s).2.1 := by
  induction passes generalizing next s with
  | zero => exact ⟨.nil next, nofun, nofun⟩
  | succ passes ih =>
    have htakes : Takes next (attempt conn flowId payload next s).1.packetId.toList
        (attempt conn flowId payload next s).2.2.1 := attempt_takes conn next s
    have htried := attempt_tried conn hflow hpayload next s
    unfold sendPasses
    generalize attempt conn flowId payload next s = result at htakes htried
    obtain ⟨this, pass, next', s'⟩ := result
    have hone : Takes next (this.packetId.toList ++ []) next' := htakes.append (.nil next')
    cases pass with
    | sent => exact ⟨hone, fun _ => ⟨[], this, rfl, htried⟩, fun h => absurd rfl h⟩
    | failed error =>
      refine ⟨hone, nofun, fun _ a ha => ?_⟩
      obtain rfl := List.mem_singleton.mp ha
      exact ⟨.failed error, nofun, htried⟩
    | tooLarge =>
      refine (ih next' s').cons htakes ?_
      rw [sendPasses_payload]
      exact htried

end Sender

/-! ## What the receiver can do with it -/

section Receiver

variable {flowId : FlowId} {payload : List UInt8} {a : Attempt} {pass : Pass}

theorem Goes.length_lt {frames accepted : List (List UInt8)} (h : Goes frames accepted pass)
    (hpass : pass ≠ .sent) : accepted.length < frames.length := by
  have hle := h.taken.length_le
  have hne : accepted.length ≠ frames.length := by
    intro heq
    exact hpass (h.sent.mpr (h.taken.eq_of_length heq))
  omega

/-- The `i`-th frame of a packet that was cut carries its `i`-th fragment. -/
theorem decode_getElem {packetId : UInt32} {frames parts : List (List UInt8)}
    (h : Fragmented flowId packetId payload frames parts) {i : Nat} (hi : i < frames.length) :
    ∃ fragment, decodeUdpFrame frames[i] = .ok (.fragment flowId fragment) ∧
      fragment.packetId = packetId ∧ fragment.fragmentIndex.toNat = i ∧
      fragment.fragmentCount.toNat = frames.length := by
  have hlength : frames.length = parts.length := by
    have hmap := congrArg List.length h.decode
    rwa [List.length_map, List.length_mapIdx] at hmap
  have hle := h.le_255
  have hget : (frames.map decodeUdpFrame)[i]? = some (decodeUdpFrame frames[i]) := by
    rw [List.getElem?_map, List.getElem?_eq_getElem hi]
    rfl
  have hparts : i < parts.length := by omega
  rw [h.decode, List.getElem?_mapIdx, List.getElem?_eq_getElem hparts] at hget
  refine ⟨_, (Option.some.inj hget).symm, rfl, ?_, ?_⟩
  · exact (UInt8.toNat_ofNat').trans (Nat.mod_eq_of_lt (by omega))
  · rw [hlength]
    exact (UInt8.toNat_ofNat').trans (Nat.mod_eq_of_lt (by omega))

variable {frame : List UInt8} {next last : UInt32} {call : Call}

/-- The last fragment of a packet that was not sent whole is missing. -/
theorem Tried.fragment_of_mem (h : Tried flowId payload a pass) (hpass : pass ≠ .sent)
    (hflow : flowId ≠ 0) (hpayload : payload.length ≤ udpPacketMax)
    (hids : ∀ id, a.packetId = some id → id ≠ 0) (hframe : frame ∈ a.accepted) :
    ∃ fragment, decodeUdpFrame frame = .ok (.fragment flowId fragment) ∧
      a.packetId = some fragment.packetId ∧
      fragment.fragmentIndex.toNat + 1 < fragment.fragmentCount.toNat := by
  cases h with
  | unplanned nothing =>
    rw [nothing] at hframe
    cases hframe
  | planned m frames size data plan goes =>
    have hshort := goes.length_lt hpass
    cases hid : a.packetId with
    | none =>
      -- a refused DATA frame was the only one
      have huses : a.Uses 1 := fun taken htaken => absurd (hid.symm.trans htaken) nofun
      have hdata : encodeUdpDataFragments flowId 1 payload m = .ok [_] :=
        encodeUdpDataFragments_data hflow hpayload (data.mp hid)
      have hframes := Except.ok.inj ((plan 1 huses).symm.trans hdata)
      rw [hframes, List.length_singleton, Nat.lt_one_iff, List.length_eq_zero_iff] at hshort
      rw [hshort] at hframe
      cases hframe
    | some id =>
      have hlarge : ¬ payload.length + udpHeaderLen ≤ m := fun hfits =>
        absurd (hid.symm.trans (data.mpr hfits)) nofun
      have huses : a.Uses id := fun taken htaken => Option.some.inj (htaken.symm.trans hid)
      cases (encodeUdpDataFragments_planned hflow (hids id hid) hpayload (plan id huses)).2 with
      | data hfits => exact absurd hfits hlarge
      | fragments _ parts hparts =>
        obtain ⟨i, hi, rfl⟩ := List.mem_iff_getElem.mp hframe
        obtain ⟨fragment, hdecode, hpacket, hindex, hcount⟩ :=
          decode_getElem hparts (i := i) (by omega)
        rw [goes.taken.getElem hi]
        exact ⟨fragment, hdecode, by rw [hpacket], by omega⟩

/-- Nothing that was accepted in the call makes a packet: there is no DATA frame, and no fragment of
the packet is the last one. -/
structure Call.Unreceivable (flowId : FlowId) (call : Call) : Prop where
  fragments : ∀ frame ∈ call.accepted, ∃ fragment,
    decodeUdpFrame frame = .ok (.fragment flowId fragment) ∧ fragment.packetId ∈ call.ids
  incomplete : ∀ (R : Type) (config : ReassemblyConfig)
    (history : List (Protocol.Call R × Effect R)) (r : DatagramReassembler R),
    History config history r →
    (∀ c e, (.push c, e) ∈ history → c.flowId = flowId → c.fragment.packetId ∈ call.ids →
      ∃ frame ∈ call.accepted, decodeUdpFrame frame = .ok (.fragment c.flowId c.fragment)) →
    ∀ n c whole, CompletedAt history n c whole → c.flowId = flowId →
      c.fragment.packetId ∉ call.ids

theorem Handled.fragment_of_mem (h : Handled flowId next call last)
    (hunsent : call.result ≠ .ok .sent) (hflow : flowId ≠ 0)
    (hpayload : call.payload.length ≤ udpPacketMax) (hframe : frame ∈ call.accepted) :
    ∃ fragment, decodeUdpFrame frame = .ok (.fragment flowId fragment) ∧
      fragment.packetId ∈ call.ids ∧
      fragment.fragmentIndex.toNat + 1 < fragment.fragmentCount.toNat := by
  obtain ⟨a, ha, hframe⟩ := List.mem_flatMap.mp hframe
  have hmem : ∀ id, a.packetId = some id → id ∈ call.ids := by
    intro id hid
    refine List.mem_flatMap.mpr ⟨a, ha, ?_⟩
    rw [hid]
    exact List.mem_singleton.mpr rfl
  obtain ⟨pass, hpass, htried⟩ := h.unsent hunsent a ha
  obtain ⟨fragment, hdecode, hid, hindex⟩ := htried.fragment_of_mem hpass hflow hpayload
    (fun id hid => h.takes.ne_zero (hmem id hid)) hframe
  exact ⟨fragment, hdecode, hmem _ hid, hindex⟩

theorem Handled.unreceivable (h : Handled flowId next call last) (hunsent : call.result ≠ .ok .sent)
    (hflow : flowId ≠ 0) (hpayload : call.payload.length ≤ udpPacketMax) :
    call.Unreceivable flowId where
  fragments frame hframe := by
    obtain ⟨fragment, hdecode, hid, _⟩ := h.fragment_of_mem hunsent hflow hpayload hframe
    exact ⟨fragment, hdecode, hid⟩
  incomplete R config history r hhistory hpushes n c whole hcompleted hown hid := by
    have hlast : ∀ c e, (.push c, e) ∈ history → c.flowId = flowId →
        c.fragment.packetId ∈ call.ids →
        c.fragment.fragmentIndex.toNat + 1 < c.fragment.fragmentCount.toNat := by
      intro c e hmem hown hid
      obtain ⟨frame, hframe, hpushed⟩ := hpushes c e hmem hown hid
      obtain ⟨fragment, hdecode, _, hindex⟩ := h.fragment_of_mem hunsent hflow hpayload hframe
      cases hpushed.symm.trans hdecode
      exact hindex
    obtain ⟨born, first, used, hassembled⟩ := hcompleted.assembled hhistory
    obtain ⟨e, _, _, hat, _⟩ := hcompleted
    have hcount := hassembled.count
    have htwo := hlast c e (List.mem_of_getElem? hat) hown hid
    -- the packet was put together with its last fragment, which is not among the accepted ones
    have hused : used.length - 1 < used.length := by omega
    obtain ⟨_, _, c', e', hat', hkey, hindex, hcount', _⟩ :=
      hassembled.pushed _ _ _ (List.getElem?_eq_getElem hused)
    obtain ⟨hflow', hpacket'⟩ := ReassemblyKey.mk.inj hkey
    have hnot := hlast c' e' (List.mem_of_getElem? hat') (hflow'.trans hown)
      (hpacket' ▸ hid)
    rw [hcount', ← hcount] at hnot
    omega

end Receiver

/-! ## All calls of a flow -/

/-- The last pass sent exactly what the reference encoder gives for its size and id. -/
def Call.SentWhole (flowId : FlowId) (call : Call) : Prop :=
  ∃ earlier this m, call.attempts = earlier ++ [this] ∧ this.maxSize = some m ∧
    (this.packetId = none ↔ call.payload.length + udpHeaderLen ≤ m) ∧
    ∀ id, this.Uses id → encodeUdpDataFragments flowId id call.payload m = .ok this.accepted

/-- Some frame of the plan was not accepted. -/
def Attempt.Incomplete (flowId : FlowId) (payload : List UInt8) (a : Attempt) : Prop :=
  ∀ m id frames, a.maxSize = some m → a.Uses id →
    encodeUdpDataFragments flowId id payload m = .ok frames →
    a.accepted <+: frames ∧ a.accepted ≠ frames

variable {flowId : FlowId} {next last : UInt32} {call : Call}

theorem Tried.incomplete {payload : List UInt8} {a : Attempt} {pass : Pass}
    (h : Tried flowId payload a pass) (hpass : pass ≠ .sent) : a.Incomplete flowId payload := by
  intro m id frames hsize huses hok
  cases h with
  | planned m' frames' size data plan goes =>
    obtain rfl := Option.some.inj (hsize.symm.trans size)
    obtain rfl := Except.ok.inj (hok.symm.trans (plan id huses))
    exact ⟨goes.taken, fun hall => hpass (goes.sent.mpr hall)⟩
  | unplanned _ _ noPlan => exact absurd hok (noPlan m id frames hsize huses)

theorem Handled.sentWhole (h : Handled flowId next call last) (hsent : call.result = .ok .sent) :
    call.SentWhole flowId := by
  obtain ⟨earlier, this, hattempts, htried⟩ := h.sent hsent
  cases htried with
  | planned m frames size data plan goes =>
    refine ⟨earlier, this, m, hattempts, size, data, fun id huses => ?_⟩
    rw [goes.sent.mp rfl]
    exact plan id huses
  | unplanned _ failed => exact absurd rfl failed

theorem Handled.nodup (h : Handled flowId next call last) (hfew : call.attempts.length ≤ 2) :
    call.ids.Nodup := by
  have hids : call.ids.length ≤ call.attempts.length := by
    unfold Call.ids
    induction call.attempts with
    | nil => exact Nat.le_refl 0
    | cons a attempts ih =>
      have hone : a.packetId.toList.length ≤ 1 := by cases a.packetId <;> simp
      rw [List.flatMap_cons, List.length_append, List.length_cons]
      omega
  refine List.nodup_iff_getElem?_ne_getElem?.mpr fun i j hij hj heq => ?_
  rw [List.getElem?_eq_getElem hj, List.getElem?_eq_getElem (hij.trans hj)] at heq
  exact h.takes.ne hij hj (by omega) (Option.some.inj heq)

theorem sendAll_handled {σ : Type} (conn : Connection σ) (hflow : flowId ≠ 0)
    {payloads : List (List UInt8)} (hpayloads : ∀ payload ∈ payloads, payload.length ≤ udpPacketMax)
    (next : UInt32) (s : σ) :
    (sendAll conn flowId payloads next s).1.map Call.payload = payloads ∧
    Takes next ((sendAll conn flowId payloads next s).1.flatMap Call.ids)
      (sendAll conn flowId payloads next s).2.1 ∧
    ∀ call ∈ (sendAll conn flowId payloads next s).1, call.attempts.length ≤ 2 ∧
      ∃ before after, Handled flowId before call after := by
  induction payloads generalizing next s with
  | nil => exact ⟨rfl, .nil next, nofun⟩
  | cons payload payloads ih =>
    have hhandled := sendPasses_handled conn hflow
      (hpayloads payload List.mem_cons_self) 2 next s
    have hpayload := sendPasses_payload conn flowId payload 2 next s
    have hfew := sendPasses_length_le conn flowId payload 2 next s
    unfold sendAll sendQuicUdpPacket
    generalize sendPasses conn flowId payload 2 next s = result at hhandled hpayload hfew
    obtain ⟨call, next', s'⟩ := result
    obtain ⟨hmap, htakes, hrest⟩ :=
      ih (fun payload hmem => hpayloads payload (List.mem_cons_of_mem _ hmem)) next' s'
    refine ⟨congrArg₂ List.cons hpayload hmap, hhandled.takes.append htakes, fun call' hcall' => ?_⟩
    rcases List.mem_cons.mp hcall' with rfl | hmem
    · exact ⟨hfew, next, next', hhandled⟩
    · exact hrest call' hmem

namespace Sample

/-- A connection that refuses the second DATAGRAM. -/
def shrinking : Connection Nat where
  maxDatagramSize n := (some 23, n)
  sendDatagramWait _ n := if n = 1 then (.error .tooLarge, 2) else (.ok (), n + 1)

end Sample

end Nowhere.Common
