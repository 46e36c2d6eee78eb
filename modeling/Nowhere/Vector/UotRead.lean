import Nowhere.Protocol.Uot

/-!
# Vector's resumable packet reader

`UotReadState::read_packet` of `src/vector/udp_flow.rs`. The relay gives up a pending read whenever
an uplink packet comes first and calls again later with the same buffer, so the state keeps how far
length and payload were read.
-/

namespace Nowhere.Vector

open Protocol ByteStream

@[ext]
structure UotReadState where
  header : List UInt8
  headerRead : Nat
  payloadLen : Option Nat
  payloadRead : Nat
  header_length : header.length = uotHeaderLen
  headerRead_le : headerRead ≤ uotHeaderLen
  payloadRead_le : payloadRead ≤ payloadLen.getD 0

namespace UotReadState

/-- `UotReadState::default`. -/
def default : UotReadState where
  header := [0, 0]
  headerRead := 0
  payloadLen := none
  payloadRead := 0
  header_length := rfl
  headerRead_le := Nat.zero_le _
  payloadRead_le := Nat.zero_le _

/-- `Vec::resize`. -/
def resize (payload : List UInt8) (n : Nat) : List UInt8 :=
  payload.take n ++ List.replicate (n - payload.length) 0

@[simp]
theorem length_resize (payload : List UInt8) (n : Nat) : (resize payload n).length = n := by
  simp only [resize, List.length_append, List.length_take, List.length_replicate]
  omega

/-- A buffer of the right length is left as it is. -/
theorem resize_self (payload : List UInt8) : resize payload payload.length = payload := by
  simp [resize]

section Read

variable {σ : Type} (S : Resumable σ)

/-- The loop over the two bytes of the length. -/
def fillHeader (state : UotReadState) (s : σ) : Resumable.Filled σ :=
  S.fill state.header state.headerRead s

theorem fillHeader_fills (state : UotReadState) (s : σ) :
    S.Fills state.header state.headerRead s (state.fillHeader S s) :=
  S.fill_fills (state.header_length ▸ state.headerRead_le) s

/-- The state after the loop. -/
def afterHeader (state : UotReadState) (s : σ) : UotReadState where
  header := (state.fillHeader S s).buffer
  headerRead := (state.fillHeader S s).position
  payloadLen := state.payloadLen
  payloadRead := state.payloadRead
  header_length := (state.fillHeader_fills S s).length.trans state.header_length
  headerRead_le := state.header_length ▸ (state.fillHeader_fills S s).position_le
  payloadRead_le := state.payloadRead_le

/-- The length of the packet, decoded once. -/
def decodedLen (state : UotReadState) : Nat :=
  state.payloadLen.getD (Bytes.ofBe state.header)

theorem payloadRead_le_decodedLen (state : UotReadState) :
    state.payloadRead ≤ state.decodedLen := by
  have hle := state.payloadRead_le
  unfold decodedLen
  cases hlen : state.payloadLen with
  | none =>
    rw [hlen] at hle
    exact Nat.le_trans hle (Nat.zero_le _)
  | some n =>
    rw [hlen] at hle
    exact hle

/-- The loop over the payload. -/
def fillPayload (state : UotReadState) (payload : List UInt8) (s : σ) : Resumable.Filled σ :=
  S.fill (resize payload state.decodedLen) state.payloadRead s

theorem fillPayload_fills (state : UotReadState) (payload : List UInt8) (s : σ) :
    S.Fills (resize payload state.decodedLen) state.payloadRead s
      (state.fillPayload S payload s) :=
  S.fill_fills ((length_resize payload _).symm ▸ state.payloadRead_le_decodedLen) s

/-- The state after a payload loop that was left early. -/
def afterPayload (state : UotReadState) (payload : List UInt8) (s : σ) : UotReadState where
  header := state.header
  headerRead := state.headerRead
  payloadLen := some state.decodedLen
  payloadRead := (state.fillPayload S payload s).position
  header_length := state.header_length
  headerRead_le := state.headerRead_le
  payloadRead_le := 
    Nat.le_trans (state.fillPayload_fills S payload s).position_le
      (Nat.le_of_eq (length_resize payload _))

/-- The state for the next packet; the bytes of the last length stay where they are. -/
def reset (state : UotReadState) : UotReadState where
  header := state.header
  headerRead := 0
  payloadLen := none
  payloadRead := 0
  header_length := state.header_length
  headerRead_le := Nat.zero_le _
  payloadRead_le := Nat.zero_le _

/-- The part of `read_packet` behind the loop over the length. -/
def readPayload (state : UotReadState) (payload : List UInt8) (s : σ) :
    Option (Result (Option Nat)) × UotReadState × List UInt8 × σ :=
  let read := state.fillPayload S payload s
  match read.outcome with
  | .cancelled => (none, state.afterPayload S payload s, read.buffer, read.stream)
  | .eof =>
    (some (.error (.bail "vector::udp_flow::UotReadState: truncated packet payload")),
      state.afterPayload S payload s, read.buffer, read.stream)
  | .full => (some (.ok (some state.decodedLen)), state.reset, read.buffer, read.stream)

/-- One call of `read_packet` with the caller's buffer. `none` is a call that was given up. -/
def readPacket (state : UotReadState) (payload : List UInt8) (s : σ) :
    Option (Result (Option Nat)) × UotReadState × List UInt8 × σ :=
  let header := state.fillHeader S s
  let state := state.afterHeader S s
  match header.outcome with
  | .cancelled => (none, state, payload, header.stream)
  | .eof =>
    if state.headerRead = 0 then (some (.ok none), state, [], header.stream)
    else
      (some (.error (.bail "vector::udp_flow::UotReadState: truncated packet length")), state,
        payload, header.stream)
  | .full => state.readPayload S payload header.stream

end Read

/-! ## The packets it returns -/

/-- What `read_packet` reports. -/
def readError : Truncation → Failure
  | .length => .bail "vector::udp_flow::UotReadState: truncated packet length"
  | .payload => .bail "vector::udp_flow::UotReadState: truncated packet payload"

section Packets

variable {σ : Type} (S : Resumable σ)

/-- The packet is the front of the buffer (`ReceivedUdpPacket::payload`). -/
def packetOf (answer : Option (Result (Option Nat)) × UotReadState × List UInt8 × σ) :
    Option (Result (Option (List UInt8))) × UotReadState × List UInt8 × σ :=
  (answer.1.map fun result => result.map fun size => size.map fun n => answer.2.2.1.take n,
    answer.2)

/-- One call, with state, buffer and stream kept from call to call. -/
def readPacketCall (x : UotReadState × List UInt8 × σ) :
    Option (Result (Option (List UInt8))) × UotReadState × List UInt8 × σ :=
  packetOf (x.1.readPacket S x.2.1 x.2.2)

/-- A decoded length is the length of the buffer. -/
def Kept (x : UotReadState × List UInt8 × σ) : Prop :=
  ∀ n, x.1.payloadLen = some n →
    x.1.headerRead = uotHeaderLen ∧ n = Bytes.ofBe x.1.header ∧ x.2.1.length = n

/-- The bytes from the beginning of the current packet on: those the state and the buffer keep, and
those of the stream. -/
def left (x : UotReadState × List UInt8 × σ) : List UInt8 :=
  x.1.header.take x.1.headerRead ++ (x.2.1.take x.1.payloadRead ++ S.bytes x.2.2)

def patience (x : UotReadState × List UInt8 × σ) : Nat := S.cancels x.2.2

variable {S}

theorem readPayload_answer {state : UotReadState} {payload : List UInt8} {s : σ}
    (hheader : state.headerRead = uotHeaderLen)
    (hlen : state.decodedLen = Bytes.ofBe state.header)
    (hpayload : (resize payload state.decodedLen).take state.payloadRead =
      payload.take state.payloadRead) :
    uotFraming.Answer readError Kept (left S) (patience S) (state, payload, s)
      (packetOf (state.readPayload S payload s)) := by
  have hfills := state.fillPayload_fills S payload s
  have hlength := hfills.length.trans (length_resize payload _)
  have hconserves := hfills.conserves.trans (congrArg (· ++ S.bytes s) hpayload)
  have htake : state.header.take state.headerRead = state.header := by
    rw [hheader, ← state.header_length, List.take_length]
  have hleft : left S (state, payload, s) = state.header ++
      ((state.fillPayload S payload s).buffer.take (state.fillPayload S payload s).position ++
        S.bytes (state.fillPayload S payload s).stream) := by
    rw [hconserves, left, htake]
  unfold readPayload
  dsimp only
  cases hout : (state.fillPayload S payload s).outcome with
  | cancelled =>
    refine .cancelled ?_ ?_ (hfills.cancelled hout)
    · rintro n ⟨⟩
      exact ⟨hheader, hlen, hlength⟩
    · rw [hleft, left]
      exact congrArg (· ++ _) htake
  | eof =>
    obtain ⟨hposition, hempty⟩ := hfills.eof hout
    rw [length_resize, hlen] at hposition
    refine .failed (e := Truncation.payload) ?_
    rw [hleft, hempty, List.append_nil]
    refine nextPacket_short state.header_length ?_
    exact Nat.lt_of_le_of_lt (List.length_take_le _ _) hposition
  | full =>
    have hposition := (hfills.full hout).trans (length_resize payload _)
    have hall : (state.fillPayload S payload s).buffer.take state.decodedLen =
        (state.fillPayload S payload s).buffer := by
      rw [← hlength, List.take_length]
    change uotFraming.Answer readError Kept (left S) (patience S) (state, payload, s)
      (some (.ok (some ((state.fillPayload S payload s).buffer.take state.decodedLen))),
        state.reset, (state.fillPayload S payload s).buffer, (state.fillPayload S payload s).stream)
    rw [hall]
    refine .item nofun ?_
    rw [hleft, hposition, hall]
    exact nextPacket_frame _ state.header_length (hlen.symm.trans hlength.symm)

theorem readPacket_answer {x : UotReadState × List UInt8 × σ} (h : Kept x) :
    uotFraming.Answer readError Kept (left S) (patience S) x (readPacketCall S x) := by
  obtain ⟨state, payload, s⟩ := x
  unfold readPacketCall readPacket
  cases hlen : state.payloadLen with
  | some n =>
    -- the length is known, and the loop over it is not entered
    obtain ⟨hheader, hn, hpayload⟩ := h n hlen
    dsimp only at hheader hn hpayload
    have hfill : state.fillHeader S s = ⟨.full, state.header, state.headerRead, s⟩ := by
      rw [fillHeader, hheader, ← state.header_length]
      exact S.fill_full _ _
    have hafter : state.afterHeader S s = state := by
      ext1
      · exact congrArg Resumable.Filled.buffer hfill
      · exact congrArg Resumable.Filled.position hfill
      · rfl
      · rfl
    have hdecoded : state.decodedLen = payload.length := by
      rw [decodedLen, hlen, Option.getD_some, hpayload]
    dsimp only
    rw [hafter, hfill]
    refine readPayload_answer hheader ?_ ?_
    · rw [hdecoded, hpayload, hn]
    · rw [hdecoded, resize_self]
  | none =>
    have hread : state.payloadRead = 0 := by
      have hle := state.payloadRead_le
      rw [hlen] at hle
      exact Nat.le_zero.mp hle
    have hfills := state.fillHeader_fills S s
    have hempty (buffer : List UInt8) : buffer.take state.payloadRead = [] := by
      rw [hread, List.take_zero]
    have hleft : left S (state.afterHeader S s, payload, (state.fillHeader S s).stream) =
        left S (state, payload, s) := by
      simp only [left, afterHeader, hempty, List.nil_append]
      exact hfills.conserves
    dsimp only
    cases hout : (state.fillHeader S s).outcome with
    | cancelled =>
      refine .cancelled ?_ hleft (hfills.cancelled hout)
      intro n hn
      rw [show (state.afterHeader S s).payloadLen = none from hlen] at hn
      cases hn
    | eof =>
      obtain ⟨hposition, hend⟩ := hfills.eof hout
      have hrest : left S (state, payload, s) =
          (state.fillHeader S s).buffer.take (state.fillHeader S s).position := by
        rw [← hleft]
        simp only [left, afterHeader, hempty, hend, List.append_nil]
      have hshort : (left S (state, payload, s)).length = (state.fillHeader S s).position := by
        rw [hrest, List.length_take, hfills.length, Nat.min_eq_left (Nat.le_of_lt hposition)]
      by_cases hzero : (state.afterHeader S s).headerRead = 0
      · rw [if_pos hzero]
        refine .ended ?_
        rw [List.length_eq_zero_iff.mp (hshort.trans hzero)]
        rfl
      · rw [if_neg hzero]
        refine .failed (e := Truncation.length) (nextPacket_one ?_)
        have hsize : state.header.length = 2 := state.header_length
        change (state.fillHeader S s).position ≠ 0 at hzero
        omega
    | full =>
      have hheader : (state.afterHeader S s).headerRead = uotHeaderLen :=
        (hfills.full hout).trans state.header_length
      refine .of_earlier (readPayload_answer hheader ?_ ?_) hleft hfills.cancels
      · rw [decodedLen, show (state.afterHeader S s).payloadLen = none from hlen, Option.getD_none]
      · exact (hempty _).trans (hempty _).symm

/-- Repeated calls return the packets of the stream, however it is cut into pieces and however
often they are given up. -/
theorem repeats_readPacket (S : Resumable σ) (payload : List UInt8) (s : σ) :
    Repeats (readPacketCall S) (default, payload, s) (uotFraming.all (S.bytes s)).1
      ((uotFraming.all (S.bytes s)).2.map readError) :=
  Framing.repeats (fun _ hx => readPacket_answer hx) (default, payload, s) nofun

end Packets

end UotReadState

/-- Vector's reader returns the packets that Portal's reader returns and ends as it does; and both
read encoded packets back. -/
theorem uotFraming_readers_agree :
    (∀ {σ τ : Type} (S : Resumable σ) (R : Input τ) (s : σ) (t : τ) (payload : List UInt8),
      R.bytes t = S.bytes s → ∃ packets, ∃ ending : Option Truncation,
        Repeats (UotReadState.readPacketCall S) (.default, payload, s) packets
          (ending.map UotReadState.readError) ∧
        Repeats (readUdpPacketCall R) t packets (ending.map Truncation.readError)) ∧
      ∀ packets : List (List UInt8), (∀ p ∈ packets, p.length ≤ uotPacketMax) →
        ∃ frames, packets.mapM encodeUdpPacket = .ok frames ∧
          ∀ {σ τ : Type} (S : Resumable σ) (R : Input τ) (s : σ) (t : τ) (payload : List UInt8),
            S.bytes s = frames.flatten → R.bytes t = frames.flatten →
              Repeats (UotReadState.readPacketCall S) (.default, payload, s) packets none ∧
              Repeats (readUdpPacketCall R) t packets none := by
  constructor
  · intro σ τ S R s t payload hbytes
    refine ⟨_, _, UotReadState.repeats_readPacket S payload s, ?_⟩
    rw [← hbytes]
    exact repeats_readUdpPacket R t
  · intro packets hpackets
    obtain ⟨frames, hframes, hall⟩ := all_encoded hpackets
    refine ⟨frames, hframes, ?_⟩
    intro σ τ S R s t payload hs ht
    have hvector := UotReadState.repeats_readPacket S payload s
    have hportal := repeats_readUdpPacket R t
    rw [hs, hall] at hvector
    rw [ht, hall] at hportal
    exact ⟨hvector, hportal⟩

-- a packet of two bytes; the read is given up inside the length and inside the payload
example :
    let call := UotReadState.readPacketCall Resumable.interrupted
    (call (call (call (.default, [], [some ⟨[0], by decide⟩, none, some ⟨[2, 7], by decide⟩, none,
      some ⟨[8], by decide⟩])).2).2).1 = some (.ok (some [7, 8])) := by
  decide +kernel

end Nowhere.Vector
