import Nowhere.Lib.Bytes
import Nowhere.Lib.ByteStream
import Nowhere.Lib.Framing
import Nowhere.Protocol.Flow

/-!
# UDP packets on a stream

The framing of `src/protocol/uot.rs`: every packet follows its length in two bytes. The framing
itself is `uotFraming`; `read_udp_packet_into`, called again and again, returns its packets, and
what `encode_udp_packet` writes is divided into the packets that were encoded.
-/

namespace Nowhere.Protocol

open ByteStream

/-! ## The framing -/

/-- Where a stream of packets breaks off. -/
inductive Truncation
  | length
  | payload
  deriving DecidableEq, Repr

/-- The first packet, with what comes after it. -/
def nextPacket : List UInt8 → Except Truncation (Option (List UInt8 × List UInt8))
  | [] => .ok none
  | [_] => .error .length
  | a :: b :: rest =>
    if rest.length < Bytes.ofBe [a, b] then .error .payload
    else .ok (some (rest.take (Bytes.ofBe [a, b]), rest.drop (Bytes.ofBe [a, b])))

variable {bytes header payload : List UInt8}

theorem nextPacket_shorter {packet rest : List UInt8}
    (h : nextPacket bytes = .ok (some (packet, rest))) : rest.length < bytes.length := by
  match bytes with
  | [] => cases h
  | [_] => cases h
  | a :: b :: tail =>
    by_cases hshort : tail.length < Bytes.ofBe [a, b]
    · simp [nextPacket, hshort] at h
    · simp only [nextPacket, hshort, if_false] at h
      cases h
      simp only [List.length_drop, List.length_cons]
      omega

def uotFraming : Framing (List UInt8) (List UInt8) Truncation where
  next := nextPacket
  size := List.length
  shrinks := nextPacket_shorter

/-- A length and as many bytes are one packet. -/
theorem nextPacket_frame (rest : List UInt8) (hheader : header.length = 2)
    (hlength : Bytes.ofBe header = payload.length) :
    nextPacket (header ++ (payload ++ rest)) = .ok (some (payload, rest)) := by
  obtain ⟨a, b, rfl⟩ := List.length_eq_two.mp hheader
  simp [nextPacket, hlength]

/-- The stream ends inside a packet. -/
theorem nextPacket_short (hheader : header.length = 2)
    (hlength : payload.length < Bytes.ofBe header) :
    nextPacket (header ++ payload) = .error .payload := by
  obtain ⟨a, b, rfl⟩ := List.length_eq_two.mp hheader
  simp [nextPacket, hlength]

/-- The stream ends inside a length. -/
theorem nextPacket_one (h : bytes.length = 1) :
    nextPacket bytes = .error .length := by
  obtain ⟨b, rfl⟩ := List.length_eq_one_iff.mp h
  rfl

/-! ## Writing -/

/-- Fixed UoT packet header length. -/
def uotHeaderLen : Nat := 2

/-- Largest packet representable by the UoT length prefix. -/
def uotPacketMax : Nat := 65535

def encodeUdpPacketHeader (payloadLen : Nat) : Result (List UInt8) :=
  if payloadLen > uotPacketMax then
    .error (.bail
      s!"protocol::uot::encode_udp_packet_header: payload too large: {payloadLen}")
  else .ok (Bytes.toBe uotHeaderLen payloadLen)

def encodeUdpPacket (payload : List UInt8) : Result (List UInt8) := do
  let header ← encodeUdpPacketHeader payload.length
  return header ++ payload

theorem encodeUdpPacket_eq (h : payload.length ≤ uotPacketMax) :
    encodeUdpPacket payload = .ok (Bytes.toBe uotHeaderLen payload.length ++ payload) := by
  rw [encodeUdpPacket, encodeUdpPacketHeader, if_neg (Nat.not_lt.mpr h)]
  rfl

/-- Encoded packets, one behind the other, are divided into the packets. -/
theorem all_encoded {packets : List (List UInt8)} (h : ∀ p ∈ packets, p.length ≤ uotPacketMax) :
    ∃ frames, packets.mapM encodeUdpPacket = .ok frames ∧
      uotFraming.all frames.flatten = (packets, none) := by
  induction packets with
  | nil => exact ⟨[], rfl, Framing.all_ended rfl⟩
  | cons packet packets ih =>
    obtain ⟨hpacket, hpackets⟩ := List.forall_mem_cons.mp h
    obtain ⟨frames, hframes, hall⟩ := ih hpackets
    have hnext : uotFraming.next
        ((Bytes.toBe uotHeaderLen packet.length ++ packet) ++ frames.flatten) =
          .ok (some (packet, frames.flatten)) := by
      rw [List.append_assoc]
      refine nextPacket_frame _ (Bytes.length_toBe _ _) (Bytes.ofBe_toBe_of_lt ?_)
      exact Nat.lt_succ_of_le hpacket
    refine ⟨(Bytes.toBe uotHeaderLen packet.length ++ packet) :: frames, ?_, ?_⟩
    · rw [List.mapM_cons, encodeUdpPacket_eq hpacket, hframes]
      rfl
    · rw [List.flatten_cons, Framing.all_item hnext, hall]

/-! ## Reading -/

section Reading

variable {σ : Type}

/-- `read_udp_packet_into`: the length of the packet, and what the caller's buffer then holds. The
buffer is resized to the length and overwritten as a whole. -/
def readUdpPacketInto (reader : Input σ) : StateT σ Result (Option Nat × List UInt8) := do
  let first ← reader.readOne
  if first.length = 0 then return (none, [])
  else
    let second ← reader.readExact
      (.bail "protocol::uot::read_udp_packet: truncated packet length") 1
    let payloadLen := Bytes.ofBe [first.getD 0 0, second.getD 0 0]
    let payload ← reader.readExact
      (.bail "protocol::uot::read_udp_packet: truncated packet payload") payloadLen
    return (some payloadLen, payload)

/-- One call: the packet is the front of the buffer. -/
def readUdpPacketCall (reader : Input σ) (s : σ) :
    Option (Except Failure (Option (List UInt8))) × σ :=
  match readUdpPacketInto reader s with
  | .error e => (some (.error e), s)
  | .ok ((none, _), s') => (some (.ok none), s')
  | .ok ((some size, payload), s') => (some (.ok (some (payload.take size))), s')

/-- What `read_udp_packet_into` reports. -/
def Truncation.readError : Truncation → Failure
  | .length => .bail "protocol::uot::read_udp_packet: truncated packet length"
  | .payload => .bail "protocol::uot::read_udp_packet: truncated packet payload"

/-- The same on a list of bytes. -/
def takeUdpPacket (bytes : List UInt8) : Result ((Option Nat × List UInt8) × List UInt8) :=
  match nextPacket bytes with
  | .error t => .error t.readError
  | .ok none => .ok ((none, []), [])
  | .ok (some (packet, rest)) => .ok ((some packet.length, packet), rest)

theorem follows_readUdpPacketInto (reader : Input σ) :
    reader.Follows (readUdpPacketInto reader) takeUdpPacket := by
  have hread : reader.Follows (readUdpPacketInto reader) (do
      let first ← fun bytes => .ok (bytes.take 1, bytes.drop 1)
      if first.length = 0 then return (none, [])
      else
        let second ← Input.takeExact
          (.bail "protocol::uot::read_udp_packet: truncated packet length") 1
        let payloadLen := Bytes.ofBe [first.getD 0 0, second.getD 0 0]
        let payload ← Input.takeExact
          (.bail "protocol::uot::read_udp_packet: truncated packet payload") payloadLen
        return (some payloadLen, payload)) := by
    refine (Input.follows_readOne).bind fun first => .ite (Input.follows_pure _) ?_
    refine (Input.follows_readExact _ _).bind fun second => ?_
    exact (Input.follows_readExact _ _).bind fun payload => Input.follows_pure _
  intro s
  rw [hread s]
  match reader.bytes s with
  | [] => rfl
  | [a] => rfl
  | a :: b :: rest =>
    change (Input.takeExact _ (Bytes.ofBe [a, b]) rest >>= fun p =>
      .ok ((some (Bytes.ofBe [a, b]), p.1), p.2)) = _
    unfold Input.takeExact takeUdpPacket nextPacket
    by_cases hshort : rest.length < Bytes.ofBe [a, b]
    · simp only [hshort, if_true]
      rfl
    · have hlength : (rest.take (Bytes.ofBe [a, b])).length = Bytes.ofBe [a, b] := by
        rw [List.length_take]
        omega
      simp only [hshort, if_false, hlength]
      rfl

/-- Whatever pieces it gets, `read_udp_packet_into` returns the next packet of the framing. -/
theorem readUdpPacketCall_answer (reader : Input σ) (s : σ) :
    uotFraming.Answer Truncation.readError (fun _ => True) reader.bytes (fun _ => 0) s
      (readUdpPacketCall reader s) := by
  have hfollows := follows_readUdpPacketInto reader
  unfold readUdpPacketCall
  cases hnext : nextPacket (reader.bytes s) with
  | error t =>
    have htake : takeUdpPacket (reader.bytes s) = .error t.readError := by
      rw [takeUdpPacket, hnext]
    rw [hfollows.error htake]
    exact .failed hnext
  | ok item =>
    cases item with
    | none =>
      have htake : takeUdpPacket (reader.bytes s) = .ok ((none, []), []) := by
        rw [takeUdpPacket, hnext]
      obtain ⟨s', hcall, _⟩ := hfollows.ok htake
      rw [hcall]
      exact .ended hnext
    | some item =>
      obtain ⟨packet, rest⟩ := item
      have htake : takeUdpPacket (reader.bytes s) = .ok ((some packet.length, packet), rest) := by
        rw [takeUdpPacket, hnext]
      obtain ⟨s', hcall, hrest⟩ := hfollows.ok htake
      rw [hcall]
      refine .item trivial ?_
      rw [hrest, List.take_length]
      exact hnext

theorem repeats_readUdpPacket (reader : Input σ) (s : σ) :
    Repeats (readUdpPacketCall reader) s (uotFraming.all (reader.bytes s)).1
      ((uotFraming.all (reader.bytes s)).2.map Truncation.readError) :=
  Framing.repeats (fun s _ => readUdpPacketCall_answer reader s) s trivial

end Reading

end Nowhere.Protocol
