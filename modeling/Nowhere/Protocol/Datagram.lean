import Nowhere.Lib.Bytes
import Nowhere.Protocol.Flow

/-!
# The QUIC DATAGRAM codec

The frames of `src/protocol/datagram.rs`: unfragmented DATA, FRAGMENT and CLOSE, with the
validation, the error texts and the fragment iterator of the source. Borrowed and owned
payloads are both the list of their bytes, and so are the two types of frames one.
-/

namespace Nowhere.Protocol

open Bytes

def udpFrameData : UInt8 := 0
def udpFrameFragment : UInt8 := 1
def udpFrameClose : UInt8 := 2
def udpHeaderLen : Nat := 5
def udpFragmentHeaderLen : Nat := 13
def udpPacketMax : Nat := 65535
def frameTypeMask : UInt8 := 0b00000011
def reservedMask : UInt8 := 0b11111100

/-- Fragment metadata with its payload. -/
structure UdpFragment where
  packetId : UInt32
  fragmentIndex : UInt8
  fragmentCount : UInt8
  totalLen : UInt16
  payload : List UInt8
  deriving DecidableEq, Repr

/-- One decoded QUIC DATAGRAM frame. -/
inductive UdpFrame
  | data (flowId : FlowId) (payload : List UInt8)
  | fragment (flowId : FlowId) (fragment : UdpFragment)
  | close (flowId : FlowId)
  deriving DecidableEq, Repr

/-! ## Validation -/

def validateFlowId (flowId : FlowId) (operation : String) : Result Unit :=
  if flowId = 0 then .error (.bail s!"protocol::datagram::{operation}: zero flow id")
  else .ok ()

def validatePacketId (packetId : UInt32) (operation : String) : Result Unit :=
  if packetId = 0 then .error (.bail s!"protocol::datagram::{operation}: zero packet id")
  else .ok ()

def validateUdpPayload (payload : List UInt8) (operation : String) : Result Unit :=
  if payload.length > udpPacketMax then
    .error (.bail s!"protocol::datagram::{operation}: UDP payload too large: {payload.length}")
  else .ok ()

def validateFragmentMetadata (fragmentIndex fragmentCount : UInt8) (totalLen : UInt16)
    (operation : String) : Result Unit :=
  if fragmentCount < 2 ∨ fragmentIndex ≥ fragmentCount then
    .error (.bail s!"protocol::datagram::{operation}: invalid fragment index or count")
  else if totalLen = 0 then
    .error (.bail s!"protocol::datagram::{operation}: zero fragmented packet length")
  else if totalLen < fragmentCount.toUInt16 then
    .error (.bail s!"protocol::datagram::{operation}: total length smaller than fragment count")
  else .ok ()

/-! ## Encoding -/

def encodeBaseHeader (frameType : UInt8) (flowId : FlowId) : Result (List UInt8) := do
  validateFlowId flowId "encode_base_header"
  return frameType :: toBe 4 flowId.toNat

def encodeUdpDataHeader (flowId : FlowId) : Result (List UInt8) :=
  encodeBaseHeader udpFrameData flowId

def encodeUdpClose (flowId : FlowId) : Result (List UInt8) :=
  encodeBaseHeader udpFrameClose flowId

/-- The thirteen bytes that `encode_udp_fragment_header` fills in. -/
def fragmentHeader (flowId : FlowId) (packetId : UInt32) (fragmentIndex fragmentCount : UInt8)
    (totalLen : UInt16) : List UInt8 :=
  udpFrameFragment :: (toBe 4 flowId.toNat ++ (toBe 4 packetId.toNat ++
    fragmentIndex :: fragmentCount :: toBe 2 totalLen.toNat))

def encodeUdpFragmentHeader (flowId : FlowId) (packetId : UInt32)
    (fragmentIndex fragmentCount : UInt8) (totalLen : UInt16) : Result (List UInt8) := do
  validateFlowId flowId "encode_udp_fragment_header"
  validatePacketId packetId "encode_udp_fragment_header"
  validateFragmentMetadata fragmentIndex fragmentCount totalLen "encode_udp_fragment_header"
  return fragmentHeader flowId packetId fragmentIndex fragmentCount totalLen

def encodeUdpData (flowId : FlowId) (payload : List UInt8) : Result (List UInt8) := do
  validateUdpPayload payload "encode_udp_data"
  let header ← encodeUdpDataHeader flowId
  return header ++ payload

/-- The lazy sequence of FRAGMENT frames of one packet. -/
structure UdpFragments where
  flowId : FlowId
  packetId : UInt32
  payload : List UInt8
  fragmentPayloadMax : Nat
  fragmentCount : UInt8
  next : UInt8
  deriving DecidableEq, Repr

/-- `Iterator::next` of `UdpFragments`. -/
def UdpFragments.nextFrame (it : UdpFragments) : Result (Option (List UInt8 × UdpFragments)) :=
  if it.next ≥ it.fragmentCount then .ok none
  else do
    let start := it.next.toNat * it.fragmentPayloadMax
    let stop := min it.payload.length (start + it.fragmentPayloadMax)
    let fragmentPayload ← slice it.payload start stop
    let header ← expect (encodeUdpFragmentHeader it.flowId it.packetId it.next it.fragmentCount
      (UInt16.ofNat it.payload.length)) "fragment plan was validated at construction"
    return some (header ++ fragmentPayload, { it with next := it.next + 1 })

/-- `Iterator::collect`, for an iterator with fewer than `fuel` frames left. -/
def UdpFragments.collectFrom : Nat → UdpFragments → Result (List (List UInt8))
  | 0, _ => .ok []
  | fuel + 1, it => do
    match ← it.nextFrame with
    | none => return []
    | some (frame, rest) => return frame :: (← collectFrom fuel rest)

def UdpFragments.collect (it : UdpFragments) : Result (List (List UInt8)) :=
  it.collectFrom (it.fragmentCount.toNat + 1)

/-- `payload.len().div_ceil(capacity)`. -/
def divCeil (n capacity : Nat) : Nat := (n + (capacity - 1)) / capacity

def encodeUdpFragments (flowId : FlowId) (packetId : UInt32) (payload : List UInt8)
    (maxDatagramSize : Nat) : Result UdpFragments := do
  validateFlowId flowId "encode_udp_fragments"
  validatePacketId packetId "encode_udp_fragments"
  validateUdpPayload payload "encode_udp_fragments"
  if udpHeaderLen ≤ maxDatagramSize ∧ payload.length ≤ maxDatagramSize - udpHeaderLen then
    .error (.bail "protocol::datagram::encode_udp_fragments: packet must use unfragmented DATA")
  else if maxDatagramSize ≤ udpFragmentHeaderLen then
    .error (.bail ("protocol::datagram::encode_udp_fragments: DATAGRAM limit " ++
      s!"{maxDatagramSize} has no fragment payload capacity"))
  else
    let fragmentPayloadMax := maxDatagramSize - udpFragmentHeaderLen
    let fragmentCount := divCeil payload.length fragmentPayloadMax
    if 2 ≤ fragmentCount ∧ fragmentCount ≤ 255 then
      .ok ⟨flowId, packetId, payload, fragmentPayloadMax, UInt8.ofNat fragmentCount, 0⟩
    else
      .error (.bail ("protocol::datagram::encode_udp_fragments: invalid fragment count: " ++
        s!"{fragmentCount}"))

/-- One minimal DATA frame, or the required FRAGMENT frames. -/
def encodeUdpDataFragments (flowId : FlowId) (packetId : UInt32) (payload : List UInt8)
    (maxDatagramSize : Nat) : Result (List (List UInt8)) := do
  validateFlowId flowId "encode_udp_data_fragments"
  validateUdpPayload payload "encode_udp_data_fragments"
  if maxDatagramSize < udpHeaderLen then
    .error (.bail ("protocol::datagram::encode_udp_data_fragments: DATAGRAM limit " ++
      s!"{maxDatagramSize} smaller than header {udpHeaderLen}"))
  else if payload.length ≤ maxDatagramSize - udpHeaderLen then
    return [← encodeUdpData flowId payload]
  else
    (← encodeUdpFragments flowId packetId payload maxDatagramSize).collect

/-! ## Decoding -/

/-- The length test on a fragment's payload, made by the decoder and by the reassembler. -/
def badFragmentPayload (fragmentCount : UInt8) (totalLen : UInt16) (payload : List UInt8) : Bool :=
  payload.isEmpty || decide (payload.length + (fragmentCount.toNat - 1) > totalLen.toNat)

def decodeFragment (input : List UInt8) (flowId : FlowId) : Result UdpFrame :=
  if input.length < udpFragmentHeaderLen then
    .error (.bail "protocol::datagram::decode_udp_frame: short fragment header")
  else do
    let packetId := UInt32.ofNat (ofBe ((input.drop 5).take 4))
    validatePacketId packetId "decode_udp_frame"
    let fragmentIndex := input.getD 9 0
    let fragmentCount := input.getD 10 0
    let totalLen := UInt16.ofNat (ofBe ((input.drop 11).take 2))
    validateFragmentMetadata fragmentIndex fragmentCount totalLen "decode_udp_frame"
    let payload := input.drop udpFragmentHeaderLen
    if badFragmentPayload fragmentCount totalLen payload then
      .error (.bail "protocol::datagram::decode_udp_frame: invalid fragment payload length")
    else
      return .fragment flowId ⟨packetId, fragmentIndex, fragmentCount, totalLen, payload⟩

def decodeUdpFrame (input : List UInt8) : Result UdpFrame :=
  if input.length < udpHeaderLen then
    .error (.bail "protocol::datagram::decode_udp_frame: short header")
  else
    let flags := input.getD 0 0
    if flags &&& reservedMask ≠ 0 then
      .error (.bail "protocol::datagram::decode_udp_frame: reserved flags are non-zero")
    else do
      let flowId := UInt32.ofNat (ofBe ((input.drop 1).take 4))
      validateFlowId flowId "decode_udp_frame"
      let value := flags &&& frameTypeMask
      if value = udpFrameData then
        let payload := input.drop udpHeaderLen
        validateUdpPayload payload "decode_udp_frame"
        return .data flowId payload
      else if value = udpFrameFragment then
        decodeFragment input flowId
      else if value = udpFrameClose then
        if input.length ≠ udpHeaderLen then
          .error (.bail "protocol::datagram::decode_udp_frame: CLOSE payload")
        else
          return .close flowId
      else
        .error (.bail s!"protocol::datagram::decode_udp_frame: invalid frame type: {value}")

/-- An owned DATAGRAM is decoded like a borrowed one, and its payload cut out of it again. -/
def decodeUdpFrameOwned (input : List UInt8) : Result UdpFrame := do
  match ← decodeUdpFrame input with
  | .data flowId _ => return .data flowId (input.drop udpHeaderLen)
  | .fragment flowId fragment =>
    return .fragment flowId ⟨fragment.packetId, fragment.fragmentIndex, fragment.fragmentCount,
      fragment.totalLen, input.drop udpFragmentHeaderLen⟩
  | .close flowId => return .close flowId

/-! ## What the validators accept -/

variable {flowId : FlowId} {packetId : UInt32} {payload : List UInt8} {c maxDatagramSize : Nat}

theorem validateFlowId_ok (operation : String) :
    validateFlowId flowId operation = .ok () ↔ flowId ≠ 0 := by
  unfold validateFlowId
  split <;> simp_all

theorem validatePacketId_ok (operation : String) :
    validatePacketId packetId operation = .ok () ↔ packetId ≠ 0 := by
  unfold validatePacketId
  split <;> simp_all

theorem validateUdpPayload_ok (operation : String) :
    validateUdpPayload payload operation = .ok () ↔ payload.length ≤ udpPacketMax := by
  unfold validateUdpPayload
  split <;> simp_all

theorem validateFragmentMetadata_ok {fragmentIndex fragmentCount : UInt8} {totalLen : UInt16}
    (operation : String) :
    validateFragmentMetadata fragmentIndex fragmentCount totalLen operation = .ok () ↔
      2 ≤ fragmentCount.toNat ∧ fragmentIndex.toNat < fragmentCount.toNat ∧
        fragmentCount.toNat ≤ totalLen.toNat := by
  have htwo : (2 : UInt8).toNat = 2 := rfl
  have hzero : totalLen = 0 ↔ totalLen.toNat = 0 := UInt16.toNat_inj.symm
  unfold validateFragmentMetadata
  simp only [UInt8.lt_iff_toNat_lt, UInt8.le_iff_toNat_le, UInt16.lt_iff_toNat_lt, ge_iff_le,
    UInt8.toNat_toUInt16, htwo, hzero]
  split
  · simp only [reduceCtorEq, false_iff]
    omega
  · split
    · simp only [reduceCtorEq, false_iff]
      omega
    · split
      · simp only [reduceCtorEq, false_iff]
        omega
      · simp only [true_iff]
        omega

theorem badFragmentPayload_eq_false {fragmentCount : UInt8} {totalLen : UInt16} :
    badFragmentPayload fragmentCount totalLen payload = false ↔
      payload ≠ [] ∧ payload.length + (fragmentCount.toNat - 1) ≤ totalLen.toNat := by
  simp [badFragmentPayload]

/-- Reading the header of a FRAGMENT frame: which bytes go where. -/
theorem decodeUdpFrame_fragment {flow packet total : List UInt8} (hflow : flow.length = 4)
    (hpacket : packet.length = 4) (htotal : total.length = 2) (fragmentIndex fragmentCount : UInt8)
    (payload : List UInt8) :
    decodeUdpFrame (udpFrameFragment :: (flow ++ (packet ++ fragmentIndex :: fragmentCount ::
        (total ++ payload)))) = (do
      validateFlowId (UInt32.ofNat (ofBe flow)) "decode_udp_frame"
      validatePacketId (UInt32.ofNat (ofBe packet)) "decode_udp_frame"
      validateFragmentMetadata fragmentIndex fragmentCount (UInt16.ofNat (ofBe total))
        "decode_udp_frame"
      if badFragmentPayload fragmentCount (UInt16.ofNat (ofBe total)) payload then
        .error (.bail "protocol::datagram::decode_udp_frame: invalid fragment payload length")
      else
        return .fragment (UInt32.ofNat (ofBe flow)) ⟨UInt32.ofNat (ofBe packet), fragmentIndex,
          fragmentCount, UInt16.ofNat (ofBe total), payload⟩) := by
  have hreserved : udpFrameFragment &&& reservedMask = 0 := by decide
  have hvalue : udpFrameFragment &&& frameTypeMask = udpFrameFragment := by decide
  have hdata : udpFrameFragment ≠ udpFrameData := by decide
  have hheader : ¬ payload.length + 13 < 5 := by omega
  have hfragment : ¬ payload.length + 13 < 13 := by omega
  match flow, hflow, packet, hpacket, total, htotal with
  | [f₀, f₁, f₂, f₃], _, [p₀, p₁, p₂, p₃], _, [t₀, t₁], _ =>
    simp [decodeUdpFrame, decodeFragment, udpHeaderLen, udpFragmentHeaderLen, hreserved, hvalue,
      hdata, hheader, hfragment, Nat.add_assoc]

/-! ## The fragment plan -/

theorem le_divCeil_mul (n : Nat) (hc : 0 < c) : n ≤ divCeil n c * c := by
  have hlt := Nat.lt_div_mul_add hc (a := n + (c - 1))
  unfold divCeil
  omega

theorem divCeil_mul_lt {n : Nat} (hc : 0 < c) : divCeil n c * c < n + c := by
  have hle := Nat.div_mul_le_self (n + (c - 1)) c
  unfold divCeil
  omega

/-- What `encode_udp_fragments` has checked, once for all frames of a packet. -/
structure UdpFragments.Valid (it : UdpFragments) : Prop where
  flow_ne : it.flowId ≠ 0
  packet_ne : it.packetId ≠ 0
  payload_le : it.payload.length ≤ udpPacketMax
  capacity_pos : 0 < it.fragmentPayloadMax
  count_eq : it.fragmentCount.toNat = divCeil it.payload.length it.fragmentPayloadMax
  two_le : 2 ≤ it.fragmentCount.toNat

namespace UdpFragments

variable {it : UdpFragments}

/-- The `i`-th fragment of the packet. -/
def fragment (it : UdpFragments) (i : Nat) : UdpFragment :=
  ⟨it.packetId, UInt8.ofNat i, it.fragmentCount, UInt16.ofNat it.payload.length,
    chunk it.payload it.fragmentPayloadMax i⟩

/-- The frame that carries the `i`-th fragment. -/
def frame (it : UdpFragments) (i : Nat) : List UInt8 :=
  fragmentHeader it.flowId it.packetId (UInt8.ofNat i) it.fragmentCount
    (UInt16.ofNat it.payload.length) ++ chunk it.payload it.fragmentPayloadMax i

theorem Valid.totalLen (h : it.Valid) :
    (UInt16.ofNat it.payload.length).toNat = it.payload.length := by
  have hle := h.payload_le
  simp only [udpPacketMax] at hle
  rw [UInt16.toNat_ofNat', Nat.mod_eq_of_lt (by omega)]

variable {i : Nat}

theorem Valid.index (hi : i < it.fragmentCount.toNat) : (UInt8.ofNat i).toNat = i := by
  have hlt := it.fragmentCount.toNat_lt
  rw [UInt8.toNat_ofNat', Nat.mod_eq_of_lt (by omega)]

/-- All fragments but the last are full. -/
theorem Valid.full_lt (h : it.Valid) :
    (it.fragmentCount.toNat - 1) * it.fragmentPayloadMax < it.payload.length := by
  have hlt := divCeil_mul_lt (n := it.payload.length) h.capacity_pos
  rw [← h.count_eq] at hlt
  have hone : it.fragmentPayloadMax ≤ it.fragmentCount.toNat * it.fragmentPayloadMax :=
    Nat.le_mul_of_pos_left _ (by have := h.two_le; omega)
  rw [Nat.sub_mul]
  omega

theorem Valid.chunk_ne_nil (h : it.Valid) (hi : i < it.fragmentCount.toNat) :
    chunk it.payload it.fragmentPayloadMax i ≠ [] := by
  have hstart : i * it.fragmentPayloadMax ≤ (it.fragmentCount.toNat - 1) * it.fragmentPayloadMax :=
    Nat.mul_le_mul_right _ (by omega)
  have hfull := h.full_lt
  have hcapacity := h.capacity_pos
  rw [← List.length_pos_iff, length_chunk]
  omega

/-- A fragment leaves at least one byte to each of the others. -/
theorem Valid.chunk_fits (h : it.Valid) (i : Nat) :
    (chunk it.payload it.fragmentPayloadMax i).length + (it.fragmentCount.toNat - 1) ≤
      it.payload.length := by
  have hfull := h.full_lt
  have hlength := length_chunk it.payload it.fragmentPayloadMax i
  have hcapacity := h.capacity_pos
  obtain ⟨k, hk⟩ := Nat.exists_eq_add_of_le h.two_le
  have hsplit : (it.fragmentCount.toNat - 1) * it.fragmentPayloadMax =
      k * it.fragmentPayloadMax + it.fragmentPayloadMax := by
    rw [hk, show 2 + k - 1 = k + 1 by omega, Nat.succ_mul]
  have hk' : k ≤ k * it.fragmentPayloadMax := Nat.le_mul_of_pos_right k hcapacity
  omega

theorem Valid.count_le (h : it.Valid) : it.fragmentCount.toNat ≤ it.payload.length := by
  have hfits := h.chunk_fits 0
  have hne := List.length_pos_iff.mpr (h.chunk_ne_nil (i := 0) (by have := h.two_le; omega))
  omega

/-- The fragments in index order give the packet back. -/
theorem Valid.flatten_chunks (h : it.Valid) :
    ((List.range it.fragmentCount.toNat).map
      (chunk it.payload it.fragmentPayloadMax)).flatten = it.payload := by
  apply flatten_chunks_of_le
  rw [h.count_eq]
  exact le_divCeil_mul _ h.capacity_pos

theorem Valid.metadata_ok (h : it.Valid) (hi : i < it.fragmentCount.toNat) (operation : String) :
    validateFragmentMetadata (UInt8.ofNat i) it.fragmentCount (UInt16.ofNat it.payload.length)
      operation = .ok () := by
  rw [validateFragmentMetadata_ok, index hi, h.totalLen]
  exact ⟨h.two_le, hi, h.count_le⟩

theorem Valid.payload_ok (h : it.Valid) (hi : i < it.fragmentCount.toNat) :
    badFragmentPayload it.fragmentCount (UInt16.ofNat it.payload.length)
      (chunk it.payload it.fragmentPayloadMax i) = false := by
  rw [badFragmentPayload_eq_false, h.totalLen]
  exact ⟨h.chunk_ne_nil hi, h.chunk_fits i⟩

/-! ## Frames out of the iterator -/

theorem Valid.nextFrame (h : it.Valid) (hnext : it.next.toNat < it.fragmentCount.toNat) :
    it.nextFrame = .ok (some (it.frame it.next.toNat, { it with next := it.next + 1 })) := by
  have hstart : it.next.toNat * it.fragmentPayloadMax ≤
      (it.fragmentCount.toNat - 1) * it.fragmentPayloadMax := Nat.mul_le_mul_right _ (by omega)
  have hfull := h.full_lt
  have hmetadata := h.metadata_ok hnext "encode_udp_fragment_header"
  have hindex : UInt8.ofNat it.next.toNat = it.next := by simp
  rw [hindex] at hmetadata
  have hflow := (validateFlowId_ok "encode_udp_fragment_header").mpr h.flow_ne
  have hpacket := (validatePacketId_ok "encode_udp_fragment_header").mpr h.packet_ne
  have hheader : encodeUdpFragmentHeader it.flowId it.packetId it.next it.fragmentCount
      (UInt16.ofNat it.payload.length) = .ok (fragmentHeader it.flowId it.packetId it.next
        it.fragmentCount (UInt16.ofNat it.payload.length)) := by
    simp only [encodeUdpFragmentHeader, hflow, hpacket, hmetadata]
    rfl
  have hslice : slice it.payload (it.next.toNat * it.fragmentPayloadMax)
      (min it.payload.length (it.next.toNat * it.fragmentPayloadMax + it.fragmentPayloadMax)) =
        .ok (chunk it.payload it.fragmentPayloadMax it.next.toNat) := by
    rw [slice, if_pos (by omega), drop_take_eq_chunk]
  have hopen : ¬ it.next ≥ it.fragmentCount := by
    rw [ge_iff_le, UInt8.le_iff_toNat_le]
    omega
  simp only [UdpFragments.nextFrame, if_neg hopen, hslice, hheader, expect, frame, hindex]
  rfl

theorem nextFrame_end (hnext : it.fragmentCount.toNat ≤ it.next.toNat) :
    it.nextFrame = .ok none := by
  rw [UdpFragments.nextFrame, if_pos (UInt8.le_iff_toNat_le.mpr hnext)]

/-- The iterator yields the frames that are left, in order. -/
theorem Valid.collectFrom (h : it.Valid) (fuel : Nat)
    (hfuel : it.fragmentCount.toNat < it.next.toNat + fuel)
    (hnext : it.next.toNat ≤ it.fragmentCount.toNat) :
    it.collectFrom fuel = .ok ((List.range' it.next.toNat
      (it.fragmentCount.toNat - it.next.toNat)).map it.frame) := by
  induction fuel generalizing it with
  | zero => omega
  | succ fuel ih =>
    rcases Nat.lt_or_ge it.next.toNat it.fragmentCount.toNat with hlt | hge
    · have hstep : (it.next + 1).toNat = it.next.toNat + 1 := by
        have := it.fragmentCount.toNat_lt
        have hone : (1 : UInt8).toNat = 1 := rfl
        rw [UInt8.toNat_add, hone, Nat.mod_eq_of_lt (by omega)]
      have hrest : UdpFragments.Valid { it with next := it.next + 1 } :=
        ⟨h.flow_ne, h.packet_ne, h.payload_le, h.capacity_pos, h.count_eq, h.two_le⟩
      have htail := ih hrest (by simp only [hstep]; omega) (by simp only [hstep]; omega)
      have hlength : it.fragmentCount.toNat - it.next.toNat =
          it.fragmentCount.toNat - (it.next.toNat + 1) + 1 := by omega
      rw [hlength, List.range'_succ, List.map_cons]
      simp only [hstep] at htail
      simp only [UdpFragments.collectFrom, h.nextFrame hlt, Except.bind, bind, htail]
      rfl
    · have hlength : it.fragmentCount.toNat - it.next.toNat = 0 := by omega
      rw [hlength]
      simp only [UdpFragments.collectFrom, nextFrame_end hge, Except.bind, bind]
      rfl

theorem Valid.collect (h : it.Valid) (hnext : it.next = 0) :
    it.collect = .ok ((List.range it.fragmentCount.toNat).map it.frame) := by
  have hzero : it.next.toNat = 0 := by rw [hnext]; rfl
  have hcollect := h.collectFrom (it.fragmentCount.toNat + 1) (by omega) (by omega)
  rw [hzero, Nat.sub_zero, ← List.range_eq_range'] at hcollect
  exact hcollect

/-! ## Frames into the decoder -/

/-- A frame of the plan decodes to the fragment it carries. -/
theorem Valid.decode_frame (h : it.Valid) (hi : i < it.fragmentCount.toNat) :
    decodeUdpFrame (it.frame i) = .ok (.fragment it.flowId (it.fragment i)) := by
  have hframe : it.frame i = udpFrameFragment :: (toBe 4 it.flowId.toNat ++
      (toBe 4 it.packetId.toNat ++ UInt8.ofNat i :: it.fragmentCount ::
        (toBe 2 (UInt16.ofNat it.payload.length).toNat ++
          chunk it.payload it.fragmentPayloadMax i))) := by
    simp [frame, fragmentHeader]
  rw [hframe, decodeUdpFrame_fragment (length_toBe 4 _) (length_toBe 4 _) (length_toBe 2 _),
    ofBe_toBe_of_lt it.flowId.toNat_lt, ofBe_toBe_of_lt it.packetId.toNat_lt,
    ofBe_toBe_of_lt (UInt16.toNat_lt _), UInt32.ofNat_toNat, UInt32.ofNat_toNat,
    UInt16.ofNat_toNat, (validateFlowId_ok _).mpr h.flow_ne,
    (validatePacketId_ok _).mpr h.packet_ne, h.metadata_ok hi, h.payload_ok hi]
  rfl

end UdpFragments

/-- The plan of an accepted packet is valid. -/
theorem encodeUdpFragments_valid {it : UdpFragments}
    (h : encodeUdpFragments flowId packetId payload maxDatagramSize = .ok it) :
    it.Valid ∧ it.flowId = flowId ∧ it.packetId = packetId ∧ it.payload = payload ∧
      it.next = 0 := by
  simp only [encodeUdpFragments, bind_eq_ok] at h
  obtain ⟨_, hflow, _, hpacket, _, hpayload, h⟩ := h
  split at h
  · cases h
  · split at h
    · cases h
    · rename_i hroom
      split at h
      · rename_i hcount
        obtain rfl := Except.ok.inj h
        refine ⟨?_, rfl, rfl, rfl, rfl⟩
        have htoNat : (UInt8.ofNat (divCeil payload.length
            (maxDatagramSize - udpFragmentHeaderLen))).toNat =
              divCeil payload.length (maxDatagramSize - udpFragmentHeaderLen) := by
          rw [UInt8.toNat_ofNat', Nat.mod_eq_of_lt (by omega)]
        exact
          { flow_ne := (validateFlowId_ok _).mp hflow
            packet_ne := (validatePacketId_ok _).mp hpacket
            payload_le := (validateUdpPayload_ok _).mp hpayload
            capacity_pos := by dsimp only; omega
            count_eq := htoNat
            two_le := by dsimp only; omega }
      · cases h

/-- A packet sent as several frames is sent as the frames of a valid plan. -/
theorem encodeUdpDataFragments_many {frames : List (List UInt8)}
    (h : encodeUdpDataFragments flowId packetId payload maxDatagramSize = .ok frames)
    (hmany : 2 ≤ frames.length) :
    ∃ it : UdpFragments, it.Valid ∧ it.flowId = flowId ∧ it.packetId = packetId ∧
      it.payload = payload ∧ frames = (List.range it.fragmentCount.toNat).map it.frame := by
  simp only [encodeUdpDataFragments, bind_eq_ok] at h
  obtain ⟨_, _, _, _, h⟩ := h
  split at h
  · cases h
  · split at h
    · -- one DATA frame is not two
      obtain ⟨frame, _, hframe⟩ := bind_eq_ok.mp h
      obtain rfl := Except.ok.inj hframe
      simp at hmany
    · obtain ⟨it, hit, hcollect⟩ := bind_eq_ok.mp h
      obtain ⟨hvalid, hflow, hpacket, hpayload, hnext⟩ := encodeUdpFragments_valid hit
      rw [hvalid.collect hnext] at hcollect
      exact ⟨it, hvalid, hflow, hpacket, hpayload, (Except.ok.inj hcollect).symm⟩

end Nowhere.Protocol
