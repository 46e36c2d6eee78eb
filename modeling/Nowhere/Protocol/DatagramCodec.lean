import Nowhere.Protocol.Datagram

/-!
# The grammar of QUIC DATAGRAMs

Encoder and decoder of `src/protocol/datagram.rs` check the same things separately. Here they are
put against each other: a byte string decodes to a frame exactly if it is the encoding of that
frame, so the two are inverse to each other.
-/

namespace Nowhere.Protocol

open Bytes

/-- The byte string is the encoding of a valid frame. There is no encoder for a whole FRAGMENT;
its payload follows the header. -/
inductive UdpFrame.Encoding : UdpFrame → List UInt8 → Prop
  | data {flowId : FlowId} {payload bytes : List UInt8}
      (encoded : encodeUdpData flowId payload = .ok bytes) : Encoding (.data flowId payload) bytes
  | close {flowId : FlowId} {bytes : List UInt8} (encoded : encodeUdpClose flowId = .ok bytes) :
      Encoding (.close flowId) bytes
  | fragment {flowId : FlowId} {packetId : UInt32} {fragmentIndex fragmentCount : UInt8}
      {totalLen : UInt16} {header payload : List UInt8}
      (encoded : encodeUdpFragmentHeader flowId packetId fragmentIndex fragmentCount totalLen =
        .ok header)
      (nonempty : payload ≠ [])
      (fits : payload.length + fragmentCount.toNat - 1 ≤ totalLen.toNat) :
      Encoding (.fragment flowId ⟨packetId, fragmentIndex, fragmentCount, totalLen, payload⟩)
        (header ++ payload)

/-! ## What the encoders write -/

section Encoders

variable {flowId : FlowId} {bytes : List UInt8}

theorem encodeBaseHeader_iff {frameType : UInt8} :
    encodeBaseHeader frameType flowId = .ok bytes ↔
      flowId ≠ 0 ∧ bytes = frameType :: toBe 4 flowId.toNat := by
  rw [encodeBaseHeader, bind_eq_ok]
  constructor
  · rintro ⟨_, hvalid, hbytes⟩
    cases hbytes
    exact ⟨(validateFlowId_ok _).mp hvalid, rfl⟩
  · rintro ⟨hflow, rfl⟩
    exact ⟨(), (validateFlowId_ok _).mpr hflow, rfl⟩

theorem encodeUdpData_iff {payload : List UInt8} :
    encodeUdpData flowId payload = .ok bytes ↔ payload.length ≤ udpPacketMax ∧ flowId ≠ 0 ∧
      bytes = udpFrameData :: (toBe 4 flowId.toNat ++ payload) := by
  rw [encodeUdpData, bind_eq_ok]
  constructor
  · rintro ⟨_, hvalid, hrest⟩
    obtain ⟨header, hheader, hbytes⟩ := bind_eq_ok.mp hrest
    obtain ⟨hflow, rfl⟩ := encodeBaseHeader_iff.mp hheader
    cases hbytes
    exact ⟨(validateUdpPayload_ok _).mp hvalid, hflow, rfl⟩
  · rintro ⟨hpayload, hflow, rfl⟩
    exact ⟨(), (validateUdpPayload_ok _).mpr hpayload,
      bind_eq_ok.mpr ⟨_, encodeBaseHeader_iff.mpr ⟨hflow, rfl⟩, rfl⟩⟩

theorem encodeUdpFragmentHeader_iff {packetId : UInt32} {fragmentIndex fragmentCount : UInt8}
    {totalLen : UInt16} :
    encodeUdpFragmentHeader flowId packetId fragmentIndex fragmentCount totalLen = .ok bytes ↔
      flowId ≠ 0 ∧ packetId ≠ 0 ∧ (2 ≤ fragmentCount.toNat ∧
        fragmentIndex.toNat < fragmentCount.toNat ∧ fragmentCount.toNat ≤ totalLen.toNat) ∧
      bytes = fragmentHeader flowId packetId fragmentIndex fragmentCount totalLen := by
  rw [encodeUdpFragmentHeader, bind_eq_ok]
  constructor
  · rintro ⟨_, hflow, hrest⟩
    obtain ⟨_, hpacket, hrest⟩ := bind_eq_ok.mp hrest
    obtain ⟨_, hmeta, hbytes⟩ := bind_eq_ok.mp hrest
    cases hbytes
    exact ⟨(validateFlowId_ok _).mp hflow, (validatePacketId_ok _).mp hpacket,
      (validateFragmentMetadata_ok _).mp hmeta, rfl⟩
  · rintro ⟨hflow, hpacket, hmeta, rfl⟩
    exact ⟨(), (validateFlowId_ok _).mpr hflow,
      bind_eq_ok.mpr ⟨(), (validatePacketId_ok _).mpr hpacket,
        bind_eq_ok.mpr ⟨(), (validateFragmentMetadata_ok _).mpr hmeta, rfl⟩⟩⟩

end Encoders

/-! ## What the decoder reads -/

/-- The flags byte is the frame type when nothing is reserved. -/
theorem frameType_of_reserved {flags : UInt8} (h : flags &&& reservedMask = 0) :
    flags &&& frameTypeMask = flags := by
  have hbits : ∀ bits : BitVec 8, bits &&& 252#8 = 0#8 → bits &&& 3#8 = bits := by decide
  rw [← UInt8.toBitVec_inj] at h ⊢
  exact hbits flags.toBitVec h

section Decoder

variable {flow payload : List UInt8}

theorem decodeUdpFrame_data (hflow : flow.length = 4) (payload : List UInt8) :
    decodeUdpFrame (udpFrameData :: (flow ++ payload)) = (do
      validateFlowId (UInt32.ofNat (ofBe flow)) "decode_udp_frame"
      validateUdpPayload payload "decode_udp_frame"
      return .data (UInt32.ofNat (ofBe flow)) payload) := by
  have hreserved : udpFrameData &&& reservedMask = 0 := by decide
  have hvalue : udpFrameData &&& frameTypeMask = udpFrameData := by decide
  have hheader : ¬ payload.length + 5 < 5 := by omega
  match flow, hflow with
  | [f₀, f₁, f₂, f₃], _ =>
    simp [decodeUdpFrame, udpHeaderLen, hreserved, hvalue, hheader, Nat.add_assoc]

theorem decodeUdpFrame_close (hflow : flow.length = 4) (payload : List UInt8) :
    decodeUdpFrame (udpFrameClose :: (flow ++ payload)) = (do
      validateFlowId (UInt32.ofNat (ofBe flow)) "decode_udp_frame"
      if payload.length ≠ 0 then
        .error (.bail "protocol::datagram::decode_udp_frame: CLOSE payload")
      else
        return .close (UInt32.ofNat (ofBe flow))) := by
  have hreserved : udpFrameClose &&& reservedMask = 0 := by decide
  have hvalue : udpFrameClose &&& frameTypeMask = udpFrameClose := by decide
  have hdata : udpFrameClose ≠ udpFrameData := by decide
  have hfragment : udpFrameClose ≠ udpFrameFragment := by decide
  have hheader : ¬ payload.length + 5 < 5 := by omega
  match flow, hflow with
  | [f₀, f₁, f₂, f₃], _ =>
    simp [decodeUdpFrame, udpHeaderLen, hreserved, hvalue, hdata, hfragment, hheader,
      Nat.add_assoc]

variable {input : List UInt8} {frame : UdpFrame}

theorem exists_header_fields (h : ¬ input.length < udpHeaderLen) :
    ∃ (flags : UInt8) (flow rest : List UInt8), flow.length = 4 ∧
      input = flags :: (flow ++ rest) := by
  match input, h with
  | flags :: f₀ :: f₁ :: f₂ :: f₃ :: rest, _ => exact ⟨flags, [f₀, f₁, f₂, f₃], rest, rfl, rfl⟩
  | [], h | [_], h | [_, _], h | [_, _, _], h | [_, _, _, _], h =>
    exact absurd (by simp [udpHeaderLen]) h

/-- Frames that decode have a header of five bytes with one of the three types. -/
theorem decodeUdpFrame_shape (h : decodeUdpFrame input = .ok frame) :
    ∃ flow rest, flow.length = 4 ∧ (input = udpFrameData :: (flow ++ rest) ∨
      (input = udpFrameFragment :: (flow ++ rest) ∧ 8 ≤ rest.length) ∨
      input = udpFrameClose :: (flow ++ rest)) := by
  unfold decodeUdpFrame at h
  split at h
  · cases h
  · rename_i hlong
    obtain ⟨flags, flow, rest, hflow, rfl⟩ := exists_header_fields hlong
    refine ⟨flow, rest, hflow, ?_⟩
    have hflags : (flags :: (flow ++ rest)).getD 0 0 = flags := rfl
    simp only [hflags] at h
    split at h
    · cases h
    · rename_i hreserved
      obtain ⟨_, _, h⟩ := bind_eq_ok.mp h
      rw [frameType_of_reserved (not_not.mp hreserved)] at h
      split at h
      · rename_i hdata
        exact .inl (by rw [hdata])
      · split at h
        · rename_i hfragment
          refine .inr (.inl ⟨by rw [hfragment], ?_⟩)
          unfold decodeFragment at h
          split at h
          · cases h
          · rename_i hheader
            simp only [udpFragmentHeaderLen, List.length_cons, List.length_append] at hheader
            omega
        · split at h
          · rename_i hclose
            exact .inr (.inr (by rw [hclose]))
          · cases h

/-- The rest of a FRAGMENT header, field by field. -/
theorem exists_fragment_fields {rest : List UInt8} (h : 8 ≤ rest.length) :
    ∃ (packet total payload : List UInt8) (fragmentIndex fragmentCount : UInt8),
      packet.length = 4 ∧ total.length = 2 ∧
      rest = packet ++ fragmentIndex :: fragmentCount :: (total ++ payload) := by
  match rest, h with
  | p₀ :: p₁ :: p₂ :: p₃ :: i :: c :: t₀ :: t₁ :: payload, _ =>
    exact ⟨[p₀, p₁, p₂, p₃], [t₀, t₁], payload, i, c, rfl, rfl, rfl⟩

theorem toBe_flowId (hflow : flow.length = 4) : toBe 4 (UInt32.ofNat (ofBe flow)).toNat = flow := by
  have hlt : ofBe flow < 2 ^ 32 := by
    have h := ofBe_lt flow
    rw [hflow] at h
    exact h
  rw [UInt32.toNat_ofNat_of_lt' hlt, toBe_ofBe hflow]

theorem toBe_totalLen {total : List UInt8} (htotal : total.length = 2) :
    toBe 2 (UInt16.ofNat (ofBe total)).toNat = total := by
  have hlt : ofBe total < 2 ^ 16 := by
    have h := ofBe_lt total
    rw [htotal] at h
    exact h
  rw [UInt16.toNat_ofNat_of_lt' hlt, toBe_ofBe htotal]

/-- What the decoder accepts is an encoding of what it returns. -/
theorem encoding_of_decode (h : decodeUdpFrame input = .ok frame) : frame.Encoding input := by
  obtain ⟨flow, rest, hflow, rfl | ⟨rfl, hrest⟩ | rfl⟩ := decodeUdpFrame_shape h
  · rw [decodeUdpFrame_data hflow] at h
    obtain ⟨_, hvalid, h⟩ := bind_eq_ok.mp h
    obtain ⟨_, hpayload, h⟩ := bind_eq_ok.mp h
    cases h
    refine .data (encodeUdpData_iff.mpr ⟨(validateUdpPayload_ok _).mp hpayload,
      (validateFlowId_ok _).mp hvalid, ?_⟩)
    rw [toBe_flowId hflow]
  · obtain ⟨packet, total, payload, index, count, hpacket, htotal, rfl⟩ :=
      exists_fragment_fields hrest
    rw [decodeUdpFrame_fragment hflow hpacket htotal] at h
    obtain ⟨_, hvalid, h⟩ := bind_eq_ok.mp h
    obtain ⟨_, hid, h⟩ := bind_eq_ok.mp h
    obtain ⟨_, hmeta, h⟩ := bind_eq_ok.mp h
    split at h
    · cases h
    · rename_i hfits
      cases h
      obtain ⟨hnonempty, hfits⟩ := badFragmentPayload_eq_false.mp (by simpa using hfits)
      have hcount := (validateFragmentMetadata_ok _).mp hmeta
      have hencoded := encodeUdpFragmentHeader_iff.mpr ⟨(validateFlowId_ok _).mp hvalid,
        (validatePacketId_ok _).mp hid, hcount, rfl⟩
      have hencoding := UdpFrame.Encoding.fragment hencoded hnonempty (by omega)
      rw [fragmentHeader, toBe_flowId hflow, toBe_flowId hpacket, toBe_totalLen htotal]
        at hencoding
      simpa using hencoding
  · rw [decodeUdpFrame_close hflow] at h
    obtain ⟨_, hvalid, h⟩ := bind_eq_ok.mp h
    split at h
    · cases h
    · rename_i hempty
      cases h
      have hrest : rest = [] := by simpa using hempty
      refine .close (encodeBaseHeader_iff.mpr ⟨(validateFlowId_ok _).mp hvalid, ?_⟩)
      rw [toBe_flowId hflow, hrest, List.append_nil]

/-- Every encoding of a valid frame decodes to it. -/
theorem decode_of_encoding (h : frame.Encoding input) :
    decodeUdpFrame input = .ok frame := by
  cases h with
  | @data flowId payload _ encoded =>
    obtain ⟨hpayload, hflow, rfl⟩ := encodeUdpData_iff.mp encoded
    rw [decodeUdpFrame_data (length_toBe 4 _), ofBe_toBe_of_lt flowId.toNat_lt,
      UInt32.ofNat_toNat, (validateFlowId_ok _).mpr hflow, (validateUdpPayload_ok _).mpr hpayload]
    rfl
  | @close flowId _ encoded =>
    obtain ⟨hflow, rfl⟩ := encodeBaseHeader_iff.mp encoded
    have hclose := decodeUdpFrame_close (length_toBe 4 flowId.toNat) []
    rw [List.append_nil] at hclose
    rw [hclose, ofBe_toBe_of_lt flowId.toNat_lt, UInt32.ofNat_toNat,
      (validateFlowId_ok _).mpr hflow]
    rfl
  | @fragment flowId packetId index count totalLen header payload encoded nonempty fits =>
    obtain ⟨hflow, hpacket, hmeta, rfl⟩ := encodeUdpFragmentHeader_iff.mp encoded
    have hfits : badFragmentPayload count totalLen payload = false :=
      badFragmentPayload_eq_false.mpr ⟨nonempty, by omega⟩
    have hbytes : fragmentHeader flowId packetId index count totalLen ++ payload =
        udpFrameFragment :: (toBe 4 flowId.toNat ++ (toBe 4 packetId.toNat ++ index :: count ::
          (toBe 2 totalLen.toNat ++ payload))) := by
      simp [fragmentHeader]
    rw [hbytes, decodeUdpFrame_fragment (length_toBe 4 _) (length_toBe 4 _) (length_toBe 2 _),
      ofBe_toBe_of_lt flowId.toNat_lt, ofBe_toBe_of_lt packetId.toNat_lt,
      ofBe_toBe_of_lt (UInt16.toNat_lt _), UInt32.ofNat_toNat, UInt32.ofNat_toNat,
      UInt16.ofNat_toNat, (validateFlowId_ok _).mpr hflow, (validatePacketId_ok _).mpr hpacket,
      (validateFragmentMetadata_ok _).mpr hmeta, hfits]
    rfl

/-- The payload of a decoded frame is what follows its header in the input. -/
theorem decodeUdpFrameOwned_eq (input : List UInt8) :
    decodeUdpFrameOwned input = decodeUdpFrame input := by
  unfold decodeUdpFrameOwned
  cases h : decodeUdpFrame input with
  | error e => rfl
  | ok frame =>
    cases encoding_of_decode h with
    | @data flowId payload _ encoded =>
      obtain ⟨_, _, rfl⟩ := encodeUdpData_iff.mp encoded
      have hdrop : (udpFrameData :: (toBe 4 flowId.toNat ++ payload)).drop udpHeaderLen =
          payload := by
        rw [udpHeaderLen, List.drop_succ_cons, List.drop_left' (length_toBe 4 _)]
      simp only [bind, Except.bind, pure, Except.pure, hdrop]
    | close => rfl
    | @fragment flowId packetId index count totalLen header payload encoded =>
      obtain ⟨_, _, _, rfl⟩ := encodeUdpFragmentHeader_iff.mp encoded
      have hheader : (fragmentHeader flowId packetId index count totalLen).length =
          udpFragmentHeaderLen := by
        simp [fragmentHeader, udpFragmentHeaderLen]
      simp only [bind, Except.bind, pure, Except.pure, List.drop_left' hheader]

end Decoder

/-- A frame has one encoding. -/
theorem UdpFrame.Encoding.unique {frame : UdpFrame} {b b' : List UInt8} (h : frame.Encoding b)
    (h' : frame.Encoding b') : b = b' := by
  cases h with
  | data encoded =>
    cases h' with
    | data encoded' => exact Except.ok.inj (encoded.symm.trans encoded')
  | close encoded =>
    cases h' with
    | close encoded' => exact Except.ok.inj (encoded.symm.trans encoded')
  | fragment encoded =>
    cases h' with
    | fragment encoded' => rw [Except.ok.inj (encoded.symm.trans encoded')]

/-- **The DATAGRAM codec.** Decoding a byte string succeeds exactly if it encodes a valid frame,
with this frame as the result: what was decoded is encoded to the same bytes, and what was
encoded is decoded to the same frame. The decoder for owned DATAGRAMs agrees on every input. -/
theorem decodeUdpFrame_bijective :
    (∀ b, (∃ frame, decodeUdpFrame b = .ok frame) ↔ ∃ frame : UdpFrame, frame.Encoding b) ∧
    (∀ b frame, decodeUdpFrame b = .ok frame ↔ frame.Encoding b) ∧
    (∀ b b' (frame : UdpFrame), frame.Encoding b → frame.Encoding b' → b = b') ∧
    ∀ b, decodeUdpFrameOwned b = decodeUdpFrame b := by
  have hiff (b : List UInt8) (frame : UdpFrame) :
      decodeUdpFrame b = .ok frame ↔ frame.Encoding b :=
    ⟨encoding_of_decode, decode_of_encoding⟩
  refine ⟨fun b => ?_, hiff, fun b b' frame h h' => h.unique h', decodeUdpFrameOwned_eq⟩
  constructor
  · rintro ⟨frame, h⟩
    exact ⟨frame, (hiff b frame).mp h⟩
  · rintro ⟨frame, h⟩
    exact ⟨frame, (hiff b frame).mpr h⟩

/-- The first of two fragments of the packet `[11, 12, 13]`. -/
theorem Sample.firstFragment_encoding :
    (UdpFrame.fragment 7 ⟨1, 0, 2, 3, [11, 12]⟩).Encoding
      [1, 0, 0, 0, 7, 0, 0, 0, 1, 0, 2, 0, 3, 11, 12] :=
  (decodeUdpFrame_bijective.2.1 _ _).mp (by decide)

end Nowhere.Protocol
