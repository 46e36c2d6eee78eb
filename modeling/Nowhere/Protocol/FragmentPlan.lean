import Nowhere.Protocol.DatagramCodec

/-!
# The fragment plan of a packet

For which sizes `encode_udp_data_fragments` finds a way to send a packet, and what it sends. A
packet that fits behind the header of a DATA frame is one DATA frame. Any other packet is cut into
fragments, which have eight bytes less room each; there are at least two of them, since the packet
did not fit with the smaller header, and the plan fails exactly if there would be more than 255.
-/

namespace Nowhere.Protocol

open Bytes

section Plan

variable {flowId : FlowId} {packetId : UInt32} {payload : List UInt8} {m : Nat}

/-- The iterator that `encode_udp_fragments` returns. -/
def fragmentPlan (flowId : FlowId) (packetId : UInt32) (payload : List UInt8) (m : Nat) :
    UdpFragments :=
  ⟨flowId, packetId, payload, m - udpFragmentHeaderLen,
    UInt8.ofNat (divCeil payload.length (m - udpFragmentHeaderLen)), 0⟩

/-- A packet that is too large for one DATA frame needs two fragments. -/
theorem two_le_divCeil (hroom : udpFragmentHeaderLen < m)
    (hlarge : m < payload.length + udpHeaderLen) :
    2 ≤ divCeil payload.length (m - udpFragmentHeaderLen) := by
  simp only [udpFragmentHeaderLen, udpHeaderLen] at hroom hlarge ⊢
  have hcovers := le_divCeil_mul payload.length (show 0 < m - 13 by omega)
  by_contra hfew
  have hone : divCeil payload.length (m - 13) * (m - 13) ≤ 1 * (m - 13) :=
    Nat.mul_le_mul_right _ (by omega)
  omega

/-- Fragments of at least 257 bytes are enough for every packet. -/
theorem divCeil_le_of_capacity {n c : Nat} (hn : n ≤ udpPacketMax) (hc : 257 ≤ c) :
    divCeil n c ≤ 255 := by
  simp only [udpPacketMax] at hn
  have hlt := divCeil_mul_lt (n := n) (show 0 < c by omega)
  by_contra hmany
  have hlarge : 256 * c ≤ divCeil n c * c := Nat.mul_le_mul_right c (by omega)
  omega

section Accepted

variable (hflow : flowId ≠ 0) (hpacket : packetId ≠ 0) (hpayload : payload.length ≤ udpPacketMax)
include hflow hpacket hpayload

theorem encodeUdpFragments_of_fits (hlarge : m < payload.length + udpHeaderLen)
    (hroom : udpFragmentHeaderLen < m)
    (hcount : divCeil payload.length (m - udpFragmentHeaderLen) ≤ 255) :
    encodeUdpFragments flowId packetId payload m =
      .ok (fragmentPlan flowId packetId payload m) := by
  have htwo := two_le_divCeil hroom hlarge
  have hdata : ¬ (udpHeaderLen ≤ m ∧ payload.length ≤ m - udpHeaderLen) := by omega
  rw [encodeUdpFragments, (validateFlowId_ok _).mpr hflow, (validatePacketId_ok _).mpr hpacket,
    (validateUdpPayload_ok _).mpr hpayload, if_neg hdata, if_neg (Nat.not_le_of_lt hroom)]
  exact if_pos ⟨htwo, hcount⟩

/-- A packet without a plan is refused with an error. -/
theorem encodeUdpFragments_bails (hlarge : m < payload.length + udpHeaderLen)
    (hfits : ¬ (udpFragmentHeaderLen < m ∧
      divCeil payload.length (m - udpFragmentHeaderLen) ≤ 255)) :
    ∃ message, encodeUdpFragments flowId packetId payload m = .error (.bail message) := by
  have hdata : ¬ (udpHeaderLen ≤ m ∧ payload.length ≤ m - udpHeaderLen) := by omega
  rw [encodeUdpFragments, (validateFlowId_ok _).mpr hflow, (validatePacketId_ok _).mpr hpacket,
    (validateUdpPayload_ok _).mpr hpayload, if_neg hdata]
  by_cases hroom : m ≤ udpFragmentHeaderLen
  · exact ⟨_, if_pos hroom⟩
  · have hcount : ¬ (2 ≤ divCeil payload.length (m - udpFragmentHeaderLen) ∧
        divCeil payload.length (m - udpFragmentHeaderLen) ≤ 255) := by omega
    rw [if_neg hroom]
    exact ⟨_, if_neg hcount⟩

theorem fragmentPlan_valid (hlarge : m < payload.length + udpHeaderLen)
    (hroom : udpFragmentHeaderLen < m)
    (hcount : divCeil payload.length (m - udpFragmentHeaderLen) ≤ 255) :
    (fragmentPlan flowId packetId payload m).Valid :=
  (encodeUdpFragments_valid
    (encodeUdpFragments_of_fits hflow hpacket hpayload hlarge hroom hcount)).1

/-! ## The three outcomes -/

omit hpacket in
theorem encodeUdpDataFragments_data (hfits : payload.length + udpHeaderLen ≤ m) :
    encodeUdpDataFragments flowId packetId payload m =
      .ok [udpFrameData :: (toBe 4 flowId.toNat ++ payload)] := by
  have hheader : ¬ m < udpHeaderLen := by omega
  have hroom : payload.length ≤ m - udpHeaderLen := by omega
  rw [encodeUdpDataFragments, (validateFlowId_ok _).mpr hflow,
    (validateUdpPayload_ok _).mpr hpayload, if_neg hheader, if_pos hroom,
    encodeUdpData_iff.mpr ⟨hpayload, hflow, rfl⟩]
  rfl

theorem encodeUdpDataFragments_fragments (hlarge : m < payload.length + udpHeaderLen)
    (hroom : udpFragmentHeaderLen < m)
    (hcount : divCeil payload.length (m - udpFragmentHeaderLen) ≤ 255) :
    encodeUdpDataFragments flowId packetId payload m =
      .ok ((List.range (fragmentPlan flowId packetId payload m).fragmentCount.toNat).map
        (fragmentPlan flowId packetId payload m).frame) := by
  have hheader : ¬ m < udpHeaderLen := by
    simp only [udpFragmentHeaderLen, udpHeaderLen] at hroom ⊢
    omega
  have hdata : ¬ payload.length ≤ m - udpHeaderLen := by omega
  have hvalid := fragmentPlan_valid hflow hpacket hpayload hlarge hroom hcount
  rw [encodeUdpDataFragments, (validateFlowId_ok _).mpr hflow,
    (validateUdpPayload_ok _).mpr hpayload, if_neg hheader, if_neg hdata,
    encodeUdpFragments_of_fits hflow hpacket hpayload hlarge hroom hcount]
  exact hvalid.collect rfl

theorem encodeUdpDataFragments_bails (hlarge : m < payload.length + udpHeaderLen)
    (hfits : ¬ (udpFragmentHeaderLen < m ∧
      divCeil payload.length (m - udpFragmentHeaderLen) ≤ 255)) :
    ∃ message, encodeUdpDataFragments flowId packetId payload m = .error (.bail message) := by
  rw [encodeUdpDataFragments, (validateFlowId_ok _).mpr hflow,
    (validateUdpPayload_ok _).mpr hpayload]
  by_cases hheader : m < udpHeaderLen
  · exact ⟨_, if_pos hheader⟩
  · have hdata : ¬ payload.length ≤ m - udpHeaderLen := by omega
    obtain ⟨message, hbails⟩ := encodeUdpFragments_bails hflow hpacket hpayload hlarge hfits
    rw [if_neg hheader, if_neg hdata, hbails]
    exact ⟨message, rfl⟩

end Accepted

/-! ## The frames -/

theorem length_frame (it : UdpFragments) (i : Nat) :
    (it.frame i).length ≤ udpFragmentHeaderLen + it.fragmentPayloadMax := by
  have hchunk := length_chunk it.payload it.fragmentPayloadMax i
  simp only [UdpFragments.frame, fragmentHeader, udpFragmentHeaderLen, List.length_append,
    List.length_cons, length_toBe]
  omega

/-- What the receiver makes of the frames of a packet that was cut. -/
structure Fragmented (flowId : FlowId) (packetId : UInt32) (payload : List UInt8)
    (frames parts : List (List UInt8)) : Prop where
  two_le : 2 ≤ parts.length
  le_255 : parts.length ≤ 255
  nonempty : ∀ part ∈ parts, part ≠ []
  flatten : parts.flatten = payload
  decode : frames.map decodeUdpFrame = parts.mapIdx fun i part =>
    .ok (.fragment flowId ⟨packetId, UInt8.ofNat i, UInt8.ofNat parts.length,
      UInt16.ofNat payload.length, part⟩)

theorem UdpFragments.Valid.fragmented {it : UdpFragments} (h : it.Valid) :
    Fragmented it.flowId it.packetId it.payload
      ((List.range it.fragmentCount.toNat).map it.frame)
      ((List.range it.fragmentCount.toNat).map (chunk it.payload it.fragmentPayloadMax)) where
  two_le := by simpa using h.two_le
  le_255 := by
    have hlt := it.fragmentCount.toNat_lt
    simp only [List.length_map, List.length_range]
    omega
  nonempty := by
    intro part hpart
    obtain ⟨i, hi, rfl⟩ := List.mem_map.mp hpart
    exact h.chunk_ne_nil (List.mem_range.mp hi)
  flatten := h.flatten_chunks
  decode := by
    apply List.ext_getElem
    · simp
    · intro i hi _
      have hlt : i < it.fragmentCount.toNat := by simpa using hi
      have hcount : UInt8.ofNat it.fragmentCount.toNat = it.fragmentCount := UInt8.ofNat_toNat
      rw [List.getElem_mapIdx, List.getElem_map, List.getElem_map, List.getElem_map,
        List.getElem_range, List.length_map, List.length_range, hcount]
      exact h.decode_frame hlt

/-- What is sent for a packet with room for `m` bytes in a datagram. -/
inductive Planned (flowId : FlowId) (packetId : UInt32) (payload : List UInt8) (m : Nat)
    (frames : List (List UInt8)) : Prop
  | data (hfits : payload.length + udpHeaderLen ≤ m)
      (hdecode : frames.map decodeUdpFrame = [.ok (.data flowId payload)])
  | fragments (hlarge : m < payload.length + udpHeaderLen) (parts : List (List UInt8))
      (hparts : Fragmented flowId packetId payload frames parts)

variable {frames parts : List (List UInt8)}

theorem Fragmented.not_data (h : Fragmented flowId packetId payload frames parts) (g : FlowId)
    (q : List UInt8) :
    frames.map decodeUdpFrame ≠ [.ok (.data g q)] := by
  intro hdata
  have htwo := h.two_le
  have hlength := congrArg List.length (h.decode.symm.trans hdata)
  simp only [List.length_mapIdx, List.length_singleton] at hlength
  omega

theorem Fragmented.decodes (h : Fragmented flowId packetId payload frames parts)
    {frame : List UInt8} (hframe : frame ∈ frames) :
    ∃ decoded, decodeUdpFrame frame = .ok decoded := by
  have hmem : decodeUdpFrame frame ∈ frames.map decodeUdpFrame := List.mem_map_of_mem hframe
  rw [h.decode, List.mem_mapIdx] at hmem
  obtain ⟨i, hi, heq⟩ := hmem
  exact ⟨_, heq.symm⟩

section Accepted

variable (hflow : flowId ≠ 0) (hpacket : packetId ≠ 0) (hpayload : payload.length ≤ udpPacketMax)
include hflow hpacket hpayload

theorem encodeUdpDataFragments_ne_panic (message : String) :
    encodeUdpDataFragments flowId packetId payload m ≠ .error (.panic message) := by
  by_cases hdata : payload.length + udpHeaderLen ≤ m
  · rw [encodeUdpDataFragments_data hflow hpayload hdata]
    nofun
  by_cases hfits : udpFragmentHeaderLen < m ∧
      divCeil payload.length (m - udpFragmentHeaderLen) ≤ 255
  · rw [encodeUdpDataFragments_fragments hflow hpacket hpayload (by omega) hfits.1 hfits.2]
    nofun
  · obtain ⟨_, hbails⟩ := encodeUdpDataFragments_bails hflow hpacket hpayload (by omega) hfits
    rw [hbails]
    nofun

theorem encodeUdpDataFragments_isOk :
    (∃ frames, encodeUdpDataFragments flowId packetId payload m = .ok frames) ↔
      udpHeaderLen ≤ m ∧ (payload.length ≤ m - udpHeaderLen ∨ udpFragmentHeaderLen < m ∧
        divCeil payload.length (m - udpFragmentHeaderLen) ≤ 255) := by
  constructor
  · rintro ⟨frames, hok⟩
    by_contra hcond
    have hlarge : m < payload.length + udpHeaderLen := by omega
    have hfits : ¬ (udpFragmentHeaderLen < m ∧
        divCeil payload.length (m - udpFragmentHeaderLen) ≤ 255) := by
      simp only [udpFragmentHeaderLen, udpHeaderLen] at hcond ⊢
      omega
    obtain ⟨_, hbails⟩ := encodeUdpDataFragments_bails hflow hpacket hpayload hlarge hfits
    cases hok.symm.trans hbails
  · rintro ⟨hheader, hfits⟩
    by_cases hdata : payload.length ≤ m - udpHeaderLen
    · exact ⟨_, encodeUdpDataFragments_data hflow hpayload (by omega)⟩
    · obtain ⟨hroom, hcount⟩ := hfits.resolve_left hdata
      exact ⟨_, encodeUdpDataFragments_fragments hflow hpacket hpayload (by omega) hroom hcount⟩

theorem encodeUdpDataFragments_planned {frames : List (List UInt8)}
    (hok : encodeUdpDataFragments flowId packetId payload m = .ok frames) :
    (∀ frame ∈ frames, frame.length ≤ m) ∧ Planned flowId packetId payload m frames := by
  by_cases hdata : payload.length + udpHeaderLen ≤ m
  · rw [encodeUdpDataFragments_data hflow hpayload hdata] at hok
    cases hok
    have hdecode : decodeUdpFrame (udpFrameData :: (toBe 4 flowId.toNat ++ payload)) =
        .ok (.data flowId payload) :=
      decode_of_encoding (.data (encodeUdpData_iff.mpr ⟨hpayload, hflow, rfl⟩))
    refine ⟨?_, .data hdata (by rw [List.map_singleton, hdecode])⟩
    intro frame hframe
    rw [List.mem_singleton.mp hframe, List.length_cons, List.length_append, length_toBe]
    simp only [udpHeaderLen] at hdata
    omega
  · have hlarge : m < payload.length + udpHeaderLen := by omega
    obtain ⟨hheader, hfits⟩ :=
      (encodeUdpDataFragments_isOk hflow hpacket hpayload).mp ⟨frames, hok⟩
    obtain ⟨hroom, hcount⟩ := hfits.resolve_left (by omega)
    rw [encodeUdpDataFragments_fragments hflow hpacket hpayload hlarge hroom hcount] at hok
    cases hok
    have hvalid := fragmentPlan_valid hflow hpacket hpayload hlarge hroom hcount
    refine ⟨?_, .fragments hlarge _ hvalid.fragmented⟩
    intro frame hframe
    obtain ⟨i, -, rfl⟩ := List.mem_map.mp hframe
    have hlength := length_frame (fragmentPlan flowId packetId payload m) i
    simp only [fragmentPlan] at hlength ⊢
    omega

end Accepted

end Plan

/-- **The fragment plan.** A packet is sent if it fits into one DATA frame or into 255 fragments,
which is always so from 270 bytes on. What is sent fits and decodes, as one DATA frame exactly if
the whole frame fits and as two or more fragments of the packet otherwise. -/
theorem encodeUdpDataFragments_plan {flowId : FlowId} (hflow : flowId ≠ 0) {packetId : UInt32}
    (hpacket : packetId ≠ 0) {payload : List UInt8} (hpayload : payload.length ≤ udpPacketMax)
    (m : Nat) :
    ((∃ frames, encodeUdpDataFragments flowId packetId payload m = .ok frames) ↔
      udpHeaderLen ≤ m ∧ (payload.length ≤ m - udpHeaderLen ∨ udpFragmentHeaderLen < m ∧
        divCeil payload.length (m - udpFragmentHeaderLen) ≤ 255)) ∧
    (∀ message, encodeUdpDataFragments flowId packetId payload m ≠ .error (.panic message)) ∧
    (270 ≤ m → ∃ frames, encodeUdpDataFragments flowId packetId payload m = .ok frames) ∧
    ∀ frames, encodeUdpDataFragments flowId packetId payload m = .ok frames →
      (∀ frame ∈ frames, frame.length ≤ m ∧ ∃ decoded, decodeUdpFrame frame = .ok decoded) ∧
      (frames.map decodeUdpFrame = [.ok (.data flowId payload)] ↔
        payload.length + udpHeaderLen ≤ m) ∧
      (m < payload.length + udpHeaderLen →
        ∃ parts, Fragmented flowId packetId payload frames parts) := by
  have hisOk := encodeUdpDataFragments_isOk (m := m) hflow hpacket hpayload
  refine ⟨hisOk, encodeUdpDataFragments_ne_panic hflow hpacket hpayload, fun hm => ?_,
    fun frames hok => ?_⟩
  · have hcount := divCeil_le_of_capacity (c := m - udpFragmentHeaderLen) hpayload
      (by simp only [udpFragmentHeaderLen]; omega)
    refine hisOk.mpr ⟨?_, .inr ⟨?_, hcount⟩⟩
    · simp only [udpHeaderLen]
      omega
    · simp only [udpFragmentHeaderLen]
      omega
  · obtain ⟨hlength, hplanned⟩ := encodeUdpDataFragments_planned hflow hpacket hpayload hok
    cases hplanned with
    | data hfits hdecode =>
      refine ⟨fun frame hframe => ⟨hlength frame hframe, .data flowId payload, ?_⟩,
        iff_of_true hdecode hfits, fun hlarge => absurd hfits (by omega)⟩
      have hmem : decodeUdpFrame frame ∈ frames.map decodeUdpFrame := List.mem_map_of_mem hframe
      rwa [hdecode, List.mem_singleton] at hmem
    | fragments hlarge parts hparts =>
      exact ⟨fun frame hframe => ⟨hlength frame hframe, hparts.decodes hframe⟩,
        iff_of_false (hparts.not_data flowId payload) (by omega), fun _ => ⟨parts, hparts⟩⟩

theorem encodeUdpDataFragments_plan_twenty :
    ∃ frames, encodeUdpDataFragments 1 1 (List.replicate 20 7) 23 = .ok frames ∧
      ∃ parts, Fragmented 1 1 (List.replicate 20 7) frames parts := by
  have hplan := @encodeUdpDataFragments_plan 1 (by decide) 1 (by decide) (List.replicate 20 7)
    (by decide) 23
  obtain ⟨frames, hok⟩ := hplan.1.mpr (by decide)
  exact ⟨frames, hok, (hplan.2.2.2 frames hok).2.2 (by decide)⟩

end Nowhere.Protocol
