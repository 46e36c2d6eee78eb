import Nowhere.Lib.Bytes
import Nowhere.Lib.ByteStream
import Nowhere.Protocol.Flow

/-!
# The flow header

The fixed header of `src/protocol/flow.rs` that opens a lane: its validation, its five bytes, and
the functions that write and read them.
-/

namespace Nowhere.Protocol

open Bytes ByteStream

def flowHeaderLen : Nat := 5

def FlowRole.toUInt8 : FlowRole → UInt8
  | .duplex => 0
  | .opening => 1
  | .attach => 2

def FlowKind.toUInt8 : FlowKind → UInt8
  | .tcp => 0
  | .udp => 1

def Carrier.toUInt8 : Carrier → UInt8
  | .tlsTcp => 0
  | .quic => 1

namespace FlowHeader

def roleMask : UInt8 := 0b00000011
def kindBit : UInt8 := 0b00000100
def uplinkBit : UInt8 := 0b00001000
def downlinkBit : UInt8 := 0b00010000
def reservedMask : UInt8 := 0b11100000

/-! ## Validation -/

def validate (header : FlowHeader) : Result Unit :=
  if header.flowId = 0 then
    .error (.bail "protocol::flow::FlowHeader::validate: zero flow id")
  else
    match header.role with
    | .duplex =>
      if header.uplink ≠ header.downlink then
        .error (.bail "protocol::flow::FlowHeader::validate: duplex carrier mismatch")
      else .ok ()
    | .opening | .attach =>
      if header.uplink = header.downlink then
        .error (.bail "protocol::flow::FlowHeader::validate: split carriers must differ")
      else .ok ()

/-- Has the header arrived on the physical carrier it declares? -/
def validateOn (header : FlowHeader) (current : Carrier) : Result Unit := do
  header.validate
  let expected := match header.role with
    | .duplex | .opening => header.uplink
    | .attach => header.downlink
  if current ≠ expected then
    .error (.bail "protocol::flow::FlowHeader::validate_on: carrier mismatch")
  else .ok ()

def carriesTarget (header : FlowHeader) : Bool :=
  match header.role with
  | .duplex | .opening => true
  | .attach => false

theorem validate_of_validateOn {header : FlowHeader} {current : Carrier}
    (h : header.validateOn current = .ok ()) : header.validate = .ok () :=
  (bind_eq_ok.mp h).choose_spec.1

end FlowHeader

/-! ## The five bytes -/

/-- The first byte. -/
def flowFlags (role : FlowRole) (kind : FlowKind) (uplink downlink : Carrier) : UInt8 :=
  role.toUInt8 ||| kind.toUInt8 <<< 2 ||| uplink.toUInt8 <<< 3 ||| downlink.toUInt8 <<< 4

def writeFlowHeader (header : FlowHeader) : List UInt8 :=
  flowFlags header.role header.kind header.uplink header.downlink :: toBe 4 header.flowId.toNat

/-- The role of `decode_flow_header`, from the masked flags. -/
def decodeRole (value : UInt8) : Result FlowRole :=
  if value = 0 then .ok .duplex
  else if value = 1 then .ok .opening
  else if value = 2 then .ok .attach
  else .error (.bail s!"protocol::flow::decode_flow_header: invalid role: {value}")

def decodeFlowHeader (bytes : List UInt8) : Result FlowHeader :=
  if bytes.length ≠ flowHeaderLen then
    .error (.bail s!"protocol::flow::decode_flow_header: invalid header length: {bytes.length}")
  else do
    let flags := bytes.getD 0 0
    if flags &&& FlowHeader.reservedMask ≠ 0 then
      .error (.bail "protocol::flow::decode_flow_header: reserved flags are non-zero")
    else
      let role ← decodeRole (flags &&& FlowHeader.roleMask)
      let kind := if flags &&& FlowHeader.kindBit = 0 then FlowKind.tcp else FlowKind.udp
      let uplink := if flags &&& FlowHeader.uplinkBit = 0 then Carrier.tlsTcp else Carrier.quic
      let downlink :=
        if flags &&& FlowHeader.downlinkBit = 0 then Carrier.tlsTcp else Carrier.quic
      let header : FlowHeader :=
        ⟨role, UInt32.ofNat (ofBe (bytes.drop 1)), kind, uplink, downlink⟩
      header.validate
      return header

def readFlowHeader {σ : Type} (reader : Input σ) : StateT σ Result FlowHeader := do
  let bytes ← reader.readExact
    (.bail "protocol::flow::read_flow_header: failed to read header") flowHeaderLen
  decodeFlowHeader bytes

/-! ## Reading back -/

@[simp]
theorem length_writeFlowHeader (header : FlowHeader) :
    (writeFlowHeader header).length = flowHeaderLen := by
  simp [writeFlowHeader, flowHeaderLen]

section Flags

variable (role : FlowRole) (kind : FlowKind) (uplink downlink : Carrier)

theorem flowFlags_reserved :
    flowFlags role kind uplink downlink &&& FlowHeader.reservedMask = 0 := by
  cases role <;> cases kind <;> cases uplink <;> cases downlink <;> decide

theorem flowFlags_role :
    flowFlags role kind uplink downlink &&& FlowHeader.roleMask = role.toUInt8 := by
  cases role <;> cases kind <;> cases uplink <;> cases downlink <;> decide

theorem flowFlags_kind :
    (if flowFlags role kind uplink downlink &&& FlowHeader.kindBit = 0 then FlowKind.tcp
      else .udp) = kind := by
  cases role <;> cases kind <;> cases uplink <;> cases downlink <;> decide

theorem flowFlags_uplink :
    (if flowFlags role kind uplink downlink &&& FlowHeader.uplinkBit = 0 then Carrier.tlsTcp
      else .quic) = uplink := by
  cases role <;> cases kind <;> cases uplink <;> cases downlink <;> decide

theorem flowFlags_downlink :
    (if flowFlags role kind uplink downlink &&& FlowHeader.downlinkBit = 0 then Carrier.tlsTcp
      else .quic) = downlink := by
  cases role <;> cases kind <;> cases uplink <;> cases downlink <;> decide

end Flags

theorem decodeRole_toUInt8 (role : FlowRole) : decodeRole role.toUInt8 = .ok role := by
  cases role <;> rfl

theorem decodeFlowHeader_writeFlowHeader {header : FlowHeader} (h : header.validate = .ok ()) :
    decodeFlowHeader (writeFlowHeader header) = .ok header := by
  have hflags : (writeFlowHeader header).getD 0 0 =
      flowFlags header.role header.kind header.uplink header.downlink := rfl
  have hflow : UInt32.ofNat (ofBe ((writeFlowHeader header).drop 1)) = header.flowId := by
    show UInt32.ofNat (ofBe (toBe 4 header.flowId.toNat)) = header.flowId
    rw [ofBe_toBe_of_lt (UInt32.toNat_lt _), UInt32.ofNat_toNat]
  rw [decodeFlowHeader, if_neg (not_not.mpr (length_writeFlowHeader header))]
  simp only [hflags, hflow, flowFlags_reserved, flowFlags_role, flowFlags_kind, flowFlags_uplink,
    flowFlags_downlink, ne_eq, not_true_eq_false, if_false, decodeRole_toUInt8]
  show (header.validate >>= fun _ => pure header) = .ok header
  rw [h]
  rfl

theorem parses_readFlowHeader {σ : Type} {reader : Input σ} {header : FlowHeader}
    (h : header.validate = .ok ()) :
    reader.Parses (readFlowHeader reader) (writeFlowHeader header) header := by
  have hread := reader.parses_readExact
    (Failure.bail "protocol::flow::read_flow_header: failed to read header")
    (length_writeFlowHeader header)
  exact hread.bind_nil (Input.parses_lift (decodeFlowHeader_writeFlowHeader h))

end Nowhere.Protocol
