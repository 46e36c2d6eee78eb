import Nowhere.Protocol.Auth
import Nowhere.Protocol.Header
import Nowhere.Protocol.Request

/-!
# The opening envelope

What Vector writes at the front of a lane (`src/vector/flow.rs`), and what Portal reads there
(`src/portal/conn/tcp.rs`, `src/portal/conn/session.rs`): an authentication frame on a new
connection, the flow header, and the target of an opening or duplex lane. Vector puts the parts
into one fixed buffer at computed offsets; Portal reads them one by one, the authentication frame
from the connection and the rest through a `BufReader`.
-/

namespace Nowhere

open Protocol ByteStream

/-- What an authentication frame is bound to: the shared key, the kind of the connection and its
exporter. -/
structure AuthContext where
  authKey : AuthKey
  transport : AuthTransport
  exporter : TlsExporter

def AuthContext.frame (context : AuthContext) (hmac : HmacSha256) (sessionId : SessionId) :
    AuthFrame :=
  encodeAuthFrame hmac context.authKey context.transport context.exporter sessionId

/-! ## Vector -/

namespace Vector

/-- Copies a pending authentication frame to the front of the buffer and says how long it is. -/
def placeAuth (pendingAuth : Option AuthFrame) (request : List UInt8) :
    Result (List UInt8 × Nat) :=
  match pendingAuth with
  | some auth => do
    let request ← copyFromSlice request 0 authFrameLen auth.1
    return (request, authFrameLen)
  | none => .ok (request, 0)

/-- The bytes that `write_open_request` hands to the writer. -/
def writeOpenRequest (pendingAuth : Option AuthFrame) (header : FlowHeader) (target : Target) :
    Result (List UInt8) := do
  header.validate
  let flow := writeFlowHeader header
  let request := List.replicate (authFrameLen + flowHeaderLen + targetMaxEncodedLen) 0
  let (request, authLen) ← placeAuth pendingAuth request
  let request ← copyFromSlice request authLen (authLen + flowHeaderLen) flow
  let targetOffset := authLen + flowHeaderLen
  let room ← slice request targetOffset request.length
  let (targetLen, room) ← encodeTargetInto target room
  slice (request.take targetOffset ++ room) 0 (targetOffset + targetLen)

/-- The bytes that `write_header` hands to the writer. -/
def writeHeader (pendingAuth : Option AuthFrame) (header : FlowHeader) : Result (List UInt8) := do
  header.validate
  let flow := writeFlowHeader header
  let request := List.replicate (authFrameLen + flowHeaderLen) 0
  let (request, authLen) ← placeAuth pendingAuth request
  let request ← copyFromSlice request authLen (authLen + flowHeaderLen) flow
  slice request 0 (authLen + flowHeaderLen)

/-- A lane with a target is opened by `write_open_request`, the other half of a split flow by
`write_header`. -/
def writeOpening (pendingAuth : Option AuthFrame) (header : FlowHeader) :
    Option Target → Result (List UInt8)
  | some target => writeOpenRequest pendingAuth header target
  | none => writeHeader pendingAuth header

/-- The bytes of a pending authentication frame. -/
def authBytes (pendingAuth : Option AuthFrame) : List UInt8 :=
  pendingAuth.elim [] Subtype.val

theorem length_authBytes_le (pendingAuth : Option AuthFrame) :
    (authBytes pendingAuth).length ≤ authFrameLen := by
  cases pendingAuth with
  | none => exact Nat.zero_le _
  | some auth => exact Nat.le_of_eq auth.2

theorem placeAuth_eq (pendingAuth : Option AuthFrame) {request : List UInt8}
    (hroom : authFrameLen ≤ request.length) :
    placeAuth pendingAuth request = .ok
      (authBytes pendingAuth ++ request.drop (authBytes pendingAuth).length,
        (authBytes pendingAuth).length) := by
  cases pendingAuth with
  | none => rfl
  | some auth =>
    have hcopy : copyFromSlice request 0 authFrameLen auth.1 =
        .ok (auth.1 ++ request.drop auth.1.length) :=
      @copyFromSlice_room [] request 0 authFrameLen auth.1 rfl (by rw [auth.2, Nat.zero_add])
        (by rw [auth.2]; exact hroom)
    rw [placeAuth, hcopy]
    exact congrArg (fun len => Except.ok (auth.1 ++ request.drop auth.1.length, len)) auth.2.symm

section Writers

variable (pendingAuth : Option AuthFrame) (header : FlowHeader)

/-- The header goes right behind the authentication frame. -/
theorem copyHeader_eq {request : List UInt8}
    (hroom : authFrameLen + flowHeaderLen ≤ request.length) :
    copyFromSlice (authBytes pendingAuth ++ request.drop (authBytes pendingAuth).length)
      (authBytes pendingAuth).length ((authBytes pendingAuth).length + flowHeaderLen)
      (writeFlowHeader header) =
      .ok ((authBytes pendingAuth ++ writeFlowHeader header) ++
        request.drop ((authBytes pendingAuth).length + flowHeaderLen)) := by
  have hauth := length_authBytes_le pendingAuth
  have hheader := length_writeFlowHeader header
  have hcopy := @copyFromSlice_room (authBytes pendingAuth)
    (request.drop (authBytes pendingAuth).length) _ _ (writeFlowHeader header) rfl rfl
    (by rw [hheader, List.length_drop]; omega)
  rwa [List.drop_drop, hheader] at hcopy

variable {header}

theorem writeHeader_eq (hvalid : header.validate = .ok ()) :
    writeHeader pendingAuth header = .ok (authBytes pendingAuth ++ writeFlowHeader header) := by
  have hroom : authFrameLen + flowHeaderLen ≤
      (List.replicate (authFrameLen + flowHeaderLen) (0 : UInt8)).length :=
    Nat.le_of_eq List.length_replicate.symm
  rw [writeHeader, hvalid]
  generalize List.replicate (authFrameLen + flowHeaderLen) (0 : UInt8) = request at hroom ⊢
  have hauth : authFrameLen ≤ request.length := Nat.le_trans (Nat.le_add_right _ _) hroom
  simp only [bind, Except.bind, placeAuth_eq pendingAuth hauth,
    copyHeader_eq pendingAuth header hroom]
  exact slice_done (by rw [List.length_append, length_writeFlowHeader])

theorem writeOpenRequest_eq (hvalid : header.validate = .ok ()) {target : Target}
    (htarget : target.Valid) :
    writeOpenRequest pendingAuth header target =
      .ok ((authBytes pendingAuth ++ writeFlowHeader header) ++ target.wire) := by
  have hroom : authFrameLen + flowHeaderLen + targetMaxEncodedLen ≤
      (List.replicate (authFrameLen + flowHeaderLen + targetMaxEncodedLen) (0 : UInt8)).length :=
    Nat.le_of_eq List.length_replicate.symm
  rw [writeOpenRequest, hvalid]
  generalize List.replicate (authFrameLen + flowHeaderLen + targetMaxEncodedLen) (0 : UInt8) =
    request at hroom ⊢
  have hauth := length_authBytes_le pendingAuth
  have hwire := Target.length_wire_le htarget
  have hfront : (authBytes pendingAuth ++ writeFlowHeader header).length =
      (authBytes pendingAuth).length + flowHeaderLen := by
    rw [List.length_append, length_writeFlowHeader]
  have hfits : target.wire.length ≤
      (request.drop ((authBytes pendingAuth).length + flowHeaderLen)).length := by
    rw [List.length_drop]
    omega
  have hplace : authFrameLen ≤ request.length := by omega
  simp only [bind, Except.bind, placeAuth_eq pendingAuth hplace,
    copyHeader_eq pendingAuth header (show _ ≤ request.length by omega), slice_room hfront,
    encodeTargetInto_eq htarget hfits, List.take_left' hfront, ← List.append_assoc]
  exact slice_done (by rw [List.length_append, hfront])

end Writers

end Vector

/-! ## Portal -/

namespace Portal

/-- The capacity of `tokio::io::BufReader::new`. -/
def bufReaderLen : Nat := 8192

/-- The header and the target of a lane, as `handle_tcp_incoming` and `handle_buffered_stream`
read them. -/
def readFlow {σ : Type} (carrier : Carrier) (reader : Input σ) :
    StateT σ Result (FlowHeader × Option Target) := do
  let header ← readFlowHeader reader
  header.validateOn carrier
  if header.role = .opening ∨ header.role = .duplex then
    let target ← readRequest reader
    return (header, some target)
  else return (header, none)

/-- The authentication frame that a new connection starts with. -/
def readAuth {σ : Type} (hmac : HmacSha256) (auth : Option AuthContext) (reader : Input σ) :
    StateT σ Result (Option SessionId) :=
  match auth with
  | some auth => some <$> readAuthFrame hmac auth.authKey auth.transport auth.exporter reader
  | none => pure none

/-- The authentication frame is read from the connection, what follows through a buffer. -/
def readOpening {σ : Type} (hmac : HmacSha256) (auth : Option AuthContext) (carrier : Carrier)
    (reader : Input σ) (s : σ) :
    Result ((Option SessionId × FlowHeader × Option Target) × List UInt8 × σ) := do
  let (sessionId, s) ← readAuth hmac auth reader s
  let (flow, s) ← readFlow carrier (reader.buffered bufReaderLen) ([], s)
  return ((sessionId, flow), s)

section Readers

variable {σ : Type} {reader : Input σ}

theorem parses_readFlow {carrier : Carrier} {header : FlowHeader} {target : Option Target}
    (hvalid : header.validateOn carrier = .ok ()) (hrole : header.carriesTarget = target.isSome)
    (htarget : ∀ t, target = some t → t.Valid ∧ t.Unscoped) :
    reader.Parses (readFlow carrier reader)
      (writeFlowHeader header ++ target.elim [] Target.wire) (header, target) := by
  have hheader : reader.Parses (readFlowHeader reader) (writeFlowHeader header) header :=
    parses_readFlowHeader (FlowHeader.validate_of_validateOn hvalid)
  refine hheader.bind (Input.Parses.after_lift hvalid ?_)
  cases target with
  | none =>
    have hattach : ¬ (header.role = .opening ∨ header.role = .duplex) := by
      revert hrole
      cases hr : header.role <;> simp [FlowHeader.carriesTarget, hr]
    rw [if_neg hattach]
    exact Input.parses_pure _
  | some t =>
    have hopens : header.role = .opening ∨ header.role = .duplex := by
      revert hrole
      cases hr : header.role <;> simp [FlowHeader.carriesTarget, hr]
    obtain ⟨hvalid, hscope⟩ := htarget t rfl
    rw [if_pos hopens]
    exact (parses_readRequest hvalid hscope).bind_nil (Input.parses_pure _)

/-- A frame that was made for the connection is read as its session. -/
theorem parses_readAuth (hmac : HmacSha256) (auth : Option (AuthContext × SessionId)) :
    reader.Parses (readAuth hmac (auth.map Prod.fst) reader)
      (Vector.authBytes (auth.map fun login => login.1.frame hmac login.2))
      (auth.map Prod.snd) := by
  cases auth with
  | none => exact Input.parses_pure none
  | some login =>
    exact (parses_readAuthFrame hmac login.1.authKey login.1.transport login.1.exporter
      login.2).map some

end Readers

end Portal

/-! ## The round trip -/

/-- Whatever Vector writes to open a lane, Portal reads as the same session, header and target,
and the payload behind it is untouched. -/
theorem opening_read_back (hmac : HmacSha256) (auth : Option (AuthContext × SessionId))
    {header : FlowHeader} {carrier : Carrier} {target : Option Target}
    (hvalid : header.validateOn carrier = .ok ()) (hrole : header.carriesTarget = target.isSome)
    (htarget : ∀ t, target = some t → t.Valid ∧ t.Unscoped) :
    ∃ wire,
      Vector.writeOpening (auth.map fun login => login.1.frame hmac login.2) header target =
        .ok wire ∧
      ∀ (payload : List UInt8) (σ : Type) (reader : Input σ) (s : σ),
        reader.bytes s = wire ++ payload →
        ∃ rest, Portal.readOpening hmac (auth.map Prod.fst) carrier reader s =
            .ok ((auth.map Prod.snd, header, target), rest) ∧
          (reader.buffered Portal.bufReaderLen).bytes rest = payload := by
  have hheader := FlowHeader.validate_of_validateOn hvalid
  refine ⟨Vector.authBytes (auth.map fun login => login.1.frame hmac login.2) ++
    (writeFlowHeader header ++ target.elim [] Target.wire), ?_, ?_⟩
  · cases target with
    | none =>
      rw [Vector.writeOpening, Vector.writeHeader_eq _ hheader]
      simp
    | some t =>
      rw [Vector.writeOpening, Vector.writeOpenRequest_eq _ hheader (htarget t rfl).1]
      simp
  · intro payload σ reader s hs
    rw [List.append_assoc] at hs
    obtain ⟨s₁, hauth, hs₁⟩ := Portal.parses_readAuth hmac auth s _ hs
    have hparses : (reader.buffered Portal.bufReaderLen).Parses
        (Portal.readFlow carrier (reader.buffered Portal.bufReaderLen))
        (writeFlowHeader header ++ target.elim [] Target.wire) (header, target) :=
      Portal.parses_readFlow hvalid hrole htarget
    obtain ⟨rest, hflow, hrest⟩ := hparses ([], s₁) payload hs₁
    refine ⟨rest, ?_, hrest⟩
    simp only [Portal.readOpening, hauth, hflow, bind, Except.bind, pure, Except.pure]

namespace Sample

def constantMac : HmacSha256 := fun _ _ => ⟨List.replicate 32 7, rfl⟩

def authContext : AuthContext :=
  ⟨⟨List.replicate 32 1, rfl⟩, .quic, ⟨List.replicate 32 2, rfl⟩⟩

def openingSession : SessionId := ⟨List.replicate 16 3, rfl⟩

def openHeader : FlowHeader := ⟨.opening, 258, .tcp, .quic, .tlsTcp⟩

/-- `a.b:80`. -/
def domainTarget : Target := .domain [97, 46, 98] 80

def openingWire : List UInt8 :=
  List.replicate 16 3 ++ List.replicate 16 7 ++ [9, 0, 0, 1, 2] ++ [3, 3, 97, 46, 98, 0, 80]

/-- A stream that gives one byte at a time. -/
def oneByOne (bytes : List UInt8) : List { piece : List UInt8 // piece ≠ [] } :=
  bytes.map fun byte => ⟨[byte], List.cons_ne_nil byte []⟩

theorem bytes_oneByOne (bytes : List UInt8) : Input.pieces.bytes (oneByOne bytes) = bytes := by
  induction bytes with
  | nil => rfl
  | cons byte bytes ih => exact congrArg (byte :: ·) ih

theorem domainTarget_valid : domainTarget.Valid := .inr ⟨[97, 46, 98], 80, rfl⟩

theorem writes_openingWire :
    Vector.writeOpening (some (authContext.frame constantMac openingSession)) openHeader
      (some domainTarget) = .ok openingWire :=
  Vector.writeOpenRequest_eq _ rfl domainTarget_valid

/-- An OPEN lane on a new QUIC connection, followed by two bytes of payload. -/
theorem oneByOne_read_back :
    openHeader.validateOn .quic = .ok () ∧
      ∃ rest, Portal.readOpening constantMac (some authContext) .quic Input.pieces
          (oneByOne (openingWire ++ [104, 105])) =
          .ok ((some openingSession, openHeader, some domainTarget), rest) ∧
        (Input.pieces.buffered Portal.bufReaderLen).bytes rest = [104, 105] := by
  have hvalid : openHeader.validateOn .quic = .ok () := rfl
  have htarget (t : Target) (ht : some domainTarget = some t) : t.Valid ∧ t.Unscoped := by
    cases ht
    exact ⟨domainTarget_valid, trivial⟩
  obtain ⟨wire, hwire, hread⟩ :=
    opening_read_back constantMac (some (authContext, openingSession)) hvalid rfl htarget
  have heq : openingWire = wire := Except.ok.inj (writes_openingWire.symm.trans hwire)
  exact ⟨hvalid, hread [104, 105] _ Input.pieces _ (heq ▸ bytes_oneByOne _)⟩

end Sample

end Nowhere
