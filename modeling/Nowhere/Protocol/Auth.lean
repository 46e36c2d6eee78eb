import Nowhere.Lib.ByteStream
import Nowhere.Protocol.Flow

/-!
# Connection authentication

The fixed frame of `src/protocol/auth.rs` that binds a session to one TLS or QUIC connection: a
session id and the first half of an HMAC over the transport, the exporter of the connection and
that id. HMAC-SHA256 is a parameter; nothing here depends on which function it is.
-/

namespace Nowhere.Protocol

open ByteStream

def tlsExporterLen : Nat := 32
def authTagLen : Nat := 16
def authFrameLen : Nat := sessionIdLen + authTagLen

abbrev AuthKey := { bytes : List UInt8 // bytes.length = 32 }
abbrev TlsExporter := { bytes : List UInt8 // bytes.length = tlsExporterLen }
abbrev AuthTag := { bytes : List UInt8 // bytes.length = authTagLen }
abbrev AuthFrame := { bytes : List UInt8 // bytes.length = authFrameLen }

/-- HMAC-SHA256, from a key and a message. -/
abbrev HmacSha256 := List UInt8 → List UInt8 → { bytes : List UInt8 // bytes.length = 32 }

/-- Physical carrier domain separator. -/
inductive AuthTransport
  | tlsTcp
  | quic
  deriving DecidableEq, Repr

def AuthTransport.toUInt8 : AuthTransport → UInt8
  | .tlsTcp => 0x01
  | .quic => 0x02

section Frame

variable (hmac : HmacSha256) (authKey : AuthKey) (transport : AuthTransport)
  (exporter : TlsExporter)

def authenticationTag (sessionId : SessionId) : AuthTag :=
  let mac := hmac authKey.1 (transport.toUInt8 :: (exporter.1 ++ sessionId.1))
  ⟨mac.1.take authTagLen, by rw [List.length_take, mac.2]; rfl⟩

def encodeAuthFrame (sessionId : SessionId) : AuthFrame :=
  let tag := authenticationTag hmac authKey transport exporter sessionId
  ⟨sessionId.1 ++ tag.1, by rw [List.length_append, sessionId.2, tag.2]; rfl⟩

def validateAuthFrame (frame : List UInt8) : Result SessionId :=
  if h : frame.length = authFrameLen then
    let sessionId : SessionId :=
      ⟨frame.take sessionIdLen, by rw [List.length_take, h]; rfl⟩
    let expected := authenticationTag hmac authKey transport exporter sessionId
    if frame.drop sessionIdLen = expected.1 then .ok sessionId
    else .error (.bail "protocol::auth::validate_auth_frame: invalid authentication frame")
  else .error (.bail "protocol::auth::validate_auth_frame: invalid authentication frame")

def readAuthFrame {σ : Type} (reader : Input σ) : StateT σ Result SessionId := do
  let frame ← reader.readExact
    (.bail "protocol::auth::read_auth_frame: failed to read authentication frame") authFrameLen
  validateAuthFrame hmac authKey transport exporter frame

/-! ## Reading back -/

theorem validateAuthFrame_encodeAuthFrame (sessionId : SessionId) :
    validateAuthFrame hmac authKey transport exporter
      (encodeAuthFrame hmac authKey transport exporter sessionId).1 = .ok sessionId := by
  have htake : (encodeAuthFrame hmac authKey transport exporter sessionId).1.take sessionIdLen =
      sessionId.1 := List.take_left' sessionId.2
  have hdrop : (encodeAuthFrame hmac authKey transport exporter sessionId).1.drop sessionIdLen =
      (authenticationTag hmac authKey transport exporter sessionId).1 :=
    List.drop_left' sessionId.2
  rw [validateAuthFrame, dif_pos (encodeAuthFrame hmac authKey transport exporter sessionId).2]
  simp only [htake, hdrop, if_true]

theorem parses_readAuthFrame {σ : Type} {reader : Input σ} (sessionId : SessionId) :
    reader.Parses (readAuthFrame hmac authKey transport exporter reader)
      (encodeAuthFrame hmac authKey transport exporter sessionId).1 sessionId := by
  have hread := reader.parses_readExact
    (Failure.bail "protocol::auth::read_auth_frame: failed to read authentication frame")
    (encodeAuthFrame hmac authKey transport exporter sessionId).2
  exact hread.bind_nil (Input.parses_lift
    (validateAuthFrame_encodeAuthFrame hmac authKey transport exporter sessionId))

end Frame

end Nowhere.Protocol
