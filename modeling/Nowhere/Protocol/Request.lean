import Nowhere.Lib.Bytes
import Nowhere.Lib.ByteStream
import Nowhere.Protocol.Buffer

/-!
# The target codec

The destination address of `src/protocol/request.rs` that follows an opening flow header, with the
checks of `src/protocol/util.rs`: the constructors that validate a target, the encoder into a
given buffer, the decoder of a slice, and the reader that takes exactly one target off a stream.
-/

namespace Nowhere.Protocol

open Bytes ByteStream

def domainLenMax : Nat := 253
def targetAtypIpv4 : UInt8 := 0x01
def targetAtypDomain : UInt8 := 0x03
def targetAtypIpv6 : UInt8 := 0x04
def targetIpv4Len : Nat := 1 + 4 + 2
def targetIpv6Len : Nat := 1 + 16 + 2
def targetMaxEncodedLen : Nat := 1 + 1 + domainLenMax + 2

/-! ## Validation -/

def validatePort (port : UInt16) (context : String) : Result Unit :=
  if port = 0 then .error (.bail s!"{context}: zero port") else .ok ()

/-- `u8::is_ascii_alphanumeric`. -/
def isAsciiAlphanumeric (byte : UInt8) : Bool :=
  (48 ≤ byte && byte ≤ 57) || (65 ≤ byte && byte ≤ 90) || (97 ≤ byte && byte ≤ 122)

/-- One round of the loop over the labels; 45 is the hyphen. -/
def validateLabel (context : String) (label : List UInt8) : Result Unit :=
  if label = [] ∨ label.length > 63 then
    .error (.bail s!"{context}: invalid DNS label length")
  else if label.head? = some 45 ∨ label.getLast? = some 45 then
    .error (.bail s!"{context}: DNS label begins or ends with hyphen")
  else if ¬ label.all (fun byte => isAsciiAlphanumeric byte || byte == 45) then
    .error (.bail s!"{context}: invalid DNS label bytes")
  else .ok ()

/-- The labels are separated by dots, byte 46. -/
def validateDomainBytes (domain : List UInt8) (context : String) : Result Unit :=
  if domain = [] ∨ domain.length > domainLenMax then
    .error (.bail s!"{context}: invalid domain length: {domain.length}")
  else if ¬ domain.all (fun byte => byte < 128) then
    .error (.bail s!"{context}: domain is not ASCII/IDNA wire form")
  else (domain.splitOn 46).forM (validateLabel context)

def SocketAddr.port : SocketAddr → UInt16
  | .v4 _ port => port
  | .v6 _ port _ _ => port

namespace Target

/-- `Target::ip`. -/
def newIp (address : SocketAddr) : Result Target := do
  validatePort address.port "protocol::request::Target::ip"
  return .ip address

/-- `Target::domain`. -/
def newDomain (host : List UInt8) (port : UInt16) : Result Target := do
  validateDomainBytes host "protocol::request::Target::domain"
  validatePort port "protocol::request::Target::domain"
  return .domain host port

/-- The target is one that the validating constructors return. -/
def Valid (target : Target) : Prop :=
  (∃ address, newIp address = .ok target) ∨ ∃ host port, newDomain host port = .ok target

/-- The flow information and scope of an IPv6 address, which have no place on the wire, are
zero. -/
def Unscoped : Target → Prop
  | .ip (.v6 _ _ flowinfo scopeId) => flowinfo = 0 ∧ scopeId = 0
  | _ => True

def encodedLen : Target → Result Nat
  | .ip address => do
    validatePort address.port "protocol::request::Target::encoded_len"
    return match address with
      | .v4 .. => targetIpv4Len
      | .v6 .. => targetIpv6Len
  | .domain host port => do
    validateDomainBytes host "protocol::request::Target::encoded_len"
    validatePort port "protocol::request::Target::encoded_len"
    return 1 + 1 + host.length + 2

end Target

/-! ## Encoding -/

/-- The writes of `encode_target_into`, once the length is known to fit. -/
def fillTarget (encodedLen : Nat) (output : List UInt8) : Target → Result (List UInt8)
  | .ip (.v4 ip port) => do
    let output ← writeAt output 0 targetAtypIpv4
    let output ← copyFromSlice output 1 5 (toBe 4 ip.toNat)
    copyFromSlice output 5 7 (toBe 2 port.toNat)
  | .ip (.v6 ip port _ _) => do
    let output ← writeAt output 0 targetAtypIpv6
    let output ← copyFromSlice output 1 17 (toBe 16 ip.toNat)
    copyFromSlice output 17 19 (toBe 2 port.toNat)
  | .domain host port => do
    let output ← writeAt output 0 targetAtypDomain
    let output ← writeAt output 1 (UInt8.ofNat host.length)
    let output ← copyFromSlice output 2 (2 + host.length) host
    copyFromSlice output (2 + host.length) encodedLen (toBe 2 port.toNat)

/-- Returns the encoded length and what the buffer holds then. -/
def encodeTargetInto (target : Target) (output : List UInt8) : Result (Nat × List UInt8) := do
  let encodedLen ← target.encodedLen
  if output.length < encodedLen then
    .error (.bail ("protocol::request::encode_target_into: output too short: " ++
      s!"need {encodedLen}, got {output.length}"))
  else
    let output ← fillTarget encodedLen output target
    return (encodedLen, output)

/-! ## Decoding -/

/-- Decodes one target off the front of the input and says how many bytes it took. -/
def decodeTarget (input : List UInt8) : Result (Target × Nat) :=
  match input.head? with
  | none => .error (.bail "protocol::request::decode_target: missing address type")
  | some addressType =>
    if addressType = targetAtypIpv4 then
      if input.length < targetIpv4Len then
        .error (.bail "protocol::request::decode_target: truncated IPv4 target")
      else do
        let address := BitVec.ofNat 32 (ofBe ((input.drop 1).take 4))
        let port := UInt16.ofNat (ofBe ((input.drop 5).take 2))
        return (← Target.newIp (.v4 address port), targetIpv4Len)
    else if addressType = targetAtypIpv6 then
      if input.length < targetIpv6Len then
        .error (.bail "protocol::request::decode_target: truncated IPv6 target")
      else do
        let address := BitVec.ofNat 128 (ofBe ((input.drop 1).take 16))
        let port := UInt16.ofNat (ofBe ((input.drop 17).take 2))
        return (← Target.newIp (.v6 address port 0 0), targetIpv6Len)
    else if addressType = targetAtypDomain then
      match input[1]? with
      | none => .error (.bail "protocol::request::decode_target: missing domain length")
      | some domainLen =>
        if input.length < 2 + domainLen.toNat then
          .error (.bail "protocol::request::decode_target: truncated domain")
        else do
          let host := (input.drop 2).take domainLen.toNat
          validateDomainBytes host "protocol::request::decode_target"
          let encodedLen := 1 + 1 + domainLen.toNat + 2
          if input.length < encodedLen then
            .error (.bail "protocol::request::decode_target: truncated domain port")
          else
            -- the host is ASCII here, so the conversion to a string succeeds
            let port := UInt16.ofNat (ofBe ((input.drop (encodedLen - 2)).take 2))
            return (← Target.newDomain host port, encodedLen)
    else .error (.bail s!"protocol::request::decode_target: unknown address type: {addressType}")

/-! ## Reading from a stream -/

section Reading

variable {σ : Type}

/-- The branches of `read_request` for IP addresses: reads the rest of an encoding of fixed
length and decodes the whole. -/
def readFixedTarget (reader : Input σ) (addressType : UInt8) (encodedLen : Nat)
    (eof : String) : StateT σ Result Target := do
  let tail ← reader.readExact (.bail eof) (encodedLen - 1)
  let encoded ← writeAt (List.replicate encodedLen 0) 0 addressType
  let encoded ← copyFromSlice encoded 1 encodedLen tail
  let decoded ← decodeTarget encoded
  return decoded.1

/-- The branch of `read_request` for domains. -/
def readDomainTarget (reader : Input σ) : StateT σ Result Target := do
  let length ← reader.readExact
    (.bail "protocol::request::read_request: failed to read domain length") 1
  let domainLen := (length.getD 0 0).toNat
  if domainLen = 0 ∨ domainLen > domainLenMax then
    throw (.bail s!"protocol::request::read_request: invalid domain length: {domainLen}")
  else
    let encoded ← writeAt (List.replicate targetMaxEncodedLen 0) 0 targetAtypDomain
    let encoded ← writeAt encoded 1 (length.getD 0 0)
    let encodedLen := 1 + 1 + domainLen + 2
    -- the part of the buffer that the host and the port are read into
    let hole ← slice encoded 2 encodedLen
    let tail ← reader.readExact
      (.bail "protocol::request::read_request: failed to read domain target") hole.length
    let encoded ← copyFromSlice encoded 2 encodedLen tail
    let encoded ← slice encoded 0 encodedLen
    let decoded ← decodeTarget encoded
    return decoded.1

def readRequest (reader : Input σ) : StateT σ Result Target := do
  let bytes ← reader.readExact
    (.bail "protocol::request::read_request: failed to read address type") 1
  let addressType := bytes.getD 0 0
  if addressType = targetAtypIpv4 then
    readFixedTarget reader targetAtypIpv4 targetIpv4Len
      "protocol::request::read_request: failed to read IPv4 target"
  else if addressType = targetAtypIpv6 then
    readFixedTarget reader targetAtypIpv6 targetIpv6Len
      "protocol::request::read_request: failed to read IPv6 target"
  else if addressType = targetAtypDomain then readDomainTarget reader
  else throw (.bail s!"protocol::request::read_request: unknown address type: {addressType}")

end Reading

/-! ## What is valid -/

theorem forM_eq_ok {α : Type} {f : α → Result Unit} {xs : List α} :
    forM xs f = .ok () ↔ ∀ x ∈ xs, f x = .ok () := by
  induction xs with
  | nil => simp [pure, Except.pure]
  | cons x xs ih => simp [check_bind_eq_ok, ih]

def ValidLabel (label : List UInt8) : Prop :=
  label ≠ [] ∧ label.length ≤ 63 ∧ label.head? ≠ some 45 ∧ label.getLast? ≠ some 45 ∧
    ∀ byte ∈ label, isAsciiAlphanumeric byte ∨ byte = 45

def ValidDomain (domain : List UInt8) : Prop :=
  domain ≠ [] ∧ domain.length ≤ domainLenMax ∧ (∀ byte ∈ domain, byte < 128) ∧
    ∀ label ∈ domain.splitOn 46, ValidLabel label

variable {port : UInt16} {i j : Nat} {output : List UInt8} {target : Target} {host : List UInt8}

theorem validatePort_ok (context : String) :
    validatePort port context = .ok () ↔ port ≠ 0 := by
  simp [validatePort]

theorem validateLabel_ok {label : List UInt8} (context : String) :
    validateLabel context label = .ok () ↔ ValidLabel label := by
  simp only [validateLabel, ValidLabel, bail_else_eq_ok, not_or, not_not, List.all_eq_true,
    Bool.or_eq_true, beq_iff_eq, Nat.not_lt, and_true, and_assoc, gt_iff_lt, ne_eq]

theorem validateDomainBytes_ok {domain : List UInt8} (context : String) :
    validateDomainBytes domain context = .ok () ↔ ValidDomain domain := by
  simp only [validateDomainBytes, ValidDomain, bail_else_eq_ok, not_or, not_not,
    List.all_eq_true, decide_eq_true_eq, Nat.not_lt, and_assoc, gt_iff_lt, ne_eq,
    List.forM_eq_forM, forM_eq_ok, validateLabel_ok]

namespace Target

theorem valid_ip {address : SocketAddr} : Valid (.ip address) ↔ address.port ≠ 0 := by
  simp [Valid, newIp, newDomain, check_bind_eq_ok, validatePort_ok, pure, Except.pure]

theorem valid_domain :
    Valid (.domain host port) ↔ ValidDomain host ∧ port ≠ 0 := by
  simp [Valid, newIp, newDomain, check_bind_eq_ok, validatePort_ok, validateDomainBytes_ok, pure,
    Except.pure]

/-! ## What is on the wire -/

/-- The encoding of a target. -/
def wire : Target → List UInt8
  | .ip (.v4 octets port) => targetAtypIpv4 :: (toBe 4 octets.toNat ++ toBe 2 port.toNat)
  | .ip (.v6 octets port _ _) => targetAtypIpv6 :: (toBe 16 octets.toNat ++ toBe 2 port.toNat)
  | .domain host port =>
    targetAtypDomain :: UInt8.ofNat host.length :: (host ++ toBe 2 port.toNat)

variable {target : Target}

theorem encodedLen_eq (h : target.Valid) :
    target.encodedLen = .ok target.wire.length := by
  match target with
  | .ip (.v4 octets port) =>
    have hport := (validatePort_ok "protocol::request::Target::encoded_len").mpr (valid_ip.mp h)
    rw [encodedLen, hport]
    simp [wire, targetIpv4Len, bind, Except.bind, pure, Except.pure]
  | .ip (.v6 octets port _ _) =>
    have hport := (validatePort_ok "protocol::request::Target::encoded_len").mpr (valid_ip.mp h)
    rw [encodedLen, hport]
    simp [wire, targetIpv6Len, bind, Except.bind, pure, Except.pure]
  | .domain host port =>
    obtain ⟨hhost, hport⟩ := valid_domain.mp h
    rw [encodedLen, (validateDomainBytes_ok _).mpr hhost, (validatePort_ok _).mpr hport]
    simp [wire, bind, Except.bind, pure, Except.pure]
    omega

theorem length_wire_le (h : target.Valid) :
    target.wire.length ≤ targetMaxEncodedLen := by
  match target with
  | .ip (.v4 octets port) => simp [wire, targetMaxEncodedLen, domainLenMax]
  | .ip (.v6 octets port _ _) => simp [wire, targetMaxEncodedLen, domainLenMax]
  | .domain host port =>
    have hlen := (valid_domain.mp h).1.2.1
    simp only [wire, targetMaxEncodedLen, List.length_cons, List.length_append, length_toBe]
    omega

end Target

/-- The writes for an address of fixed length. -/
theorem writeIp {address port : List UInt8} (addressType : UInt8) (hi : 1 + address.length = i)
    (hj : i + port.length = j) (hroom : j ≤ output.length) :
    (writeAt output 0 addressType >>= fun output =>
      copyFromSlice output 1 i address >>= fun output => copyFromSlice output i j port) =
      .ok ((addressType :: (address ++ port)) ++ output.drop j) := by
  have htype : writeAt output 0 addressType = .ok ([addressType] ++ output.drop 1) :=
    @writeAt_room [] output 0 addressType rfl (by omega)
  have hfits : address.length + port.length ≤ (output.drop 1).length := by
    rw [List.length_drop]
    omega
  rw [htype]
  show (copyFromSlice ([addressType] ++ output.drop 1) 1 i address >>= fun output =>
    copyFromSlice output i j port) = _
  refine (copyFromSlice_pair (i := 1) rfl hi hj hfits).trans ?_
  rw [List.drop_drop, ← Nat.add_assoc, hi, hj]
  rfl

/-- The writes for a domain. -/
theorem writeDomain {port : List UInt8} (addressType length : UInt8) (hi : 2 + host.length = i)
    (hj : i + port.length = j) (hroom : j ≤ output.length) :
    (writeAt output 0 addressType >>= fun output => writeAt output 1 length >>= fun output =>
      copyFromSlice output 2 i host >>= fun output => copyFromSlice output i j port) =
      .ok ((addressType :: length :: (host ++ port)) ++ output.drop j) := by
  have htype : writeAt output 0 addressType = .ok ([addressType] ++ output.drop 1) :=
    @writeAt_room [] output 0 addressType rfl (by omega)
  have hlength : writeAt ([addressType] ++ output.drop 1) 1 length =
      .ok ([addressType, length] ++ (output.drop 1).drop 1) :=
    writeAt_room length rfl (by rw [List.length_drop]; omega)
  have hfits : host.length + port.length ≤ ((output.drop 1).drop 1).length := by
    rw [List.length_drop, List.length_drop]
    omega
  rw [htype]
  show (writeAt ([addressType] ++ output.drop 1) 1 length >>= fun output =>
    copyFromSlice output 2 i host >>= fun output => copyFromSlice output i j port) = _
  rw [hlength]
  show (copyFromSlice ([addressType, length] ++ (output.drop 1).drop 1) 2 i host >>=
    fun output => copyFromSlice output i j port) = _
  refine (copyFromSlice_pair (i := 2) rfl hi hj hfits).trans ?_
  rw [List.drop_drop, List.drop_drop, ← Nat.add_assoc, ← Nat.add_assoc, hi, hj]
  rfl

theorem fillTarget_eq (target : Target) (hroom : target.wire.length ≤ output.length) :
    fillTarget target.wire.length output target =
      .ok (target.wire ++ output.drop target.wire.length) := by
  match target with
  | .ip (.v4 octets port) =>
    have hlen : (Target.ip (.v4 octets port)).wire.length = 7 := by simp [Target.wire]
    rw [hlen] at hroom ⊢
    exact writeIp targetAtypIpv4 (by simp) (by simp) hroom
  | .ip (.v6 octets port flowinfo scopeId) =>
    have hlen : (Target.ip (.v6 octets port flowinfo scopeId)).wire.length = 19 := by
      simp [Target.wire]
    rw [hlen] at hroom ⊢
    exact writeIp targetAtypIpv6 (by simp) (by simp) hroom
  | .domain host port =>
    have hlen : (Target.domain host port).wire.length = 2 + host.length + 2 := by
      simp [Target.wire]
      omega
    rw [hlen] at hroom ⊢
    exact writeDomain targetAtypDomain (UInt8.ofNat host.length) rfl (by simp) hroom

/-- A valid target goes into every buffer that is long enough, and what is behind it stays. -/
theorem encodeTargetInto_eq (h : target.Valid) (hroom : target.wire.length ≤ output.length) :
    encodeTargetInto target output =
      .ok (target.wire.length, target.wire ++ output.drop target.wire.length) := by
  have hshort : ¬ output.length < target.wire.length := Nat.not_lt.mpr hroom
  rw [encodeTargetInto, Target.encodedLen_eq h]
  simp only [bind, Except.bind, hshort, if_false, fillTarget_eq target hroom]
  rfl

/-! ## Reading back -/

theorem newIp_of_valid {address : SocketAddr} (h : (Target.ip address).Valid) :
    Target.newIp address = .ok (.ip address) :=
  check_bind_eq_ok.mpr ⟨(validatePort_ok _).mpr (Target.valid_ip.mp h), rfl⟩

theorem newDomain_of_valid (h : (Target.domain host port).Valid) :
    Target.newDomain host port = .ok (.domain host port) := by
  obtain ⟨hhost, hport⟩ := Target.valid_domain.mp h
  exact check_bind_eq_ok.mpr ⟨(validateDomainBytes_ok _).mpr hhost,
    check_bind_eq_ok.mpr ⟨(validatePort_ok _).mpr hport, rfl⟩⟩

theorem toNat_ofNat_length (h : ValidDomain host) :
    host.length = (UInt8.ofNat host.length).toNat := by
  have hlen : host.length ≤ 253 := h.2.1
  rw [UInt8.toNat_ofNat', Nat.mod_eq_of_lt (by omega)]

section Decoding

variable {address port : List UInt8}

/-- What the decoder does with an IPv4 address. -/
theorem decodeTarget_ipv4 (haddress : address.length = 4) (hport : port.length = 2)
    (rest : List UInt8) :
    decodeTarget ((targetAtypIpv4 :: (address ++ port)) ++ rest) = (do
      let target ← Target.newIp (.v4 (BitVec.ofNat 32 (ofBe address)) (UInt16.ofNat (ofBe port)))
      return (target, targetIpv4Len)) := by
  have hlong : ¬ ((targetAtypIpv4 :: (address ++ port)) ++ rest).length < targetIpv4Len := by
    simp only [List.length_append, List.length_cons, haddress, hport, targetIpv4Len]
    omega
  have htake : (((targetAtypIpv4 :: (address ++ port)) ++ rest).drop 1).take 4 = address := by
    simp [haddress]
  have htake' : (((targetAtypIpv4 :: (address ++ port)) ++ rest).drop 5).take 2 = port := by
    simp [haddress, hport]
  rw [decodeTarget]
  simp only [List.cons_append, List.head?_cons, if_true] at hlong htake htake' ⊢
  simp only [hlong, if_false, htake, htake']

/-- What the decoder does with an IPv6 address. -/
theorem decodeTarget_ipv6 (haddress : address.length = 16) (hport : port.length = 2)
    (rest : List UInt8) :
    decodeTarget ((targetAtypIpv6 :: (address ++ port)) ++ rest) = (do
      let target ← Target.newIp
        (.v6 (BitVec.ofNat 128 (ofBe address)) (UInt16.ofNat (ofBe port)) 0 0)
      return (target, targetIpv6Len)) := by
  have htype : targetAtypIpv6 ≠ targetAtypIpv4 := by decide
  have hlong : ¬ ((targetAtypIpv6 :: (address ++ port)) ++ rest).length < targetIpv6Len := by
    simp only [List.length_append, List.length_cons, haddress, hport, targetIpv6Len]
    omega
  have htake : (((targetAtypIpv6 :: (address ++ port)) ++ rest).drop 1).take 16 = address := by
    simp [haddress]
  have htake' : (((targetAtypIpv6 :: (address ++ port)) ++ rest).drop 17).take 2 = port := by
    simp [haddress, hport]
  rw [decodeTarget]
  simp only [List.cons_append, List.head?_cons, htype, if_true, if_false] at hlong htake htake' ⊢
  simp only [hlong, if_false, htake, htake']

/-- What the decoder does with a domain. -/
theorem decodeTarget_domain {length : UInt8} (hhost : host.length = length.toNat)
    (hport : port.length = 2) (rest : List UInt8) :
    decodeTarget ((targetAtypDomain :: length :: (host ++ port)) ++ rest) = (do
      validateDomainBytes host "protocol::request::decode_target"
      let target ← Target.newDomain host (UInt16.ofNat (ofBe port))
      return (target, 1 + 1 + length.toNat + 2)) := by
  have htype : targetAtypDomain ≠ targetAtypIpv4 := by decide
  have htype' : targetAtypDomain ≠ targetAtypIpv6 := by decide
  have hlong : ¬ ((targetAtypDomain :: length :: (host ++ port)) ++ rest).length <
      2 + length.toNat := by
    simp [hhost]
    omega
  have hlong' : ¬ ((targetAtypDomain :: length :: (host ++ port)) ++ rest).length <
      1 + 1 + length.toNat + 2 := by
    simp [hhost, hport]
    omega
  have htake : (((targetAtypDomain :: length :: (host ++ port)) ++ rest).drop 2).take
      length.toNat = host := by
    simp [hhost]
  have htake' : (((targetAtypDomain :: length :: (host ++ port)) ++ rest).drop
      (1 + 1 + length.toNat + 2 - 2)).take 2 = port := by
    have hsplit : (targetAtypDomain :: length :: (host ++ port)) ++ rest =
        (targetAtypDomain :: length :: host) ++ (port ++ rest) := by simp
    have hfront : (targetAtypDomain :: length :: host).length = 1 + 1 + length.toNat + 2 - 2 := by
      rw [List.length_cons, List.length_cons, hhost]
      omega
    rw [hsplit]
    exact take_drop_field hfront hport
  rw [decodeTarget]
  simp only [List.cons_append, List.head?_cons, htype, htype', if_true, if_false,
    List.getElem?_cons_succ, List.getElem?_cons_zero] at hlong hlong' htake htake' ⊢
  simp only [hlong, hlong', if_false, htake, htake']

end Decoding

/-- A valid target is read back from its encoding, whatever follows. -/
theorem decodeTarget_wire (h : target.Valid) (hscope : target.Unscoped) (rest : List UInt8) :
    decodeTarget (target.wire ++ rest) = .ok (target, target.wire.length) := by
  match target, h, hscope with
  | .ip (.v4 octets port), h, _ =>
    have hoctets : BitVec.ofNat 32 (ofBe (toBe 4 octets.toNat)) = octets := @bitVec_toBe 4 octets
    refine (decodeTarget_ipv4 (length_toBe _ _) (length_toBe _ _) rest).trans ?_
    rw [hoctets, uint16_toBe, newIp_of_valid h]
    simp [Target.wire, targetIpv4Len, bind, Except.bind, pure, Except.pure]
  | .ip (.v6 octets port flowinfo scopeId), h, hscope =>
    have hoctets : BitVec.ofNat 128 (ofBe (toBe 16 octets.toNat)) = octets := @bitVec_toBe 16 octets
    obtain ⟨rfl, rfl⟩ := hscope
    refine (decodeTarget_ipv6 (length_toBe _ _) (length_toBe _ _) rest).trans ?_
    rw [hoctets, uint16_toBe, newIp_of_valid h]
    simp [Target.wire, targetIpv6Len, bind, Except.bind, pure, Except.pure]
  | .domain host port, h, _ =>
    have hhost := (Target.valid_domain.mp h).1
    have hlength := toNat_ofNat_length hhost
    refine (decodeTarget_domain hlength (length_toBe _ _) rest).trans ?_
    rw [(validateDomainBytes_ok _).mpr hhost, uint16_toBe, newDomain_of_valid h, ← hlength]
    simp [Target.wire, bind, Except.bind, pure, Except.pure]
    omega

/-! ## Reading from a stream -/

section Streams

variable {σ : Type} {reader : Input σ}

/-- The buffer of an encoding of fixed length. -/
theorem fixedBuffer (addressType : UInt8) (tail : List UInt8) :
    ∃ buffer, writeAt (List.replicate (tail.length + 1) 0) 0 addressType = .ok buffer ∧
      copyFromSlice buffer 1 (tail.length + 1) tail = .ok (addressType :: tail) := by
  refine ⟨[addressType] ++ List.replicate tail.length 0, ?_, ?_⟩
  · exact @writeAt_room [] (List.replicate (tail.length + 1) 0) 0 addressType rfl (by simp)
  · refine (copyFromSlice_room (rfl : [addressType].length = 1) (Nat.add_comm _ _)
      (by simp)).trans ?_
    simp

variable {length : UInt8} {tail : List UInt8} {target : Target}

/-- The buffer that a domain is read into; 257 bytes are enough for the longest one. -/
theorem domainBuffer (hmax : length.toNat ≤ domainLenMax) :
    ∃ buffer buffer' hole,
      writeAt (List.replicate targetMaxEncodedLen 0) 0 targetAtypDomain = .ok buffer ∧
      writeAt buffer 1 length = .ok buffer' ∧
      slice buffer' 2 (1 + 1 + length.toNat + 2) = .ok hole ∧ hole.length = length.toNat + 2 ∧
      ∀ tail : List UInt8, tail.length = length.toNat + 2 →
        ∃ filled, copyFromSlice buffer' 2 (1 + 1 + length.toNat + 2) tail = .ok filled ∧
          slice filled 0 (1 + 1 + length.toNat + 2) =
            .ok (targetAtypDomain :: length :: tail) := by
  have hfits : length.toNat ≤ 253 := hmax
  have hroom : (List.replicate targetMaxEncodedLen (0 : UInt8)).length = 257 :=
    List.length_replicate
  generalize List.replicate targetMaxEncodedLen (0 : UInt8) = room at hroom ⊢
  have hwrite : writeAt room 0 targetAtypDomain = .ok ([targetAtypDomain] ++ room.drop 1) :=
    @writeAt_room [] room 0 targetAtypDomain rfl (by omega)
  have hwrite' : writeAt ([targetAtypDomain] ++ room.drop 1) 1 length =
      .ok ([targetAtypDomain, length] ++ (room.drop 1).drop 1) :=
    writeAt_room length rfl (by rw [List.length_drop]; omega)
  rw [List.drop_drop] at hwrite'
  obtain ⟨hole, hslice, hhole⟩ : ∃ hole, slice ([targetAtypDomain, length] ++ room.drop 2) 2
      (1 + 1 + length.toNat + 2) = .ok hole ∧ hole.length = 1 + 1 + length.toNat + 2 - 2 :=
    exists_slice (by omega) (by simp; omega)
  refine ⟨_, _, hole, hwrite, hwrite', hslice, by omega, fun tail htail => ?_⟩
  refine ⟨([targetAtypDomain, length] ++ tail) ++ (room.drop 2).drop tail.length, ?_, ?_⟩
  · exact copyFromSlice_room rfl (by omega) (by rw [List.length_drop]; omega)
  · exact slice_done (by simp; omega)

/-- The rest of a fixed encoding is read as the target that the whole encodes. -/
theorem parses_readFixedTarget {addressType : UInt8} {encodedLen : Nat} (eof : String)
    (hlen : tail.length + 1 = encodedLen)
    (hdecode : decodeTarget (addressType :: tail) = .ok (target, encodedLen)) :
    reader.Parses (readFixedTarget reader addressType encodedLen eof) tail target := by
  subst hlen
  obtain ⟨buffer, hwrite, hcopy⟩ := fixedBuffer addressType tail
  have hread := reader.parses_readExact (Failure.bail eof)
    (Nat.add_sub_cancel tail.length 1).symm
  exact hread.bind_nil (Input.Parses.after_lift hwrite (Input.Parses.after_lift hcopy
    (Input.Parses.after_lift hdecode (Input.parses_pure target))))

/-- The rest of the encoding of a domain is read as the target that the whole encodes. -/
theorem parses_readDomainTarget {length : UInt8} {tail : List UInt8} {target : Target}
    (hpos : length.toNat ≠ 0) (hmax : length.toNat ≤ domainLenMax)
    (htail : tail.length = length.toNat + 2)
    (hdecode : decodeTarget (targetAtypDomain :: length :: tail) =
      .ok (target, 1 + 1 + length.toNat + 2)) :
    reader.Parses (readDomainTarget reader) (length :: tail) target := by
  have hread := reader.parses_readExact
    (Failure.bail "protocol::request::read_request: failed to read domain length")
    (rfl : [length].length = 1)
  have hguard : ¬ (length.toNat = 0 ∨ length.toNat > domainLenMax) := by omega
  obtain ⟨buffer, buffer', hole, hwrite, hwrite', hslice, hhole, hfill⟩ := domainBuffer hmax
  obtain ⟨filled, hcopy, hslice'⟩ := hfill tail htail
  have hread' := reader.parses_readExact
    (Failure.bail "protocol::request::read_request: failed to read domain target")
    (htail.trans hhole.symm)
  refine hread.bind ?_
  simp only [show [length].getD 0 0 = length from rfl, hguard, if_false]
  exact Input.Parses.after_lift hwrite (Input.Parses.after_lift hwrite'
    (Input.Parses.after_lift hslice (hread'.bind_nil (Input.Parses.after_lift hcopy
      (Input.Parses.after_lift hslice' (Input.Parses.after_lift hdecode
        (Input.parses_pure target)))))))

/-- A valid target is read back from a stream, and nothing behind it is touched. -/
theorem parses_readRequest (h : target.Valid) (hscope : target.Unscoped) :
    reader.Parses (readRequest reader) target.wire target := by
  have hdecode := decodeTarget_wire h hscope []
  rw [List.append_nil] at hdecode
  have htype (addressType : UInt8) := reader.parses_readExact
    (Failure.bail "protocol::request::read_request: failed to read address type")
    (rfl : [addressType].length = 1)
  have hget (addressType : UInt8) : [addressType].getD 0 0 = addressType := rfl
  match target, h with
  | .ip (.v4 octets port), _ =>
    have hlen : (Target.ip (.v4 octets port)).wire.length = targetIpv4Len := by
      simp [Target.wire, targetIpv4Len]
    refine (htype targetAtypIpv4).bind ?_
    simp only [hget, if_true]
    exact parses_readFixedTarget _ hlen (hlen ▸ hdecode)
  | .ip (.v6 octets port flowinfo scopeId), _ =>
    have hlen : (Target.ip (.v6 octets port flowinfo scopeId)).wire.length = targetIpv6Len := by
      simp [Target.wire, targetIpv6Len]
    have hipv4 : targetAtypIpv6 ≠ targetAtypIpv4 := by decide
    refine (htype targetAtypIpv6).bind ?_
    simp only [hget, hipv4, if_true, if_false]
    exact parses_readFixedTarget _ hlen (hlen ▸ hdecode)
  | .domain host port, h =>
    have hhost := (Target.valid_domain.mp h).1
    have hlength := toNat_ofNat_length hhost
    have hlen : (Target.domain host port).wire.length =
        1 + 1 + (UInt8.ofNat host.length).toNat + 2 := by
      rw [← hlength]
      simp [Target.wire]
      omega
    have hipv4 : targetAtypDomain ≠ targetAtypIpv4 := by decide
    have hipv6 : targetAtypDomain ≠ targetAtypIpv6 := by decide
    have hpos : host.length ≠ 0 := fun hnil => hhost.1 (List.length_eq_zero_iff.mp hnil)
    refine (htype targetAtypDomain).bind ?_
    simp only [hget, hipv4, hipv6, if_true, if_false]
    exact parses_readDomainTarget (hlength ▸ hpos) (hlength ▸ hhost.2.1)
      (by rw [List.length_append, length_toBe, ← hlength]) (hlen ▸ hdecode)

end Streams

end Nowhere.Protocol
