import Nowhere.Lib.Bytes
import Nowhere.Lib.ByteStream
import Nowhere.Protocol.Buffer

/-!
# SOCKS5 addresses and UDP packets

The address codec of `src/common/socks/protocol.rs` and the UDP relay header around it: the encoder,
the decoder of a slice, the reader from a stream, and the function that only measures the header.
They were written apart, with offsets from the address type, from behind it, and from the start of
the packet; `decodeAddress_iff` says what they have in common. Host names are the bytes of the
source's `String`.
-/

namespace Nowhere.Common.Socks

open Protocol Bytes ByteStream

def addressIpv4 : UInt8 := 1
def addressDomain : UInt8 := 3
def addressIpv6 : UInt8 := 4

inductive SocksAddress
  | ip (address : SocketAddr)
  | domain (host : List UInt8) (port : UInt16)
  deriving DecidableEq, Repr

/-- `[u8]::is_ascii`. -/
def isAscii (bytes : List UInt8) : Bool := bytes.all fun byte => byte < 128

/-! ## Encoding -/

def encodeAddress (buffer : List UInt8) : SocksAddress → Result (List UInt8)
  | .ip (.v4 ip port) => .ok (buffer ++ addressIpv4 :: (toBe 4 ip.toNat ++ toBe 2 port.toNat))
  | .ip (.v6 ip port _ _) => .ok (buffer ++ addressIpv6 :: (toBe 16 ip.toNat ++ toBe 2 port.toNat))
  | .domain host port =>
    if host = [] ∨ host.length > 255 ∨ ¬ isAscii host then
      .error (.bail "common::socks::encode_address: invalid domain")
    else
      .ok (buffer ++ [addressDomain, UInt8.ofNat host.length] ++ host ++ toBe 2 port.toNat)

/-- Whatever the buffer held is cleared first. -/
def encodeUdpPacketInto (_packet : List UInt8) (address : SocksAddress) (payload : List UInt8) :
    Result (List UInt8) := do
  let packet ← encodeAddress [0, 0, 0] address
  return packet ++ payload

/-! ## Decoding -/

def decodeAddress (packet : List UInt8) (addressType : UInt8) : Result (SocksAddress × Nat) :=
  if addressType = addressIpv4 then
    if packet.length < 7 then
      .error (.bail "common::socks::decode_address: truncated IPv4 address")
    else
      .ok (.ip (.v4 (BitVec.ofNat 32 (ofBe ((packet.drop 1).take 4)))
        (UInt16.ofNat (ofBe ((packet.drop 5).take 2)))), 7)
  else if addressType = addressIpv6 then
    if packet.length < 19 then
      .error (.bail "common::socks::decode_address: truncated IPv6 address")
    else
      .ok (.ip (.v6 (BitVec.ofNat 128 (ofBe ((packet.drop 1).take 16)))
        (UInt16.ofNat (ofBe ((packet.drop 17).take 2))) 0 0), 19)
  else if addressType = addressDomain then
    match packet[1]? with
    | none => .error (.bail "common::socks::decode_address: truncated domain")
    | some length =>
      if length.toNat = 0 ∨ packet.length < 2 + length.toNat + 2 then
        .error (.bail "common::socks::decode_address: invalid domain length")
      else
        let host := (packet.drop 2).take length.toNat
        if ¬ isAscii host then
          .error (.bail "common::socks::decode_address: domain is not ASCII")
        else
          let portOffset := 2 + length.toNat
          .ok (.domain host (UInt16.ofNat (ofBe ((packet.drop portOffset).take 2))), portOffset + 2)
  else .error (.bail "common::socks::decode_address: address type is unsupported")

/-- The length of the header, and the fragment number. -/
def parseUdpHeader (packet : List UInt8) : Result (Nat × UInt8) :=
  if packet.length < 4 ∨ packet.getD 0 0 ≠ 0 ∨ packet.getD 1 0 ≠ 0 then
    .error (.bail "common::socks::parse_udp_header: invalid UDP relay header")
  else do
    let addressType := packet.getD 3 0
    let addressLen ← if addressType = addressIpv4 then pure (1 + 4 + 2)
      else if addressType = addressIpv6 then pure (1 + 16 + 2)
      else if addressType = addressDomain then match packet[4]? with
        | none => .error (.bail "common::socks::parse_udp_header: truncated domain")
        | some length => pure (1 + 1 + length.toNat + 2)
      else .error (.bail "common::socks::parse_udp_header: unsupported address type")
    let headerLen := 3 + addressLen
    if packet.length < headerLen then
      .error (.bail "common::socks::parse_udp_header: truncated UDP relay header")
    else return (headerLen, packet.getD 2 0)

/-- The address, the fragment number and the payload. -/
def decodeUdpPacket (packet : List UInt8) : Result (SocksAddress × UInt8 × List UInt8) :=
  if packet.length < 4 ∨ packet.getD 0 0 ≠ 0 ∨ packet.getD 1 0 ≠ 0 then
    .error (.bail "common::socks::decode_udp_packet: invalid reserved field")
  else do
    let (address, consumed) ← decodeAddress (packet.drop 3) (packet.getD 3 0)
    let payload ← slice packet (3 + consumed) packet.length
    return (address, packet.getD 2 0, payload)

/-! ## Reading from a stream -/

section Reading

variable {σ : Type}

/-- The error of `read_exact` at the end of the stream. -/
def earlyEof : Failure := .bail "early eof"

/-- The error of `read_u8` and `read_u16` at the end of the stream. -/
def unexpectedEof : Failure := .bail "unexpected end of file"

def readAddress (stream : Input σ) (addressType : UInt8) : StateT σ Result SocksAddress :=
  if addressType = addressIpv4 then do
    let value ← stream.readExact earlyEof 6
    return .ip (.v4 (BitVec.ofNat 32 (ofBe (value.take 4)))
      (UInt16.ofNat (ofBe ((value.drop 4).take 2))))
  else if addressType = addressIpv6 then do
    let value ← stream.readExact earlyEof 18
    return .ip (.v6 (BitVec.ofNat 128 (ofBe (value.take 16)))
      (UInt16.ofNat (ofBe ((value.drop 16).take 2))) 0 0)
  else if addressType = addressDomain then do
    let length := ((← stream.readExact unexpectedEof 1).getD 0 0).toNat
    if length = 0 then throw (.bail "common::socks::read_address: empty domain")
    else
      let host ← stream.readExact earlyEof length
      if ¬ isAscii host then throw (.bail "common::socks::read_address: domain is not ASCII")
      else
        let port ← stream.readExact unexpectedEof 2
        return .domain host (UInt16.ofNat (ofBe port))
  else throw (.bail "common::socks::read_address: address type is unsupported")

end Reading

/-! ## What is on the wire -/

namespace SocksAddress

/-- The addresses that `encode_address` accepts. -/
def Encodable : SocksAddress → Prop
  | .ip _ => True
  | .domain host _ => host ≠ [] ∧ host.length ≤ 255 ∧ isAscii host = true

/-- Flow information and scope of an IPv6 address have no place on the wire. -/
def Unscoped : SocksAddress → Prop
  | .ip (.v6 _ _ flowinfo scopeId) => flowinfo = 0 ∧ scopeId = 0
  | _ => True

def addressType : SocksAddress → UInt8
  | .ip (.v4 ..) => addressIpv4
  | .ip (.v6 ..) => addressIpv6
  | .domain .. => addressDomain

/-- What follows the address type. -/
def tail : SocksAddress → List UInt8
  | .ip (.v4 octets port) => toBe 4 octets.toNat ++ toBe 2 port.toNat
  | .ip (.v6 octets port _ _) => toBe 16 octets.toNat ++ toBe 2 port.toNat
  | .domain host port => UInt8.ofNat host.length :: (host ++ toBe 2 port.toNat)

end SocksAddress

open SocksAddress

variable {address : SocksAddress} {addressType : UInt8} {body : List UInt8}

theorem encodeAddress_iff {buffer output : List UInt8} :
    encodeAddress buffer address = .ok output ↔
      address.Encodable ∧ output = buffer ++ address.addressType :: address.tail := by
  match address with
  | .ip (.v4 octets port) =>
    simp [encodeAddress, SocksAddress.Encodable, addressType, tail, eq_comm]
  | .ip (.v6 octets port _ _) =>
    simp [encodeAddress, SocksAddress.Encodable, addressType, tail, eq_comm]
  | .domain host port =>
    have hwire : buffer ++ [addressDomain, UInt8.ofNat host.length] ++ host ++ toBe 2 port.toNat =
        buffer ++ addressDomain :: UInt8.ofNat host.length :: (host ++ toBe 2 port.toNat) := by simp
    simp only [encodeAddress, bail_else_eq_ok, SocksAddress.Encodable, addressType, tail, not_or,
      not_not, Nat.not_lt, gt_iff_lt, Except.ok.injEq, ne_eq, hwire]
    exact and_congr_right fun _ => eq_comm

/-- The address stands at the front of `body`, behind its type. -/
structure Begins (address : SocksAddress) (addressType : UInt8) (body : List UInt8) : Prop where
  encodable : address.Encodable
  unscoped : address.Unscoped
  type_eq : address.addressType = addressType
  front : address.tail <+: body

theorem Begins.append (h : Begins address addressType body) (rest : List UInt8) :
    Begins address addressType (body ++ rest) :=
  ⟨h.encodable, h.unscoped, h.type_eq, h.front.trans (List.prefix_append body rest)⟩

section Decoding

variable {first second : List UInt8}

theorem decodeAddress_ipv4 (hfirst : first.length = 4) (hsecond : second.length = 2)
    (rest : List UInt8) :
    decodeAddress (addressIpv4 :: (first ++ (second ++ rest))) addressIpv4 =
      .ok (.ip (.v4 (BitVec.ofNat 32 (ofBe first)) (UInt16.ofNat (ofBe second))), 7) := by
  have hlong : ¬ (addressIpv4 :: (first ++ (second ++ rest))).length < 7 := by
    simp only [List.length_cons, List.length_append]
    omega
  have hfirst' : ((addressIpv4 :: (first ++ (second ++ rest))).drop 1).take 4 = first := by
    simp [hfirst]
  have hsecond' : ((addressIpv4 :: (first ++ (second ++ rest))).drop 5).take 2 = second := by
    simp [hfirst, hsecond]
  rw [decodeAddress, if_pos rfl, if_neg hlong, hfirst', hsecond']

theorem decodeAddress_ipv6 (hfirst : first.length = 16) (hsecond : second.length = 2)
    (rest : List UInt8) :
    decodeAddress (addressIpv6 :: (first ++ (second ++ rest))) addressIpv6 =
      .ok (.ip (.v6 (BitVec.ofNat 128 (ofBe first)) (UInt16.ofNat (ofBe second)) 0 0), 19) := by
  have hipv4 : addressIpv6 ≠ addressIpv4 := by decide
  have hlong : ¬ (addressIpv6 :: (first ++ (second ++ rest))).length < 19 := by
    simp only [List.length_cons, List.length_append]
    omega
  have hfirst' : ((addressIpv6 :: (first ++ (second ++ rest))).drop 1).take 16 = first := by
    simp [hfirst]
  have hsecond' : ((addressIpv6 :: (first ++ (second ++ rest))).drop 17).take 2 = second := by
    simp [hfirst, hsecond]
  rw [decodeAddress, if_neg hipv4, if_pos rfl, if_neg hlong, hfirst', hsecond']

theorem decodeAddress_domain {length : UInt8} (hpos : length.toNat ≠ 0)
    (hfirst : first.length = length.toNat) (hsecond : second.length = 2) (rest : List UInt8) :
    decodeAddress (addressDomain :: length :: (first ++ (second ++ rest))) addressDomain =
      if ¬ isAscii first then .error (.bail "common::socks::decode_address: domain is not ASCII")
      else .ok (.domain first (UInt16.ofNat (ofBe second)), 2 + length.toNat + 2) := by
  have hipv4 : addressDomain ≠ addressIpv4 := by decide
  have hipv6 : addressDomain ≠ addressIpv6 := by decide
  have hlong : ¬ (length.toNat = 0 ∨
      (addressDomain :: length :: (first ++ (second ++ rest))).length < 2 + length.toNat + 2) := by
    simp only [List.length_cons, List.length_append]
    omega
  have hfirst' : ((addressDomain :: length :: (first ++ (second ++ rest))).drop 2).take
      length.toNat = first := by
    simp [← hfirst]
  have hsecond' : ((addressDomain :: length :: (first ++ (second ++ rest))).drop
      (2 + length.toNat)).take 2 = second := by
    have hsplit : addressDomain :: length :: (first ++ (second ++ rest)) =
        (addressDomain :: length :: first) ++ (second ++ rest) := by simp
    rw [hsplit]
    exact take_drop_field (by rw [List.length_cons, List.length_cons, hfirst]; omega) hsecond
  rw [decodeAddress, if_neg hipv4, if_neg hipv6, if_pos rfl]
  simp only [List.getElem?_cons_succ, List.getElem?_cons_zero]
  rw [if_neg hlong, hfirst', hsecond']

end Decoding

/-! ## What the decoder accepts -/

theorem decodeAddress_begins (h : Begins address addressType body) :
    decodeAddress (addressType :: body) addressType = .ok (address, address.tail.length + 1) := by
  obtain ⟨hencodable, hunscoped, rfl, rest, rfl⟩ := h
  match address, hencodable, hunscoped with
  | .ip (.v4 octets port), _, _ =>
    have hdecode := decodeAddress_ipv4 (length_toBe 4 octets.toNat) (length_toBe 2 port.toNat) rest
    have hoctets : BitVec.ofNat 32 (ofBe (toBe 4 octets.toNat)) = octets := @bitVec_toBe 4 octets
    rw [hoctets, uint16_toBe] at hdecode
    simpa only [tail, addressType, List.append_assoc, List.length_append, length_toBe] using hdecode
  | .ip (.v6 octets port flowinfo scopeId), _, hunscoped =>
    obtain ⟨rfl, rfl⟩ := hunscoped
    have hdecode := decodeAddress_ipv6 (length_toBe 16 octets.toNat) (length_toBe 2 port.toNat) rest
    have hoctets : BitVec.ofNat 128 (ofBe (toBe 16 octets.toNat)) = octets := @bitVec_toBe 16 octets
    rw [hoctets, uint16_toBe] at hdecode
    simpa only [tail, addressType, List.append_assoc, List.length_append, length_toBe] using hdecode
  | .domain host port, hencodable, _ =>
    obtain ⟨hne, hlength, hascii⟩ := hencodable
    have hlen : host.length = (UInt8.ofNat host.length).toNat :=
      (UInt8.toNat_ofNat_of_lt' (Nat.lt_succ_of_le hlength)).symm
    have hpos : (UInt8.ofNat host.length).toNat ≠ 0 := by
      rw [← hlen]
      exact fun hzero => hne (List.length_eq_zero_iff.mp hzero)
    have hdecode := decodeAddress_domain hpos hlen (length_toBe 2 port.toNat) rest
    rw [if_neg (not_not.mpr hascii), uint16_toBe, ← hlen] at hdecode
    have hcount : (SocksAddress.domain host port).tail.length + 1 = 2 + host.length + 2 := by
      simp only [tail, List.length_cons, List.length_append, length_toBe]
      omega
    rw [hcount, ← hdecode]
    simp [tail, addressType]

section Fields

variable {first second : List UInt8}

/-- The address with these fields is the front of what they are the front of. -/
theorem begins_ipv4 (hfirst : first.length = 4) (hsecond : second.length = 2) (rest : List UInt8) :
    Begins (.ip (.v4 (BitVec.ofNat 32 (ofBe first)) (UInt16.ofNat (ofBe second)))) addressIpv4
      (first ++ (second ++ rest)) := by
  refine ⟨trivial, trivial, rfl, rest, ?_⟩
  rw [tail, toBe_bitVec hfirst, toBe_uint16 hsecond, List.append_assoc]

theorem begins_ipv6 (hfirst : first.length = 16) (hsecond : second.length = 2)
    (rest : List UInt8) :
    Begins (.ip (.v6 (BitVec.ofNat 128 (ofBe first)) (UInt16.ofNat (ofBe second)) 0 0)) addressIpv6
      (first ++ (second ++ rest)) := by
  refine ⟨trivial, ⟨rfl, rfl⟩, rfl, rest, ?_⟩
  rw [tail, toBe_bitVec hfirst, toBe_uint16 hsecond, List.append_assoc]

theorem begins_domain {length : UInt8} (hpos : length.toNat ≠ 0)
    (hfirst : first.length = length.toNat) (hascii : isAscii first = true)
    (hsecond : second.length = 2) (rest : List UInt8) :
    Begins (.domain first (UInt16.ofNat (ofBe second))) addressDomain
      (length :: (first ++ (second ++ rest))) := by
  have hlt := length.toNat_lt
  refine ⟨⟨?_, by omega, hascii⟩, trivial, rfl, rest, ?_⟩
  · rintro rfl
    exact hpos hfirst.symm
  · rw [tail, hfirst, UInt8.ofNat_toNat, toBe_uint16 hsecond, List.cons_append, List.append_assoc]

end Fields

theorem exists_begins_ipv4 (hlong : 6 ≤ body.length) :
    ∃ address, Begins address addressIpv4 body := by
  obtain ⟨first, second, rest, rfl, hfirst, hsecond⟩ :=
    exists_fields (show 4 + 2 ≤ body.length from hlong)
  exact ⟨_, begins_ipv4 hfirst hsecond rest⟩

theorem exists_begins_ipv6 (hlong : 18 ≤ body.length) :
    ∃ address, Begins address addressIpv6 body := by
  obtain ⟨first, second, rest, rfl, hfirst, hsecond⟩ :=
    exists_fields (show 16 + 2 ≤ body.length from hlong)
  exact ⟨_, begins_ipv6 hfirst hsecond rest⟩

theorem exists_begins_domain {length : UInt8} (hpos : length.toNat ≠ 0)
    (hlong : length.toNat + 2 ≤ body.length) (hascii : isAscii (body.take length.toNat) = true) :
    ∃ address, Begins address addressDomain (length :: body) := by
  obtain ⟨first, second, rest, rfl, hfirst, hsecond⟩ := exists_fields hlong
  rw [List.take_left' hfirst] at hascii
  exact ⟨_, begins_domain hpos hfirst hascii hsecond rest⟩

/-- What the decoder accepts begins with an address. -/
theorem exists_begins {result : SocksAddress × Nat}
    (h : decodeAddress (addressType :: body) addressType = .ok result) :
    ∃ address, Begins address addressType body := by
  unfold decodeAddress at h
  split at h
  · rename_i htype
    subst htype
    obtain ⟨hshort, _⟩ := bail_else_eq_ok.mp h
    rw [List.length_cons] at hshort
    exact exists_begins_ipv4 (by omega)
  split at h
  · rename_i htype
    subst htype
    obtain ⟨hshort, _⟩ := bail_else_eq_ok.mp h
    rw [List.length_cons] at hshort
    exact exists_begins_ipv6 (by omega)
  split at h
  · rename_i htype
    subst htype
    cases body with
    | nil => cases h
    | cons length body =>
      simp only [List.getElem?_cons_succ, List.getElem?_cons_zero] at h
      obtain ⟨hlength, h⟩ := bail_else_eq_ok.mp h
      obtain ⟨hascii, _⟩ := bail_else_eq_ok.mp h
      rw [List.length_cons, List.length_cons] at hlength
      exact exists_begins_domain (by omega) (by omega) (not_not.mp hascii)
  · cases h

/-- The decoder returns the address at the front, and nothing else is accepted. -/
theorem decodeAddress_iff {n : Nat} :
    decodeAddress (addressType :: body) addressType = .ok (address, n) ↔
      Begins address addressType body ∧ n = address.tail.length + 1 := by
  constructor
  · intro h
    obtain ⟨address', hbegins⟩ := exists_begins h
    cases h.symm.trans (decodeAddress_begins hbegins)
    exact ⟨hbegins, rfl⟩
  · rintro ⟨hbegins, rfl⟩
    exact decodeAddress_begins hbegins

/-! ## The reader -/

section Reader

variable {σ : Type} {stream : Input σ}

/-- An address is read back from a stream, and nothing behind it is touched. -/
theorem parses_readAddress (hencodable : address.Encodable) (hunscoped : address.Unscoped) :
    stream.Parses (readAddress stream address.addressType) address.tail address := by
  match address, hencodable, hunscoped with
  | .ip (.v4 octets port), _, _ =>
    have hoctets : BitVec.ofNat 32 (ofBe (toBe 4 octets.toNat)) = octets := @bitVec_toBe 4 octets
    have hread := stream.parses_readExact earlyEof (n := 6)
      (show (toBe 4 octets.toNat ++ toBe 2 port.toNat).length = 6 by simp)
    rw [readAddress, addressType, if_pos rfl]
    refine hread.bind_nil ?_
    rw [List.take_left' (length_toBe _ _), List.drop_left' (length_toBe _ _),
      List.take_of_length_le (Nat.le_of_eq (length_toBe _ _)), hoctets, uint16_toBe]
    exact Input.parses_pure _
  | .ip (.v6 octets port flowinfo scopeId), _, hunscoped =>
    obtain ⟨rfl, rfl⟩ := hunscoped
    have hipv4 : addressIpv6 ≠ addressIpv4 := by decide
    have hoctets : BitVec.ofNat 128 (ofBe (toBe 16 octets.toNat)) = octets :=
      @bitVec_toBe 16 octets
    have hread := stream.parses_readExact earlyEof (n := 18)
      (show (toBe 16 octets.toNat ++ toBe 2 port.toNat).length = 18 by simp)
    rw [readAddress, addressType, if_neg hipv4, if_pos rfl]
    refine hread.bind_nil ?_
    rw [List.take_left' (length_toBe _ _), List.drop_left' (length_toBe _ _),
      List.take_of_length_le (Nat.le_of_eq (length_toBe _ _)), hoctets, uint16_toBe]
    exact Input.parses_pure _
  | .domain host port, hencodable, _ =>
    obtain ⟨hne, hlength, hascii⟩ := hencodable
    have hipv4 : addressDomain ≠ addressIpv4 := by decide
    have hipv6 : addressDomain ≠ addressIpv6 := by decide
    have hlen : (UInt8.ofNat host.length).toNat = host.length :=
      UInt8.toNat_ofNat_of_lt' (Nat.lt_succ_of_le hlength)
    have hpos : host.length ≠ 0 := fun hzero => hne (List.length_eq_zero_iff.mp hzero)
    have hread := stream.parses_readExact unexpectedEof
      (show [UInt8.ofNat host.length].length = 1 by rfl)
    have hread' := stream.parses_readExact earlyEof (rfl : host.length = host.length)
    have hread'' := stream.parses_readExact unexpectedEof (length_toBe 2 port.toNat)
    rw [readAddress, addressType, if_neg hipv4, if_neg hipv6, if_pos rfl]
    refine hread.bind ?_
    rw [List.getD_cons_zero, hlen]
    simp only [if_neg hpos]
    refine hread'.bind ?_
    simp only [hascii, not_true, if_false]
    refine hread''.bind_nil ?_
    rw [uint16_toBe]
    exact Input.parses_pure _

/-- The reader has decoded exactly the bytes it has taken. -/
theorem accepts_readAddress (addressType : UInt8) :
    stream.Accepts (readAddress stream addressType)
      (fun front address => Begins address addressType front)
      fun e => ∃ message, e = .bail message := by
  unfold readAddress
  split
  · rename_i htype
    subst htype
    refine (Input.accepts_readExact ⟨_, rfl⟩ 6).bind ?_
    rintro value _ ⟨rfl, hlength⟩
    obtain ⟨first, second, rfl, hfirst⟩ := exists_append (show 4 ≤ value.length by omega)
    rw [List.length_append] at hlength
    rw [List.take_left' hfirst, List.drop_left' hfirst, List.take_of_length_le (by omega)]
    refine Input.accepts_pure ?_
    rw [List.append_assoc]
    exact begins_ipv4 hfirst (by omega) []
  split
  · rename_i htype
    subst htype
    refine (Input.accepts_readExact ⟨_, rfl⟩ 18).bind ?_
    rintro value _ ⟨rfl, hlength⟩
    obtain ⟨first, second, rfl, hfirst⟩ := exists_append (show 16 ≤ value.length by omega)
    rw [List.length_append] at hlength
    rw [List.take_left' hfirst, List.drop_left' hfirst, List.take_of_length_le (by omega)]
    refine Input.accepts_pure ?_
    rw [List.append_assoc]
    exact begins_ipv6 hfirst (by omega) []
  split
  · rename_i htype
    subst htype
    refine (Input.accepts_readExact ⟨_, rfl⟩ 1).bind ?_
    rintro bytes _ ⟨rfl, hone⟩
    obtain ⟨length, rfl⟩ := List.length_eq_one_iff.mp hone
    simp only [show [length].getD 0 0 = length from rfl]
    split
    · exact Input.accepts_throw ⟨_, rfl⟩
    · rename_i hpos
      refine (Input.accepts_readExact ⟨_, rfl⟩ length.toNat).bind ?_
      rintro host _ ⟨rfl, hhost⟩
      split
      · exact Input.accepts_throw ⟨_, rfl⟩
      · rename_i hascii
        refine (Input.accepts_readExact ⟨_, rfl⟩ 2).bind ?_
        rintro port _ ⟨rfl, hport⟩
        exact Input.accepts_pure (begins_domain hpos hhost (not_not.mp hascii) hport [])
  · exact Input.accepts_throw ⟨_, rfl⟩

theorem readAddress_iff (stream : Input σ) (s : σ) (addressType : UInt8) (address : SocksAddress)
    (k : Nat) :
    (∃ front s', readAddress stream addressType s = .ok (address, s') ∧
      stream.bytes s = front ++ stream.bytes s' ∧ front.length = k) ↔
      decodeAddress (addressType :: stream.bytes s) addressType = .ok (address, k + 1) := by
  have hcomplete : ∀ {address}, Begins address addressType (stream.bytes s) →
      ∃ s', readAddress stream addressType s = .ok (address, s') ∧
        stream.bytes s = address.tail ++ stream.bytes s' := by
    rintro address ⟨hencodable, hunscoped, rfl, rest, hrest⟩
    obtain ⟨s', hread, hs'⟩ := parses_readAddress hencodable hunscoped s rest hrest.symm
    exact ⟨s', hread, by rw [hs', hrest]⟩
  rw [decodeAddress_iff]
  constructor
  · rintro ⟨front, s', hread, hbytes, rfl⟩
    obtain ⟨taken, htaken, hbegins⟩ := (accepts_readAddress addressType).ok hread
    have hwhole := hbegins.append (stream.bytes s')
    rw [← htaken] at hwhole
    obtain ⟨s'', hread', hbytes'⟩ := hcomplete hwhole
    cases hread.symm.trans hread'
    rw [List.append_cancel_right (hbytes.symm.trans hbytes')]
    exact ⟨hwhole, rfl⟩
  · rintro ⟨hbegins, hk⟩
    obtain ⟨s', hread, hbytes⟩ := hcomplete hbegins
    exact ⟨address.tail, s', hread, hbytes, (Nat.succ.inj hk).symm⟩

end Reader

/-! ## UDP packets -/

/-- The bytes of the domain in a packet. -/
def packetHost (packet : List UInt8) : List UInt8 :=
  (packet.drop 5).take (packet.getD 4 0).toNat

/-- If the packet has a domain, it is one that `decode_address` accepts. -/
def HostOk (packet : List UInt8) : Prop :=
  packet.getD 3 0 = addressDomain → packetHost packet ≠ [] ∧ isAscii (packetHost packet) = true

section Packets

variable {packet body payload : List UInt8} {fragment fragment' addressType : UInt8} {n : Nat}

theorem exists_header
    (h : ¬ (packet.length < 4 ∨ packet.getD 0 0 ≠ 0 ∨ packet.getD 1 0 ≠ 0)) :
    ∃ fragment addressType body, packet = 0 :: 0 :: fragment :: addressType :: body := by
  match packet, h with
  | a :: b :: fragment :: addressType :: body, h =>
    simp only [List.getD_cons_zero, List.getD_cons_succ, not_or, not_not] at h
    obtain ⟨_, rfl, rfl⟩ := h
    exact ⟨fragment, addressType, body, rfl⟩
  | [], h | [_], h | [_, _], h | [_, _, _], h => exact absurd (.inl (by simp)) h

theorem header_ok (fragment addressType : UInt8) (body : List UInt8) :
    ¬ ((0 :: 0 :: fragment :: addressType :: body).length < 4 ∨
      (0 :: 0 :: fragment :: addressType :: body).getD 0 0 ≠ 0 ∨
      (0 :: 0 :: fragment :: addressType :: body).getD 1 0 ≠ 0) := by
  simp

/-- The check that all three kinds of header end with. -/
theorem truncated_eq_ok {length headerLen : Nat} {message : String} :
    (if length < headerLen then .error (.bail message) else pure (headerLen, fragment) :
      Result (Nat × UInt8)) = .ok (n, fragment') ↔
      fragment' = fragment ∧ headerLen ≤ length ∧ n = headerLen := by
  rw [bail_else_eq_ok, Nat.not_lt]
  simp only [pure, Except.pure, Except.ok.injEq, Prod.mk.injEq]
  constructor
  · rintro ⟨hlength, rfl, rfl⟩
    exact ⟨rfl, hlength, rfl⟩
  · rintro ⟨rfl, hlength, rfl⟩
    exact ⟨hlength, rfl, rfl⟩

theorem parseUdpHeader_ipv4 :
    parseUdpHeader (0 :: 0 :: fragment :: addressIpv4 :: body) = .ok (n, fragment') ↔
      fragment' = fragment ∧ 6 ≤ body.length ∧ n = 10 := by
  rw [parseUdpHeader, if_neg (header_ok _ _ _)]
  simp only [List.getD_cons_zero, List.getD_cons_succ, if_true, pure_bind, truncated_eq_ok,
    List.length_cons]
  exact and_congr_right fun _ => by omega

theorem parseUdpHeader_ipv6 :
    parseUdpHeader (0 :: 0 :: fragment :: addressIpv6 :: body) = .ok (n, fragment') ↔
      fragment' = fragment ∧ 18 ≤ body.length ∧ n = 22 := by
  have hipv4 : addressIpv6 ≠ addressIpv4 := by decide
  rw [parseUdpHeader, if_neg (header_ok _ _ _)]
  simp only [List.getD_cons_zero, List.getD_cons_succ, if_neg hipv4, if_true, pure_bind,
    truncated_eq_ok, List.length_cons]
  exact and_congr_right fun _ => by omega

variable {length : UInt8} {address : SocksAddress}

theorem parseUdpHeader_domain :
    parseUdpHeader (0 :: 0 :: fragment :: addressDomain :: length :: body) = .ok (n, fragment') ↔
      fragment' = fragment ∧ length.toNat + 2 ≤ body.length ∧ n = 7 + length.toNat := by
  have hipv4 : addressDomain ≠ addressIpv4 := by decide
  have hipv6 : addressDomain ≠ addressIpv6 := by decide
  rw [parseUdpHeader, if_neg (header_ok _ _ _)]
  simp only [List.getD_cons_zero, List.getD_cons_succ, if_neg hipv4, if_neg hipv6, if_true,
    List.getElem?_cons_succ, List.getElem?_cons_zero, pure_bind, truncated_eq_ok, List.length_cons]
  exact and_congr_right fun _ => by omega

theorem hostOk_domain :
    HostOk (0 :: 0 :: fragment :: addressDomain :: length :: body) ↔
      body.take length.toNat ≠ [] ∧ isAscii (body.take length.toNat) = true := by
  simp [HostOk, packetHost]

/-- The header is as long as the address at its end says. -/
theorem Begins.parseUdpHeader (h : Begins address addressType body) (fragment : UInt8) :
    parseUdpHeader (0 :: 0 :: fragment :: addressType :: body) =
      .ok (4 + address.tail.length, fragment) ∧
    HostOk (0 :: 0 :: fragment :: addressType :: body) := by
  obtain ⟨hencodable, _, rfl, rest, rfl⟩ := h
  match address, hencodable with
  | .ip (.v4 octets port), _ =>
    have hlong : 6 ≤ (tail (.ip (.v4 octets port)) ++ rest).length := by
      simp only [tail, List.length_append, length_toBe]
      omega
    have hipv4 : addressIpv4 ≠ addressDomain := by decide
    exact ⟨parseUdpHeader_ipv4.mpr ⟨rfl, hlong, by simp [tail]⟩, fun h => absurd h hipv4⟩
  | .ip (.v6 octets port _ _), _ =>
    have hlong : 18 ≤ (toBe 16 octets.toNat ++ toBe 2 port.toNat ++ rest).length := by
      simp only [List.length_append, length_toBe]
      omega
    have hipv6 : addressIpv6 ≠ addressDomain := by decide
    exact ⟨parseUdpHeader_ipv6.mpr ⟨rfl, hlong, by simp [tail]⟩, fun h => absurd h hipv6⟩
  | .domain host port, hencodable =>
    obtain ⟨hne, hlength, hascii⟩ := hencodable
    have hlen : (UInt8.ofNat host.length).toNat = host.length :=
      UInt8.toNat_ofNat_of_lt' (Nat.lt_succ_of_le hlength)
    rw [tail, addressType, List.cons_append, List.append_assoc]
    refine ⟨parseUdpHeader_domain.mpr ⟨rfl, ?_, ?_⟩, hostOk_domain.mpr ?_⟩
    · simp only [hlen, List.length_append, length_toBe]
      omega
    · simp only [hlen, List.length_cons, List.length_append, length_toBe]
      omega
    · rw [hlen, List.take_left]
      exact ⟨hne, hascii⟩

theorem exists_begins_of_parseUdpHeader
    (h : parseUdpHeader (0 :: 0 :: fragment :: addressType :: body) = .ok (n, fragment'))
    (hhost : HostOk (0 :: 0 :: fragment :: addressType :: body)) :
    ∃ address, Begins address addressType body := by
  by_cases hipv4 : addressType = addressIpv4
  · subst hipv4
    exact exists_begins_ipv4 (parseUdpHeader_ipv4.mp h).2.1
  by_cases hipv6 : addressType = addressIpv6
  · subst hipv6
    exact exists_begins_ipv6 (parseUdpHeader_ipv6.mp h).2.1
  by_cases hdomain : addressType = addressDomain
  · subst hdomain
    cases body with
    | nil => cases h
    | cons length body =>
      obtain ⟨hne, hascii⟩ := hostOk_domain.mp hhost
      refine exists_begins_domain ?_ (parseUdpHeader_domain.mp h).2.1 hascii
      intro hzero
      rw [hzero] at hne
      exact hne rfl
  · rw [parseUdpHeader, if_neg (header_ok _ _ _)] at h
    simp only [List.getD_cons_zero, List.getD_cons_succ, if_neg hipv4, if_neg hipv6,
      if_neg hdomain] at h
    cases h

/-- The packet decoder splits behind the address. -/
theorem decodeUdpPacket_iff :
    decodeUdpPacket (0 :: 0 :: fragment :: addressType :: body) =
        .ok (address, fragment', payload) ↔
      Begins address addressType body ∧ fragment' = fragment ∧
        payload = body.drop address.tail.length := by
  have hslice : Begins address addressType body →
      slice (0 :: 0 :: fragment :: addressType :: body) (3 + (address.tail.length + 1))
        (0 :: 0 :: fragment :: addressType :: body).length =
          .ok (body.drop address.tail.length) := by
    rintro ⟨_, _, _, rest, rfl⟩
    have hstart : (0 :: 0 :: fragment :: addressType :: address.tail).length =
        3 + (address.tail.length + 1) := by
      simp only [List.length_cons]
      omega
    rw [List.drop_left]
    exact slice_room hstart
  rw [decodeUdpPacket, if_neg (header_ok _ _ _)]
  constructor
  · intro h
    obtain ⟨⟨address', consumed⟩, hdecode, h⟩ := bind_eq_ok.mp h
    obtain ⟨hbegins, rfl⟩ := decodeAddress_iff.mp hdecode
    obtain ⟨payload', hpayload, h⟩ := bind_eq_ok.mp h
    cases h
    exact ⟨hbegins, rfl, Except.ok.inj (hpayload.symm.trans (hslice hbegins))⟩
  · rintro ⟨hbegins, rfl, rfl⟩
    refine bind_eq_ok.mpr ⟨_, decodeAddress_begins hbegins, ?_⟩
    exact bind_eq_ok.mpr ⟨_, hslice hbegins, rfl⟩

/-- Decoder and measuring function accept the same headers, up to the check of the domain. -/
theorem decodeUdpPacket_iff_parseUdpHeader :
    (∃ address, decodeUdpPacket packet = .ok (address, fragment, payload)) ↔
      ∃ headerLen, parseUdpHeader packet = .ok (headerLen, fragment) ∧ HostOk packet ∧
        payload = packet.drop headerLen := by
  by_cases hheader : packet.length < 4 ∨ packet.getD 0 0 ≠ 0 ∨ packet.getD 1 0 ≠ 0
  · rw [decodeUdpPacket, parseUdpHeader, if_pos hheader, if_pos hheader]
    constructor
    · rintro ⟨_, ⟨⟩⟩
    · rintro ⟨_, ⟨⟩, _⟩
  · obtain ⟨fragment', addressType, body, rfl⟩ := exists_header hheader
    simp only [decodeUdpPacket_iff]
    constructor
    · rintro ⟨address, hbegins, rfl, rfl⟩
      obtain ⟨hparse, hhost⟩ := hbegins.parseUdpHeader fragment
      refine ⟨_, hparse, hhost, ?_⟩
      rw [Nat.add_comm]
      rfl
    · rintro ⟨headerLen, hparse, hhost, rfl⟩
      obtain ⟨address, hbegins⟩ := exists_begins_of_parseUdpHeader hparse hhost
      cases hparse.symm.trans (hbegins.parseUdpHeader fragment').1
      refine ⟨address, hbegins, rfl, ?_⟩
      rw [Nat.add_comm]
      rfl

/-- What the encoder writes is read back. -/
theorem decodeUdpPacket_encodeUdpPacketInto {output : List UInt8}
    (hencode : encodeUdpPacketInto packet address payload = .ok output)
    (hunscoped : address.Unscoped) :
    decodeUdpPacket output = .ok (address, 0, payload) := by
  obtain ⟨header, hheader, houtput⟩ := bind_eq_ok.mp hencode
  obtain ⟨hencodable, rfl⟩ := encodeAddress_iff.mp hheader
  cases houtput
  refine decodeUdpPacket_iff.mpr ⟨?_, rfl, ?_⟩
  · exact ⟨hencodable, hunscoped, rfl, List.prefix_append _ _⟩
  · exact List.drop_left.symm

/-- A decoded address can be encoded again. -/
theorem wellFormed_of_decodeUdpPacket
    (h : decodeUdpPacket packet = .ok (address, fragment, payload)) :
    address.Encodable ∧ address.Unscoped := by
  by_cases hheader : packet.length < 4 ∨ packet.getD 0 0 ≠ 0 ∨ packet.getD 1 0 ≠ 0
  · rw [decodeUdpPacket, if_pos hheader] at h
    cases h
  · obtain ⟨fragment', addressType, body, rfl⟩ := exists_header hheader
    obtain ⟨hbegins, _⟩ := decodeUdpPacket_iff.mp h
    exact ⟨hbegins.encodable, hbegins.unscoped⟩

end Packets

/-- **The SOCKS5 address decoders agree.** The packet decoder accepts what the header parser
accepts, provided that a domain is nonempty ASCII, and cuts at the same place; the stream reader
returns the address that the slice decoder finds at the front of the same bytes, and takes as many;
and the packet decoder undoes the packet encoder. -/
theorem socks_decoders_agree :
    (∀ (packet payload : List UInt8) (fragment : UInt8),
      (∃ address, decodeUdpPacket packet = .ok (address, fragment, payload)) ↔
        ∃ headerLen, parseUdpHeader packet = .ok (headerLen, fragment) ∧
          (packet.getD 3 0 = addressDomain →
            packetHost packet ≠ [] ∧ isAscii (packetHost packet) = true) ∧
          payload = packet.drop headerLen) ∧
    (∀ (σ : Type) (stream : Input σ) (s : σ) (addressType : UInt8) (address : SocksAddress)
        (k : Nat),
      (∃ front s', readAddress stream addressType s = .ok (address, s') ∧
        stream.bytes s = front ++ stream.bytes s' ∧ front.length = k) ↔
        decodeAddress (addressType :: stream.bytes s) addressType = .ok (address, k + 1)) ∧
    ∀ (address : SocksAddress) (buffer payload : List UInt8), address.Unscoped →
      ∀ header, encodeAddress [] address = .ok header →
        ∃ output, encodeUdpPacketInto buffer address payload = .ok output ∧
          decodeUdpPacket output = .ok (address, 0, payload) := by
  refine ⟨fun _ _ _ => decodeUdpPacket_iff_parseUdpHeader, fun _ => readAddress_iff, ?_⟩
  intro address buffer payload hunscoped header hheader
  have hencode : encodeAddress [0, 0, 0] address = .ok _ :=
    encodeAddress_iff.mpr ⟨(encodeAddress_iff.mp hheader).1, rfl⟩
  have hpacket : encodeUdpPacketInto buffer address payload = .ok _ :=
    bind_eq_ok.mpr ⟨_, hencode, rfl⟩
  exact ⟨_, hpacket, decodeUdpPacket_encodeUdpPacketInto hpacket hunscoped⟩

end Nowhere.Common.Socks
