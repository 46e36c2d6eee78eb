import Nowhere.Lib.IpText
import Nowhere.Protocol.TargetCodec

/-!
# Targets as text

`Display` and `FromStr` of the targets of `src/protocol/request.rs`, with the text of socket
addresses as the standard library has it. `from_str` tries a socket address first. A domain may
consist of digits and dots, so one that reads as an IPv4 address comes back as an IP target; every
other target comes back as it was (`target_text_iff`).
-/

namespace Nowhere.Protocol

open Bytes Text IpText

/-! ## Socket addresses -/

def openBracket : UInt8 := 91
def closeBracket : UInt8 := 93

/-- A decimal port; the standard library allows leading zeros here. -/
def readPort (text : List UInt8) : Option UInt16 :=
  ((readNumeral 10 text).filter (· < 2 ^ 16)).map UInt16.ofNat

/-- The number after a percent sign inside the brackets. -/
def readScopeId (text : List UInt8) : Option UInt32 :=
  ((readNumeral 10 text).filter (· < 2 ^ 32)).map UInt32.ofNat

namespace SocketAddr

/-- `Display` of `SocketAddr`. -/
def display : SocketAddr → List UInt8
  | .v4 ip port => displayIpv4 ip ++ colon :: numeral 10 port.toNat
  | .v6 ip port _ scopeId =>
    let scope := if scopeId = 0 then [] else percent :: numeral 10 scopeId.toNat
    openBracket :: (displayIpv6 ip ++ scope) ++ closeBracket :: colon :: numeral 10 port.toNat

def readV4 (text : List UInt8) : Option SocketAddr := do
  let (quad, port) ← splitOnce colon text
  return .v4 (← readIpv4 quad) (← readPort port)

def readV6 (text : List UInt8) : Option SocketAddr :=
  match text with
  | byte :: text =>
    if byte ≠ openBracket then none
    else match splitOnce closeBracket text with
      | some (inside, next :: port) =>
        if next ≠ colon then none
        else match splitOnce percent inside with
          | none => do return .v6 (← readIpv6 inside) (← readPort port) 0 0
          | some (ip, scope) => do
            return .v6 (← readIpv6 ip) (← readPort port) 0 (← readScopeId scope)
      | _ => none
  | [] => none

/-- `FromStr` of `SocketAddr`. -/
def fromStr (text : List UInt8) : Option SocketAddr := readV4 text <|> readV6 text

end SocketAddr

/-! ## Targets -/

/-- `parse::<u16>`, which takes a sign and leading zeros. -/
def parseU16 (text : List UInt8) : Option UInt16 :=
  let digits := if text.head? = some 43 then text.tail else text
  ((readNumeral 10 digits).filter (· < 2 ^ 16)).map UInt16.ofNat

namespace Target

/-- `Display` of `Target`. -/
def display : Target → List UInt8
  | .ip address => address.display
  | .domain host port => host ++ colon :: numeral 10 port.toNat

/-- `FromStr` of `Target`. -/
def fromStr (value : List UInt8) : Result Target :=
  match SocketAddr.fromStr value with
  | some address => newIp address
  | none =>
    match rsplitOnce colon value with
    | none => .error (.bail "protocol::request::Target::from_str: missing port")
    | some (host, rawPort) =>
      if host.contains colon then
        .error (.bail "protocol::request::Target::from_str: IPv6 address must be bracketed")
      else match parseU16 rawPort with
        | none => .error (.bail "protocol::request::Target::from_str: invalid port")
        | some port => newDomain host port

end Target

/-! ## Socket addresses are read back -/

theorem readPort_numeral (port : UInt16) : readPort (numeral 10 port.toNat) = some port := by
  rw [readPort, readNumeral_numeral (by decide) (by decide), Option.filter_some,
    if_pos (decide_eq_true port.toNat_lt), Option.map_some, UInt16.ofNat_toNat]

theorem not_mem_port {byte : UInt8} (h : isHexDigit byte = false) (port : UInt16) :
    byte ∉ numeral 10 port.toNat :=
  not_mem_numeral (by decide) (by decide) h _

theorem parseU16_numeral (port : UInt16) : parseU16 (numeral 10 port.toNat) = some port := by
  have hsign : (numeral 10 port.toNat).head? ≠ some 43 := by
    intro hhead
    exact not_mem_port (by decide) port (List.mem_of_mem_head? hhead)
  rw [parseU16, if_neg hsign]
  exact readPort_numeral port

namespace SocketAddr

theorem readV4_eq {quad : List UInt8} (h : colon ∉ quad) (port : UInt16) :
    readV4 (quad ++ colon :: numeral 10 port.toNat) =
      (readIpv4 quad).map fun ip => .v4 ip port := by
  rw [readV4, splitOnce_append _ h]
  simp only [Option.bind_eq_bind, Option.bind_some, readPort_numeral]
  cases readIpv4 quad <;> rfl

theorem readV6_of_ne {text : List UInt8} (h : text.head? ≠ some openBracket) :
    readV6 text = none := by
  cases text with
  | nil => rfl
  | cons byte text =>
    rw [readV6, if_pos fun heq => h (congrArg some heq)]

theorem readV4_of_bracket (text : List UInt8) : readV4 (openBracket :: text) = none := by
  unfold readV4
  cases hsplit : splitOnce colon (openBracket :: text) with
  | none => rfl
  | some parts =>
    obtain ⟨quad, port⟩ := parts
    obtain ⟨htext, -⟩ := splitOnce_eq_some_iff.mp hsplit
    cases quad with
    | nil => cases htext
    | cons byte quad =>
      obtain ⟨rfl, -⟩ := List.cons.inj htext
      have hquad : readIpv4 (openBracket :: quad) = none :=
        readIpv4_of_head (by decide) (by decide) quad
      simp only [Option.bind_eq_bind, Option.bind_some, hquad, Option.bind_none]

theorem readV6_display (ip : BitVec 128) (port : UInt16) :
    readV6 (display (.v6 ip port 0 0)) = some (.v6 ip port 0 0) := by
  have hclose : closeBracket ∉ displayIpv6 ip :=
    not_mem_displayIpv6 (by decide) (by decide) (by decide) ip
  have hpercent : percent ∉ displayIpv6 ip :=
    not_mem_displayIpv6 (by decide) (by decide) (by decide) ip
  have htext : display (.v6 ip port 0 0) =
      openBracket :: (displayIpv6 ip ++ closeBracket :: colon :: numeral 10 port.toNat) := by
    rw [display, if_pos rfl, List.append_nil, List.cons_append]
  rw [htext, readV6, if_neg (not_not_intro rfl), splitOnce_append _ hclose]
  simp only [ne_eq, not_true_eq_false, if_false, splitOnce_eq_none_iff.mpr hpercent,
    readIpv6_display, readPort_numeral]
  rfl

/-- An address without a scope is read back. -/
theorem fromStr_display {address : SocketAddr} (h : (Target.ip address).Unscoped) :
    fromStr address.display = some address := by
  cases address with
  | v4 ip port =>
    rw [fromStr, display, readV4_eq (colon_not_mem_displayIpv4 ip), readIpv4_display]
    rfl
  | v6 ip port flowinfo scopeId =>
    obtain ⟨rfl, rfl⟩ := h
    have hv4 : readV4 (display (.v6 ip port 0 0)) = none := readV4_of_bracket _
    rw [fromStr, hv4, readV6_display]
    rfl

/-- A text that ends in a port and does not start with a bracket is at most an IPv4 address. -/
theorem fromStr_eq {host : List UInt8} (hcolon : colon ∉ host)
    (hbracket : openBracket ∉ host) (port : UInt16) :
    fromStr (host ++ colon :: numeral 10 port.toNat) =
      (readIpv4 host).map fun ip => .v4 ip port := by
  have hhead : (host ++ colon :: numeral 10 port.toNat).head? ≠ some openBracket := by
    intro hhead
    rcases List.mem_append.mp (List.mem_of_mem_head? hhead) with hmem | hmem
    · exact hbracket hmem
    · rcases List.mem_cons.mp hmem with heq | hmem
      · cases heq
      · exact not_mem_port (by decide) port hmem
  rw [fromStr, readV4_eq hcolon, readV6_of_ne hhead]
  cases readIpv4 host <;> rfl

end SocketAddr

/-! ## Targets are read back -/

/-- A domain consists of letters, digits, hyphens and dots. -/
theorem not_mem_of_validDomain {byte : UInt8} {host : List UInt8} (h : ValidDomain host)
    (hletter : isAsciiAlphanumeric byte = false) (hhyphen : byte ≠ 45) (hdot : byte ≠ 46) :
    byte ∉ host := by
  intro hmem
  obtain ⟨-, -, -, hlabels⟩ := h
  obtain ⟨label, hlabel, hbyte⟩ := exists_mem_splitOn hdot hmem
  obtain ⟨-, -, -, -, hbytes⟩ := hlabels label hlabel
  rcases hbytes byte hbyte with hbyte | hbyte
  · rw [hletter] at hbyte
    cases hbyte
  · exact hhyphen hbyte

namespace Target

theorem fromStr_display_ip {address : SocketAddr} (h : (Target.ip address).Valid)
    (hscope : (Target.ip address).Unscoped) :
    fromStr (Target.ip address).display = .ok (.ip address) := by
  rw [display, fromStr, SocketAddr.fromStr_display hscope]
  exact newIp_of_valid h

theorem fromStr_display_domain {host : List UInt8} {port : UInt16}
    (h : (Target.domain host port).Valid) :
    fromStr (Target.domain host port).display =
      .ok ((readIpv4 host).elim (.domain host port) fun ip => .ip (.v4 ip port)) := by
  obtain ⟨hhost, hport⟩ := valid_domain.mp h
  have hcolon : colon ∉ host := not_mem_of_validDomain hhost (by decide) (by decide) (by decide)
  have hbracket : openBracket ∉ host :=
    not_mem_of_validDomain hhost (by decide) (by decide) (by decide)
  have hrsplit : rsplitOnce colon (host ++ colon :: numeral 10 port.toNat) =
      some (host, numeral 10 port.toNat) :=
    rsplitOnce_append host (not_mem_port (by decide) port)
  rw [display, fromStr, SocketAddr.fromStr_eq hcolon hbracket]
  cases readIpv4 host with
  | some ip => exact @newIp_of_valid (.v4 ip port) (valid_ip.mpr hport)
  | none =>
    simp only [Option.map_none, hrsplit, parseU16_numeral, List.contains_iff_mem, hcolon, if_false]
    exact newDomain_of_valid h

end Target

/-- What `decode_target` returns has a text that is read back to it, apart from a domain that is
itself the text of an IPv4 address. -/
theorem target_text_iff {input : List UInt8} {target : Target} {consumed : Nat}
    (h : decodeTarget input = .ok (target, consumed)) :
    Target.fromStr target.display = .ok target ↔
      ∀ host port, target = .domain host port → readIpv4 host = none := by
  obtain ⟨hvalid, hscope, -, -⟩ := decodeTarget_sound h
  cases target with
  | ip address =>
    rw [Target.fromStr_display_ip hvalid hscope]
    simp
  | domain host port =>
    rw [Target.fromStr_display_domain hvalid]
    cases hip : readIpv4 host with
    | none =>
      refine ⟨fun _ host' port' heq => ?_, fun _ => rfl⟩
      cases heq
      exact hip
    | some ip =>
      constructor
      · intro heq
        cases heq
      · intro hnone
        cases hip.symm.trans (hnone host port rfl)

/-- Digits and dots alone do not make an address: `1.2.3` stays a domain. -/
theorem target_text_iff_threeParts :
    Target.fromStr (Target.display (.domain [49, 46, 50, 46, 51] 443)) =
      .ok (.domain [49, 46, 50, 46, 51] 443) := by
  have hdecode : decodeTarget [3, 5, 49, 46, 50, 46, 51, 1, 187] =
      .ok (.domain [49, 46, 50, 46, 51] 443, 9) := by
    decide +kernel
  refine (target_text_iff hdecode).mpr ?_
  rintro host port heq
  cases heq
  decide

/-- The text of the domain `1.2.3.4` at port 80 is read as an IP target. -/
theorem domain_text_read_as_ip :
    decodeTarget [3, 7, 49, 46, 50, 46, 51, 46, 52, 0, 80] =
        .ok (.domain [49, 46, 50, 46, 51, 46, 52] 80, 11) ∧
      Target.fromStr (Target.display (.domain [49, 46, 50, 46, 51, 46, 52] 80)) =
        .ok (.ip (.v4 0x01020304 80)) := by
  decide +kernel

end Nowhere.Protocol
