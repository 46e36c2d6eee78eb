import Nowhere.Lib.Text
import Nowhere.Common.SocksNegotiation

/-!
# The `socks` parameter

The parser of the raw `socks` value, from `src/common/socks/config.rs`: optional credentials before
an at sign, then an endpoint. The value is split at its delimiters before anything is decoded, so
an escaped delimiter is never taken for one; what is left raw is checked on the pieces. The decoder
`percent_decode_str` is a parameter.
-/

namespace Nowhere.Common.Socks

open Protocol Text

/-- The bytes of a string. -/
def utf8Bytes (s : String) : List UInt8 := s.toByteArray.data.toList

/-- `:`, `/`, `?`, `#`, `[`, `]`, `@`, `!`, `$`, `&`, the single quote, `(`, `)`, `*`, `+`, `,`, `;`
and `=`. -/
def reservedBytes : List UInt8 :=
  [58, 47, 63, 35, 91, 93, 64, 33, 36, 38, 39, 40, 41, 42, 43, 44, 59, 61]

def colon : UInt8 := 58
def atSign : UInt8 := 64

def validateRawCredential (value : List UInt8) : Result Unit :=
  if value.any reservedBytes.contains then
    .error (.bail ("common::socks::validate_raw_credential: " ++
      "reserved credentials must be percent-encoded"))
  else .ok ()

/-- The scan of `validate_percent_encoding`, over what is left of the text. -/
def validatePercentEncoding (name : String) : List UInt8 → Result Unit
  | [] => .ok ()
  | byte :: rest =>
    if byte = percent then
      match rest with
      | high :: low :: rest =>
        if isHexDigit high ∧ isHexDigit low then validatePercentEncoding name rest
        else .error (.bail
          s!"common::socks::validate_percent_encoding: invalid percent encoding in {name}")
      | _ => .error (.bail
          s!"common::socks::validate_percent_encoding: invalid percent encoding in {name}")
    else validatePercentEncoding name rest

section Parser

variable (percentDecodeStr : List UInt8 → List UInt8)

def decodeComponent (raw : List UInt8) (name : String) : Result (List UInt8) := do
  validatePercentEncoding name raw
  let decoded := percentDecodeStr raw
  if (ByteArray.mk decoded.toArray).validateUTF8 then return decoded
  else .error (.bail s!"common::socks::decode_component: invalid UTF-8 in {name}")

/-- The end of `parse_socks_value`: the decoded credentials are checked. -/
def finishCredentials (username password rawEndpoint : List UInt8) :
    Result (List UInt8 × Option SocksCredentials) :=
  match husername : validateCredential "username" username,
      hpassword : validateCredential "password" password with
  | .error e, _ => .error e
  | .ok (), .error e => .error e
  | .ok (), .ok () => do
    return (← decodeComponent percentDecodeStr rawEndpoint "socks endpoint",
      some ⟨username, password, husername, hpassword⟩)

def parseSocksValue (rawValue : List UInt8) : Result (List UInt8 × Option SocksCredentials) :=
  match splitOnce atSign rawValue with
  | none => do return (← decodeComponent percentDecodeStr rawValue "socks endpoint", none)
  | some (rawCredentials, rawEndpoint) =>
    if rawEndpoint.contains atSign then
      .error (.bail "common::socks::SocksConfig::from_url: invalid socks credentials")
    else match splitOnce colon rawCredentials with
      | none => .error (.bail "common::socks::SocksConfig::from_url: invalid socks credentials")
      | some (rawUsername, rawPassword) =>
        if rawPassword.contains colon then
          .error (.bail ("common::socks::SocksConfig::from_url: " ++
            "reserved credentials must be percent-encoded"))
        else do
          validateRawCredential rawUsername
          validateRawCredential rawPassword
          let username ← decodeComponent percentDecodeStr rawUsername "socks username"
          let password ← decodeComponent percentDecodeStr rawPassword "socks password"
          finishCredentials percentDecodeStr username password rawEndpoint

end Parser

/-! ## Components -/

variable {d : List UInt8 → List UInt8} {name s : String}
  {raw value username password rawEndpoint endpoint : List UInt8}

theorem validatePercentEncoding_eq_ok_iff :
    validatePercentEncoding name raw = .ok () ↔ WellEscaped raw := by
  fun_induction validatePercentEncoding name raw with
  | case1 => exact ⟨fun _ => .nil, fun _ => rfl⟩
  | case2 high low rest hhex ih =>
    rw [ih]
    exact ⟨fun h => h.escape hhex.1 hhex.2, fun h => h.tail.tail.tail⟩
  | case3 high low rest hhex =>
    refine ⟨nofun, fun h => ?_⟩
    obtain ⟨_, _, _, heq, hdigits⟩ := h.digits
    cases heq
    exact absurd hdigits hhex
  | case4 rest hshort =>
    refine ⟨nofun, fun h => ?_⟩
    obtain ⟨high, low, rest', heq, -⟩ := h.digits
    exact absurd heq (hshort high low rest')
  | case5 byte rest hne ih =>
    rw [ih]
    exact ⟨fun h => h.cons hne, fun h => h.tail⟩

theorem validateUTF8_utf8Bytes (s : String) :
    (ByteArray.mk (utf8Bytes s).toArray).validateUTF8 = true :=
  ByteArray.validateUTF8_eq_true_iff.mpr s.isValidUTF8

theorem decodeComponent_eq_ok (h : decodeComponent d raw name = .ok value) : WellEscaped raw := by
  obtain ⟨hescaped, -⟩ := check_bind_eq_ok.mp h
  exact validatePercentEncoding_eq_ok_iff.mp hescaped

theorem decodeComponent_of_encodes (hd : Unescapes d) {must : UInt8 → Prop}
    (h : Encodes must (utf8Bytes s) raw) (hpercent : must percent) (name : String) :
    decodeComponent d raw name = .ok (utf8Bytes s) := by
  refine check_bind_eq_ok.mpr ⟨validatePercentEncoding_eq_ok_iff.mpr (h.wellEscaped hpercent), ?_⟩
  dsimp only
  rw [h.decode hd hpercent, if_pos (validateUTF8_utf8Bytes s)]
  rfl

theorem validateRawCredential_eq_ok_iff :
    validateRawCredential value = .ok () ↔ ∀ byte ∈ value, byte ∉ reservedBytes := by
  rw [validateRawCredential, bail_else_eq_ok]
  simp

/-! ## Credentials -/

/-- What an encoder has to escape in a username or password. -/
def EscapedInCredential (byte : UInt8) : Prop := byte = percent ∨ byte ∈ reservedBytes

/-- What an encoder has to escape in an endpoint. -/
def EscapedInEndpoint (byte : UInt8) : Prop := byte = percent ∨ byte = atSign

theorem validateCredential_utf8Bytes (hmin : 1 ≤ s.utf8ByteSize) (hmax : s.utf8ByteSize ≤ 255)
    (name : String) :
    validateCredential name (utf8Bytes s) = .ok () := by
  have hlength : (utf8Bytes s).length = s.utf8ByteSize := rfl
  rw [validateCredential, if_neg (by omega)]

theorem finishCredentials_eq (husername : validateCredential "username" username = .ok ())
    (hpassword : validateCredential "password" password = .ok ())
    (hendpoint : decodeComponent d rawEndpoint "socks endpoint" = .ok endpoint) :
    finishCredentials d username password rawEndpoint =
      .ok (endpoint, some ⟨username, password, husername, hpassword⟩) := by
  unfold finishCredentials
  split
  · rename_i h
    cases husername.symm.trans h
  · rename_i h
    cases hpassword.symm.trans h
  · rw [hendpoint]
    rfl

/-- No raw reserved byte stands in an encoded credential. -/
theorem reserved_not_mem {text : List UInt8} (h : Encodes EscapedInCredential text raw)
    {byte : UInt8} (hbyte : byte ∈ reservedBytes) : byte ∉ raw := by
  have hall : reservedBytes.all (fun byte => byte ≠ percent ∧ isHexDigit byte = false) = true := by
    decide
  obtain ⟨hpercent, hhex⟩ := of_decide_eq_true (List.all_eq_true.mp hall byte hbyte)
  exact h.not_mem (.inr hbyte) hpercent hhex

theorem parseSocksValue_encoded (hd : Unescapes d) {u p e : String} {rawU rawP rawE : List UInt8}
    (hu : Encodes EscapedInCredential (utf8Bytes u) rawU)
    (hp : Encodes EscapedInCredential (utf8Bytes p) rawP)
    (he : Encodes EscapedInEndpoint (utf8Bytes e) rawE)
    (husername : validateCredential "username" (utf8Bytes u) = .ok ())
    (hpassword : validateCredential "password" (utf8Bytes p) = .ok ()) :
    parseSocksValue d (rawU ++ colon :: rawP ++ atSign :: rawE) =
      .ok (utf8Bytes e, some ⟨utf8Bytes u, utf8Bytes p, husername, hpassword⟩) := by
  have hcolon : colon ∈ reservedBytes := by decide
  have hat : atSign ∈ reservedBytes := by decide
  have hatBefore : atSign ∉ rawU ++ colon :: rawP := by
    simp only [List.mem_append, List.mem_cons, not_or]
    exact ⟨reserved_not_mem hu hat, by decide, reserved_not_mem hp hat⟩
  have hatAfter : atSign ∉ rawE := he.not_mem (.inr rfl) (by decide) (by decide)
  rw [parseSocksValue, splitOnce_append _ hatBefore]
  dsimp only
  rw [if_neg (by simpa using hatAfter), splitOnce_append _ (reserved_not_mem hu hcolon)]
  dsimp only
  rw [if_neg (by simpa using reserved_not_mem hp hcolon)]
  refine check_bind_eq_ok.mpr ⟨validateRawCredential_eq_ok_iff.mpr ?_,
    check_bind_eq_ok.mpr ⟨validateRawCredential_eq_ok_iff.mpr ?_, ?_⟩⟩
  · exact fun byte hbyte hreserved => reserved_not_mem hu hreserved hbyte
  · exact fun byte hbyte hreserved => reserved_not_mem hp hreserved hbyte
  · rw [decodeComponent_of_encodes hd hu (.inl rfl), decodeComponent_of_encodes hd hp (.inl rfl)]
    exact finishCredentials_eq husername hpassword (decodeComponent_of_encodes hd he (.inl rfl) _)

theorem finishCredentials_ok {credentials : Option SocksCredentials}
    (h : finishCredentials d username password rawEndpoint = .ok (endpoint, credentials)) :
    WellEscaped rawEndpoint := by
  unfold finishCredentials at h
  split at h
  · cases h
  · cases h
  · obtain ⟨value, hvalue, -⟩ := bind_eq_ok.mp h
    exact decodeComponent_eq_ok hvalue

/-- How a value with credentials is made up. -/
theorem parseSocksValue_some {credentials : SocksCredentials}
    (h : parseSocksValue d raw = .ok (endpoint, some credentials)) :
    ∃ rawU rawP rawE, raw = rawU ++ colon :: rawP ++ atSign :: rawE ∧ atSign ∉ rawE ∧
      (∀ byte ∈ rawU ++ rawP, byte ∉ reservedBytes) ∧
      WellEscaped rawU ∧ WellEscaped rawP ∧ WellEscaped rawE := by
  unfold parseSocksValue at h
  split at h
  · obtain ⟨value, -, hvalue⟩ := bind_eq_ok.mp h
    cases hvalue
  · rename_i rawCredentials rawE hat
    obtain ⟨hafter, h⟩ := bail_else_eq_ok.mp h
    split at h
    · cases h
    · rename_i rawU rawP hcolon
      obtain ⟨-, h⟩ := bail_else_eq_ok.mp h
      obtain ⟨hfreeU, h⟩ := check_bind_eq_ok.mp h
      obtain ⟨hfreeP, h⟩ := check_bind_eq_ok.mp h
      obtain ⟨username, husername, h⟩ := bind_eq_ok.mp h
      obtain ⟨password, hpassword, h⟩ := bind_eq_ok.mp h
      obtain ⟨hraw, -⟩ := splitOnce_eq_some_iff.mp hat
      obtain ⟨hcredentials, -⟩ := splitOnce_eq_some_iff.mp hcolon
      refine ⟨rawU, rawP, rawE, ?_, by simpa using hafter, ?_, decodeComponent_eq_ok husername,
        decodeComponent_eq_ok hpassword, finishCredentials_ok h⟩
      · rw [hraw, hcredentials]
      · intro byte hbyte
        rcases List.mem_append.mp hbyte with hu | hp
        · exact validateRawCredential_eq_ok_iff.mp hfreeU byte hu
        · exact validateRawCredential_eq_ok_iff.mp hfreeP byte hp

/-- Encoded credentials are read back as they were, whatever they contain, by every decoder of
escapes; and a value that yields credentials has one at sign, one colon before it and no other raw
reserved byte there, and is escaped correctly throughout. -/
theorem socks_credentials_parsed (percentDecodeStr : List UInt8 → List UInt8) :
    (Unescapes percentDecodeStr → ∀ (u p e : String) (rawU rawP rawE : List UInt8),
      1 ≤ u.utf8ByteSize → u.utf8ByteSize ≤ 255 → 1 ≤ p.utf8ByteSize → p.utf8ByteSize ≤ 255 →
      Encodes EscapedInCredential (utf8Bytes u) rawU →
      Encodes EscapedInCredential (utf8Bytes p) rawP →
      Encodes EscapedInEndpoint (utf8Bytes e) rawE →
      ∃ credentials, credentials.asPair = (utf8Bytes u, utf8Bytes p) ∧
        parseSocksValue percentDecodeStr (rawU ++ colon :: rawP ++ atSign :: rawE) =
          .ok (utf8Bytes e, some credentials)) ∧
    ∀ raw endpoint credentials,
      parseSocksValue percentDecodeStr raw = .ok (endpoint, some credentials) →
      raw.count atSign = 1 ∧ WellEscaped raw ∧
      ∃ before after, raw = before ++ atSign :: after ∧ before.count colon = 1 ∧
        ∀ byte ∈ before, byte ∈ reservedBytes → byte = colon := by
  constructor
  · intro hd u p e rawU rawP rawE huMin huMax hpMin hpMax hu hp he
    exact ⟨_, rfl, parseSocksValue_encoded hd hu hp he (validateCredential_utf8Bytes huMin huMax _)
      (validateCredential_utf8Bytes hpMin hpMax _)⟩
  · intro raw endpoint credentials h
    obtain ⟨rawU, rawP, rawE, rfl, hafter, hfree, hu, hp, he⟩ := parseSocksValue_some h
    have hcolon : colon ∉ rawU ++ rawP := fun hmem => hfree colon hmem (by decide)
    have hat : atSign ∉ rawU ++ rawP := fun hmem => hfree atSign hmem (by decide)
    rw [List.mem_append, not_or] at hcolon hat
    refine ⟨?_, ?_, rawU ++ colon :: rawP, rawE, rfl, ?_, ?_⟩
    · rw [List.count_append, List.count_append, List.count_cons, List.count_cons_self,
        List.count_eq_zero_of_not_mem hat.1, List.count_eq_zero_of_not_mem hat.2,
        List.count_eq_zero_of_not_mem hafter]
      rfl
    · exact (hu.append (hp.cons (by decide))).append (he.cons (by decide))
    · rw [List.count_append, List.count_cons_self, List.count_eq_zero_of_not_mem hcolon.1,
        List.count_eq_zero_of_not_mem hcolon.2]
    · intro byte hbyte hreserved
      rcases List.mem_append.mp hbyte with hmem | hmem
      · exact absurd hreserved (hfree byte (List.mem_append_left _ hmem))
      · rcases List.mem_cons.mp hmem with rfl | hmem
        · rfl
        · exact absurd hreserved (hfree byte (List.mem_append_right _ hmem))

/-- A colon in a username. -/
theorem socks_credentials_parsed_colon :
    ∃ credentials, credentials.asPair = ([colon], [98]) ∧ parseSocksValue percentDecode
      ([percent, 51, 65] ++ colon :: [percent, 54, 50] ++ atSign :: [percent, 54, 51]) =
        .ok ([99], some credentials) :=
  (socks_credentials_parsed percentDecode).1 unescapes_percentDecode ":" "b" "c" _ _ _
    (by decide) (by decide) (by decide) (by decide) (.escaped (x := 3) (y := 10) rfl rfl .nil)
    (.escaped (x := 6) (y := 2) rfl rfl .nil) (.escaped (x := 6) (y := 3) rfl rfl .nil)

end Nowhere.Common.Socks
