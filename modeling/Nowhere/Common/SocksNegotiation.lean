import Mathlib.Data.Nat.Bitwise
import Nowhere.Lib.Dialogue
import Nowhere.Common.SocksAddress

/-!
# SOCKS5 method negotiation

The two sides of the authentication handshake of `src/common/socks/protocol.rs`, `negotiate` and
`authenticate`, as parties of a dialogue over bytes, and the credentials that
`src/common/socks/config.rs` lets through. Strings are their bytes, and the channel takes whatever
is written to it.

Each side is described alone, by the traffic on each of its branches (`plays_negotiate_none` and so
on). Where the traffic of a client and a server fits together, it is what happens between them on
every schedule and however the messages are cut into pieces.
-/

namespace Nowhere.Common.Socks

open Protocol ByteStream Dialogue Dialogue.Party

def socksVersion : UInt8 := 5
def authVersion : UInt8 := 1
def authNone : UInt8 := 0
def authPassword : UInt8 := 2
def authUnacceptable : UInt8 := 0xff

/-! ## Credentials -/

def validateCredential (name : String) (value : List UInt8) : Result Unit :=
  if ¬ (1 ≤ value.length ∧ value.length ≤ 255) then
    .error (.bail s!"common::socks::validate_credential: {name} length must be 1..255 bytes")
  else .ok ()

/-- Credentials that the configuration has accepted. -/
structure SocksCredentials where
  username : List UInt8
  password : List UInt8
  username_valid : validateCredential "username" username = .ok ()
  password_valid : validateCredential "password" password = .ok ()

def SocksCredentials.asPair (credentials : SocksCredentials) : List UInt8 × List UInt8 :=
  (credentials.username, credentials.password)

/-- Looks at every position of the longer side, whatever it has seen before. -/
def constantTimeEqual (left right : List UInt8) : Bool :=
  let maxLen := max left.length right.length
  let diff := (List.range maxLen).foldl
    (fun diff index => diff ||| (left.getD index 0 ^^^ right.getD index 0).toNat)
    (left.length ^^^ right.length)
  diff == 0

/-! ## The two sides -/

/-- The end of `negotiate`, for a client with credentials. -/
def negotiatePassword (username password : List UInt8) : Party UInt8 Failure Unit := do
  tell ([authVersion, UInt8.ofNat username.length] ++ username ++
    [UInt8.ofNat password.length] ++ password)
  let response ← receive earlyEof 2
  if response.getD 0 0 ≠ authVersion ∨ response.getD 1 0 ≠ 0 then
    fail (.bail "common::socks::negotiate: username/password authentication failed")
  else pure ()

def negotiate (credentials : Option (List UInt8 × List UInt8)) : Party UInt8 Failure Unit := do
  let method := if credentials.isSome then authPassword else authNone
  tell [socksVersion, 1, method]
  let response ← receive earlyEof 2
  if response.getD 0 0 ≠ socksVersion then
    fail (.bail "common::socks::negotiate: invalid SOCKS version")
  else if response.getD 1 0 = authUnacceptable then
    fail (.bail "common::socks::negotiate: proxy rejected authentication method")
  else if response.getD 1 0 ≠ method then
    fail (.bail "common::socks::negotiate: proxy selected an unadvertised authentication method")
  else match credentials with
    | none => pure ()
    | some (username, password) => negotiatePassword username password

def authenticatePassword (expected : List UInt8 × List UInt8) : Party UInt8 Failure Unit := do
  let header ← receive earlyEof 2
  if header.getD 0 0 ≠ authVersion ∨ header.getD 1 0 = 0 then do
    tell [authVersion, 1]
    fail (.bail "common::socks::authenticate_password: invalid auth header")
  else do
    let username ← receive earlyEof (header.getD 1 0).toNat
    let passwordLen := ((← receive unexpectedEof 1).getD 0 0).toNat
    if passwordLen = 0 then do
      tell [authVersion, 1]
      fail (.bail "common::socks::authenticate_password: empty password")
    else do
      let password ← receive earlyEof passwordLen
      let accepted := constantTimeEqual username expected.1 && constantTimeEqual password expected.2
      tell [authVersion, if accepted then 0 else 1]
      if ¬ accepted then
        fail (.bail "common::socks::authenticate_password: credentials rejected")
      else pure ()

/-- The end of `authenticate`: the selected method is carried out. -/
def authenticateMethod : Option (List UInt8 × List UInt8) → Party UInt8 Failure Unit
  | none => pure ()
  | some credentials => authenticatePassword credentials

def authenticate (credentials : Option (List UInt8 × List UInt8)) : Party UInt8 Failure Unit := do
  let header ← receive (.bail "common::socks::authenticate: failed to read method header") 2
  if header.getD 0 0 ≠ socksVersion ∨ header.getD 1 0 = 0 then
    fail (.bail "common::socks::authenticate: invalid method negotiation")
  else do
    let methods ← receive (.bail "common::socks::authenticate: failed to read methods")
      (header.getD 1 0).toNat
    let selected := if credentials.isSome then authPassword else authNone
    if ¬ methods.contains selected then do
      tell [socksVersion, authUnacceptable]
      fail (.bail "common::socks::authenticate: required method was not offered")
    else do
      tell [socksVersion, selected]
      authenticateMethod credentials

theorem validateCredential_iff {name : String} {value : List UInt8} :
    validateCredential name value = .ok () ↔ 1 ≤ value.length ∧ value.length ≤ 255 := by
  rw [validateCredential, bail_else_eq_ok, not_not]
  exact and_iff_left rfl

/-! ## The comparison -/

theorem foldl_or_eq_zero (f : Nat → Nat) (indices : List Nat) (diff : Nat) :
    indices.foldl (fun diff index => diff ||| f index) diff = 0 ↔
      diff = 0 ∧ ∀ index ∈ indices, f index = 0 := by
  induction indices generalizing diff with
  | nil => simp
  | cons index indices ih =>
    rw [List.foldl_cons, ih, Nat.or_eq_zero_iff, List.forall_mem_cons, and_assoc]

theorem constantTimeEqual_iff {left right : List UInt8} :
    constantTimeEqual left right = true ↔ left = right := by
  have hbyte : ∀ index, (left.getD index 0 ^^^ right.getD index 0).toNat = 0 ↔
      left.getD index 0 = right.getD index 0 := by
    intro index
    rw [← UInt8.toNat_zero, UInt8.toNat_inj, UInt8.xor_eq_zero_iff]
  rw [constantTimeEqual, beq_iff_eq, foldl_or_eq_zero, Nat.xor_eq_zero_iff]
  constructor
  · rintro ⟨hlength, hbytes⟩
    refine List.ext_getElem hlength fun index hleft hright => ?_
    have hindex := hbytes index (List.mem_range.mpr (by omega))
    rw [hbyte] at hindex
    rwa [List.getD_eq_getElem _ _ hleft, List.getD_eq_getElem _ _ hright] at hindex
  · rintro rfl
    exact ⟨rfl, fun index _ => (hbyte index).mpr rfl⟩

/-! ## Each side alone -/

/-- The method for these credentials. -/
def methodOf (credentials : Option (List UInt8 × List UInt8)) : UInt8 :=
  if credentials.isSome then authPassword else authNone

/-- The username/password message. -/
def loginRequest (username password : List UInt8) : List UInt8 :=
  [authVersion, UInt8.ofNat username.length] ++ username ++
    [UInt8.ofNat password.length] ++ password

section Client

theorem plays_negotiate_rejected (credentials : Option (List UInt8 × List UInt8)) :
    ∃ e, Plays (negotiate credentials) (sends [socksVersion, 1, methodOf credentials] ++
      gets [socksVersion, authUnacceptable]) (fail e) :=
  ⟨_, (plays_tell _).trans (plays_receive [socksVersion, authUnacceptable] rfl)⟩

theorem plays_negotiate_none :
    Plays (negotiate none) (sends [socksVersion, 1, authNone] ++ gets [socksVersion, authNone])
      (pure ()) :=
  (plays_tell _).trans (plays_receive [socksVersion, authNone] rfl)

theorem plays_negotiate_some (username password : List UInt8) :
    Plays (negotiate (some (username, password)))
      (sends [socksVersion, 1, authPassword] ++ gets [socksVersion, authPassword])
      (negotiatePassword username password) :=
  (plays_tell _).trans (plays_receive [socksVersion, authPassword] rfl)

theorem plays_negotiatePassword_accepted (username password : List UInt8) :
    Plays (negotiatePassword username password)
      (sends (loginRequest username password) ++ gets [authVersion, 0]) (pure ()) :=
  (plays_tell _).trans (plays_receive [authVersion, 0] rfl)

theorem plays_negotiatePassword_rejected (username password : List UInt8) :
    ∃ e, Plays (negotiatePassword username password)
      (sends (loginRequest username password) ++ gets [authVersion, 1]) (fail e) :=
  ⟨_, (plays_tell _).trans (plays_receive [authVersion, 1] rfl)⟩

end Client

section Server

variable {credentials : Option (List UInt8 × List UInt8)} {method : UInt8}

/-- What the server does once it has seen the one method that is offered. -/
theorem plays_authenticate_offer (credentials : Option (List UInt8 × List UInt8)) (method : UInt8) :
    Plays (authenticate credentials) (gets [socksVersion, 1, method])
      (if ¬ [method].contains (methodOf credentials) then do
        tell [socksVersion, authUnacceptable]
        fail (.bail "common::socks::authenticate: required method was not offered")
      else do
        tell [socksVersion, methodOf credentials]
        authenticateMethod credentials) :=
  (plays_receive [socksVersion, 1] rfl).trans (plays_receive [method] rfl)

theorem plays_authenticate_rejected (h : methodOf credentials ≠ method) :
    ∃ e, Plays (authenticate credentials) (gets [socksVersion, 1, method] ++
      sends [socksVersion, authUnacceptable]) (fail e) := by
  have hoffer := plays_authenticate_offer credentials method
  rw [if_pos (by simpa using h)] at hoffer
  exact ⟨_, hoffer.trans (plays_tell _)⟩

theorem plays_authenticate_selected (credentials : Option (List UInt8 × List UInt8)) :
    Plays (authenticate credentials) (gets [socksVersion, 1, methodOf credentials] ++
      sends [socksVersion, methodOf credentials]) (authenticateMethod credentials) := by
  have hoffer := plays_authenticate_offer credentials (methodOf credentials)
  rw [if_neg (by simp)] at hoffer
  exact hoffer.trans (plays_tell _)

variable {username password : List UInt8}

/-- What the server does once it has the message with a valid username and password. -/
theorem plays_authenticatePassword_request (husername : 1 ≤ username.length ∧ username.length ≤ 255)
    (hpassword : 1 ≤ password.length ∧ password.length ≤ 255) (expected : List UInt8 × List UInt8) :
    Plays (authenticatePassword expected) (gets (loginRequest username password)) (do
      let accepted := constantTimeEqual username expected.1 && constantTimeEqual password expected.2
      tell [authVersion, if accepted then 0 else 1]
      if ¬ accepted then
        fail (.bail "common::socks::authenticate_password: credentials rejected")
      else pure ()) := by
  have hulen : (UInt8.ofNat username.length).toNat = username.length :=
    UInt8.toNat_ofNat_of_lt' (Nat.lt_succ_of_le husername.2)
  have hplen : (UInt8.ofNat password.length).toNat = password.length :=
    UInt8.toNat_ofNat_of_lt' (Nat.lt_succ_of_le hpassword.2)
  have huzero : UInt8.ofNat username.length ≠ 0 := by
    intro hzero
    rw [hzero, UInt8.toNat_zero] at hulen
    omega
  have hpzero : ([UInt8.ofNat password.length].getD 0 0).toNat ≠ 0 := by
    rw [List.getD_cons_zero, hplen]
    omega
  simp only [loginRequest, gets_append, List.append_assoc]
  refine (plays_receive [authVersion, UInt8.ofNat username.length] rfl).trans ?_
  rw [if_neg (by simpa using huzero)]
  refine (plays_receive username hulen.symm).trans ?_
  refine (plays_receive [UInt8.ofNat password.length] rfl).trans ?_
  simp only [if_neg hpzero]
  exact plays_receive password hplen.symm

theorem plays_authenticatePassword_accepted
    (husername : 1 ≤ username.length ∧ username.length ≤ 255)
    (hpassword : 1 ≤ password.length ∧ password.length ≤ 255) :
    Plays (authenticatePassword (username, password))
      (gets (loginRequest username password) ++ sends [authVersion, 0]) (pure ()) := by
  have hrequest := plays_authenticatePassword_request husername hpassword (username, password)
  simp only [constantTimeEqual_iff.mpr, Bool.and_self, if_true, not_true, if_false] at hrequest
  exact hrequest.trans (plays_tell _)

theorem plays_authenticatePassword_rejected
    (husername : 1 ≤ username.length ∧ username.length ≤ 255)
    (hpassword : 1 ≤ password.length ∧ password.length ≤ 255) {expected : List UInt8 × List UInt8}
    (hne : (username, password) ≠ expected) :
    ∃ e, Plays (authenticatePassword expected)
      (gets (loginRequest username password) ++ sends [authVersion, 1]) (fail e) := by
  have haccepted : (constantTimeEqual username expected.1 &&
      constantTimeEqual password expected.2) = false := by
    rw [Bool.eq_false_iff, ne_eq, Bool.and_eq_true, constantTimeEqual_iff, constantTimeEqual_iff]
    exact fun heq => hne (Prod.ext heq.1 heq.2)
  have hrequest := plays_authenticatePassword_request husername hpassword expected
  simp only [haccepted] at hrequest
  exact ⟨_, hrequest.trans (plays_tell _)⟩

end Server

/-! ## Both sides together -/

/-- The traffic of a handshake that succeeds. -/
theorem exists_plays_equal (c : Option SocksCredentials) :
    ∃ traffic, Plays (negotiate (c.map (·.asPair))) traffic (pure ()) ∧
      Plays (authenticate (c.map (·.asPair))) (traffic.map Item.mirror) (pure ()) := by
  cases c with
  | none =>
    refine ⟨_, plays_negotiate_none, ?_⟩
    rw [List.map_append, mirror_sends, mirror_gets]
    exact plays_authenticate_selected none
  | some credentials =>
    have husername := validateCredential_iff.mp credentials.username_valid
    have hpassword := validateCredential_iff.mp credentials.password_valid
    refine ⟨_, (plays_negotiate_some _ _).trans (plays_negotiatePassword_accepted _ _), ?_⟩
    simp only [List.map_append, mirror_sends, mirror_gets]
    exact (plays_authenticate_selected (some credentials.asPair)).trans
      (plays_authenticatePassword_accepted husername hpassword)

/-- The traffic of a handshake that fails. -/
theorem exists_plays_different {c s : Option SocksCredentials} (hne : c ≠ s) :
    ∃ traffic e e', Plays (negotiate (c.map (·.asPair))) traffic (fail e) ∧
      Plays (authenticate (s.map (·.asPair))) (traffic.map Item.mirror) (fail e') := by
  by_cases hmethod : methodOf (s.map (·.asPair)) = methodOf (c.map (·.asPair))
  · match c, s, hne, hmethod with
    | none, none, hne, _ => exact absurd rfl hne
    | some client, some server, hne, _ =>
      have hpair : client.asPair ≠ server.asPair := by
        cases client
        cases server
        rintro ⟨⟩
        exact hne rfl
      have husername := validateCredential_iff.mp client.username_valid
      have hpassword := validateCredential_iff.mp client.password_valid
      obtain ⟨e, hclient⟩ := plays_negotiatePassword_rejected client.username client.password
      obtain ⟨e', hserver⟩ := plays_authenticatePassword_rejected husername hpassword hpair
      refine ⟨_, e, e', (plays_negotiate_some _ _).trans hclient, ?_⟩
      simp only [List.map_append, mirror_sends, mirror_gets]
      exact (plays_authenticate_selected (some server.asPair)).trans hserver
  · obtain ⟨e, hclient⟩ := plays_negotiate_rejected (c.map (·.asPair))
    obtain ⟨e', hserver⟩ := plays_authenticate_rejected hmethod
    refine ⟨_, e, e', hclient, ?_⟩
    rwa [List.map_append, mirror_sends, mirror_gets]

/-- Both sides before the handshake. Once its side of it is over, each goes on to send data. -/
def start (c s : Option SocksCredentials) (clientData serverData : List UInt8) :
    Config UInt8 Failure Unit Unit where
  left := negotiate (c.map (·.asPair)) >>= fun _ => tell clientData
  right := authenticate (s.map (·.asPair)) >>= fun _ => tell serverData
  leftInbox := []
  rightInbox := []

section Handshake

variable (clientData serverData : List UInt8)

/-- With equal credentials the handshake succeeds on both sides. -/
theorem settles_equal (c : Option SocksCredentials) :
    Settles Step (start c c clientData serverData)
      ⟨.done (.ok ()), .done (.ok ()), serverData, clientData⟩ := by
  obtain ⟨traffic, hclient, hserver⟩ := exists_plays_equal c
  refine Settles.of_plays (hclient.bind _) (hserver.bind _) ?_
  refine Settles.left_sends (f := pure) (Settles.right_sends (f := pure) ?_)
  exact Settles.both_done _ _ _ _

/-- With different credentials it fails on both sides. -/
theorem settles_different {c s : Option SocksCredentials} (hne : c ≠ s) :
    ∃ e e', Settles Step (start c s clientData serverData)
      ⟨.done (.error e), .done (.error e'), [], []⟩ := by
  obtain ⟨traffic, e, e', hclient, hserver⟩ := exists_plays_different hne
  exact ⟨e, e', Settles.of_plays (hclient.bind _) (hserver.bind _) (Settles.both_done _ _ _ _)⟩

end Handshake

/-! ## A server and any client -/

/-- The message that logs in with this username and password. -/
def Login (username password front : List UInt8) : Prop :=
  ∃ ulen plen : UInt8, front = [authVersion, ulen] ++ username ++ [plen] ++ password ∧
    username.length = ulen.toNat ∧ password.length = plen.toNat

/-- A list of methods with the password method in it. -/
def OffersPassword (front : List UInt8) : Prop :=
  ∃ (count : UInt8) (methods : List UInt8), front = [socksVersion, count] ++ methods ∧
    methods.length = count.toNat ∧ authPassword ∈ methods

section AnyClient

variable {σ : Type} {stream : Input σ}

theorem accepts_authenticatePassword (username password : List UInt8) :
    stream.Accepts ((authenticatePassword (username, password)).runOn stream)
      (fun front _ => Login username password front) fun _ => True := by
  rw [authenticatePassword, runOn_receive]
  refine (Input.accepts_readExact trivial 2).bind ?_
  rintro header _ ⟨rfl, hheader⟩
  obtain ⟨version, ulen, rfl⟩ := List.length_eq_two.mp hheader
  split
  · exact Input.accepts_throw trivial
  rename_i hversion
  rw [runOn_receive]
  refine (Input.accepts_readExact trivial _).bind ?_
  rintro username' _ ⟨rfl, husername⟩
  rw [runOn_receive]
  refine (Input.accepts_readExact trivial 1).bind ?_
  rintro bytes _ ⟨rfl, hbytes⟩
  obtain ⟨plen, rfl⟩ := List.length_eq_one_iff.mp hbytes
  dsimp only
  split
  · exact Input.accepts_throw trivial
  rw [runOn_receive]
  refine (Input.accepts_readExact trivial _).bind ?_
  rintro password' _ ⟨rfl, hpassword⟩
  rw [runOn_tell]
  split
  · exact Input.accepts_throw trivial
  rename_i haccepted
  rw [not_not, Bool.and_eq_true, constantTimeEqual_iff, constantTimeEqual_iff] at haccepted
  obtain ⟨rfl, rfl⟩ := haccepted
  obtain rfl : version = authVersion := not_not.mp (not_or.mp hversion).1
  exact Input.accepts_pure ⟨ulen, plen, by simp, husername, hpassword⟩

/-- A server with credentials accepts no client that has not sent them. -/
theorem accepts_authenticate (username password : List UInt8) :
    stream.Accepts ((authenticate (some (username, password))).runOn stream)
      (fun front _ => ∃ offer login, front = offer ++ login ∧ OffersPassword offer ∧
        Login username password login) fun _ => True := by
  rw [authenticate, runOn_receive]
  refine (Input.accepts_readExact trivial 2).bind ?_
  rintro header _ ⟨rfl, hheader⟩
  obtain ⟨version, count, rfl⟩ := List.length_eq_two.mp hheader
  split
  · exact Input.accepts_throw trivial
  rename_i hversion
  obtain rfl : version = socksVersion := not_not.mp (not_or.mp hversion).1
  rw [runOn_receive]
  refine (Input.accepts_readExact trivial _).bind ?_
  rintro methods _ ⟨rfl, hmethods⟩
  simp only [Option.isSome_some, if_true]
  split
  · exact Input.accepts_throw trivial
  rename_i hoffered
  have hpassword : authPassword ∈ methods := List.contains_iff_mem.mp (not_not.mp hoffered)
  rw [runOn_tell]
  refine (accepts_authenticatePassword username password).mono fun login _ hlogin => ?_
  refine ⟨[socksVersion, count] ++ methods, login, ?_, ⟨count, methods, rfl, hmethods, ?_⟩, hlogin⟩
  · rw [List.append_assoc]
  · exact hpassword

end AnyClient

/-- **The two sides of the handshake agree.** Whatever the schedule, the run ends; where it ends,
both sides have returned, each of them `Ok` exactly if the credentials are the same, and then
neither has taken any of the data that the other sent after the handshake. A server with
credentials returns `Ok` to no client that has not offered the password method and sent them. -/
theorem socks_negotiation_agrees :
    (∀ (c s : Option SocksCredentials) (clientData serverData : List UInt8),
      Acc (fun later earlier => Step earlier later) (start c s clientData serverData) ∧
      ∃ client server : Result Unit,
        (client = .ok () ↔ c = s) ∧ (server = .ok () ↔ c = s) ∧
        ∀ config, Relation.ReflTransGen Step (start c s clientData serverData) config →
          (∀ next, ¬ Step config next) →
            config.left = .done client ∧ config.right = .done server ∧
            (c = s → config.leftInbox = serverData ∧ config.rightInbox = clientData)) ∧
    ∀ (username password : List UInt8) (σ : Type) (stream : Input σ) (s s' : σ),
      (authenticate (some (username, password))).runOn stream s = .ok ((), s') →
        ∃ offer login, stream.bytes s = offer ++ login ++ stream.bytes s' ∧
          OffersPassword offer ∧ Login username password login := by
  constructor
  · intro c s clientData serverData
    by_cases heq : c = s
    · subst heq
      have hsettles := settles_equal clientData serverData c
      refine ⟨hsettles.acc, .ok (), .ok (), by simp, by simp, ?_⟩
      intro config hrun hstuck
      rw [hsettles.eq_of_stuck hrun hstuck]
      exact ⟨rfl, rfl, fun _ => ⟨rfl, rfl⟩⟩
    · obtain ⟨e, e', hsettles⟩ := settles_different clientData serverData heq
      refine ⟨hsettles.acc, .error e, .error e', by simp [heq], by simp [heq], ?_⟩
      intro config hrun hstuck
      rw [hsettles.eq_of_stuck hrun hstuck]
      exact ⟨rfl, rfl, fun h => absurd h heq⟩
  · intro username password σ stream s s' hok
    obtain ⟨front, hfront, offer, login, rfl, hoffer, hlogin⟩ :=
      (accepts_authenticate username password).ok hok
    exact ⟨offer, login, hfront, hoffer, hlogin⟩

end Nowhere.Common.Socks
