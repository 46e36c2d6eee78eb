import Nowhere.Common.SocksNegotiation

/-!
# SOCKS5 commands

What follows the handshake in `src/common/socks/protocol.rs`: the client's `send_command`, the
server's `read_request` and `write_reply`, as parties of a dialogue. `read_address` reads from the
same connection; `recvAddress` is the reader of `Nowhere.Common.SocksAddress` as a party.

A client that dials through a proxy and the proxy itself are again described alone, by their
traffic, and then put together behind the handshake.
-/

namespace Nowhere.Common.Socks

open Protocol ByteStream Dialogue Dialogue.Party

def commandConnect : UInt8 := 1

def replySucceeded : UInt8 := 0
def replyGeneralFailure : UInt8 := 1
def replyConnectionNotAllowed : UInt8 := 2
def replyNetworkUnreachable : UInt8 := 3
def replyHostUnreachable : UInt8 := 4
def replyTtlExpired : UInt8 := 6

namespace SocksAddress

def port : SocksAddress → UInt16
  | .ip (.v4 _ port) | .ip (.v6 _ port _ _) | .domain _ port => port

def unspecified : SocksAddress := .ip (.v4 0 0)

end SocksAddress

/-! ## The two sides -/

/-- `read_address`, on the connection it reads from. -/
def recvAddress (addressType : UInt8) : Party UInt8 Failure SocksAddress :=
  if addressType = addressIpv4 then do
    let value ← receive earlyEof 6
    return .ip (.v4 (BitVec.ofNat 32 (Bytes.ofBe (value.take 4)))
      (UInt16.ofNat (Bytes.ofBe ((value.drop 4).take 2))))
  else if addressType = addressIpv6 then do
    let value ← receive earlyEof 18
    return .ip (.v6 (BitVec.ofNat 128 (Bytes.ofBe (value.take 16)))
      (UInt16.ofNat (Bytes.ofBe ((value.drop 16).take 2))) 0 0)
  else if addressType = addressDomain then do
    let length := ((← receive unexpectedEof 1).getD 0 0).toNat
    if length = 0 then fail (.bail "common::socks::read_address: empty domain")
    else do
      let host ← receive earlyEof length
      if ¬ isAscii host then fail (.bail "common::socks::read_address: domain is not ASCII")
      else do
        let port ← receive unexpectedEof 2
        return .domain host (UInt16.ofNat (Bytes.ofBe port))
  else fail (.bail "common::socks::read_address: address type is unsupported")

/-- The end of `send_command`: what it makes of the header of a reply. -/
def checkReply (header : List UInt8) : Party UInt8 Failure SocksAddress :=
  if header.getD 0 0 ≠ socksVersion ∨ header.getD 2 0 ≠ 0 then
    fail (.bail "common::socks::send_command: invalid proxy response")
  else if header.getD 1 0 ≠ replySucceeded then
    fail (.bail ("common::socks::send_command: proxy command failed with reply " ++
      s!"{(header.getD 1 0).toNat}"))
  else recvAddress (header.getD 3 0)

def sendCommand (command : UInt8) (target : SocksAddress) : Party UInt8 Failure SocksAddress :=
  match encodeAddress [socksVersion, command, 0] target with
  | .error e => fail e
  | .ok request => do
    tell request
    let header ← receive earlyEof 4
    checkReply header

structure SocksRequest where
  command : UInt8
  address : SocksAddress
  deriving DecidableEq, Repr

def readRequest : Party UInt8 Failure SocksRequest := do
  let header ← receive (.bail "common::socks::read_request: failed to read header") 4
  if header.getD 0 0 ≠ socksVersion ∨ header.getD 2 0 ≠ 0 then
    fail (.bail "common::socks::read_request: invalid request header")
  else do
    let address ← recvAddress (header.getD 3 0)
    return ⟨header.getD 1 0, address⟩

/-- The message of `write_reply`. -/
def replyMessage (reply : UInt8) (address : SocksAddress) : Result (List UInt8) :=
  encodeAddress [socksVersion, reply, 0] address

def writeReply (reply : UInt8) (address : SocksAddress) : Party UInt8 Failure Unit :=
  match replyMessage reply address with
  | .error e => fail e
  | .ok message => tell message

/-! ## Each side alone -/

/-- The party reads what the reader of a stream reads. -/
theorem runOn_recvAddress {σ : Type} (stream : Input σ) (addressType : UInt8) :
    (recvAddress addressType).runOn stream = readAddress stream addressType := by
  unfold recvAddress readAddress
  split
  · rfl
  split
  · rfl
  split
  · rw [runOn_receive]
    refine bind_congr fun length => ?_
    dsimp only
    split
    · rfl
    · rw [runOn_receive]
      refine bind_congr fun host => ?_
      split
      · rfl
      · rfl
  · rfl

theorem listens_recvAddress (addressType : UInt8) : (recvAddress addressType).Listens := by
  unfold recvAddress
  split
  · exact .receive_bind fun _ => .done _
  split
  · exact .receive_bind fun _ => .done _
  split
  · refine .receive_bind fun length => ?_
    dsimp only
    split
    · exact .done _
    · refine .receive_bind fun host => ?_
      split
      · exact .done _
      · exact .receive_bind fun _ => .done _
  · exact .done _

/-- An address is received as it was sent. -/
theorem plays_recvAddress {address : SocksAddress} (hencodable : address.Encodable)
    (hunscoped : address.Unscoped) :
    Plays (recvAddress address.addressType) (gets address.tail) (pure address) := by
  have hparses : Input.whole.Parses (readAddress Input.whole address.addressType) address.tail
      address := parses_readAddress hencodable hunscoped
  obtain ⟨rest, hrun, hrest⟩ := hparses (address.tail ++ []) [] rfl
  obtain rfl : rest = [] := hrest
  rw [← runOn_recvAddress] at hrun
  exact (listens_recvAddress _).plays hrun

/-- A request or a reply on the wire: `second` is the command or the reply. -/
def commandBytes (second : UInt8) (address : SocksAddress) : List UInt8 :=
  [socksVersion, second, 0, address.addressType] ++ address.tail

theorem encodeAddress_command {address : SocksAddress} (h : address.Encodable) (second : UInt8) :
    encodeAddress [socksVersion, second, 0] address = .ok (commandBytes second address) :=
  encodeAddress_iff.mpr ⟨h, rfl⟩

section Commands

variable {target bound : SocksAddress} (command : UInt8)

theorem plays_sendCommand_succeeded (htarget : target.Encodable) (hbound : bound.Encodable)
    (hunscoped : bound.Unscoped) :
    Plays (sendCommand command target)
      (sends (commandBytes command target) ++ gets (commandBytes replySucceeded bound))
      (pure bound) := by
  have hreply := plays_recvAddress hbound hunscoped
  rw [sendCommand, encodeAddress_command htarget, commandBytes.eq_1 replySucceeded, gets_append]
  refine (plays_tell _).trans ?_
  exact (plays_receive [socksVersion, replySucceeded, 0, bound.addressType] rfl).trans hreply

theorem plays_sendCommand_refused (htarget : target.Encodable) {reply : UInt8}
    (hreply : reply ≠ replySucceeded) (addressType : UInt8) :
    ∃ e, Plays (sendCommand command target)
      (sends (commandBytes command target) ++ gets [socksVersion, reply, 0, addressType])
      (fail e) := by
  have hcheck : ∃ e, checkReply [socksVersion, reply, 0, addressType] = fail e := by
    simp [checkReply, hreply]
  obtain ⟨e, he⟩ := hcheck
  refine ⟨e, ?_⟩
  rw [sendCommand, encodeAddress_command htarget, ← he]
  exact (plays_tell _).trans (plays_receive [socksVersion, reply, 0, addressType] rfl)

theorem plays_readRequest (htarget : target.Encodable) (hunscoped : target.Unscoped) :
    Plays readRequest (gets (commandBytes command target)) (pure ⟨command, target⟩) := by
  rw [readRequest, commandBytes, gets_append]
  refine (plays_receive [socksVersion, command, 0, target.addressType] rfl).trans ?_
  exact (plays_recvAddress htarget hunscoped).bind _

end Commands

/-! ## Both sides together -/

/-- A client that dials through a proxy: the handshake, then one command. -/
def dialProxy (credentials : Option (List UInt8 × List UInt8)) (command : UInt8)
    (target : SocksAddress) : Party UInt8 Failure SocksAddress := do
  negotiate credentials
  sendCommand command target

/-- The proxy. `answer` is what it makes of the request: a reply and the address in it. -/
def serveProxy (credentials : Option (List UInt8 × List UInt8))
    (answer : SocksRequest → UInt8 × SocksAddress) : Party UInt8 Failure SocksRequest := do
  authenticate credentials
  let request ← readRequest
  writeReply (answer request).1 (answer request).2
  return request

/-- Both sides before the handshake. Once the command is through, each goes on to send data. -/
def startCommand (c s : Option SocksCredentials) (request : SocksRequest)
    (answer : SocksRequest → UInt8 × SocksAddress) (clientData serverData : List UInt8) :
    Config UInt8 Failure SocksAddress SocksRequest where
  left := do
    let bound ← dialProxy (c.map (·.asPair)) request.command request.address
    tell clientData
    return bound
  right := do
    let request ← serveProxy (s.map (·.asPair)) answer
    tell serverData
    return request
  leftInbox := []
  rightInbox := []

theorem mirror_exchange (traffic : List (Item UInt8)) (sent got : List UInt8) :
    traffic.map Item.mirror ++ gets sent ++ sends got =
      (traffic ++ (sends sent ++ gets got)).map Item.mirror := by
  simp

section Together

variable (clientData serverData : List UInt8) {c s : Option SocksCredentials}
  {request : SocksRequest} {answer : SocksRequest → UInt8 × SocksAddress}

/-- The proxy has read the request and is about to answer. -/
theorem plays_serveProxy {traffic : List (Item UInt8)}
    (hserver : Plays (authenticate (s.map (·.asPair))) traffic (pure ()))
    (haddress : request.address.Encodable) (hunscoped : request.address.Unscoped)
    (hbound : (answer request).2.Encodable) :
    Plays (startCommand c s request answer clientData serverData).right
      (traffic ++ gets (commandBytes request.command request.address))
      (do
        tell (commandBytes (answer request).1 (answer request).2)
        tell serverData
        return request) := by
  have hreply : writeReply (answer request).1 (answer request).2 =
      tell (commandBytes (answer request).1 (answer request).2) := by
    rw [writeReply, replyMessage, encodeAddress_command hbound]
  have hrequest := plays_readRequest request.command haddress hunscoped
  simp only [startCommand, serveProxy, bind_assoc]
  refine hserver.andThen ?_
  rw [← List.append_nil (gets _)]
  refine hrequest.andThen ?_
  simp only [pure_bind, hreply]
  exact .refl _

/-- The client gets its answer, and neither side has touched the other's data. -/
theorem settles_command_succeeded (c : Option SocksCredentials)
    (haddress : request.address.Encodable) (hunscoped : request.address.Unscoped)
    (hbound : (answer request).2.Encodable) (hbound' : (answer request).2.Unscoped)
    (hreply : (answer request).1 = replySucceeded) :
    Settles Step (startCommand c c request answer clientData serverData)
      ⟨.done (.ok (answer request).2), .done (.ok request), serverData, clientData⟩ := by
  obtain ⟨traffic, hclient, hserver⟩ := exists_plays_equal c
  have hcommand := plays_sendCommand_succeeded request.command haddress hbound hbound'
  have hserve := (plays_serveProxy (c := c) clientData serverData hserver haddress hunscoped
    hbound).trans (plays_tell _)
  rw [hreply, mirror_exchange] at hserve
  refine Settles.of_plays ((hclient.andThen hcommand).bind _) hserve ?_
  refine Settles.left_sends (f := fun _ => pure _) (Settles.right_sends (f := fun _ => pure _) ?_)
  exact Settles.both_done _ _ _ _

/-- The client fails at the header of the reply; the proxy goes on. -/
theorem settles_command_refused (c : Option SocksCredentials)
    (haddress : request.address.Encodable) (hunscoped : request.address.Unscoped)
    (hbound : (answer request).2.Encodable) (hreply : (answer request).1 ≠ replySucceeded) :
    ∃ e, Settles Step (startCommand c c request answer clientData serverData)
      ⟨.done (.error e), .done (.ok request), (answer request).2.tail ++ serverData, []⟩ := by
  obtain ⟨traffic, hclient, hserver⟩ := exists_plays_equal c
  obtain ⟨e, hcommand⟩ := plays_sendCommand_refused request.command haddress hreply
    (answer request).2.addressType
  have hserve := (plays_serveProxy (c := c) clientData serverData hserver haddress hunscoped
    hbound).trans (plays_tell_append _ _)
  rw [mirror_exchange] at hserve
  refine ⟨e, Settles.of_plays ((hclient.andThen hcommand).bind _) hserve ?_⟩
  refine Settles.right_sends (f := fun _ => _) (Settles.right_sends (f := fun _ => pure _) ?_)
  exact Settles.both_done _ _ _ _

theorem settles_command_different (hne : c ≠ s) :
    ∃ e e', Settles Step (startCommand c s request answer clientData serverData)
      ⟨.done (.error e), .done (.error e'), [], []⟩ := by
  obtain ⟨traffic, e, e', hclient, hserver⟩ := exists_plays_different hne
  exact ⟨e, e', Settles.of_plays ((hclient.bind _).bind _) ((hserver.bind _).bind _)
    (Settles.both_done _ _ _ _)⟩

end Together

/-- **A command through a proxy.** Whatever the schedule, the run ends. With the same credentials on
both sides the proxy has received the command and the address the client sent; the client has
returned the address of the reply exactly if the reply is a success, and then neither side has taken
any of the data that the other sent afterwards. In every other case the client has failed and sent
none of its data. -/
theorem socks_command_agrees (c s : Option SocksCredentials) (request : SocksRequest)
    (answer : SocksRequest → UInt8 × SocksAddress) (clientData serverData : List UInt8)
    (haddress : request.address.Encodable ∧ request.address.Unscoped)
    (hbound : (answer request).2.Encodable ∧ (answer request).2.Unscoped) :
    Acc (fun later earlier => Step earlier later)
      (startCommand c s request answer clientData serverData) ∧
    ∀ config, Relation.ReflTransGen Step
        (startCommand c s request answer clientData serverData) config →
      (∀ next, ¬ Step config next) →
        ((∃ r, config.right = .done (.ok r)) ↔ c = s) ∧
        (c = s → config.right = .done (.ok request)) ∧
        ((∃ a, config.left = .done (.ok a)) ↔ c = s ∧ (answer request).1 = replySucceeded) ∧
        (c = s ∧ (answer request).1 = replySucceeded →
          config.left = .done (.ok (answer request).2) ∧
          config.leftInbox = serverData ∧ config.rightInbox = clientData) ∧
        (¬ (c = s ∧ (answer request).1 = replySucceeded) →
          ∃ e, config.left = .done (.error e) ∧ config.rightInbox = []) := by
  by_cases heq : c = s
  · subst heq
    by_cases hreply : (answer request).1 = replySucceeded
    · have hsettles := settles_command_succeeded clientData serverData c haddress.1 haddress.2
        hbound.1 hbound.2 hreply
      refine ⟨hsettles.acc, fun config hrun hstuck => ?_⟩
      rw [hsettles.eq_of_stuck hrun hstuck]
      simp [hreply]
    · obtain ⟨e, hsettles⟩ := settles_command_refused clientData serverData c haddress.1
        haddress.2 hbound.1 hreply
      refine ⟨hsettles.acc, fun config hrun hstuck => ?_⟩
      rw [hsettles.eq_of_stuck hrun hstuck]
      simp [hreply]
  · obtain ⟨e, e', hsettles⟩ : ∃ e e', Settles Step
        (startCommand c s request answer clientData serverData)
        ⟨.done (.error e), .done (.error e'), [], []⟩ := settles_command_different _ _ heq
    refine ⟨hsettles.acc, fun config hrun hstuck => ?_⟩
    rw [hsettles.eq_of_stuck hrun hstuck]
    simp [heq]

/-- A proxy without credentials that connects to wherever it is asked to. -/
theorem socks_command_agrees_connect :
    ∃ config, Relation.ReflTransGen Step
        (startCommand none none ⟨commandConnect, .ip (.v4 0x7f000001 443)⟩
          (fun _ => (replySucceeded, .unspecified)) [1] [2]) config ∧
      config.left = .done (.ok .unspecified) ∧ config.leftInbox = [2] ∧
        config.rightInbox = [1] := by
  have hagrees := socks_command_agrees none none ⟨commandConnect, .ip (.v4 0x7f000001 443)⟩
    (fun _ => (replySucceeded, .unspecified)) [1] [2] ⟨trivial, trivial⟩ ⟨trivial, trivial⟩
  obtain ⟨config, hrun, hstuck⟩ := exists_stuck_of_acc hagrees.1
  exact ⟨config, hrun, (hagrees.2 config hrun hstuck).2.2.2.1 ⟨rfl, rfl⟩⟩

end Nowhere.Common.Socks
