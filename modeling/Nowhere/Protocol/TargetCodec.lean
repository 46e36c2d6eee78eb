import Nowhere.Protocol.Request

/-!
# Targets on the wire, in both directions

The slice decoder, the encoder and the stream reader of targets agree on every input. What the
decoder accepts is the encoding of the valid target it returns (`decodeTarget_sound`), and the
reader accepts no more than the decoder does, although it checks the length of a domain earlier.
-/

namespace Nowhere.Protocol

open Bytes ByteStream

/-- `encode_target`; the buffer has the encoded length. -/
def encodeTarget (target : Target) : Result (List UInt8) := do
  let encodedLen ← target.encodedLen
  let (_, output) ← encodeTargetInto target (List.replicate encodedLen 0)
  return output

variable {target : Target} {input : List UInt8} {body : List UInt8} {n : Nat}

theorem encodeTarget_eq (h : target.Valid) :
    encodeTarget target = .ok target.wire := by
  have hlen : (List.replicate target.wire.length (0 : UInt8)).length = target.wire.length :=
    List.length_replicate
  have hinto := encodeTargetInto_eq h (Nat.le_of_eq hlen.symm)
  rw [encodeTarget, Target.encodedLen_eq h]
  change (encodeTargetInto target (List.replicate target.wire.length 0) >>= _) = _
  rw [hinto, List.drop_of_length_le (Nat.le_of_eq hlen), List.append_nil]
  rfl

/-! ## What the decoder accepts -/

/-- The target stands at the front of the input. -/
structure Fronts (target : Target) (n : Nat) (input : List UInt8) : Prop where
  valid : target.Valid
  unscoped : target.Unscoped
  length_eq : target.wire.length = n
  front : target.wire <+: input

/-- A target that a validating constructor made, at the front of the input. -/
theorem fronts_newIp {address : SocketAddr} {target : Target} {n k : Nat} {input : List UInt8}
    (h : (do let target ← Target.newIp address; return (target, k) : Result (Target × Nat)) =
      .ok (target, n))
    (hunscoped : (Target.ip address).Unscoped) (hlength : (Target.ip address).wire.length = k)
    (hfront : (Target.ip address).wire <+: input) : Fronts target n input := by
  unfold Target.newIp at h
  by_cases hport : address.port = 0
  · simp [validatePort, hport, bind, Except.bind] at h
  · rw [(validatePort_ok _).mpr hport] at h
    obtain ⟨rfl, rfl⟩ := Prod.mk.inj (Except.ok.inj h)
    exact ⟨Target.valid_ip.mpr hport, hunscoped, hlength, hfront⟩

/-- An address of `k` bytes and a port behind their type. -/
theorem fronts_of_fixed {addressType : UInt8} {k n : Nat} {body : List UInt8} {target : Target}
    {make : List UInt8 → List UInt8 → SocketAddr}
    (hdecode : ∀ {address port : List UInt8}, address.length = k → port.length = 2 → ∀ rest,
      decodeTarget ((addressType :: (address ++ port)) ++ rest) = (do
        let target ← Target.newIp (make address port)
        return (target, 1 + k + 2)))
    (hwire : ∀ {address port : List UInt8}, address.length = k → port.length = 2 →
      (Target.ip (make address port)).wire = addressType :: (address ++ port))
    (hunscoped : ∀ address port, (Target.ip (make address port)).Unscoped)
    (hlong : k + 2 ≤ body.length) (h : decodeTarget (addressType :: body) = .ok (target, n)) :
    Fronts target n (addressType :: body) := by
  obtain ⟨address, port, rest, rfl, haddress, hport⟩ := exists_fields hlong
  have hsplit : addressType :: (address ++ (port ++ rest)) =
      (addressType :: (address ++ port)) ++ rest := by simp
  rw [hsplit] at h ⊢
  rw [hdecode haddress hport] at h
  refine fronts_newIp h (hunscoped address port) ?_ ?_
  · rw [hwire haddress hport, List.length_cons, List.length_append, haddress, hport]
    omega
  · rw [hwire haddress hport]
    exact List.prefix_append _ _

theorem decodeTarget_sound_ipv4 (h : decodeTarget (targetAtypIpv4 :: body) = .ok (target, n)) :
    Fronts target n (targetAtypIpv4 :: body) := by
  by_cases hshort : (targetAtypIpv4 :: body).length < targetIpv4Len
  · simp only [decodeTarget, List.head?_cons, if_true, hshort] at h
    cases h
  · rw [List.length_cons, targetIpv4Len] at hshort
    refine fronts_of_fixed decodeTarget_ipv4 ?_ (fun _ _ => trivial) (by omega) h
    intro address port haddress hport
    rw [Target.wire, toBe_bitVec haddress, toBe_uint16 hport]

theorem decodeTarget_sound_ipv6 (h : decodeTarget (targetAtypIpv6 :: body) = .ok (target, n)) :
    Fronts target n (targetAtypIpv6 :: body) := by
  have hipv4 : targetAtypIpv6 ≠ targetAtypIpv4 := by decide
  by_cases hshort : (targetAtypIpv6 :: body).length < targetIpv6Len
  · simp only [decodeTarget, List.head?_cons, hipv4, if_true, if_false, hshort] at h
    cases h
  · rw [List.length_cons, targetIpv6Len] at hshort
    refine fronts_of_fixed decodeTarget_ipv6 ?_ (fun _ _ => ⟨rfl, rfl⟩) (by omega) h
    intro address port haddress hport
    rw [Target.wire, toBe_bitVec haddress, toBe_uint16 hport]

theorem decodeTarget_sound_domain (h : decodeTarget (targetAtypDomain :: body) = .ok (target, n)) :
    Fronts target n (targetAtypDomain :: body) := by
  have hipv4 : targetAtypDomain ≠ targetAtypIpv4 := by decide
  have hipv6 : targetAtypDomain ≠ targetAtypIpv6 := by decide
  cases body with
  | nil =>
    simp only [decodeTarget, List.head?_cons, hipv4, hipv6, if_true, if_false] at h
    cases h
  | cons length body =>
    by_cases hshort : (targetAtypDomain :: length :: body).length < 2 + length.toNat
    · simp only [decodeTarget, List.head?_cons, hipv4, hipv6, if_true, if_false,
        List.getElem?_cons_succ, List.getElem?_cons_zero, hshort] at h
      cases h
    by_cases hshort' : (targetAtypDomain :: length :: body).length < 1 + 1 + length.toNat + 2
    · simp only [decodeTarget, List.head?_cons, hipv4, hipv6, if_true, if_false,
        List.getElem?_cons_succ, List.getElem?_cons_zero, hshort, hshort'] at h
      obtain ⟨_, herror⟩ := check_bind_eq_ok.mp h
      cases herror
    · rw [List.length_cons, List.length_cons] at hshort'
      obtain ⟨host, port, rest, rfl, hhost, hport⟩ :=
        exists_fields (show length.toNat + 2 ≤ body.length by omega)
      have hsplit : targetAtypDomain :: length :: (host ++ (port ++ rest)) =
          (targetAtypDomain :: length :: (host ++ port)) ++ rest := by simp
      have hwire : (Target.domain host (UInt16.ofNat (ofBe port))).wire =
          targetAtypDomain :: length :: (host ++ port) := by
        rw [Target.wire, hhost, UInt8.ofNat_toNat, toBe_uint16 hport]
      rw [hsplit] at h ⊢
      rw [decodeTarget_domain hhost hport] at h
      obtain ⟨hdomain, h⟩ := check_bind_eq_ok.mp h
      obtain ⟨made, hmade, h⟩ := bind_eq_ok.mp h
      obtain ⟨_, hmade⟩ := check_bind_eq_ok.mp hmade
      obtain ⟨hnonzero, hmade⟩ := check_bind_eq_ok.mp hmade
      cases hmade
      obtain ⟨rfl, rfl⟩ := Prod.mk.inj (Except.ok.inj h)
      refine ⟨Target.valid_domain.mpr ⟨(validateDomainBytes_ok _).mp hdomain,
        (validatePort_ok _).mp hnonzero⟩, trivial, ?_, ?_⟩
      · rw [hwire, List.length_cons, List.length_cons, List.length_append, hhost, hport]
        omega
      · rw [hwire]
        exact List.prefix_append _ _

/-- What the decoder accepts is the encoding of the target it returns. -/
theorem decodeTarget_sound (h : decodeTarget input = .ok (target, n)) : Fronts target n input := by
  cases input with
  | nil => cases h
  | cons addressType body =>
    by_cases hipv4 : addressType = targetAtypIpv4
    · subst hipv4
      exact decodeTarget_sound_ipv4 h
    by_cases hipv6 : addressType = targetAtypIpv6
    · subst hipv6
      exact decodeTarget_sound_ipv6 h
    by_cases hdomain : addressType = targetAtypDomain
    · subst hdomain
      exact decodeTarget_sound_domain h
    · simp only [decodeTarget, List.head?_cons, hipv4, hipv6, hdomain, if_false] at h
      cases h

theorem Fronts.decodeTarget (h : Fronts target n input) : decodeTarget input = .ok (target, n) := by
  obtain ⟨rest, rfl⟩ := h.front
  rw [decodeTarget_wire h.valid h.unscoped, h.length_eq]

theorem Fronts.append (h : Fronts target n input) (rest : List UInt8) :
    Fronts target n (input ++ rest) :=
  ⟨h.valid, h.unscoped, h.length_eq, h.front.trans (List.prefix_append input rest)⟩

/-! ## No decoder panics -/

theorem forM_bails {α : Type} {f : α → Result Unit} (hf : ∀ a, Bails (f a)) (xs : List α) :
    Bails (forM xs f) := by
  induction xs with
  | nil => exact bails_ok ()
  | cons x xs ih => exact (hf x).bind fun _ => ih

theorem validatePort_bails (port : UInt16) (context : String) : Bails (validatePort port context) :=
  (bails_bail _).ite (bails_ok ())

theorem validateLabel_bails (context : String) (label : List UInt8) :
    Bails (validateLabel context label) :=
  (bails_bail _).ite ((bails_bail _).ite ((bails_bail _).ite (bails_ok ())))

theorem validateDomainBytes_bails (domain : List UInt8) (context : String) :
    Bails (validateDomainBytes domain context) :=
  (bails_bail _).ite ((bails_bail _).ite (forM_bails (validateLabel_bails context) _))

theorem newIp_bails (address : SocketAddr) : Bails (Target.newIp address) :=
  (validatePort_bails _ _).bind fun _ => bails_ok _

theorem newDomain_bails (host : List UInt8) (port : UInt16) : Bails (Target.newDomain host port) :=
  (validateDomainBytes_bails _ _).bind fun _ => (validatePort_bails _ _).bind fun _ => bails_ok _

theorem decodeTarget_bails (input : List UInt8) : Bails (decodeTarget input) := by
  unfold decodeTarget
  split
  · exact bails_bail _
  refine .ite (.ite (bails_bail _) ?_) (.ite (.ite (bails_bail _) ?_) (.ite ?_ (bails_bail _)))
  · exact (newIp_bails _).bind fun _ => bails_ok _
  · exact (newIp_bails _).bind fun _ => bails_ok _
  · split
    · exact bails_bail _
    · refine (bails_bail _).ite ((validateDomainBytes_bails _ _).bind fun _ => ?_)
      exact (bails_bail _).ite ((newDomain_bails _ _).bind fun _ => bails_ok _)

/-! ## What the reader accepts -/

section Reader

variable {σ : Type} (reader : Input σ)

theorem accepts_readFixedTarget (addressType : UInt8) (tailLen : Nat) (eof : String) :
    reader.Accepts (readFixedTarget reader addressType (tailLen + 1) eof)
      (fun tail target => ∃ n, decodeTarget (addressType :: tail) = .ok (target, n))
      fun e => ∃ message, e = .bail message := by
  refine (Input.accepts_readExact ⟨eof, rfl⟩ _).bind ?_
  rintro tail _ ⟨rfl, hlength⟩
  rw [Nat.add_sub_cancel] at hlength
  subst hlength
  obtain ⟨buffer, hwrite, hcopy⟩ := fixedBuffer addressType tail
  refine Input.Accepts.after_ok hwrite (Input.Accepts.after_ok hcopy ?_)
  refine Input.Accepts.after_lift (fun decoded hdecoded => Input.accepts_pure ?_)
    (decodeTarget_bails _)
  exact ⟨decoded.2, by rw [List.append_nil, hdecoded]⟩

theorem accepts_readDomainTarget :
    reader.Accepts (readDomainTarget reader)
      (fun tail target => ∃ n, decodeTarget (targetAtypDomain :: tail) = .ok (target, n))
      fun e => ∃ message, e = .bail message := by
  refine (Input.accepts_readExact ⟨_, rfl⟩ _).bind ?_
  rintro bytes _ ⟨rfl, hone⟩
  obtain ⟨length, rfl⟩ := List.length_eq_one_iff.mp hone
  simp only [show [length].getD 0 0 = length from rfl]
  split
  · exact Input.accepts_throw ⟨_, rfl⟩
  · rename_i hguard
    have hmax : length.toNat ≤ domainLenMax := by omega
    obtain ⟨buffer, buffer', hole, hwrite, hwrite', hslice, hhole, hfill⟩ := domainBuffer hmax
    refine Input.Accepts.after_ok hwrite (Input.Accepts.after_ok hwrite'
      (Input.Accepts.after_ok hslice ?_))
    refine (Input.accepts_readExact ⟨_, rfl⟩ _).bind ?_
    rintro tail _ ⟨rfl, htail⟩
    obtain ⟨filled, hcopy, hslice'⟩ := hfill tail (htail.trans hhole)
    refine Input.Accepts.after_ok hcopy (Input.Accepts.after_ok hslice' ?_)
    refine Input.Accepts.after_lift (fun decoded hdecoded => Input.accepts_pure ?_)
      (decodeTarget_bails _)
    exact ⟨decoded.2, by rw [List.append_nil]; exact hdecoded⟩

/-- The reader has decoded exactly the bytes it has taken. -/
theorem accepts_readRequest :
    reader.Accepts (readRequest reader)
      (fun front target => ∃ n, decodeTarget front = .ok (target, n))
      fun e => ∃ message, e = .bail message := by
  refine (Input.accepts_readExact ⟨_, rfl⟩ _).bind ?_
  rintro bytes _ ⟨rfl, hone⟩
  obtain ⟨addressType, rfl⟩ := List.length_eq_one_iff.mp hone
  simp only [show [addressType].getD 0 0 = addressType from rfl]
  split
  · rename_i hipv4
    subst hipv4
    exact accepts_readFixedTarget reader targetAtypIpv4 6 _
  split
  · rename_i hipv6
    subst hipv6
    exact accepts_readFixedTarget reader targetAtypIpv6 18 _
  split
  · rename_i hdomain
    subst hdomain
    exact accepts_readDomainTarget reader
  · exact Input.accepts_throw ⟨_, rfl⟩

/-- The reader returns what the decoder returns, and takes what it says. -/
theorem readRequest_iff (s : σ) (target : Target) (n : Nat) :
    (∃ front s', readRequest reader s = .ok (target, s') ∧
      reader.bytes s = front ++ reader.bytes s' ∧ front.length = n) ↔
      decodeTarget (reader.bytes s) = .ok (target, n) := by
  have hcomplete : ∀ {target n}, decodeTarget (reader.bytes s) = .ok (target, n) →
      ∃ s', readRequest reader s = .ok (target, s') ∧
        reader.bytes s = target.wire ++ reader.bytes s' ∧ target.wire.length = n := by
    intro target n hdecode
    have hfronts := decodeTarget_sound hdecode
    obtain ⟨rest, hrest⟩ := hfronts.front
    obtain ⟨s', hread, hs'⟩ := parses_readRequest hfronts.valid hfronts.unscoped s rest hrest.symm
    exact ⟨s', hread, by rw [hs', hrest], hfronts.length_eq⟩
  constructor
  · rintro ⟨front, s', hread, hbytes, rfl⟩
    obtain ⟨taken, htaken, n, hdecode⟩ := (accepts_readRequest reader).ok hread
    have hwhole := ((decodeTarget_sound hdecode).append (reader.bytes s')).decodeTarget
    rw [← htaken] at hwhole
    obtain ⟨s'', hread', hbytes', hlength⟩ := hcomplete hwhole
    cases hread.symm.trans hread'
    rw [hwhole, ← hlength, List.append_cancel_right (hbytes.symm.trans hbytes')]
  · intro hdecode
    obtain ⟨s', hread, hbytes, hlength⟩ := hcomplete hdecode
    exact ⟨target.wire, s', hread, hbytes, hlength⟩

end Reader

/-- **The target codec.** What the decoder accepts is an encoding, valid targets are decoded from
theirs, and on every stream the reader does what the decoder does on its bytes. -/
theorem targets_agree :
    (∀ input target n, decodeTarget input = .ok (target, n) →
      n ≤ input.length ∧ encodeTarget target = .ok (input.take n)) ∧
    (∀ target : Target, target.Valid → target.Unscoped →
      ∃ encoded, encodeTarget target = .ok encoded ∧ target.encodedLen = .ok encoded.length ∧
        ∀ rest, decodeTarget (encoded ++ rest) = .ok (target, encoded.length)) ∧
    ∀ (σ : Type) (reader : Input σ) (s : σ),
      (∀ target n, (∃ front s', readRequest reader s = .ok (target, s') ∧
        reader.bytes s = front ++ reader.bytes s' ∧ front.length = n) ↔
        decodeTarget (reader.bytes s) = .ok (target, n)) ∧
      ((∃ message, readRequest reader s = .error (.bail message)) ↔
        ∃ message, decodeTarget (reader.bytes s) = .error (.bail message)) := by
  refine ⟨fun input target n hdecode => ?_, fun target hvalid hunscoped => ?_,
    fun σ reader s => ⟨readRequest_iff reader s, ?_⟩⟩
  · have hfronts := decodeTarget_sound hdecode
    obtain ⟨rest, rfl⟩ := hfronts.front
    rw [← hfronts.length_eq, List.take_left, List.length_append]
    exact ⟨Nat.le_add_right _ _, encodeTarget_eq hfronts.valid⟩
  · exact ⟨target.wire, encodeTarget_eq hvalid, Target.encodedLen_eq hvalid,
      decodeTarget_wire hvalid hunscoped⟩
  · have hiff := readRequest_iff reader s
    constructor
    · rintro ⟨message, herror⟩
      cases hdecode : decodeTarget (reader.bytes s) with
      | error e =>
        obtain ⟨message', rfl⟩ := decodeTarget_bails _ e hdecode
        exact ⟨message', rfl⟩
      | ok decoded =>
        obtain ⟨_, s', hread, _⟩ := (hiff decoded.1 decoded.2).mpr hdecode
        cases herror.symm.trans hread
    · rintro ⟨message, herror⟩
      cases hread : readRequest reader s with
      | error e =>
        obtain ⟨message', rfl⟩ := (accepts_readRequest reader).error hread
        exact ⟨message', rfl⟩
      | ok result =>
        obtain ⟨front, hfront, _⟩ := (accepts_readRequest reader).ok hread
        have hdecode := (hiff result.1 _).mp ⟨front, result.2, hread, hfront, rfl⟩
        cases herror.symm.trans hdecode

end Nowhere.Protocol
