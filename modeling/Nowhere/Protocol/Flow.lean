import Mathlib.Data.List.Basic

/-!
# Logical-flow metadata

The types of `src/protocol/flow.rs`, `src/protocol/result.rs` and `src/protocol/request.rs`
that every other part of the program shares: the role, kind and carriers of a logical flow,
its target, and the setup result written to the selected downlink. The last section has the
outcomes of fallible functions.

The role `Open` of the source is spelled `opening`, because `open` is reserved.
-/

namespace Nowhere.Protocol

def sessionIdLen : Nat := 16

/-- `SessionId`, sixteen bytes shared by one transport bundle. -/
abbrev SessionId := { bytes : List UInt8 // bytes.length = sessionIdLen }

/-- `FlowId`, scoped to one logical session. -/
abbrev FlowId := UInt32

/-- Relationship of the current physical lane to a logical flow. -/
inductive FlowRole
  | duplex
  | opening
  | attach
  deriving DecidableEq, Repr

/-- Proxied payload semantics. -/
inductive FlowKind
  | tcp
  | udp
  deriving DecidableEq, Repr

/-- Physical carrier selected for one flow direction. -/
inductive Carrier
  | tlsTcp
  | quic
  deriving DecidableEq, Repr

/-- Fully decoded logical-flow metadata. -/
structure FlowHeader where
  role : FlowRole
  flowId : FlowId
  kind : FlowKind
  uplink : Carrier
  downlink : Carrier
  deriving DecidableEq, Repr

/-- `std::net::SocketAddr`. -/
inductive SocketAddr
  | v4 (ip : BitVec 32) (port : UInt16)
  | v6 (ip : BitVec 128) (port : UInt16) (flowinfo scopeId : UInt32)
  deriving DecidableEq, Repr

/-- Binary destination address carried after an opening flow header. A host name is the
bytes of the source's `String`. -/
inductive Target
  | ip (address : SocketAddr)
  | domain (host : List UInt8) (port : UInt16)
  deriving DecidableEq, Repr

/-- Rejection codes of the setup result. -/
inductive FlowErrorCode
  | invalidRequest
  | metadataConflict
  | pairTimeout
  | flowLimit
  | dialFailed
  | sessionReplaced
  | internalError
  deriving DecidableEq, Repr

/-- Setup outcome written to the selected downlink. -/
inductive FlowResult
  | ready
  | reject (code : FlowErrorCode)
  deriving DecidableEq, Repr

/-! ## Fallible code -/

/-- How a function ends without a value: with an `anyhow` error, or with a panic. -/
inductive Failure
  | bail (message : String)
  | panic (message : String)
  deriving DecidableEq, Repr

abbrev Result (α : Type) := Except Failure α

/-- The function does not panic: it returns a value or an `anyhow` error. -/
def Bails {α : Type} (r : Result α) : Prop := ∀ e, r = .error e → ∃ message, e = .bail message

variable {α β : Type} {r : Result α} {f : α → Result β} {c : Prop} {a : α}

theorem bails_ok (a : α) : Bails (.ok a) := nofun

theorem bails_bail (message : String) : Bails (.error (.bail message) : Result α) := by
  rintro e ⟨⟩
  exact ⟨message, rfl⟩

theorem Bails.bind (hr : Bails r) (hf : ∀ a, Bails (f a)) : Bails (r >>= f) := by
  cases r with
  | ok a => exact hf a
  | error e =>
    rintro _ ⟨⟩
    exact hr e rfl

theorem Bails.ite [Decidable c] {r' : Result α} (hr : Bails r) (hr' : Bails r') :
    Bails (if c then r else r') := by
  split
  · exact hr
  · exact hr'

theorem bind_eq_ok {b : β} :
    (r >>= f) = .ok b ↔ ∃ a, r = .ok a ∧ f a = .ok b := by
  cases r with
  | ok a => simp [bind, Except.bind]
  | error e => simp [bind, Except.bind]

/-- A check in front of the rest. -/
theorem check_bind_eq_ok {r : Result Unit} {f : Unit → Result α} :
    (r >>= f) = .ok a ↔ r = .ok () ∧ f () = .ok a := by
  rw [bind_eq_ok]
  exact ⟨fun ⟨(), hr, hf⟩ => ⟨hr, hf⟩, fun ⟨hr, hf⟩ => ⟨(), hr, hf⟩⟩

theorem bail_else_eq_ok [Decidable c] {e : Failure} :
    (if c then .error e else r) = .ok a ↔ ¬ c ∧ r = .ok a := by
  by_cases h : c
  · simp [h]
  · simp [h]

/-- `Result::expect`. -/
def expect {α : Type} (r : Result α) (message : String) : Result α :=
  match r with
  | .ok a => .ok a
  | .error _ => .error (.panic message)

/-- `&xs[start..stop]`. -/
def slice {α : Type} (xs : List α) (start stop : Nat) : Result (List α) :=
  if start ≤ stop ∧ stop ≤ xs.length then .ok ((xs.take stop).drop start)
  else .error (.panic "slice index out of range")

end Nowhere.Protocol
