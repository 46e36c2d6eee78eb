import Nowhere.Lib.Assoc
import Nowhere.Lib.Holes
import Nowhere.Protocol.Datagram

/-!
# The fragment reassembler

`DatagramReassembler` of `src/protocol/datagram.rs`, generic in the caller's reservation `R`.
Instants and durations are nanoseconds.

Three things that the source leaves implicit are made explicit. A call says what it did to the
caller's reservations: which calls of `reserve` it made, and which slots it dropped together
with the reservation inside (`Effect`). Out-of-range indexing and a failed `expect` are panics.
The hash map's order among equally old slots is the argument `pick`.
-/

namespace Nowhere.Protocol

open Assoc

/-- Resource limits for fragment reassembly. -/
structure ReassemblyConfig where
  maxSlots : Nat
  maxBytes : Nat
  ttl : Nat
  deriving DecidableEq, Repr

/-- `ReassemblyConfig::default`. -/
def ReassemblyConfig.default : ReassemblyConfig := ⟨64, 1024 * 1024, 10 * 10 ^ 9⟩

inductive ReassemblyDropReason
  | metadataConflict
  | duplicateConflict
  | byteLimit
  | invalidLength
  deriving DecidableEq, Repr

inductive ReassemblyOutcome (R : Type)
  | pending (evictedPartial : Bool)
  | complete (payload : List UInt8) (reservation : R) (evictedPartial : Bool)
  | dropped (reason : ReassemblyDropReason)
  deriving DecidableEq, Repr

structure ReassemblyKey where
  flowId : FlowId
  packetId : UInt32
  deriving DecidableEq, Repr

structure ReassemblySlot (R : Type) where
  createdAt : Nat
  fragmentCount : UInt8
  totalLen : UInt16
  fragments : List (Option (List UInt8))
  received : Nat
  retained : Nat
  reservation : R
  deriving DecidableEq, Repr

/-- Bounded, timeout-aware fragment reassembler. -/
structure DatagramReassembler (R : Type) where
  config : ReassemblyConfig
  slots : Map ReassemblyKey (ReassemblySlot R)
  reservedBytes : Nat
  nextExpiry : Option Nat

/-- The first instant that `Instant` cannot represent. -/
def instantEnd : Nat := 2 ^ 63 * 10 ^ 9

/-- `Instant::checked_add`. -/
def checkedAdd (instant duration : Nat) : Option Nat :=
  if instant + duration < instantEnd then some (instant + duration) else none

/-- Slots that left the map and were dropped with their reservation. -/
abbrev Dropped (R : Type) := List (Sigma fun _ : ReassemblyKey => ReassemblySlot R)

/-- What one call did. -/
structure Effect (R : Type) where
  state : DatagramReassembler R
  /-- The result of `push_with`. -/
  outcome : Option (ReassemblyOutcome R) := none
  /-- The calls of `reserve`, with their answers. -/
  reserved : List (UInt16 × Option R) := []
  /-- The key of the slot that was created. -/
  opened : Option ReassemblyKey := none
  dropped : Dropped R := []
  /-- The slot whose reservation went to the caller in a `Complete`. -/
  completed : Option (Sigma fun _ : ReassemblyKey => ReassemblySlot R) := none

/-- What a sweep over the slots left behind. -/
structure Swept (R : Type) where
  state : DatagramReassembler R
  removed : Bool
  dropped : Dropped R

namespace ReassemblySlot

variable {R : Type}

/-- The slot made for the first fragment of a packet. -/
def first (fragment : UdpFragment) (now : Nat) (reservation : R) :
    ReassemblySlot R :=
  { createdAt := now
    fragmentCount := fragment.fragmentCount
    totalLen := fragment.totalLen
    fragments := (List.replicate fragment.fragmentCount.toNat none).set
      fragment.fragmentIndex.toNat (some fragment.payload)
    received := 1
    retained := fragment.payload.length
    reservation }

/-- `slot.fragments[index] = Some(payload)` with the two counters. -/
def store (slot : ReassemblySlot R) (fragment : UdpFragment) : ReassemblySlot R :=
  { slot with
    fragments := slot.fragments.set fragment.fragmentIndex.toNat (some fragment.payload)
    received := slot.received + 1
    retained := slot.retained + fragment.payload.length }

end ReassemblySlot

namespace DatagramReassembler

variable {R : Type}

def new (config : ReassemblyConfig) : DatagramReassembler R := ⟨config, ∅, 0, none⟩

/-! ## Removing slots -/

/-- The map operations of `remove_slot`, for a slot that was found. -/
def without (r : DatagramReassembler R) (key : ReassemblyKey) (slot : ReassemblySlot R) :
    DatagramReassembler R :=
  let slots := r.slots.erase key
  { r with
    slots
    reservedBytes := r.reservedBytes - slot.totalLen.toNat
    nextExpiry := if slots.entries.isEmpty then none else r.nextExpiry }

def removeSlot (r : DatagramReassembler R) (key : ReassemblyKey) :
    Option (ReassemblySlot R) × DatagramReassembler R :=
  match r.slots.lookup key with
  | none => (none, r)
  | some slot => (some slot, r.without key slot)

def removeFlow (r : DatagramReassembler R) (flowId : FlowId) : Effect R :=
  let leaving := retain r.slots fun key _ => decide (key.flowId = flowId)
  let slots := retain r.slots fun key _ => !decide (key.flowId = flowId)
  let removed := total leaving fun _ slot => slot.totalLen.toNat
  { state :=
      { r with
        slots
        reservedBytes := r.reservedBytes - removed
        nextExpiry := if slots.entries.isEmpty then none else r.nextExpiry }
    dropped := leaving.entries }

def clear (r : DatagramReassembler R) : Effect R :=
  { state := { r with slots := ∅, reservedBytes := 0, nextExpiry := none }
    dropped := r.slots.entries }

/-- Slots remain valid through the exact boundary of their time to live. -/
def keeps (r : DatagramReassembler R) (now : Nat) (slot : ReassemblySlot R) : Bool :=
  decide (now - slot.createdAt ≤ r.config.ttl)

/-- The part of `expire` that visits every slot. -/
def sweep (r : DatagramReassembler R) (now : Nat) : Swept R :=
  let slots := retain r.slots fun _ slot => r.keeps now slot
  let leaving := retain r.slots fun _ slot => !r.keeps now slot
  let released := total leaving fun _ slot => slot.totalLen.toNat
  { state :=
      { r with
        slots
        reservedBytes := r.reservedBytes - released
        nextExpiry :=
          (slots.entries.filterMap fun e => checkedAdd e.2.createdAt r.config.ttl).min? }
    removed := slots.entries.length != r.slots.entries.length
    dropped := leaving.entries }

def expire (r : DatagramReassembler R) (now : Nat) : Swept R :=
  match r.nextExpiry with
  | none => ⟨r, false, []⟩
  | some nextExpiry => if now ≤ nextExpiry then ⟨r, false, []⟩ else r.sweep now

/-! ## `push_with` -/

/-- The checks on a fragment before anything else. -/
def invalidFragment (flowId : FlowId) (fragment : UdpFragment) : Bool :=
  decide (flowId = 0) || decide (fragment.packetId = 0) ||
    !(validateFragmentMetadata fragment.fragmentIndex fragment.fragmentCount fragment.totalLen
      "reassembly").isOk ||
    badFragmentPayload fragment.fragmentCount fragment.totalLen fragment.payload

/-- Give up the slot of `key`, and answer `Dropped`. -/
def dropSlot (s : Swept R) (key : ReassemblyKey) (reason : ReassemblyDropReason) : Effect R :=
  let (slot, state) := s.state.removeSlot key
  { state
    outcome := some (.dropped reason)
    dropped := slot.toList.map (Sigma.mk key) ++ s.dropped }

/-- The loop that puts the fragments together. -/
def joinFragments (payload : List UInt8) : List (Option (List UInt8)) → Option (List UInt8)
  | [] => some payload
  | none :: _ => none
  | some fragment :: rest => joinFragments (payload ++ fragment) rest

/-- The end of a packet whose last fragment has been stored. -/
def finish (s : Swept R) (key : ReassemblyKey) : Result (Effect R) :=
  match s.state.removeSlot key with
  | (none, _) => .error (.panic "complete slot exists")
  | (some slot, state) =>
    if slot.retained ≠ slot.totalLen.toNat then
      .ok { state, outcome := some (.dropped .invalidLength), dropped := ⟨key, slot⟩ :: s.dropped }
    else
      match joinFragments [] slot.fragments with
      | none =>
        .ok { state, outcome := some (.dropped .invalidLength),
              dropped := ⟨key, slot⟩ :: s.dropped }
      | some payload =>
        .ok { state, outcome := some (.complete payload slot.reservation s.removed),
              dropped := s.dropped, completed := some ⟨key, slot⟩ }

/-- `push_with` for a packet with an open slot. -/
def pushOpen (s : Swept R) (key : ReassemblyKey) (slot : ReassemblySlot R)
    (fragment : UdpFragment) : Result (Effect R) :=
  if slot.fragmentCount ≠ fragment.fragmentCount ∨ slot.totalLen ≠ fragment.totalLen then
    .ok (dropSlot s key .metadataConflict)
  else
    match slot.fragments[fragment.fragmentIndex.toNat]? with
    | none => .error (.panic "index out of bounds")
    | some (some existing) =>
      if existing ≠ fragment.payload then .ok (dropSlot s key .duplicateConflict)
      else .ok { state := s.state, outcome := some (.pending s.removed), dropped := s.dropped }
    | some none =>
      if slot.retained + fragment.payload.length > slot.totalLen.toNat then
        .ok (dropSlot s key .invalidLength)
      else
        let slot := slot.store fragment
        let state := { s.state with slots := s.state.slots.insert key slot }
        if slot.received < slot.fragmentCount.toNat then
          .ok { state, outcome := some (.pending s.removed), dropped := s.dropped }
        else finish { s with state } key

/-- When every slot is taken, the oldest one is given up. -/
def evictOldest (s : Swept R) (pick : Nat) : Swept R :=
  if s.state.config.maxSlots ≤ s.state.slots.entries.length then
    match minKey s.state.slots (fun _ slot => slot.createdAt) pick with
    | none => s
    | some oldest =>
      let (slot, state) := s.state.removeSlot oldest
      { state, removed := true, dropped := slot.toList.map (Sigma.mk oldest) ++ s.dropped }
  else s

/-- Add the slot of a new packet, and lower the cached expiry to its own. -/
def openSlot (r : DatagramReassembler R) (key : ReassemblyKey) (fragment : UdpFragment)
    (now : Nat) (reservation : R) : DatagramReassembler R :=
  let expiry := (checkedAdd now r.config.ttl).getD now
  { r with
    slots := r.slots.insert key (.first fragment now reservation)
    reservedBytes := r.reservedBytes + fragment.totalLen.toNat
    nextExpiry := some (r.nextExpiry.elim expiry fun current => min current expiry) }

/-- `push_with` for a packet without a slot. -/
def pushNew (s : Swept R) (key : ReassemblyKey) (fragment : UdpFragment) (now : Nat)
    (reserve : UInt16 → Option R) (pick : Nat) : Result (Effect R) :=
  if s.state.config.maxSlots = 0 ∨ fragment.totalLen.toNat > s.state.config.maxBytes then
    .ok { state := s.state, outcome := some (.dropped .byteLimit), dropped := s.dropped }
  else
    let s := evictOldest s pick
    if s.state.reservedBytes + fragment.totalLen.toNat > s.state.config.maxBytes then
      .ok { state := s.state, outcome := some (.dropped .byteLimit), dropped := s.dropped }
    else
      match reserve fragment.totalLen with
      | none =>
        .ok { state := s.state, outcome := some (.dropped .byteLimit),
              reserved := [(fragment.totalLen, none)], dropped := s.dropped }
      | some reservation =>
        -- `fragments[index] = ..` on the new vector
        if fragment.fragmentIndex.toNat < fragment.fragmentCount.toNat then
          .ok { state := s.state.openSlot key fragment now reservation
                outcome := some (.pending s.removed)
                reserved := [(fragment.totalLen, some reservation)]
                opened := some key
                dropped := s.dropped }
        else .error (.panic "index out of bounds")

def pushWith (r : DatagramReassembler R) (flowId : FlowId) (fragment : UdpFragment) (now : Nat)
    (reserve : UInt16 → Option R) (pick : Nat) : Result (Effect R) :=
  if invalidFragment flowId fragment then
    .ok { state := r, outcome := some (.dropped .invalidLength) }
  else
    let key : ReassemblyKey := ⟨flowId, fragment.packetId⟩
    let s := r.expire now
    match s.state.slots.lookup key with
    | some slot => pushOpen s key slot fragment
    | none => pushNew s key fragment now reserve pick

end DatagramReassembler

/-! ## Calls -/

/-- The arguments of one `push_with`, and the order the hash map has at that moment. -/
structure Push (R : Type) where
  flowId : FlowId
  fragment : UdpFragment
  now : Nat
  reserve : UInt16 → Option R
  pick : Nat

def Push.key {R : Type} (c : Push R) : ReassemblyKey := ⟨c.flowId, c.fragment.packetId⟩

/-- A call of the reassembler's interface. -/
inductive Call (R : Type)
  | push (c : Push R)
  | expire (now : Nat)
  | removeFlow (flowId : FlowId)
  | clear

namespace DatagramReassembler

variable {R : Type}

def apply (r : DatagramReassembler R) : Call R → Result (Effect R)
  | .push c => r.pushWith c.flowId c.fragment c.now c.reserve c.pick
  | .expire now => .ok { state := (r.expire now).state, dropped := (r.expire now).dropped }
  | .removeFlow flowId => .ok (r.removeFlow flowId)
  | .clear => .ok r.clear

/-- Calls one after the other. -/
def run (r : DatagramReassembler R) :
    List (Call R) → Result (List (Effect R) × DatagramReassembler R)
  | [] => .ok ([], r)
  | call :: calls => do
    let e ← r.apply call
    let (effects, last) ← e.state.run calls
    return (e :: effects, last)

end DatagramReassembler

namespace Sample

/-- One of the two fragments of a packet of four bytes. -/
def half (index : UInt8) (payload : List UInt8) : UdpFragment := ⟨7, index, 2, 4, payload⟩

/-- A push at the instant `now`, with `now` as the reservation. -/
def pushHalf (now : Nat) (index : UInt8) (payload : List UInt8) : Push Nat :=
  ⟨1, half index payload, now, fun _ => some now, 0⟩

end Sample

end Nowhere.Protocol
