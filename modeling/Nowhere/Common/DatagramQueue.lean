import Nowhere.Protocol.Reassembly

/-!
# Budgeted datagram queues

What Portal and Vector share for the UDP packets they have received and not yet relayed: the
byte budget of `src/common/datagram.rs` and the bounded channels that the packets wait in. A
reservation goes with its packet, or with the slot of a packet that is still in parts, and
returns to the budget when either is dropped.
-/

namespace Nowhere.Common

open Protocol

/-- A DATAGRAM, numbered in the order of arrival. -/
structure Datagram where
  number : Nat
  data : List UInt8
  deriving DecidableEq, Repr

/-- A part of the byte budget (`OwnedSemaphorePermit`). -/
structure Reservation where
  units : Nat
  deriving DecidableEq, Repr

/-- Reserves at least one unit so legal empty UDP packets remain bounded too. -/
def reserveUdpBudget (budget payloadLen : Nat) : Option Reservation :=
  if payloadLen < 2 ^ 32 ∧ max payloadLen 1 ≤ budget then some ⟨max payloadLen 1⟩ else none

structure BudgetedDatagram where
  payload : List UInt8
  permit : Reservation
  deriving DecidableEq, Repr

/-- `mpsc::channel(64)`; it is closed once the receiver has been dropped. -/
structure Channel where
  queue : List BudgetedDatagram
  closed : Bool
  deriving DecidableEq, Repr

namespace Channel

def capacity : Nat := 64

def new : Channel := ⟨[], false⟩

inductive TrySendError
  | full
  | closed
  deriving DecidableEq, Repr

def trySend (c : Channel) (datagram : BudgetedDatagram) : Except TrySendError Channel :=
  if c.closed then .error .closed
  else if capacity ≤ c.queue.length then .error .full
  else .ok { c with queue := c.queue ++ [datagram] }

/-- Dropping the receiver drops what is still in the channel. -/
def close (_ : Channel) : Channel := ⟨[], true⟩

/-- The units of the packets in the channel. -/
def units (c : Channel) : Nat := (c.queue.map fun d => d.permit.units).sum

theorem mem_trySend {c c' : Channel} {datagram d : BudgetedDatagram}
    (h : c.trySend datagram = .ok c') (hd : d ∈ c'.queue) : d ∈ c.queue ∨ d = datagram := by
  unfold trySend at h
  split at h
  · cases h
  · split at h
    · cases h
    · cases h
      rcases List.mem_append.mp hd with hd | hd
      · exact .inl hd
      · exact .inr (List.mem_singleton.mp hd)

section Family

variable {channels : Nat → Channel} {channel : Channel} {route route' : Nat}
  {datagram d : BudgetedDatagram}

/-- Replacing the channel of one route leaves the queues of the others. -/
theorem mem_update (hd : d ∈ (Function.update channels route' channel route).queue) :
    d ∈ (channels route).queue ∨ route = route' ∧ d ∈ channel.queue := by
  by_cases hroute : route = route'
  · subst hroute
    rw [Function.update_self] at hd
    exact .inr ⟨rfl, hd⟩
  · rw [Function.update_of_ne hroute] at hd
    exact .inl hd

theorem mem_update_trySend (hsent : (channels route').trySend datagram = .ok channel)
    (hd : d ∈ (Function.update channels route' channel route).queue) :
    d ∈ (channels route).queue ∨ route = route' ∧ d = datagram := by
  rcases mem_update hd with hold | ⟨rfl, hnew⟩
  · exact .inl hold
  · exact (mem_trySend hsent hnew).imp id fun heq => ⟨rfl, heq⟩

end Family

end Channel

/-- The units that return to the budget with slots that are dropped. -/
def released (gone : Dropped Reservation) : Nat :=
  (gone.map fun e => e.2.reservation.units).sum

/-- The units that a push takes from the budget. -/
def granted (reserved : List (UInt16 × Option Reservation)) : Nat :=
  (reserved.map fun e => e.2.elim 0 Reservation.units).sum

/-- The closure both programs hand to `push_with`. By the time it is called, the slots that
expired or were evicted have given back what they held. -/
def reservePacket (r : DatagramReassembler Reservation) (budget now pick : Nat) (len : UInt16) :
    Option Reservation :=
  reserveUdpBudget
    (budget + released (DatagramReassembler.evictOldest (r.expire now) pick).dropped) len.toNat

/-- The arguments of the call of `push_with` for a fragment. -/
def fragmentPush (r : DatagramReassembler Reservation) (budget now pick : Nat) (flowId : FlowId)
    (fragment : UdpFragment) : Push Reservation :=
  ⟨flowId, fragment, now, reservePacket r budget now pick, pick⟩

end Nowhere.Common
