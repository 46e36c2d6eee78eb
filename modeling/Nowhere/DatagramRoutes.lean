import Nowhere.Portal.SessionRoutes
import Nowhere.Vector.QuicRoutes

/-!
# Where the packets of a session come from

Both programs keep their UDP routes and their partly received packets in two maps under two
locks. The results for the two are put together here: no partly received packet outlives its
route, a packet reaches a route only from frames that arrived while this very route was in
service, and Portal's session stays empty once it is closed.
-/

namespace Nowhere

open Protocol Common

/-- Every installation has a number of its own. -/
def Protocol.Table.OwnNumbers (log : List (Table.Event Reservation)) : Prop :=
  ∀ (i j : Nat) flowId flowId' route, log[i]? = some (.install flowId route) →
    log[j]? = some (.install flowId' route) → i = j

/-- **Routes and their packets.** For every interleaving: each open slot of the reassembler
belongs to a flow that has a route, and each packet that waits for a route is the payload of a
DATA frame or was put together from fragments, all of them received while that route was
installed and ready. Portal's session stays empty from the moment in which the `close` that set
the flag has cleared it. -/
theorem packets_of_installed_routes :
    (∀ (cfg : Portal.Session.Config) (p : Portal.Session.Pool),
      (Portal.Session.session cfg).Reachable (Portal.Session.initial cfg) p →
        (∀ key slot, p.world.udpReassembler.slots.lookup key = some slot →
          ∃ state, p.world.udpFlows.lookup key.flowId = some state) ∧
        Table.OwnNumbers p.world.log ∧
        ∀ route, ∀ d ∈ (p.world.channels route).queue,
          ∃ n, Table.Origin p.world.log n route d.payload) ∧
    (∀ (cfg : Portal.Session.Config) (p q later : Portal.Session.Pool) (i : Nat)
      (c : Portal.Session.Choice) (rest : List Portal.Session.Frame),
      (Portal.Session.session cfg).Reachable (Portal.Session.initial cfg) p →
      p.tasks[i]? = some (.closeReassembly :: rest) →
      (Portal.Session.session cfg).step p (.run i c) = some q →
      (Portal.Session.session cfg).Reachable q later → later.world.Empty) ∧
    ∀ (cfg : Vector.QuicSession.Config) (p : Vector.QuicSession.Pool),
      Vector.QuicSession.session.Reachable (Vector.QuicSession.initial cfg) p →
        (∀ key slot, p.world.reassembler.slots.lookup key = some slot →
          ∃ route, p.world.routes.lookup key.flowId = some route) ∧
        Table.OwnNumbers p.world.log ∧
        ∀ route, ∀ d ∈ (p.world.channels route).queue,
          ∃ n, Table.Origin p.world.log n route d.payload := by
  refine ⟨?_, ?_, ?_⟩
  · intro cfg p hreach
    have hc := Portal.Session.coherent hreach
    refine ⟨?_, hc.run.served.unique, fun route d hd => (hc.queued route d hd).origin hc.run⟩
    intro key slot hslot
    obtain ⟨route, hroute, _⟩ := hc.run.served.slots key slot hslot
    obtain ⟨state, hstate, _⟩ := Option.map_eq_some_iff.mp hroute
    exact ⟨state, hstate⟩
  · intro cfg p q later i c rest hreach htask hstep hlater
    exact (Portal.Session.over_reach (Portal.Session.over_of_clear hreach htask hstep) hlater).empty
  · intro cfg p hreach
    have hc := Vector.QuicSession.coherent hreach
    refine ⟨?_, hc.run.served.unique, fun route d hd => (hc.queued route d hd).origin hc.run⟩
    intro key slot hslot
    obtain ⟨route, hroute, _⟩ := hc.run.served.slots key slot hslot
    obtain ⟨state, hstate, _⟩ := Option.map_eq_some_iff.mp hroute
    exact ⟨state, hstate⟩

namespace Sample

/-- Two FRAGMENT frames that make up the packet `[11, 12, 13]` of flow 7. -/
def fragments : List (List UInt8) :=
  [fragmentHeader 7 1 0 2 3 ++ [11, 12], fragmentHeader 7 1 1 2 3 ++ [13]]

section Portal

open Portal.Session

def portal : Config := ⟨1024, 100⟩

/-- Task 0 installs route 0 of flow 7, task 1 relays it, and task 2 reads the DATAGRAMs. -/
def relayed : List (Tasks.Act Choice Start) :=
  [.boot (.openUdp 7), .run 0 .go, .run 0 .go, .run 0 .go, .run 0 .paired, .run 1 .dialed,
    .run 1 .go, .boot .datagramLoop, .run 2 .go, .run 2 .request, .run 2 .go, .run 1 .go,
    .run 1 .written, .run 1 .go]

def read : List (Tasks.Act Choice Start) :=
  [.run 2 .datagram, .run 2 .go, .run 2 .go, .run 2 (.pick 0)]

def reassembled : List (Tasks.Act Choice Start) :=
  relayed ++ fragments.map (fun data => .boot (.arrive data)) ++ read ++ read

/-- Task `i` is about to clear the session. -/
def clears (i : Nat) (p : Pool) : Bool :=
  match p.tasks[i]? with
  | some (.closeReassembly :: _) => true
  | _ => false

theorem clears_spec {i : Nat} {p : Pool} (h : clears i p = true) :
    ∃ rest, p.tasks[i]? = some (.closeReassembly :: rest) := by
  unfold clears at h
  split at h
  · rename_i rest htask
    exact ⟨rest, htask⟩
  · cases h

end Portal

section Vector

open Vector.QuicSession

def received : List (Tasks.Act Choice Start) :=
  [.boot (.registerUdp 7), .run 0 .go, .boot (.activateUdp 7), .run 1 .go, .boot .datagramLoop] ++
    fragments.map (fun data => .boot (.arrive data)) ++
    [.run 2 .datagram, .run 2 .go, .run 2 (.pick 0), .run 2 .datagram, .run 2 .go,
      .run 2 (.pick 0)]

end Vector

/-- A packet in two fragments goes through either session, and Portal's session is closed
while another packet is on its way. -/
theorem fragmented_packet :
    (∃ p, (Portal.Session.session portal).Reachable (Portal.Session.initial portal) p ∧
      [11, 12, 13] ∈ (p.world.channels 0).queue.map BudgetedDatagram.payload ∧
      ∃ n, Table.Origin p.world.log n 0 [11, 12, 13]) ∧
    (∃ p q, (Portal.Session.session portal).Reachable (Portal.Session.initial portal) p ∧
      p.world.udpReassembler.slots.entries.length = 1 ∧
      (Portal.Session.session portal).step p (.run 5 .go) = some q ∧ q.world.Empty) ∧
    ∃ p, Vector.QuicSession.session.Reachable (Vector.QuicSession.initial ⟨1024⟩) p ∧
      [11, 12, 13] ∈ (p.world.channels 0).queue.map BudgetedDatagram.payload ∧
      ∃ n, Table.Origin p.world.log n 0 [11, 12, 13] := by
  refine ⟨?_, ?_, ?_⟩
  · have hrun : ((Portal.Session.session portal).run (Portal.Session.initial portal)
        reassembled).any (fun p => decide
          ([11, 12, 13] ∈ (p.world.channels 0).queue.map BudgetedDatagram.payload)) = true := by
      decide +kernel
    obtain ⟨p, hreach, hqueue⟩ := Tasks.System.exists_reachable_of_run hrun
    have hmem := of_decide_eq_true hqueue
    refine ⟨p, hreach, hmem, ?_⟩
    obtain ⟨d, hd, hpayload⟩ := List.mem_map.mp hmem
    rw [← hpayload]
    exact (packets_of_installed_routes.1 portal p hreach).2.2 0 d hd
  · have hrun : ((Portal.Session.session portal).run (Portal.Session.initial portal)
        (relayed ++ (fragments.take 1).map (fun data => .boot (.arrive data)) ++ read ++
          [.boot .close, .boot .close, .run 5 .go, .run 5 .go])).any
        (fun p => clears 5 p && decide (p.world.udpReassembler.slots.entries.length = 1) &&
          ((Portal.Session.session portal).step p (.run 5 .go)).isSome) = true := by
      decide +kernel
    obtain ⟨p, hreach, hp⟩ := Tasks.System.exists_reachable_of_run hrun
    simp only [Bool.and_eq_true, decide_eq_true_eq] at hp
    obtain ⟨⟨hclears, hslots⟩, hstep⟩ := hp
    obtain ⟨rest, htask⟩ := clears_spec hclears
    obtain ⟨q, hq⟩ := Option.isSome_iff_exists.mp hstep
    exact ⟨p, q, hreach, hslots, hq,
      packets_of_installed_routes.2.1 portal p q q 5 .go rest hreach htask hq .refl⟩
  · have hrun : (Vector.QuicSession.session.run (Vector.QuicSession.initial ⟨1024⟩)
        received).any (fun p => decide
          ([11, 12, 13] ∈ (p.world.channels 0).queue.map BudgetedDatagram.payload)) = true := by
      decide +kernel
    obtain ⟨p, hreach, hqueue⟩ := Tasks.System.exists_reachable_of_run hrun
    have hmem := of_decide_eq_true hqueue
    refine ⟨p, hreach, hmem, ?_⟩
    obtain ⟨d, hd, hpayload⟩ := List.mem_map.mp hmem
    rw [← hpayload]
    exact (packets_of_installed_routes.2.2 ⟨1024⟩ p hreach).2.2 0 d hd

end Sample

end Nowhere
