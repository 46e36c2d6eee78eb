import Nowhere.Vector.SocksAssociationRuns

/-!
# What a SOCKS UDP association guarantees

The client of the control connection is the only one that is served: its first accepted datagram
fixes the endpoint for good, and all replies go there. Packets for one target keep their order even
when its flow is opened again. The flows, their queues and the shared budget stay within their
limits, and an association that has ended has given back all it took.
-/

namespace Nowhere.Vector.Association

open Assoc Protocol Relay Common.Socks
open scoped List

structure Sound (c : Config) (w : World) : Prop where
  confined : Confined c w
  listed : Listed c w
  paid : Paid c w
  ordered : Ordered w

section Runs

variable {c : Config} {w w' : World} {requestedPort : Option UInt16}

theorem sound_of_reachable (h : Machine.Reachable (step c) (.start c requestedPort) w) :
    Sound c w := by
  refine h.invariant ⟨confined_start c _, listed_start c _, paid_start c _, ordered_start c _⟩ ?_
  intro w e w' hsound hstep
  have hchange := change_of_step hstep
  exact ⟨hsound.confined.change hchange, hsound.listed.change hchange,
    hsound.paid.change hchange,
    hsound.ordered.change hsound.confined hsound.listed hchange⟩

/-- An endpoint that is fixed stays. -/
theorem Change.endpoint (h : Change c w w') {a : SocketAddr} (ha : w.endpoint = some a) :
    w'.endpoint = some a := by
  have hsource {source : SocketAddr} {packet payload : List UInt8} {target : SocksAddress}
      (haccepted : Accepted c w source packet target payload) : some source = some a := by
    rw [← ha]
    exact (haccepted.endpoint.resolve_left (by rw [ha]; exact nofun)).symm
  cases h with
  | drops accepted | forgets accepted | queues accepted | opens accepted =>
    exact hsource accepted
  | _ => exact ha

theorem endpoint_of_reachable (h : Machine.Reachable (step c) w w') {a : SocketAddr}
    (ha : w.endpoint = some a) : w'.endpoint = some a :=
  h.invariant (I := fun w => w.endpoint = some a) ha
    fun _ _ _ hw hstep => (change_of_step hstep).endpoint hw

/-- A client that announces a port is expected to use it. -/
theorem validated_port
    (h : validateUdpSourceRequest c.requested (ipOf c.peer) = .ok requestedPort) :
    requestedPort = if c.requested.port = 0 then none else some c.requested.port := by
  unfold validateUdpSourceRequest at h
  split at h
  · split at h
    · cases h
    · cases h
      split <;> simp_all
  · cases h

end Runs

/-- A client that does not announce a port sends two packets to one target and one to another; the
flow of the first target is opened a second time after its task has returned. -/
def session : List Event :=
  let packet (host : BitVec 32) (payload : List UInt8) : List UInt8 :=
    [0, 0, 0, 1] ++ Bytes.toBe 4 host.toNat ++ [0, 53] ++ payload
  let client : SocketAddr := .v4 0x7f000001 4000
  [.datagram client (packet 1 [1]), .datagram (.v4 0x7f000001 4001) (packet 1 [9]),
    .datagram client (packet 2 [2]), .task 0 .opened, .task 0 .takes, .task 0 .sent,
    .task 0 (.received [7]), .task 0 .replied, .task 0 .stops, .task 0 .closed,
    .datagram client (packet 1 [3]), .task 2 .opened, .task 2 .takes, .stops, .task 1 .stops,
    .task 2 .stops, .task 2 .closed, .joined 0, .joined 1, .joined 2, .ends]

def sessionConfig : Config :=
  ⟨.v4 0x7f000001 3000, .ip (.v4 0 0), 2, 10⟩

def sessionDone (w : World) : Bool :=
  decide (w.phase = .ended ∧ w.endpoint = some (.v4 0x7f000001 4000) ∧
    w.clientDown = [(.v4 0x7f000001 4000, [0, 0, 0, 1, 0, 0, 0, 1, 0, 53, 7])] ∧
    history (.ip (.v4 1 53)) w.tasks = [[1], [3]])

theorem exists_sessionDone :
    ∃ w, Machine.Reachable (step sessionConfig) (.start sessionConfig none) w ∧
      sessionDone w = true :=
  Machine.exists_reachable_of_run
    (show (Machine.run (step sessionConfig) (.start sessionConfig none) session).any sessionDone =
      true by decide +kernel)

/-- **Only the client of the control connection is served.** The endpoint has the address of the
control connection's peer and, if the client announced a port, that port; once fixed it never
changes. Every datagram that a task sends goes to the endpoint and is a SOCKS packet, not a
fragment, from a target to which the endpoint has sent a datagram before. -/
theorem association_confined {c : Config} {w : World} {requestedPort : Option UInt16}
    (hport : validateUdpSourceRequest c.requested (ipOf c.peer) = .ok requestedPort)
    (h : Machine.Reachable (step c) (.start c requestedPort) w) :
    (∀ a, w.endpoint = some a → ipOf a = ipOf c.peer) ∧
    (c.requested.port ≠ 0 → w.endpoint = some (socketAddr (ipOf c.peer) c.requested.port)) ∧
    (∀ a w', w.endpoint = some a → Machine.Reachable (step c) w w' → w'.endpoint = some a) ∧
    ∀ r ∈ w.clientDown, w.endpoint = some r.1 ∧ ∃ target payload packet sent, target.port ≠ 0 ∧
      decodeUdpPacket r.2 = .ok (target, 0, payload) ∧
      (r.1, packet) ∈ w.arrived ∧ decodeUdpPacket packet = .ok (target, 0, sent) := by
  have hsound := sound_of_reachable h
  refine ⟨hsound.confined.pinned, ?_, ?_, ?_⟩
  · intro hne
    rw [validated_port hport, if_neg hne] at h
    exact endpoint_of_reachable h rfl
  · intro a w' ha hreach
    exact endpoint_of_reachable hreach ha
  · intro r hr
    obtain ⟨hendpoint, target, payload, ⟨hport, a, packet, sent, ha, hmem, hsent⟩, hencode⟩ :=
      hsound.confined.replies r hr
    cases hendpoint.symm.trans ha
    have hunscoped := (wellFormed_of_decodeUdpPacket hsent).2
    exact ⟨hendpoint, target, payload, packet, sent, hport,
      decodeUdpPacket_encodeUdpPacketInto hencode hunscoped, hmem, hsent⟩

theorem association_confined_session :
    ∃ w, Machine.Reachable (step sessionConfig) (.start sessionConfig none) w ∧
      w.clientDown ≠ [] ∧ ∀ r ∈ w.clientDown, w.endpoint = some r.1 := by
  obtain ⟨w, hw, hdone⟩ := exists_sessionDone
  obtain ⟨_, _, hclient, _⟩ := of_decide_eq_true hdone
  have hconfined := association_confined (c := sessionConfig) (by decide) hw
  exact ⟨w, hw, by rw [hclient]; exact nofun, fun r hr => (hconfined.2.2.2 r hr).1⟩

/-- **Packets of one target keep their order.** What was put into the queues of the flows for a
target, one flow after the other, are datagrams that the endpoint has sent to this target: none
twice, none of another sender or for another target, and in the order in which they arrived. -/
theorem association_in_order {c : Config} {w : World} {requestedPort : Option UInt16}
    (h : Machine.Reachable (step c) (.start c requestedPort) w) (target : SocksAddress) :
    history target w.tasks <+ w.arrived.filterMap (wanted w.endpoint target) :=
  (sound_of_reachable h).ordered target

theorem association_in_order_session :
    ∃ w, Machine.Reachable (step sessionConfig) (.start sessionConfig none) w ∧
      [[1], [3]] <+ w.arrived.filterMap (wanted w.endpoint (.ip (.v4 1 53))) := by
  obtain ⟨w, hw, hdone⟩ := exists_sessionDone
  obtain ⟨_, _, _, hhistory⟩ := of_decide_eq_true hdone
  have horder := association_in_order hw (.ip (.v4 1 53))
  rw [hhistory] at horder
  exact ⟨w, hw, horder⟩

/-- **An association stays within its limits.** It has at most 256 flows, no two of them for one
target, and 64 packets in a queue. What its packets hold of the budget is always what is missing
there, and it has given everything back when it ends. -/
theorem association_bounded {c : Config} {w : World} {requestedPort : Option UInt16}
    (h : Machine.Reachable (step c) (.start c requestedPort) w) :
    w.flows.entries.length ≤ c.maxFlows ∧ (openTargets w.tasks).length ≤ c.maxFlows ∧
    c.maxFlows ≤ 256 ∧ (openTargets w.tasks).Nodup ∧
    (∀ k ∈ w.tasks, k.outbound.queue.length ≤ 64) ∧
    w.available + w.others + heldBy w.tasks = c.budget ∧
    (w.phase = .ended → w.available + w.others = c.budget) := by
  obtain ⟨_, hlisted, hpaid, _⟩ := sound_of_reachable h
  refine ⟨hlisted.flows, hlisted.live, Nat.min_le_right _ _, hlisted.distinct, hpaid.room,
    hpaid.budget, fun hended => ?_⟩
  have hzero : heldBy w.tasks = 0 := by
    refine List.sum_eq_zero fun n hn => ?_
    obtain ⟨k, hk, rfl⟩ := List.mem_map.mp hn
    exact hpaid.emptied k hk (by simp [Task.isOpen, hpaid.joined hended k hk])
  have hbudget := hpaid.budget
  rwa [hzero] at hbudget

theorem association_bounded_session :
    ∃ w, Machine.Reachable (step sessionConfig) (.start sessionConfig none) w ∧
      w.phase = .ended ∧ w.available + w.others = 10 := by
  obtain ⟨w, hw, hdone⟩ := exists_sessionDone
  obtain ⟨hended, _⟩ := of_decide_eq_true hdone
  exact ⟨w, hw, hended, (association_bounded hw).2.2.2.2.2.2 hended⟩

end Nowhere.Vector.Association
