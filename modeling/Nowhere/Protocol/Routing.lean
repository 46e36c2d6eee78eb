import Nowhere.Protocol.ReassemblyHistory

/-!
# Routes for received datagrams

What Portal's and Vector's sessions have in common, seen from outside: a table that gives each
flow at most one route at a time, and a reassembler for the packets that arrive in fragments. A
route is known by the number of its installation. It takes packets once it is ready, and what
the reassembler holds of a flow is dropped together with the flow's route.

The history of a table (`Run`) settles where packets come from. An open slot belongs to a route
that is installed and ready, and was created since it is (`Run.served`), so a packet that is put
together for a route has all its fragments from the time in which that route was in service.
-/

namespace Nowhere.Protocol

variable {R : Type}

/-- A route, known by the number of its installation. -/
structure Route where
  number : Nat
  ready : Bool
  deriving DecidableEq

structure Table (R : Type) where
  routes : FlowId → Option Route
  installed : Nat
  reassembler : DatagramReassembler R

namespace Table

def new (config : ReassemblyConfig) : Table R := ⟨fun _ => none, 0, .new config⟩

/-- What happens to a table. The datagrams that carry DATA and FRAGMENT frames are numbered. -/
inductive Event (R : Type)
  | install (flowId : FlowId) (route : Nat)
  | activate (flowId : FlowId) (route : Nat)
  | remove (flowId : FlowId)
  | clear
  | expire (now : Nat)
  | data (flowId : FlowId) (route datagram : Nat) (payload : List UInt8) (enqueued : Bool)
  | fragment (route datagram : Nat) (push : Push R) (effect : Effect R) (enqueued : Bool)

/-- The packet that an event hands to a route. -/
def Event.delivers : Event R → Option (Nat × List UInt8)
  | .data _ route _ payload true => some (route, payload)
  | .fragment route _ _ effect true => match effect.outcome with
    | some (.complete payload _ _) => some (route, payload)
    | _ => none
  | _ => none

/-- The flow and the route that a DATA or FRAGMENT frame was taken for. -/
def Event.takes : Event R → Option (FlowId × Nat)
  | .data flowId route _ _ _ => some (flowId, route)
  | .fragment route _ c _ _ => some (c.flowId, route)
  | _ => none

/-- The route that a datagram was taken for, and the number of the datagram. -/
def Event.uses : Event R → Option (Nat × Nat)
  | .data _ route datagram _ _ => some (route, datagram)
  | .fragment route datagram _ _ _ => some (route, datagram)
  | _ => none

/-- The event takes the route of `flowId` out of service. -/
def Event.ends (flowId : FlowId) : Event R → Prop
  | .remove f => f = flowId
  | .clear => True
  | _ => False

inductive Step (t : Table R) : Event R → Table R → Prop
  | install {flowId : FlowId} (free : t.routes flowId = none) :
      Step t (.install flowId t.installed)
        { t with
          routes := Function.update t.routes flowId (some ⟨t.installed, false⟩)
          installed := t.installed + 1 }
  | activate {flowId : FlowId} {route : Route} (found : t.routes flowId = some route) :
      Step t (.activate flowId route.number)
        { t with routes := Function.update t.routes flowId (some { route with ready := true }) }
  | remove (flowId : FlowId) :
      Step t (.remove flowId)
        { t with
          routes := Function.update t.routes flowId none
          reassembler := (t.reassembler.removeFlow flowId).state }
  | clear :
      Step t .clear { t with routes := fun _ => none, reassembler := t.reassembler.clear.state }
  | expire (now : Nat) :
      Step t (.expire now) { t with reassembler := (t.reassembler.expire now).state }
  | data {flowId : FlowId} {route : Route} (found : t.routes flowId = some route)
      (ready : route.ready = true) (datagram : Nat) (payload : List UInt8) (enqueued : Bool) :
      Step t (.data flowId route.number datagram payload enqueued) t
  | fragment {c : Push R} {e : Effect R} {route : Route} (found : t.routes c.flowId = some route)
      (ready : route.ready = true) (result : t.reassembler.apply (.push c) = .ok e)
      (datagram : Nat) (enqueued : Bool) :
      Step t (.fragment route.number datagram c e enqueued) { t with reassembler := e.state }

/-- The histories of a table, first event first. -/
inductive Run (config : ReassemblyConfig) : List (Event R) → Table R → Prop
  | new : Run config [] (.new config)
  | step {log : List (Event R)} {t t' : Table R} {e : Event R} (prior : Run config log t)
      (next : t.Step e t') : Run config (log ++ [e]) t'

/-! ## Routes in service -/

/-- Just before position `n` the route is installed for the flow. -/
structure InstalledAt (log : List (Event R)) (n : Nat) (flowId : FlowId) (route i : Nat) :
    Prop where
  before : i < n
  install : log[i]? = some (.install flowId route)
  kept : ∀ j e, i < j → j < n → log[j]? = some e → ¬ e.ends flowId

/-- Just before position `n` the route is installed for the flow and ready. -/
structure InService (log : List (Event R)) (n : Nat) (flowId : FlowId) (route : Nat) : Prop where
  installed : ∃ i, InstalledAt log n flowId route i ∧
    ∃ k, i < k ∧ k < n ∧ log[k]? = some (.activate flowId route)

section Positions

variable {log : List (Event R)} {e : Event R} {n i k : Nat} {flowId : FlowId} {route : Nat}

theorem getElem?_append_of_lt {x : Event R} (more : List (Event R)) (h : log[i]? = some x) :
    (log ++ more)[i]? = some x := by
  rw [List.getElem?_append_left (List.getElem?_eq_some_iff.mp h).1, h]

theorem InstalledAt.append (h : InstalledAt log n flowId route i) (hn : n ≤ log.length)
    (more : List (Event R)) : InstalledAt (log ++ more) n flowId route i where
  before := h.before
  install := getElem?_append_of_lt more h.install
  kept j x hj hjn hat := by
    rw [List.getElem?_append_left (by omega)] at hat
    exact h.kept j x hj hjn hat

theorem InService.append (h : InService log n flowId route) (hn : n ≤ log.length)
    (more : List (Event R)) : InService (log ++ more) n flowId route := by
  obtain ⟨i, hinstalled, k, hik, hkn, hk⟩ := h.installed
  exact ⟨i, hinstalled.append hn more, k, hik, hkn, getElem?_append_of_lt more hk⟩

/-- An event that does not end the service of the flow. -/
theorem InstalledAt.snoc (h : InstalledAt log log.length flowId route i) (he : ¬ e.ends flowId) :
    InstalledAt (log ++ [e]) (log ++ [e]).length flowId route i where
  before := by
    have hlt := h.before
    rw [List.length_append, List.length_singleton]
    omega
  install := getElem?_append_of_lt [e] h.install
  kept j x hj _ hat := by
    rcases getElem?_snoc hat with hat | ⟨_, rfl⟩
    · exact h.kept j x hj (List.getElem?_eq_some_iff.mp hat).1 hat
    · exact he

end Positions

/-! ## What the table holds -/

/-- At position `j` the fragment `i` of the packet was received for the route. -/
def ReceivedAt (log : List (Event R)) (j route : Nat) (key : ReassemblyKey) (i : Nat)
    (part : List UInt8) : Prop :=
  ∃ datagram c e enqueued, log[j]? = some (.fragment route datagram c e enqueued) ∧
    c.key = key ∧ c.fragment.fragmentIndex.toNat = i ∧ c.fragment.payload = part

/-- At position `born` the slot of the packet was created, for the route. -/
def CreatedAt (log : List (Event R)) (born route : Nat) (key : ReassemblyKey) : Prop :=
  ∃ datagram c e enqueued, log[born]? = some (.fragment route datagram c e enqueued) ∧
    e.opened = some key

/-- Every fragment in the slot was received for the route since the slot was created. -/
structure FilledFor (log : List (Event R)) (route : Nat) (key : ReassemblyKey)
    (slot : ReassemblySlot R) (born : Nat) : Prop where
  created : CreatedAt log born route key
  received : ∀ i part, slot.fragments[i]? = some (some part) →
    ∃ j, born ≤ j ∧ ReceivedAt log j route key i part

section Slots

variable {log : List (Event R)} {route born j i : Nat} {key : ReassemblyKey}
  {slot : ReassemblySlot R} {part : List UInt8} {e : Event R}

theorem ReceivedAt.append (h : ReceivedAt log j route key i part) (more : List (Event R)) :
    ReceivedAt (log ++ more) j route key i part := by
  obtain ⟨datagram, c, effect, enqueued, hat, hrest⟩ := h
  exact ⟨datagram, c, effect, enqueued, getElem?_append_of_lt more hat, hrest⟩

theorem CreatedAt.append (h : CreatedAt log born route key) (more : List (Event R)) :
    CreatedAt (log ++ more) born route key := by
  obtain ⟨datagram, c, effect, enqueued, hat, hopened⟩ := h
  exact ⟨datagram, c, effect, enqueued, getElem?_append_of_lt more hat, hopened⟩

theorem CreatedAt.lt (h : CreatedAt log born route key) : born < log.length := by
  obtain ⟨_, _, _, _, hat, _⟩ := h
  exact (List.getElem?_eq_some_iff.mp hat).1

theorem FilledFor.append (h : FilledFor log route key slot born) (more : List (Event R)) :
    FilledFor (log ++ more) route key slot born where
  created := h.created.append more
  received k part hpart := by
    obtain ⟨j, hj, hat⟩ := h.received k part hpart
    exact ⟨j, hj, hat.append more⟩

variable {datagram : Nat} {c : Push R} {effect : Effect R} {enqueued : Bool}

theorem receivedAt_last (own : c.key = key) :
    ReceivedAt (log ++ [.fragment route datagram c effect enqueued]) log.length route key
      c.fragment.fragmentIndex.toNat c.fragment.payload :=
  ⟨datagram, c, effect, enqueued, by simp, own, rfl, rfl⟩

/-- A fragment stored into the slot joins those received before. -/
theorem FilledFor.store (h : FilledFor log route key slot born) (own : c.key = key) (datagram : Nat)
    (effect : Effect R) (enqueued : Bool) :
    FilledFor (log ++ [.fragment route datagram c effect enqueued]) route key
      (slot.store c.fragment) born where
  created := h.created.append _
  received k part hpart := by
    simp only [ReassemblySlot.store, List.getElem?_set] at hpart
    split at hpart
    · rename_i hk
      split at hpart
      · obtain rfl := Option.some.inj (Option.some.inj hpart)
        exact ⟨log.length, h.created.lt.le, hk ▸ receivedAt_last own⟩
      · cases hpart
    · obtain ⟨j, hj, hat⟩ := h.received k part hpart
      exact ⟨j, hj, hat.append _⟩

theorem FilledFor.first {reservation : R} (own : c.key = key) (created : effect.opened = some key) :
    FilledFor (log ++ [.fragment route datagram c effect enqueued]) route key
      (.first c.fragment c.now reservation) log.length where
  created := ⟨datagram, c, effect, enqueued, by simp, created⟩
  received k part hpart := by
    simp only [ReassemblySlot.first, List.getElem?_set, List.getElem?_replicate,
      List.length_replicate] at hpart
    split at hpart
    · rename_i hk
      split at hpart
      · obtain rfl := Option.some.inj (Option.some.inj hpart)
        exact ⟨log.length, Nat.le_refl _, hk ▸ receivedAt_last own⟩
      · cases hpart
    · split at hpart <;> cases hpart

end Slots

/-- The routes of the table are those of its history, and so are the fragments in its slots. -/
structure Served (log : List (Event R)) (t : Table R) : Prop where
  routes : ∀ flowId route, t.routes flowId = some route →
    ∃ i, InstalledAt log log.length flowId route.number i ∧
      (route.ready = true → ∃ k, i < k ∧ log[k]? = some (.activate flowId route.number))
  numbered : ∀ (i : Nat) flowId route, log[i]? = some (.install flowId route) → route < t.installed
  unique : ∀ (i j : Nat) flowId flowId' route, log[i]? = some (.install flowId route) →
    log[j]? = some (.install flowId' route) → i = j
  valid : t.reassembler.Valid
  slots : ∀ key slot, t.reassembler.slots.lookup key = some slot →
    ∃ route, t.routes key.flowId = some route ∧ route.ready = true ∧
      ∃ born, FilledFor log route.number key slot born

namespace Served

variable {log : List (Event R)} {t t' : Table R} {e : Event R} {flowId : FlowId} {route : Route}

theorem inService (h : Served log t) (found : t.routes flowId = some route)
    (ready : route.ready = true) :
    InService log log.length flowId route.number := by
  obtain ⟨i, hinstalled, hready⟩ := h.routes flowId route found
  obtain ⟨k, hik, hk⟩ := hready ready
  exact ⟨i, hinstalled, k, hik, (List.getElem?_eq_some_iff.mp hk).1, hk⟩

/-- A number was only ever given to the flow that has it. -/
theorem owner (h : Served log t) {flowId' : FlowId} (found : t.routes flowId = some route)
    (hinstall : .install flowId' route.number ∈ log) :
    flowId' = flowId := by
  obtain ⟨i, hinstalled, _⟩ := h.routes flowId route found
  obtain ⟨j, hj⟩ := List.getElem?_of_mem hinstall
  have hij := h.unique j i flowId' flowId route.number hj hinstalled.install
  subst hij
  cases hj.symm.trans hinstalled.install
  rfl

theorem number_lt (h : Served log t) (found : t.routes flowId = some route) :
    route.number < t.installed := by
  obtain ⟨i, hinstalled, _⟩ := h.routes flowId route found
  exact h.numbered i flowId route.number hinstalled.install

/-- A route that an event leaves alone. -/
theorem routes_snoc (h : Served log t) (he : ¬ e.ends flowId) {route : Route}
    (found : t.routes flowId = some route) :
    ∃ i, InstalledAt (log ++ [e]) (log ++ [e]).length flowId route.number i ∧
      (route.ready = true →
        ∃ k, i < k ∧ (log ++ [e])[k]? = some (.activate flowId route.number)) := by
  obtain ⟨i, hinstalled, hready⟩ := h.routes flowId route found
  refine ⟨i, hinstalled.snoc he, fun hr => ?_⟩
  obtain ⟨k, hik, hk⟩ := hready hr
  exact ⟨k, hik, getElem?_append_of_lt [e] hk⟩

/-- An event other than an installation adds no number. -/
theorem install_of_snoc (he : ∀ flowId route, e ≠ .install flowId route) {i route : Nat}
    (hat : (log ++ [e])[i]? = some (.install flowId route)) :
    log[i]? = some (.install flowId route) := by
  rcases getElem?_snoc hat with hat | ⟨_, rfl⟩
  · exact hat
  · exact absurd rfl (he flowId route)

/-- Slots that an event leaves alone, with their routes. -/
theorem slots_snoc (h : Served log t) {key : ReassemblyKey} {slot : ReassemblySlot R}
    (found : t.reassembler.slots.lookup key = some slot) :
    ∃ route, t.routes key.flowId = some route ∧ route.ready = true ∧
      ∃ born, FilledFor (log ++ [e]) route.number key slot born := by
  obtain ⟨route, hroute, hready, born, hfilled⟩ := h.slots key slot found
  exact ⟨route, hroute, hready, born, hfilled.append [e]⟩

theorem of_install (h : Served log t) (free : t.routes flowId = none) :
    Served (log ++ [.install flowId t.installed])
      { t with
        routes := Function.update t.routes flowId (some ⟨t.installed, false⟩)
        installed := t.installed + 1 } where
  routes f route found := by
    by_cases hf : f = flowId
    · subst hf
      simp only [Function.update_self, Option.some.injEq] at found
      subst found
      refine ⟨log.length, ⟨by simp, by simp, fun j x hj hjn _ => ?_⟩, by simp⟩
      rw [List.length_append, List.length_singleton] at hjn
      omega
    · simp only [Function.update_of_ne hf] at found
      exact h.routes_snoc (by simp [Event.ends]) found
  numbered i f route hat := by
    rcases getElem?_snoc hat with hat | ⟨_, heq⟩
    · exact Nat.lt_succ_of_lt (h.numbered i f route hat)
    · cases heq
      exact Nat.lt_succ_self _
  unique i j f f' route hi hj := by
    rcases getElem?_snoc hi with hi | ⟨rfl, heq⟩
    · rcases getElem?_snoc hj with hj | ⟨rfl, heq⟩
      · exact h.unique i j f f' route hi hj
      · cases heq
        exact absurd (h.numbered i f _ hi) (Nat.lt_irrefl _)
    · rcases getElem?_snoc hj with hj | ⟨rfl, _⟩
      · cases heq
        exact absurd (h.numbered j f' _ hj) (Nat.lt_irrefl _)
      · rfl
  valid := h.valid
  slots key slot found := by
    obtain ⟨route, hroute, hrest⟩ := h.slots_snoc (e := .install flowId t.installed) found
    refine ⟨route, ?_, hrest⟩
    -- a flow with an open slot is not free
    have hne : key.flowId ≠ flowId := by
      intro heq
      rw [heq, free] at hroute
      cases hroute
    rw [← hroute]
    exact Function.update_of_ne hne ..

theorem of_activate (h : Served log t) (found : t.routes flowId = some route) :
    Served (log ++ [.activate flowId route.number])
      { t with
        routes := Function.update t.routes flowId (some { route with ready := true }) } where
  routes f route' found' := by
    by_cases hf : f = flowId
    · subst hf
      simp only [Function.update_self, Option.some.injEq] at found'
      subst found'
      obtain ⟨i, hinstalled, _⟩ := h.routes f route found
      exact ⟨i, hinstalled.snoc (by simp [Event.ends]), fun _ =>
        ⟨log.length, hinstalled.before, by simp⟩⟩
    · simp only [Function.update_of_ne hf] at found'
      exact h.routes_snoc (by simp [Event.ends]) found'
  numbered i f route' hat := h.numbered i f route' (install_of_snoc (by simp) hat)
  unique i j f f' route' hi hj := h.unique i j f f' route'
    (install_of_snoc (by simp) hi) (install_of_snoc (by simp) hj)
  valid := h.valid
  slots key slot hslot := by
    obtain ⟨route', hroute, hready, hfilled⟩ :=
      h.slots_snoc (e := .activate flowId route.number) hslot
    by_cases hf : key.flowId = flowId
    · rw [hf, found] at hroute
      cases hroute
      refine ⟨{ route with ready := true }, ?_, rfl, hfilled⟩
      dsimp only
      rw [hf, Function.update_self]
    · refine ⟨route', ?_, hready, hfilled⟩
      rw [← hroute]
      exact Function.update_of_ne hf ..

/-- An event that only takes routes and slots away, from a flow both or neither. -/
theorem of_removal (h : Served log t) {routes : FlowId → Option Route}
    {reassembler : DatagramReassembler R} (hnew : ∀ f route, e ≠ .install f route)
    (hvalid : reassembler.Valid)
    (hroutes : ∀ f route, routes f = some route → t.routes f = some route ∧ ¬ e.ends f)
    (hslots : ∀ key slot, reassembler.slots.lookup key = some slot →
      t.reassembler.slots.lookup key = some slot ∧ routes key.flowId = t.routes key.flowId) :
    Served (log ++ [e]) { t with routes, reassembler } where
  routes f route found := by
    obtain ⟨hfound, hends⟩ := hroutes f route found
    exact h.routes_snoc hends hfound
  numbered i f route hat := h.numbered i f route (install_of_snoc hnew hat)
  unique i j f f' route hi hj := h.unique i j f f' route
    (install_of_snoc hnew hi) (install_of_snoc hnew hj)
  valid := hvalid
  slots key slot found := by
    obtain ⟨hfound, hkept⟩ := hslots key slot found
    obtain ⟨route, hroute, hrest⟩ := h.slots_snoc (e := e) hfound
    exact ⟨route, hkept.trans hroute, hrest⟩

theorem of_fragment (h : Served log t) {c : Push R} {effect : Effect R}
    (found : t.routes c.flowId = some route) (ready : route.ready = true)
    (pushed : Pushed t.reassembler c effect) (datagram : Nat) (enqueued : Bool) :
    Served (log ++ [.fragment route.number datagram c effect enqueued])
      { t with reassembler := effect.state } where
  routes f route' found' := h.routes_snoc (by simp [Event.ends]) found'
  numbered i f route' hat := h.numbered i f route' (install_of_snoc (by simp) hat)
  unique i j f f' route' hi hj := h.unique i j f f' route'
    (install_of_snoc (by simp) hi) (install_of_snoc (by simp) hj)
  valid := (Applied.push pushed).valid h.valid
  slots key slot hslot := by
    have hown {route' : Route} (own : c.key = key) (hroute : t.routes key.flowId = some route') :
        route' = route := by
      rw [← own] at hroute
      exact Option.some.inj (hroute.symm.trans found)
    cases pushed.slot_from hslot with
    | same hbefore => exact h.slots_snoc hbefore
    | stored by_push own hbefore _ _ after =>
      cases by_push
      subst after
      obtain ⟨route', hroute, hready, born, hfilled⟩ := h.slots _ _ hbefore
      cases hown own hroute
      exact ⟨_, hroute, hready, born, hfilled.store own datagram effect enqueued⟩
    | opened by_push own _ created after =>
      cases by_push
      subst after
      refine ⟨route, ?_, ready, log.length, .first own created⟩
      rw [← own]
      exact found

theorem step (h : Served log t) (hstep : t.Step e t') : Served (log ++ [e]) t' := by
  cases hstep with
  | install free => exact h.of_install free
  | activate found => exact h.of_activate found
  | remove flowId =>
    have hremoves := DatagramReassembler.removes_removeFlow t.reassembler flowId
    refine h.of_removal (by simp) (h.valid.removes hremoves) ?_ ?_
    · intro f route found
      by_cases hf : f = flowId
      · subst hf
        rw [Function.update_self] at found
        cases found
      · rw [Function.update_of_ne hf] at found
        exact ⟨found, fun heq => hf heq.symm⟩
    · intro key slot found
      refine ⟨(hremoves.kept found).1, Function.update_of_ne ?_ ..⟩
      intro hkey
      simp only [DatagramReassembler.removeFlow, Assoc.lookup_retain] at found
      simp [hkey] at found
  | clear =>
    refine h.of_removal (by simp)
      (h.valid.removes (DatagramReassembler.removes_clear t.reassembler)) ?_ ?_
    · intro f route found
      cases found
    · intro key slot found
      cases found
  | expire now =>
    have hremoves := DatagramReassembler.removes_expire t.reassembler now
    exact h.of_removal (by simp) (h.valid.removes hremoves)
      (fun f route found => ⟨found, by simp [Event.ends]⟩)
      fun key slot found => ⟨(hremoves.kept found).1, rfl⟩
  | data found ready datagram payload enqueued =>
    exact h.of_removal (by simp) h.valid (fun f route found => ⟨found, by simp [Event.ends]⟩)
      fun key slot found => ⟨found, rfl⟩
  | fragment found ready result datagram enqueued =>
    obtain ⟨effect, hresult, hpushed⟩ := DatagramReassembler.push_cases h.valid.slot_valid _
    cases result.symm.trans hresult
    exact h.of_fragment found ready hpushed datagram enqueued

end Served

variable {config : ReassemblyConfig} {log : List (Event R)} {t : Table R}

theorem Run.served (h : Run config log t) : Served log t := by
  induction h with
  | new =>
    exact ⟨fun _ _ found => (by cases found), by simp, by simp,
      DatagramReassembler.new_valid config, fun _ _ found => (by cases found)⟩
  | step _ next ih => exact ih.step next

/-! ## Where packets come from -/

/-- The packet handed over at position `n` is the payload of a DATA frame, or it was put together
from fragments, given by position and bytes in the order of their index; either way everything
in it was received while the route was in service. -/
inductive Origin (log : List (Event R)) (n route : Nat) (payload : List UInt8) : Prop
  | data {flowId : FlowId} {datagram : Nat}
      (event : log[n]? = some (.data flowId route datagram payload true))
      (service : InService log n flowId route)
  | assembled {key : ReassemblyKey} {born : Nat} {used : List (Nat × List UInt8)}
      (created : CreatedAt log born route key)
      (payload_eq : payload = (used.map Prod.snd).flatten)
      (received : ∀ i j part, used[i]? = some (j, part) → born ≤ j ∧ j ≤ n ∧
        ReceivedAt log j route key i part ∧ InService log j key.flowId route)

/-- The packet is what certain datagrams brought for the route: the payload of one, or the parts
that several brought. -/
inductive MadeFrom (log : List (Event R)) (ok : Nat → Prop) (route : Nat) (payload : List UInt8) :
    Prop
  | data {flowId : FlowId} {datagram : Nat}
      (event : .data flowId route datagram payload true ∈ log) (fine : ok datagram)
  | assembled {used : List (Nat × List UInt8)} (payload_eq : payload = (used.map Prod.snd).flatten)
      (received : ∀ (i : Nat) datagram part, used[i]? = some (datagram, part) → ok datagram ∧
        ∃ c e enqueued, .fragment route datagram c e enqueued ∈ log ∧ c.fragment.payload = part)

theorem Origin.madeFrom {n route : Nat} {payload : List UInt8} {ok : Nat → Prop}
    (h : Origin log n route payload)
    (hok : ∀ e ∈ log, ∀ datagram, e.uses = some (route, datagram) → ok datagram) :
    MadeFrom log ok route payload := by
  cases h with
  | data event service =>
    have hmem := List.mem_of_getElem? event
    exact .data hmem (hok _ hmem _ rfl)
  | @assembled key born used created payload_eq received =>
    obtain ⟨named, hparts, hnamed⟩ := exists_positions (used.map Prod.snd)
      (P := fun _ datagram part => ok datagram ∧ ∃ c e enqueued,
        .fragment route datagram c e enqueued ∈ log ∧ c.fragment.payload = part) <| by
      intro i part hpart
      rw [List.getElem?_map, Option.map_eq_some_iff] at hpart
      obtain ⟨⟨j, part'⟩, hused, rfl⟩ := hpart
      obtain ⟨_, _, ⟨datagram, c, e, enqueued, hat, _, _, hpayload⟩, _⟩ := received i j part' hused
      have hmem := List.mem_of_getElem? hat
      exact ⟨datagram, hok _ hmem _ rfl, c, e, enqueued, hmem, hpayload⟩
    exact .assembled (payload_eq.trans (by rw [hparts])) hnamed

/-- The state in which an event of the history happened. -/
theorem Run.before (h : Run config log t) {n : Nat} {e : Event R} (hat : log[n]? = some e) :
    ∃ t₀ t₁, Run config (log.take n) t₀ ∧ t₀.Step e t₁ := by
  induction h with
  | new => cases hat
  | @step log t t' e' prior next ih =>
    rcases getElem?_snoc hat with hat | ⟨rfl, rfl⟩
    · have hlt : n < log.length := (List.getElem?_eq_some_iff.mp hat).1
      rw [List.take_append_of_le_length hlt.le]
      exact ih hat
    · rw [List.take_left]
      exact ⟨t, t', prior, next⟩

section Run

variable {config : ReassemblyConfig} {log : List (Event R)} {t : Table R} {n : Nat} {e : Event R}
  {flowId : FlowId} {route : Nat}

/-- Frames are taken for a route only while it is in service. -/
theorem Run.inService (h : Run config log t) (hat : log[n]? = some e)
    (htakes : e.takes = some (flowId, route)) : InService log n flowId route := by
  obtain ⟨t₀, t₁, prior, hstep⟩ := h.before hat
  have hlt : n < log.length := (List.getElem?_eq_some_iff.mp hat).1
  have hn : (log.take n).length = n := List.length_take_of_le hlt.le
  have hservice : InService (log.take n) (log.take n).length flowId route := by
    cases hstep with
    | data found ready =>
      cases htakes
      exact prior.served.inService found ready
    | fragment found ready =>
      cases htakes
      exact prior.served.inService found ready
    | _ => cases htakes
  have happend := hservice.append (Nat.le_refl _) (log.drop n)
  rwa [List.take_append_drop, hn] at happend

variable {c : Push R} {effect : Effect R} {payload : List UInt8} {reservation : R} {evicted : Bool}

/-- A completed packet was put together from fragments received for its route. -/
theorem Served.assembled (h : Served log t) {route : Route} (datagram : Nat) (enqueued : Bool)
    (found : t.routes c.flowId = some route) (pushed : Pushed t.reassembler c effect)
    (outcome : effect.outcome = some (.complete payload reservation evicted)) :
    ∃ (born : Nat) (used : List (Nat × List UInt8)),
      CreatedAt (log ++ [.fragment route.number datagram c effect enqueued]) born
        route.number c.key ∧
      payload = (used.map Prod.snd).flatten ∧
      ∀ i j part, used[i]? = some (j, part) → born ≤ j ∧
        ReceivedAt (log ++ [.fragment route.number datagram c effect enqueued]) j route.number
          c.key i part := by
  obtain ⟨slot, payloads, hcompletes, rfl⟩ := pushed.completes outcome
  obtain ⟨hbefore, _⟩ :=
    (DatagramReassembler.removes_expire t.reassembler c.now).kept hcompletes.found
  obtain ⟨route', hroute, _, born, hfilled⟩ := h.slots _ _ hbefore
  cases hroute.symm.trans found
  have hstored := hfilled.store (c := c) rfl datagram effect enqueued
  obtain ⟨used, hparts, hused⟩ := exists_positions payloads fun i part hpart =>
    hstored.received i part (by rw [hcompletes.full, List.getElem?_map, hpart]; rfl)
  exact ⟨born, used, hstored.created, by rw [hparts], hused⟩

/-- A completed packet, and the whole history it is a part of. -/
theorem Run.completed (h : Run config log t) {datagram : Nat} {enqueued : Bool}
    (hat : log[n]? = some (.fragment route datagram c effect enqueued))
    (outcome : effect.outcome = some (.complete payload reservation evicted)) :
    Origin log n route payload := by
  obtain ⟨t₀, t₁, prior, hstep⟩ := h.before hat
  have hlt : n < log.length := (List.getElem?_eq_some_iff.mp hat).1
  have hn : (log.take n).length = n := List.length_take_of_le hlt.le
  cases hstep with
  | @fragment _ _ route' found ready result =>
    obtain ⟨effect', hresult, happlied⟩ :=
      DatagramReassembler.apply_cases prior.served.valid.slot_valid (.push c)
    cases result.symm.trans hresult
    cases happlied with
    | removal other => exact absurd rfl (other c)
    | push pushed =>
      obtain ⟨born, used, hcreated, hpayload, hused⟩ :=
        prior.served.assembled datagram enqueued found pushed outcome
      have hcreated' := hcreated.append (log.drop (n + 1))
      rw [take_snoc_drop hat] at hcreated'
      refine .assembled hcreated' hpayload ?_
      intro i j part hpart
      obtain ⟨hborn, hreceived⟩ := hused i j part hpart
      have hjn : j ≤ n := by
        obtain ⟨_, _, _, _, hj, _⟩ := hreceived
        have hlen := (List.getElem?_eq_some_iff.mp hj).1
        rw [List.length_append, List.length_singleton, hn] at hlen
        omega
      have hreceived' := hreceived.append (log.drop (n + 1))
      rw [take_snoc_drop hat] at hreceived'
      refine ⟨hborn, hjn, hreceived', ?_⟩
      obtain ⟨_, c', _, _, hj, hkey, _⟩ := hreceived'
      refine h.inService hj ?_
      rw [← hkey]
      rfl

/-- **Where packets come from.** Whatever is handed to a route was received while that route was
installed and ready. -/
theorem Run.origin (h : Run config log t) (hat : log[n]? = some e)
    (hdelivers : e.delivers = some (route, payload)) : Origin log n route payload := by
  cases e with
  | data flowId route' datagram payload' enqueued =>
    cases enqueued with
    | false => cases hdelivers
    | true =>
      cases hdelivers
      exact .data hat (h.inService hat rfl)
  | fragment route' datagram c effect enqueued =>
    cases enqueued with
    | false => cases hdelivers
    | true =>
      simp only [Event.delivers] at hdelivers
      split at hdelivers
      · rename_i outcome
        cases hdelivers
        exact h.completed hat outcome
      · cases hdelivers
  | _ => cases hdelivers

end Run

/-! ## Systems with a table -/

/-- What a step of a larger system is for the table in it. -/
inductive Advances (log : List (Event R)) (t : Table R) (log' : List (Event R)) (t' : Table R) :
    Prop
  | same (log_eq : log' = log) (table_eq : t' = t)
  | event (e : Event R) (log_eq : log' = log ++ [e]) (step : t.Step e t')

/-- The packet has been handed to the route. -/
def Delivered (log : List (Event R)) (route : Nat) (payload : List UInt8) : Prop :=
  ∃ (n : Nat) (e : Event R), log[n]? = some e ∧ e.delivers = some (route, payload)

section Advances

variable {config : ReassemblyConfig} {log log' : List (Event R)} {t t' : Table R} {route : Nat}
  {payload : List UInt8}

theorem Advances.run (h : Advances log t log' t') (hrun : Run config log t) :
    Run config log' t' := by
  cases h with
  | same log_eq table_eq =>
    subst log_eq table_eq
    exact hrun
  | event e log_eq step =>
    subst log_eq
    exact .step hrun step

theorem Advances.extends (h : Advances log t log' t') : ∃ more, log' = log ++ more := by
  cases h with
  | same log_eq => exact ⟨[], by rw [log_eq, List.append_nil]⟩
  | event e log_eq => exact ⟨[e], log_eq⟩

theorem Delivered.append (h : Delivered log route payload) (more : List (Event R)) :
    Delivered (log ++ more) route payload := by
  obtain ⟨n, e, hat, hdelivers⟩ := h
  exact ⟨n, e, getElem?_append_of_lt more hat, hdelivers⟩

theorem delivered_last {e : Event R} (hdelivers : e.delivers = some (route, payload)) :
    Delivered (log ++ [e]) route payload :=
  ⟨log.length, e, by simp, hdelivers⟩

theorem Delivered.origin (h : Delivered log route payload) (hrun : Run config log t) :
    ∃ n, Origin log n route payload := by
  obtain ⟨n, e, hat, hdelivers⟩ := h
  exact ⟨n, hrun.origin hat hdelivers⟩

end Advances

/-- Two tables with the same routes, count and reassembler. -/
theorem eq_of_routes {t t' : Table R} (hroutes : ∀ flowId, t.routes flowId = t'.routes flowId)
    (hinstalled : t.installed = t'.installed) (hreassembler : t.reassembler = t'.reassembler) :
    t = t' := by
  cases t
  cases t'
  cases hinstalled
  cases hreassembler
  rw [Table.mk.injEq]
  exact ⟨funext hroutes, rfl, rfl⟩

end Table

end Nowhere.Protocol
