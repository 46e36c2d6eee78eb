import Mathlib.Algebra.Order.BigOperators.Group.List
import Mathlib.Algebra.Order.Group.Nat
import Nowhere.Protocol.ReassemblyHistory

/-!
# Fragmentation followed by reassembly

A packet cut into FRAGMENT frames comes back whole, in whatever order its fragments arrive,
however often they are repeated, and whatever else is pushed in between. The two halves meet at
`UdpFragments.shape`, the contents of a slot in which some of the fragments of a plan have been
seen: a push of the packet fills in one more of them (`own_push`), a push of another packet
leaves the slot alone (`other_push`), and the push that fills the last hole returns the packet.
-/

namespace Nowhere.Protocol

open Assoc Holes Bytes DatagramReassembler

variable {R : Type}

/-! ## The slot of a plan -/

namespace UdpFragments

variable {it : UdpFragments} {seen : Nat → Bool}

def key (it : UdpFragments) : ReassemblyKey := ⟨it.flowId, it.packetId⟩

/-- The fragments of the plan, with holes for those that have not been seen. -/
def shape (it : UdpFragments) (seen : Nat → Bool) : List (Option (List UInt8)) :=
  (List.range it.fragmentCount.toNat).map fun i =>
    if seen i then some (chunk it.payload it.fragmentPayloadMax i) else none

variable {i : Nat}

theorem shape_getElem? (hi : i < it.fragmentCount.toNat) :
    (it.shape seen)[i]? =
      some (if seen i then some (chunk it.payload it.fragmentPayloadMax i) else none) := by
  rw [shape, List.getElem?_map, List.getElem?_range hi, Option.map_some]

theorem shape_set (hi : i < it.fragmentCount.toNat) :
    (it.shape seen).set i (some (chunk it.payload it.fragmentPayloadMax i)) =
      it.shape (Function.update seen i true) := by
  apply List.ext_getElem?
  intro j
  rcases Nat.lt_or_ge j it.fragmentCount.toNat with hj | hj
  · rw [List.getElem?_set, shape_getElem? hj, shape_getElem? hj]
    by_cases hij : i = j
    · subst hij
      simp [shape, hi]
    · simp [hij, Function.update_of_ne (Ne.symm hij)]
  · rw [List.getElem?_eq_none (by simpa [shape] using hj),
      List.getElem?_eq_none (by simpa [shape] using hj)]

/-- A shape without holes has seen everything, and holds the packet. -/
theorem Valid.shape_full (h : it.Valid) {payloads : List (List UInt8)}
    (hfull : it.shape seen = payloads.map some) :
    payloads.flatten = it.payload ∧ ∀ i < it.fragmentCount.toNat, seen i = true := by
  have hat (i : Nat) (hi : i < it.fragmentCount.toNat) : seen i = true ∧
      payloads[i]? = some (chunk it.payload it.fragmentPayloadMax i) := by
    have hi' := congrArg (fun xs => xs[i]?) hfull
    simp only [shape_getElem? hi, List.getElem?_map] at hi'
    cases hpart : payloads[i]? with
    | none =>
      rw [hpart] at hi'
      cases hi'
    | some part =>
      rw [hpart, Option.map_some, Option.some.injEq] at hi'
      split at hi'
      · rename_i hseen
        exact ⟨hseen, congrArg some (Option.some.inj hi').symm⟩
      · cases hi'
  have hlength : payloads.length = it.fragmentCount.toNat := by
    have hlength := congrArg List.length hfull
    simpa [shape] using hlength.symm
  have hpayloads : payloads =
      (List.range it.fragmentCount.toNat).map (chunk it.payload it.fragmentPayloadMax) := by
    apply List.ext_getElem?
    intro i
    rcases Nat.lt_or_ge i it.fragmentCount.toNat with hi | hi
    · rw [(hat i hi).2, List.getElem?_map, List.getElem?_range hi, Option.map_some]
    · rw [List.getElem?_eq_none (by omega), List.getElem?_eq_none (by simpa using hi)]
  refine ⟨?_, fun i hi => (hat i hi).1⟩
  rw [hpayloads]
  exact h.flatten_chunks

/-- What has been seen is no longer than the packet. -/
theorem Valid.weight_shape_le (h : it.Valid) (seen : Nat → Bool) :
    weight List.length (it.shape seen) ≤ it.payload.length := by
  have hle : weight List.length (it.shape seen) ≤
      ((List.range it.fragmentCount.toNat).map fun i =>
        (chunk it.payload it.fragmentPayloadMax i).length).sum := by
    simp only [weight, shape, List.map_map]
    apply List.sum_le_sum
    intro i _
    simp only [Function.comp_apply]
    split
    · exact le_rfl
    · exact Nat.zero_le _
  have hsum := congrArg List.length h.flatten_chunks
  rw [List.length_flatten, List.map_map] at hsum
  exact hle.trans hsum.le

/-- The fragments of a plan pass the checks of `push_with`. -/
theorem Valid.accepted (h : it.Valid) (hi : i < it.fragmentCount.toNat) :
    (it.fragment i).Accepted it.flowId where
  flow_ne := h.flow_ne
  packet_ne := h.packet_ne
  two_le := h.two_le
  index_lt := by simpa only [fragment, index hi] using hi
  count_le := by simpa only [fragment, h.totalLen] using h.count_le
  payload_ne := h.chunk_ne_nil hi
  payload_le := by simpa only [fragment, h.totalLen] using h.chunk_fits i

theorem fragment_inj {j : Nat} (hi : i < it.fragmentCount.toNat) (hj : j < it.fragmentCount.toNat)
    (h : it.fragment i = it.fragment j) : i = j := by
  have hindex := congrArg (fun f => f.fragmentIndex.toNat) h
  simpa only [fragment, Valid.index hi, Valid.index hj] using hindex

end UdpFragments

/-- The slot of the plan `it`, created at `t₀`, with the fragments `seen`. -/
structure Partly (it : UdpFragments) (t₀ : Nat) (seen : Nat → Bool) (slot : ReassemblySlot R) :
    Prop where
  createdAt : slot.createdAt = t₀
  count : slot.fragmentCount = it.fragmentCount
  totalLen : slot.totalLen = UInt16.ofNat it.payload.length
  fragments : slot.fragments = it.shape seen

/-! ## Slots that stay -/

section

variable {r : DatagramReassembler R} {key : ReassemblyKey} {slot : ReassemblySlot R} {c : Push R}
  {e : Effect R} {now : Nat}

/-- A slot survives the sweep for as long as its time to live. -/
theorem expire_keeps (found : r.slots.lookup key = some slot)
    (intime : now - slot.createdAt ≤ r.config.ttl) :
    (r.expire now).state.slots.lookup key = some slot := by
  unfold DatagramReassembler.expire
  split
  · exact found
  · split
    · exact found
    · simp only [sweep, lookup_retain, found, Option.filter_some, keeps, intime, decide_true,
        if_true]

theorem expire_missing (missing : r.slots.lookup key = none) :
    (r.expire now).state.slots.lookup key = none := by
  apply Option.eq_none_iff_forall_ne_some.mpr
  intro slot hfound
  rw [((removes_expire r now).kept hfound).1] at missing
  cases missing

/-- No slot is given up while there is room for another one. -/
theorem evictOldest_of_lt {s : Swept R} (pick : Nat)
    (room : s.state.slots.entries.length < s.state.config.maxSlots) : evictOldest s pick = s := by
  rw [evictOldest, if_neg (Nat.not_le.mpr room)]

/-- The push finds an open slot for its packet, or room for one. -/
def findsRoom (r : DatagramReassembler R) (c : Push R) : Bool :=
  ((r.expire c.now).state.slots.lookup c.key).isSome ||
    decide ((r.expire c.now).state.slots.entries.length < r.config.maxSlots)

theorem length_lt_of_findsRoom (h : findsRoom r c = true)
    (missing : (r.expire c.now).state.slots.lookup c.key = none) :
    (r.expire c.now).state.slots.entries.length < r.config.maxSlots := by
  simpa [findsRoom, missing] using h

theorem evictOldest_of_findsRoom (h : findsRoom r c = true)
    (missing : (r.expire c.now).state.slots.lookup c.key = none) :
    evictOldest (r.expire c.now) c.pick = r.expire c.now := by
  apply evictOldest_of_lt
  rw [(removes_expire r c.now).config]
  exact length_lt_of_findsRoom h missing

/-- A push of another packet leaves a slot alone. -/
theorem other_push (h : Pushed r c e) (room : findsRoom r c = true) (other : c.key ≠ key)
    (found : r.slots.lookup key = some slot)
    (intime : c.now - slot.createdAt ≤ r.config.ttl) :
    e.state.slots.lookup key = some slot := by
  have hkept := expire_keeps found intime
  cases h with
  | invalid => exact found
  | stored => rw [lookup_insert, if_neg (Ne.symm other), hkept]
  | repeated => exact hkept
  | outsized => exact hkept
  | full _ missing evicted => rw [evicted, evictOldest_of_findsRoom room missing, hkept]
  | unreserved _ missing evicted => rw [evicted, evictOldest_of_findsRoom room missing, hkept]
  | opened _ missing evicted =>
    rw [openSlot, lookup_insert, if_neg (Ne.symm other), evicted,
      evictOldest_of_findsRoom room missing, hkept]
  | _ => simp only [without, lookup_erase, if_neg (Ne.symm other), hkept]

/-- A push of another packet creates no slot for this one. -/
theorem other_push_missing (h : Pushed r c e) (other : c.key ≠ key)
    (missing : r.slots.lookup key = none) : e.state.slots.lookup key = none := by
  apply Option.eq_none_iff_forall_ne_some.mpr
  intro slot hfound
  cases h.slot_from hfound with
  | same found =>
    rw [found] at missing
    cases missing
  | stored by_push own => exact other ((congrArg Push.key (Call.push.inj by_push)).trans own)
  | opened by_push own => exact other ((congrArg Push.key (Call.push.inj by_push)).trans own)

end

/-! ## Pushes of the packet -/

section

variable {it : UdpFragments} {r : DatagramReassembler R} {slot : ReassemblySlot R} {c : Push R}
  {e : Effect R} {t₀ i : Nat} {seen : Nat → Bool}

theorem Partly.alike (h : Partly it t₀ seen slot) : slot.Matches (it.fragment i) :=
  ⟨h.count, h.totalLen⟩

/-- Storing a fragment of the plan marks it as seen. -/
theorem Partly.store (h : Partly it t₀ seen slot) (hi : i < it.fragmentCount.toNat) :
    Partly it t₀ (Function.update seen i true) (slot.store (it.fragment i)) where
  createdAt := h.createdAt
  count := h.count
  totalLen := h.totalLen
  fragments := by
    simp only [ReassemblySlot.store, h.fragments]
    rw [UdpFragments.fragment, UdpFragments.Valid.index hi]
    exact UdpFragments.shape_set hi

/-- A fragment that fills a hole always fits. -/
theorem Partly.fits (h : Partly it t₀ seen slot) (hit : it.Valid) (hslot : slot.Valid)
    (hi : i < it.fragmentCount.toNat)
    (hole : slot.fragments[(it.fragment i).fragmentIndex.toNat]? = some none) :
    slot.retained + (it.fragment i).payload.length ≤ slot.totalLen.toNat := by
  have hweight := weight_set List.length hole (it.fragment i).payload
  have hstore := (h.store hi).fragments
  simp only [ReassemblySlot.store] at hstore
  rw [hstore] at hweight
  have hle := hit.weight_shape_le (Function.update seen i true)
  rw [h.totalLen, hit.totalLen, hslot.retained]
  omega

/-- A slot that the fragment fills up has the length of the packet. -/
theorem Partly.fills_up (h : Partly it t₀ seen slot) (hit : it.Valid) (hslot : slot.Valid)
    (hi : i < it.fragmentCount.toNat)
    (hole : slot.fragments[(it.fragment i).fragmentIndex.toNat]? = some none)
    (last : ¬ slot.received + 1 < slot.fragmentCount.toNat) :
    slot.retained + (it.fragment i).payload.length = slot.totalLen.toNat := by
  obtain ⟨payloads, hfull⟩ := hslot.store_full hole last
  have hpacket := (hit.shape_full ((h.store hi).fragments.symm.trans hfull)).1
  have hweight : weight List.length (slot.store (it.fragment i)).fragments =
      slot.retained + (it.fragment i).payload.length := by
    rw [hslot.retained]
    exact weight_set _ hole _
  rw [hfull, weight_map_some, ← List.length_flatten, hpacket] at hweight
  rw [h.totalLen, hit.totalLen, hweight]

/-- What the slot has in the place of a fragment. -/
theorem Partly.place (h : Partly it t₀ seen slot) (hi : i < it.fragmentCount.toNat) :
    slot.fragments[(it.fragment i).fragmentIndex.toNat]? =
      some (if seen i then some (it.fragment i).payload else none) := by
  rw [h.fragments, UdpFragments.fragment, UdpFragments.Valid.index hi]
  exact UdpFragments.shape_getElem? hi

theorem Partly.seen_of_taken {taken : List UInt8} (h : Partly it t₀ seen slot)
    (hi : i < it.fragmentCount.toNat)
    (htaken : slot.fragments[(it.fragment i).fragmentIndex.toNat]? = some (some taken)) :
    seen i = true ∧ taken = (it.fragment i).payload := by
  rw [h.place hi] at htaken
  split at htaken
  · exact ⟨‹_›, (Option.some.inj (Option.some.inj htaken)).symm⟩
  · cases htaken

theorem Partly.unseen_of_hole (h : Partly it t₀ seen slot) (hi : i < it.fragmentCount.toNat)
    (hole : slot.fragments[(it.fragment i).fragmentIndex.toNat]? = some none) :
    seen i = false := by
  rw [h.place hi] at hole
  split at hole
  · cases hole
  · exact Bool.eq_false_iff.mpr ‹_›

/-- The push of a fragment of the packet fills it in, or completes the packet. -/
theorem own_push (hit : it.Valid) (hr : r.Valid) (found : r.slots.lookup it.key = some slot)
    (hslot : Partly it t₀ seen slot) (own : c.key = it.key) (hi : i < it.fragmentCount.toNat)
    (hfragment : c.fragment = it.fragment i) (intime : c.now - t₀ ≤ r.config.ttl)
    (h : Pushed r c e) :
    (∃ evicted slot', e.outcome = some (.pending evicted) ∧
      e.state.slots.lookup it.key = some slot' ∧
      Partly it t₀ (Function.update seen i true) slot') ∨
    (seen i = false ∧ (∀ k < it.fragmentCount.toNat, k ≠ i → seen k = true) ∧
      ∃ reservation evicted, e.outcome = some (.complete it.payload reservation evicted)) := by
  have hkept : (r.expire c.now).state.slots.lookup c.key = some slot := by
    rw [own]
    exact expire_keeps found (hslot.createdAt ▸ intime)
  have hvalid := hr.slot_valid found
  have hflow : c.flowId = it.flowId := congrArg ReassemblyKey.flowId own
  have haccepted : c.fragment.Accepted c.flowId := by
    rw [hfragment, hflow]
    exact hit.accepted hi
  cases h with
  | invalid refused =>
    rw [invalidFragment_eq_false.mpr haccepted] at refused
    cases refused
  | gaveUp _ found' cause =>
    obtain rfl := Option.some.inj (hkept.symm.trans found')
    cases cause with
    | metadata differs => exact (differs (hfragment ▸ hslot.alike)).elim
    | duplicate _ taken differs =>
      rw [hfragment] at taken differs
      exact (differs (hslot.seen_of_taken hi taken).2).elim
    | overlong _ hole exceeds =>
      rw [hfragment] at hole exceeds
      have hfits := hslot.fits hit hvalid hi hole
      omega
  | repeated _ found' _ taken =>
    obtain rfl := Option.some.inj (hkept.symm.trans found')
    rw [hfragment] at taken
    have hupdate : Function.update seen i true = seen := by
      rw [← (hslot.seen_of_taken hi taken).1, Function.update_eq_self]
    rw [hupdate]
    exact .inl ⟨_, slot, rfl, own ▸ hkept, hslot⟩
  | stored _ found' =>
    obtain rfl := Option.some.inj (hkept.symm.trans found')
    refine .inl ⟨_, slot.store c.fragment, rfl, ?_, hfragment ▸ hslot.store hi⟩
    rw [own, lookup_insert, if_pos rfl]
  | short _ found' fills last differs =>
    obtain rfl := Option.some.inj (hkept.symm.trans found')
    have hole := fills.hole
    rw [hfragment] at hole differs
    exact (differs (hslot.fills_up hit hvalid hi hole last)).elim
  | completed _ found' fills _ _ full =>
    obtain rfl := Option.some.inj (hkept.symm.trans found')
    have hole := fills.hole
    rw [hfragment] at hole
    have hstore := hfragment ▸ (hslot.store hi).fragments
    obtain ⟨hpacket, hall⟩ := hit.shape_full (hstore.symm.trans full)
    refine .inr ⟨hslot.unseen_of_hole hi hole, fun k hk hne => ?_, slot.reservation, _,
      by rw [hpacket]⟩
    have hseen := hall k hk
    rwa [Function.update_of_ne hne] at hseen
  | outsized _ missing => rw [hkept] at missing; cases missing
  | full _ missing => rw [hkept] at missing; cases missing
  | unreserved _ missing => rw [hkept] at missing; cases missing
  | opened _ missing => rw [hkept] at missing; cases missing

/-- The first fragment of the packet opens its slot. -/
theorem first_push (hit : it.Valid) (missing : r.slots.lookup it.key = none)
    (own : c.key = it.key) (hi : i < it.fragmentCount.toNat)
    (hfragment : c.fragment = it.fragment i) (room : findsRoom r c = true)
    (fits : (r.expire c.now).state.reservedBytes + it.payload.length ≤ r.config.maxBytes)
    (granted : (c.reserve (UInt16.ofNat it.payload.length)).isSome) (h : Pushed r c e) :
    ∃ evicted slot, e.outcome = some (.pending evicted) ∧
      e.state.slots.lookup it.key = some slot ∧
      Partly it c.now (Function.update (fun _ => false) i true) slot := by
  have hmissing : (r.expire c.now).state.slots.lookup c.key = none := by
    rw [own]
    exact expire_missing missing
  have hflow : c.flowId = it.flowId := congrArg ReassemblyKey.flowId own
  have haccepted : c.fragment.Accepted c.flowId := by
    rw [hfragment, hflow]
    exact hit.accepted hi
  have hconfig := (removes_expire r c.now).config
  have hroom := length_lt_of_findsRoom room hmissing
  have hevict := evictOldest_of_findsRoom room hmissing
  have htotal : c.fragment.totalLen = UInt16.ofNat it.payload.length := by
    rw [hfragment]
    rfl
  have hlength : c.fragment.totalLen.toNat = it.payload.length := by
    rw [htotal, hit.totalLen]
  cases h with
  | invalid refused =>
    rw [invalidFragment_eq_false.mpr haccepted] at refused
    cases refused
  | outsized _ _ limit =>
    rw [hconfig] at limit
    omega
  | full _ _ evicted limit =>
    rw [hevict] at evicted
    subst evicted
    rw [hconfig] at limit
    omega
  | unreserved _ _ _ refused =>
    rw [htotal] at refused
    rw [refused] at granted
    cases granted
  | @opened _ reservation _ _ evicted =>
    refine ⟨_, .first c.fragment c.now reservation, rfl, ?_, ⟨rfl, ?_, htotal, ?_⟩⟩
    · rw [openSlot, own, lookup_insert, if_pos rfl]
    · rw [hfragment]
      rfl
    · rw [hfragment]
      simp only [ReassemblySlot.first, UdpFragments.fragment, UdpFragments.Valid.index hi]
      rw [← UdpFragments.shape_set hi]
      congr 1
      simp [UdpFragments.shape]
  | gaveUp _ found => rw [hmissing] at found; cases found
  | repeated _ found => rw [hmissing] at found; cases found
  | stored _ found => rw [hmissing] at found; cases found
  | short _ found => rw [hmissing] at found; cases found
  | completed _ found => rw [hmissing] at found; cases found

end

/-! ## Runs -/

/-- Every push of the sequence finds room. -/
def roomy (r : DatagramReassembler R) : List (Push R) → Bool
  | [] => true
  | c :: calls =>
    findsRoom r c &&
      match r.apply (.push c) with
      | .ok e => roomy e.state calls
      | .error _ => true

/-- The push `c` delivered the fragment `k`, the last one missing, and returned the packet; the
pushes of the packet among `before` returned `Pending`. -/
structure Finish (it : UdpFragments) (seen : Nat → Bool) (before : List (Push R × Effect R))
    (c : Push R) (e : Effect R) (k : Nat) : Prop where
  own : c.key = it.key
  index : k < it.fragmentCount.toNat
  fragment : c.fragment = it.fragment k
  missing : seen k = false
  complete : ∃ reservation evicted, e.outcome = some (.complete it.payload reservation evicted)
  pending : ∀ d ∈ before, d.1.key = it.key →
    d.1.fragment ≠ c.fragment ∧ ∃ evicted, d.2.outcome = some (.pending evicted)
  covered : ∀ i < it.fragmentCount.toNat, seen i = true ∨ i = k ∨
    ∃ d ∈ before, d.1.key = it.key ∧ d.1.fragment = it.fragment i

section

variable {it : UdpFragments} {seen : Nat → Bool} {before : List (Push R × Effect R)}
  {c d : Push R} {e f : Effect R} {k i : Nat}

theorem Finish.cons_other (h : Finish it seen before c e k) (other : d.key ≠ it.key) :
    Finish it seen ((d, f) :: before) c e k where
  own := h.own
  index := h.index
  fragment := h.fragment
  missing := h.missing
  complete := h.complete
  pending x hx hown := by
    rcases List.mem_cons.mp hx with rfl | hx
    · exact (other hown).elim
    · exact h.pending x hx hown
  covered i hi := by
    rcases h.covered i hi with hseen | rfl | ⟨x, hx, hown⟩
    · exact .inl hseen
    · exact .inr (.inl rfl)
    · exact .inr (.inr ⟨x, List.mem_cons_of_mem _ hx, hown⟩)

/-- A push of the packet that left it pending comes before the rest. -/
theorem Finish.cons_own (h : Finish it (Function.update seen i true) before c e k)
    (own : d.key = it.key) (hi : i < it.fragmentCount.toNat)
    (hfragment : d.fragment = it.fragment i)
    (hpending : ∃ evicted, f.outcome = some (.pending evicted)) :
    Finish it seen ((d, f) :: before) c e k := by
  have hne : k ≠ i := by
    rintro rfl
    have hmissing := h.missing
    rw [Function.update_self] at hmissing
    cases hmissing
  refine ⟨h.own, h.index, h.fragment, ?_, h.complete, fun x hx hown => ?_, fun j hj => ?_⟩
  · have hmissing := h.missing
    rwa [Function.update_of_ne hne] at hmissing
  · rcases List.mem_cons.mp hx with rfl | hx
    · refine ⟨fun hsame => hne ?_, hpending⟩
      rw [hfragment, h.fragment] at hsame
      exact (UdpFragments.fragment_inj hi h.index hsame).symm
    · exact h.pending x hx hown
  · by_cases hij : j = i
    · subst hij
      exact .inr (.inr ⟨(d, f), List.mem_cons_self, own, hfragment⟩)
    · rcases h.covered j hj with hseen | rfl | ⟨x, hx, hown⟩
      · rw [Function.update_of_ne hij] at hseen
        exact .inl hseen
      · exact .inr (.inl rfl)
      · exact .inr (.inr ⟨x, List.mem_cons_of_mem _ hx, hown⟩)

end

variable {it : UdpFragments} {t₀ : Nat} {seen : Nat → Bool} {slot : ReassemblySlot R}
  {calls : List (Push R)} {r r₁ : DatagramReassembler R} {effects : List (Effect R)}

/-- An open slot misses some fragment. -/
theorem Partly.exists_missing (h : Partly it t₀ seen slot) (hslot : slot.Valid) :
    ∃ i < it.fragmentCount.toNat, seen i = false := by
  by_contra hnone
  have hall (i : Nat) (hi : i < it.fragmentCount.toNat) : seen i = true := by
    by_contra hseen
    exact hnone ⟨i, hi, Bool.eq_false_iff.mpr hseen⟩
  have hfilled : filled slot.fragments = slot.fragments.length := by
    apply List.countP_eq_length.mpr
    intro x hx
    rw [h.fragments, UdpFragments.shape, List.mem_map] at hx
    obtain ⟨i, hi, rfl⟩ := hx
    rw [hall i (List.mem_range.mp hi)]
    rfl
  have hincomplete := hslot.incomplete
  rw [hslot.received, hfilled, hslot.length] at hincomplete
  exact Nat.lt_irrefl _ hincomplete

/-- Pushes that deliver what an open slot misses complete its packet. -/
theorem run_finishes {it : UdpFragments} (hit : it.Valid) {t₀ : Nat} {calls : List (Push R)}
    {r : DatagramReassembler R} {slot : ReassemblySlot R} {seen : Nat → Bool} (hr : r.Valid)
    (found : r.slots.lookup it.key = some slot) (hslot : Partly it t₀ seen slot)
    (planned : ∀ c ∈ calls, c.key = it.key →
      ∃ i < it.fragmentCount.toNat, c.fragment = it.fragment i)
    (all : ∀ i < it.fragmentCount.toNat, seen i = false →
      ∃ c ∈ calls, c.key = it.key ∧ c.fragment = it.fragment i)
    (intime : ∀ c ∈ calls, c.now - t₀ ≤ r.config.ttl) (room : roomy r calls = true) :
    ∃ effects last before c e after k, r.run (calls.map Call.push) = .ok (effects, last) ∧
      calls.zip effects = before ++ (c, e) :: after ∧ Finish it seen before c e k := by
  induction calls generalizing r slot seen with
  | nil =>
    obtain ⟨i, hi, hmissing⟩ := hslot.exists_missing (hr.slot_valid found)
    obtain ⟨c, hc, _⟩ := all i hi hmissing
    cases hc
  | cons d calls ih =>
    obtain ⟨f, hresult, hpushed⟩ := push_cases hr.slot_valid d
    simp only [roomy, hresult, Bool.and_eq_true] at room
    obtain ⟨hfinds, hroomy⟩ := room
    have hvalid := hpushed.valid hr
    have hintime (c : Push R) (hc : c ∈ calls) : c.now - t₀ ≤ f.state.config.ttl := by
      rw [hpushed.config]
      exact intime c (List.mem_cons_of_mem _ hc)
    have hplanned (c : Push R) (hc : c ∈ calls) (hown : c.key = it.key) :=
      planned c (List.mem_cons_of_mem _ hc) hown
    by_cases hown : d.key = it.key
    · obtain ⟨i, hi, hfragment⟩ := planned d List.mem_cons_self hown
      rcases own_push hit hr found hslot hown hi hfragment (intime d List.mem_cons_self)
        hpushed with ⟨evicted, slot', hpending, hfound, hpartly⟩ | ⟨hmissing, hothers, hcomplete⟩
      · -- the fragments that are still missing come later
        have hall (j : Nat) (hj : j < it.fragmentCount.toNat)
            (hmissing : Function.update seen i true j = false) :
            ∃ c ∈ calls, c.key = it.key ∧ c.fragment = it.fragment j := by
          have hij : j ≠ i := by
            rintro rfl
            rw [Function.update_self] at hmissing
            cases hmissing
          rw [Function.update_of_ne hij] at hmissing
          obtain ⟨c, hc, hkey, hfrag⟩ := all j hj hmissing
          rcases List.mem_cons.mp hc with rfl | hc
          · exact (hij (UdpFragments.fragment_inj hj hi (hfrag.symm.trans hfragment))).elim
          · exact ⟨c, hc, hkey, hfrag⟩
        obtain ⟨effects, last, before, c, e, after, k, hrun, hzip, hfinish⟩ :=
          ih hvalid hfound hpartly hplanned hall hintime hroomy
        refine ⟨f :: effects, last, (d, f) :: before, c, e, after, k, run_cons hresult hrun, ?_,
          hfinish.cons_own hown hi hfragment ⟨evicted, hpending⟩⟩
        rw [List.zip_cons_cons, hzip, List.cons_append]
      · obtain ⟨effects, last, hrun⟩ := run_ok hvalid (calls.map Call.push)
        refine ⟨f :: effects, last, [], d, f, calls.zip effects, i, run_cons hresult hrun, rfl,
          hown, hi, hfragment, hmissing, hcomplete, by simp, fun j hj => ?_⟩
        by_cases hij : j = i
        · exact .inr (.inl hij)
        · exact .inl (hothers j hj hij)
    · have hall (j : Nat) (hj : j < it.fragmentCount.toNat) (hmissing : seen j = false) :
          ∃ c ∈ calls, c.key = it.key ∧ c.fragment = it.fragment j := by
        obtain ⟨c, hc, hkey, hfrag⟩ := all j hj hmissing
        rcases List.mem_cons.mp hc with rfl | hc
        · exact (hown hkey).elim
        · exact ⟨c, hc, hkey, hfrag⟩
      have hfound := other_push hpushed hfinds hown found
        (hslot.createdAt ▸ intime d List.mem_cons_self)
      obtain ⟨effects, last, before, c, e, after, k, hrun, hzip, hfinish⟩ :=
        ih hvalid hfound hslot hplanned hall hintime hroomy
      refine ⟨f :: effects, last, (d, f) :: before, c, e, after, k, run_cons hresult hrun, ?_,
        hfinish.cons_other hown⟩
      rw [List.zip_cons_cons, hzip, List.cons_append]

theorem run_append {r₂ : DatagramReassembler R} {calls more : List (Call R)}
    {effects' : List (Effect R)} (h₁ : r.run calls = .ok (effects, r₁))
    (h₂ : r₁.run more = .ok (effects', r₂)) :
    r.run (calls ++ more) = .ok (effects ++ effects', r₂) := by
  induction calls generalizing r effects with
  | nil =>
    obtain ⟨rfl, rfl⟩ := Prod.mk.inj (Except.ok.inj h₁)
    exact h₂
  | cons call calls ih =>
    simp only [DatagramReassembler.run, bind_eq_ok] at h₁
    obtain ⟨e, hresult, ⟨rest, last⟩, hrest, hreturn⟩ := h₁
    obtain ⟨rfl, rfl⟩ := Prod.mk.inj (Except.ok.inj hreturn)
    exact run_cons hresult (ih hrest)

/-- Before its first fragment arrives, a packet has no slot. -/
theorem run_missing {key : ReassemblyKey} (hr : r.Valid) (others : ∀ c ∈ calls, c.key ≠ key)
    (missing : r.slots.lookup key = none) (hrun : r.run (calls.map Call.push) = .ok (effects, r₁)) :
    r₁.slots.lookup key = none ∧ effects.length = calls.length := by
  induction calls generalizing r effects with
  | nil =>
    obtain ⟨rfl, rfl⟩ := Prod.mk.inj (Except.ok.inj hrun)
    exact ⟨missing, rfl⟩
  | cons c calls ih =>
    simp only [List.map_cons, DatagramReassembler.run, bind_eq_ok] at hrun
    obtain ⟨e, hresult, ⟨rest, last⟩, hrest, hreturn⟩ := hrun
    obtain ⟨rfl, rfl⟩ := Prod.mk.inj (Except.ok.inj hreturn)
    obtain ⟨e', hresult', hpushed⟩ := push_cases hr.slot_valid c
    obtain rfl := Except.ok.inj (hresult.symm.trans hresult')
    have hmissing := other_push_missing hpushed (others c List.mem_cons_self) missing
    obtain ⟨hlookup, hlength⟩ := ih (hpushed.valid hr)
      (fun d hd => others d (List.mem_cons_of_mem _ hd)) hmissing hrest
    exact ⟨hlookup, by rw [List.length_cons, List.length_cons, hlength]⟩

/-- The packet comes back from the first push of a fragment on. -/
theorem run_reassembles {it : UdpFragments} (hit : it.Valid) {first : Push R}
    {rest : List (Push R)} {r : DatagramReassembler R} (hr : r.Valid)
    (missing : r.slots.lookup it.key = none) (own : first.key = it.key)
    (planned : ∀ c ∈ first :: rest, c.key = it.key →
      ∃ i < it.fragmentCount.toNat, c.fragment = it.fragment i)
    (all : ∀ i < it.fragmentCount.toNat,
      ∃ c ∈ first :: rest, c.key = it.key ∧ c.fragment = it.fragment i)
    (intime : ∀ c ∈ first :: rest, c.now - first.now ≤ r.config.ttl)
    (room : roomy r (first :: rest) = true)
    (fits : (r.expire first.now).state.reservedBytes + it.payload.length ≤ r.config.maxBytes)
    (granted : (first.reserve (UInt16.ofNat it.payload.length)).isSome) :
    ∃ effects last before c e after k,
      r.run ((first :: rest).map Call.push) = .ok (effects, last) ∧
      (first :: rest).zip effects = before ++ (c, e) :: after ∧
      Finish it (fun _ => false) before c e k := by
  obtain ⟨f, hresult, hpushed⟩ := push_cases hr.slot_valid first
  simp only [roomy, hresult, Bool.and_eq_true] at room
  obtain ⟨i, hi, hfragment⟩ := planned first List.mem_cons_self own
  obtain ⟨evicted, slot, hpending, hfound, hpartly⟩ :=
    first_push hit missing own hi hfragment room.1 fits granted hpushed
  have hall (j : Nat) (hj : j < it.fragmentCount.toNat)
      (hmissing : Function.update (fun _ => false) i true j = false) :
      ∃ c ∈ rest, c.key = it.key ∧ c.fragment = it.fragment j := by
    obtain ⟨c, hc, hkey, hfrag⟩ := all j hj
    rcases List.mem_cons.mp hc with rfl | hc
    · obtain rfl := UdpFragments.fragment_inj hj hi (hfrag.symm.trans hfragment)
      rw [Function.update_self] at hmissing
      cases hmissing
    · exact ⟨c, hc, hkey, hfrag⟩
  obtain ⟨effects, last, before, c, e, after, k, hrun, hzip, hfinish⟩ :=
    run_finishes hit (hpushed.valid hr) hfound hpartly
      (fun c hc => planned c (List.mem_cons_of_mem _ hc)) hall
      (fun c hc => by
        rw [hpushed.config]
        exact intime c (List.mem_cons_of_mem _ hc)) room.2
  refine ⟨f :: effects, last, (first, f) :: before, c, e, after, k, run_cons hresult hrun, ?_,
    hfinish.cons_own own hi hfragment ⟨evicted, hpending⟩⟩
  rw [List.zip_cons_cons, hzip, List.cons_append]

/-- A packet sent as several frames is returned by the push that delivers the last of them to
arrive, and every push of the packet before that one returns `Pending`. -/
theorem fragments_reassemble {config : ReassemblyConfig} {history : List (Call R × Effect R)}
    {r r₁ : DatagramReassembler R} (reachable : History config history r) {flowId : FlowId}
    {packetId : UInt32} {payload : List UInt8} {maxDatagramSize : Nat} {frames : List (List UInt8)}
    (encoded : encodeUdpDataFragments flowId packetId payload maxDatagramSize = .ok frames)
    (many : 2 ≤ frames.length) {ahead rest : List (Push R)} {first : Push R}
    {effects₀ : List (Effect R)}
    (fresh : r.slots.lookup ⟨flowId, packetId⟩ = none)
    (others : ∀ c ∈ ahead, c.key ≠ ⟨flowId, packetId⟩)
    (own : first.key = ⟨flowId, packetId⟩)
    (decoded : ∀ c ∈ first :: rest, c.key = ⟨flowId, packetId⟩ →
      ∃ frame ∈ frames, decodeUdpFrame frame = .ok (.fragment flowId c.fragment))
    (all : ∀ frame ∈ frames, ∃ c ∈ first :: rest, c.key = ⟨flowId, packetId⟩ ∧
      decodeUdpFrame frame = .ok (.fragment flowId c.fragment))
    (reached : r.run (ahead.map Call.push) = .ok (effects₀, r₁))
    (intime : ∀ c ∈ first :: rest, c.now - first.now ≤ config.ttl)
    (room : roomy r₁ (first :: rest) = true)
    (fits : (r₁.expire first.now).state.reservedBytes + payload.length ≤ config.maxBytes)
    (granted : (first.reserve (UInt16.ofNat payload.length)).isSome) :
    ∃ effects last before c e after,
      r.run ((ahead ++ first :: rest).map Call.push) = .ok (effects, last) ∧
      (ahead ++ first :: rest).zip effects = before ++ (c, e) :: after ∧
      c.key = ⟨flowId, packetId⟩ ∧
      (∃ reservation evicted, e.outcome = some (.complete payload reservation evicted)) ∧
      -- `c` is the last one missing
      (∀ frame ∈ frames, ∃ d ∈ before ++ [(c, e)], d.1.key = ⟨flowId, packetId⟩ ∧
        decodeUdpFrame frame = .ok (.fragment flowId d.1.fragment)) ∧
      (∀ d ∈ before, d.1.key = ⟨flowId, packetId⟩ → d.1.fragment ≠ c.fragment ∧
        ∃ evicted, d.2.outcome = some (.pending evicted)) := by
  obtain ⟨it, hit, rfl, rfl, rfl, rfl⟩ := encodeUdpDataFragments_many encoded many
  obtain ⟨hr, rfl⟩ := reachable.valid
  obtain ⟨hr₁, hconfig⟩ := (reachable.run reached).valid
  obtain ⟨hmissing, hlength⟩ := run_missing hr others fresh reached
  have hplanned (c : Push R) (hc : c ∈ first :: rest) (hkey : c.key = it.key) :
      ∃ i < it.fragmentCount.toNat, c.fragment = it.fragment i := by
    obtain ⟨frame, hframe, hdecode⟩ := decoded c hc hkey
    obtain ⟨i, hi, rfl⟩ := List.mem_map.mp hframe
    have hi := List.mem_range.mp hi
    rw [hit.decode_frame hi] at hdecode
    exact ⟨i, hi, (UdpFrame.fragment.inj (Except.ok.inj hdecode)).2.symm⟩
  have hall (i : Nat) (hi : i < it.fragmentCount.toNat) :
      ∃ c ∈ first :: rest, c.key = it.key ∧ c.fragment = it.fragment i := by
    obtain ⟨c, hc, hkey, hdecode⟩ :=
      all (it.frame i) (List.mem_map.mpr ⟨i, List.mem_range.mpr hi, rfl⟩)
    rw [hit.decode_frame hi] at hdecode
    exact ⟨c, hc, hkey, (UdpFrame.fragment.inj (Except.ok.inj hdecode)).2.symm⟩
  rw [← hconfig] at intime fits
  obtain ⟨effects, last, before, c, e, after, k, hrun, hzip, hfinish⟩ :=
    run_reassembles hit hr₁ hmissing own hplanned hall intime room fits granted
  refine ⟨effects₀ ++ effects, last, ahead.zip effects₀ ++ before, c, e, after, ?_, ?_,
    hfinish.own, hfinish.complete, fun frame hframe => ?_, fun d hd hkey => ?_⟩
  · rw [List.map_append]
    exact run_append reached hrun
  · rw [List.zip_append hlength.symm, hzip, List.append_assoc]
  · obtain ⟨i, hi, rfl⟩ := List.mem_map.mp hframe
    have hi := List.mem_range.mp hi
    rw [hit.decode_frame hi]
    rcases hfinish.covered i hi with hseen | rfl | ⟨d, hd, hkey, hfrag⟩
    · cases hseen
    · exact ⟨(c, e), by simp, hfinish.own, by rw [hfinish.fragment]⟩
    · exact ⟨d, by simp [hd], hkey, by rw [hfrag]⟩
  · rcases List.mem_append.mp hd with hd | hd
    · exact (others d.1 (List.of_mem_zip hd).1 hkey).elim
    · exact hfinish.pending d hd hkey

namespace Sample

/-- A packet that two frames of at most 25 bytes carry. -/
def packet : List UInt8 := (List.range 21).map UInt8.ofNat

def part (index : UInt8) : UdpFragment :=
  ⟨9, index, 2, 21, chunk packet 12 index.toNat⟩

def partFrame (index : UInt8) : List UInt8 := fragmentHeader 1 9 index 2 21 ++ (part index).payload

def pushPart (now : Nat) (index : UInt8) : Push Nat := ⟨1, part index, now, fun _ => some now, 0⟩

/-- The second fragment comes first and twice, with another packet in between. -/
theorem shuffledParts_reassemble :
    ∃ (effects : List (Effect Nat)) (last : DatagramReassembler Nat)
      (before : List (Push Nat × Effect Nat)) (c : Push Nat) (e : Effect Nat)
      (after : List (Push Nat × Effect Nat)),
      (DatagramReassembler.new .default).run
        ([pushPart 3 1, pushHalf 4 0 [1, 2], pushPart 5 1, pushPart 6 0].map Call.push) =
          .ok (effects, last) ∧
      [pushPart 3 1, pushHalf 4 0 [1, 2], pushPart 5 1, pushPart 6 0].zip effects =
        before ++ (c, e) :: after ∧
      ∃ reservation evicted, e.outcome = some (.complete packet reservation evicted) := by
  have encoded : encodeUdpDataFragments 1 9 packet 25 = .ok [partFrame 0, partFrame 1] := by
    decide +kernel
  have decoded : ∀ c ∈ [pushPart 3 1, pushHalf 4 0 [1, 2], pushPart 5 1, pushPart 6 0],
      c.key = ⟨1, 9⟩ → ∃ frame ∈ [partFrame 0, partFrame 1],
        decodeUdpFrame frame = .ok (.fragment 1 c.fragment) := by
    decide +kernel
  have all : ∀ frame ∈ [partFrame 0, partFrame 1],
      ∃ c ∈ [pushPart 3 1, pushHalf 4 0 [1, 2], pushPart 5 1, pushPart 6 0], c.key = ⟨1, 9⟩ ∧
        decodeUdpFrame frame = .ok (.fragment 1 c.fragment) := by
    decide +kernel
  have reached : (DatagramReassembler.new .default).run (([] : List (Push Nat)).map Call.push) =
      .ok ([], .new .default) := rfl
  obtain ⟨effects, last, before, c, e, after, hrun, hzip, _, hcomplete, _⟩ :=
    fragments_reassemble .new encoded (by decide) rfl (by simp) rfl decoded all reached
      (by decide) (by decide +kernel) (by decide +kernel) rfl
  exact ⟨effects, last, before, c, e, after, hrun, hzip, hcomplete⟩

end Sample

end Nowhere.Protocol
