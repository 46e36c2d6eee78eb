import Nowhere.Protocol.ReassemblyExpiry

/-!
# Where the bytes of a reassembled packet come from

Positions in a history name the calls that were made. An open slot was created by a push at some
position; no call since then was one that ends a packet (`Spares`), every valid fragment pushed for
it agrees with what it holds, and every fragment in it was pushed at or after that position
(`Live`). The packet of a `Complete` is therefore put together from pushes made since its slot was
created (`Assembled`), and two `Complete` results of one packet lie on both sides of the creation of
the second slot, so that no push serves both.
-/

namespace Nowhere.Protocol

open Assoc Holes DatagramReassembler

variable {R : Type} {config : ReassemblyConfig} {history : List (Call R × Effect R)}
  {r : DatagramReassembler R} {key : ReassemblyKey} {slot slot' : ReassemblySlot R}
  {c first : Push R} {call : Call R} {e : Effect R} {n born j : Nat} {payload : List UInt8}

/-! ## Calls that end a packet -/

/-- The push needs a slot while all are taken, and the one of `key` is the oldest. -/
structure Evicts (r : DatagramReassembler R) (c : Push R) (key : ReassemblyKey) : Prop where
  missing : (r.expire c.now).state.slots.lookup c.key = none
  slots : r.config.maxSlots ≠ 0
  fits : c.fragment.totalLen.toNat ≤ r.config.maxBytes
  full : r.config.maxSlots ≤ (r.expire c.now).state.slots.entries.length
  oldest : minKey (r.expire c.now).state.slots (fun _ slot => slot.createdAt) c.pick = some key

/-- The call does not end the packet of `key` whose slot was created at `createdAt`: it is not
past the time to live, evicts another slot if any, and does not remove the flow or everything.
Instants from `instantEnd` on do not exist. -/
def DatagramReassembler.Spares (r : DatagramReassembler R) (key : ReassemblyKey)
    (createdAt : Nat) : Call R → Prop
  | .push c => invalidFragment c.flowId c.fragment = false →
      (c.now < instantEnd → c.now - createdAt ≤ r.config.ttl) ∧ ¬ Evicts r c key
  | .expire now => now < instantEnd → now - createdAt ≤ r.config.ttl
  | .removeFlow flowId => flowId ≠ key.flowId
  | .clear => False

/-- If the push is one for `key`, the slot is for such packets and holds the same bytes. -/
def ReassemblySlot.Holds (slot : ReassemblySlot R) (key : ReassemblyKey) (c : Push R) : Prop :=
  c.key = key → invalidFragment c.flowId c.fragment = false → slot.Matches c.fragment ∧
    slot.fragments[c.fragment.fragmentIndex.toNat]? = some (some c.fragment.payload)

/-- Where the slot of `key` after a call comes from. -/
inductive SlotFrom (r : DatagramReassembler R) (call : Call R) (e : Effect R) (key : ReassemblyKey)
    (slot : ReassemblySlot R) : Prop
  | same (found : r.slots.lookup key = some slot)
      (spared : r.ExpirySound instantEnd → r.Spares key slot.createdAt call)
      (holds : ∀ c, call = .push c → slot.Holds key c)
  | stored {c : Push R} {before : ReassemblySlot R} (by_push : call = .push c)
      (own : c.key = key) (found : r.slots.lookup key = some before)
      (spared : r.ExpirySound instantEnd → r.Spares key before.createdAt call)
      (fills : Fills before c.fragment) (after : slot = before.store c.fragment)
  | opened {c : Push R} {reservation : R} (by_push : call = .push c) (own : c.key = key)
      (missing : (r.expire c.now).state.slots.lookup key = none) (created : e.opened = some key)
      (after : slot = .first c.fragment c.now reservation)

theorem Evicts.gone (h : Evicts r c key) (pushed : Pushed r c e)
    (accepted : invalidFragment c.flowId c.fragment = false) :
    e.state.slots.lookup key = none := by
  have hconfig := (removes_expire r c.now).config
  have hgone := evictOldest_oldest (hconfig ▸ h.full) h.oldest
  cases pushed with
  | invalid refused =>
    rw [accepted] at refused
    cases refused
  | outsized _ _ limit =>
    rw [hconfig] at limit
    exact (limit.elim h.slots (Nat.not_lt_of_le h.fits)).elim
  | full _ _ room => exact room ▸ hgone
  | unreserved _ _ room => exact room ▸ hgone
  | opened _ _ room =>
    subst room
    obtain ⟨slot, hslot, _⟩ := minKey_least h.oldest
    rw [openSlot, lookup_insert, if_neg, hgone]
    rintro rfl
    rw [h.missing] at hslot
    cases hslot
  | gaveUp _ found | repeated _ found | stored _ found | short _ found | completed _ found =>
    rw [h.missing] at found
    cases found

/-- An accepted push spares the slots that it leaves behind. -/
theorem Pushed.spares (h : Pushed r c e)
    (live : (r.expire c.now).state.slots.lookup key = some slot)
    (stays : (e.state.slots.lookup key).isSome = true ∨ c.key = key)
    (sound : r.ExpirySound instantEnd) : r.Spares key slot.createdAt (.push c) := by
  refine fun accepted => ⟨(lookup_expire live).2 sound, fun hevicts => ?_⟩
  rcases stays with hstays | rfl
  · rw [hevicts.gone h accepted] at hstays
    cases hstays
  · rw [hevicts.missing] at live
    cases live

theorem Pushed.slot_from (h : Pushed r c e) (found : e.state.slots.lookup key = some slot) :
    SlotFrom r (.push c) e key slot := by
  have hspares {before : ReassemblySlot R}
      (live : (r.expire c.now).state.slots.lookup key = some before) :=
    h.spares live (.inl (by rw [found]; rfl))
  -- the slot of another packet
  have hother (live : (r.expire c.now).state.slots.lookup key = some slot) (hne : c.key ≠ key) :
      SlotFrom r (.push c) e key slot :=
    .same (lookup_expire live).1 (hspares live)
      fun c' hc hkey => absurd (Call.push.inj hc ▸ hkey) hne
  have hgone {slot' : ReassemblySlot R}
      (hslot : (r.expire c.now).state.slots.lookup c.key = some slot')
      (found : ((r.expire c.now).state.without c.key slot').slots.lookup key = some slot) :
      SlotFrom r (.push c) e key slot := by
    obtain ⟨live, hkept⟩ := (removes_without hslot).kept found
    exact hother live (hkept _ List.mem_cons_self)
  have hmissing (missing : (r.expire c.now).state.slots.lookup c.key = none)
      (live : (r.expire c.now).state.slots.lookup key = some slot) :
      SlotFrom r (.push c) e key slot := by
    refine hother live ?_
    rintro rfl
    rw [missing] at live
    cases live
  obtain ⟨_, hevict, _⟩ := evictOldest_removes (r.expire c.now) c.pick
  cases h with
  | invalid refused =>
    have hrefused (accepted : invalidFragment c.flowId c.fragment = false) : False := by
      rw [refused] at accepted
      cases accepted
    exact .same found (fun _ accepted => (hrefused accepted).elim)
      fun c' hc _ accepted => (hrefused (Call.push.inj hc ▸ accepted)).elim
  | gaveUp _ hslot => exact hgone hslot found
  | repeated _ hslot alike taken =>
    refine .same (lookup_expire found).1 (hspares found) fun c' hc hkey _ => ?_
    cases hc
    rw [hkey, found] at hslot
    cases hslot
    exact ⟨alike, taken⟩
  | @stored before _ hslot fills =>
    simp only [lookup_insert] at found
    split at found
    · rename_i hkey
      subst hkey
      exact .stored rfl rfl (lookup_expire hslot).1 (hspares hslot) fills
        (Option.some.inj found).symm
    · rename_i hne
      exact hother found (Ne.symm hne)
  | short _ hslot => exact hgone hslot found
  | completed _ hslot => exact hgone hslot found
  | outsized _ missing => exact hmissing missing found
  | full _ missing room => exact hmissing missing (hevict.kept (room ▸ found)).1
  | unreserved _ missing room => exact hmissing missing (hevict.kept (room ▸ found)).1
  | opened _ missing room =>
    subst room
    simp only [openSlot, lookup_insert] at found
    split at found
    · rename_i hkey
      subst hkey
      exact .opened rfl rfl missing rfl (Option.some.inj found).symm
    · exact hmissing missing (hevict.kept found).1

theorem Call.slot_from (valid : r.Valid) (result : r.apply call = .ok e)
    (found : e.state.slots.lookup key = some slot) : SlotFrom r call e key slot := by
  cases call with
  | push c =>
    obtain ⟨e', hresult, hpushed⟩ := push_cases valid.slot_valid c
    cases result.symm.trans hresult
    exact hpushed.slot_from found
  | expire now =>
    cases result
    obtain ⟨hfound, hlive⟩ := lookup_expire found
    exact .same hfound hlive (by simp)
  | removeFlow flowId =>
    cases result
    simp only [DatagramReassembler.removeFlow, lookup_retain, Option.filter_eq_some_iff,
      Bool.not_eq_true', decide_eq_false_iff_not] at found
    exact .same found.1 (fun _ => Ne.symm found.2) (by simp)
  | clear =>
    cases result
    cases found

/-! ## Live slots -/

variable {α : Type} {xs : List α} {x : α} {reservation : R} {n' : Nat} {payload' : List UInt8}

theorem getElem?_snoc {y : α} (h : (xs ++ [x])[j]? = some y) :
    xs[j]? = some y ∨ j = xs.length ∧ y = x := by
  rcases Nat.lt_or_ge j xs.length with hlt | hge
  · rw [List.getElem?_append_left hlt] at h
    exact .inl h
  · rw [List.getElem?_append_right hge, List.getElem?_singleton] at h
    split at h
    · exact .inr ⟨by omega, (Option.some.inj h).symm⟩
    · cases h

theorem take_snoc_drop (h : xs[n]? = some x) :
    xs.take n ++ [x] ++ xs.drop (n + 1) = xs := by
  obtain ⟨hlt, hget⟩ := List.getElem?_eq_some_iff.mp h
  rw [List.append_assoc, List.singleton_append, ← hget, ← List.drop_eq_getElem_cons hlt,
    List.take_append_drop]

/-- The state before the call at position `j`. -/
def stateBefore (config : ReassemblyConfig) (history : List (Call R × Effect R)) :
    Nat → DatagramReassembler R
  | 0 => .new config
  | j + 1 => (history[j]?).elim (.new config) fun step => step.2.state

theorem stateBefore_append (hj : j ≤ history.length) (more : List (Call R × Effect R)) :
    stateBefore config (history ++ more) j = stateBefore config history j := by
  cases j with
  | zero => rfl
  | succ j => rw [stateBefore, List.getElem?_append_left hj, stateBefore]

theorem History.stateBefore_eq (h : History config history r) (more : List (Call R × Effect R)) :
    stateBefore config (history ++ more) history.length = r := by
  rw [stateBefore_append (Nat.le_refl _)]
  cases h with
  | new => rfl
  | call => simp [stateBefore]

/-- At position `j` the fragment `i` of the packet was pushed, with the bytes `part`. -/
def PushedAt (history : List (Call R × Effect R)) (j : Nat) (key : ReassemblyKey) (i : Nat)
    (fragmentCount : UInt8) (totalLen : UInt16) (part : List UInt8) : Prop :=
  ∃ c e, history[j]? = some (.push c, e) ∧ c.key = key ∧ c.fragment.fragmentIndex.toNat = i ∧
    c.fragment.fragmentCount = fragmentCount ∧ c.fragment.totalLen = totalLen ∧
    c.fragment.payload = part

theorem PushedAt.append {i : Nat} {fragmentCount : UInt8} {totalLen : UInt16} {part : List UInt8}
    (h : PushedAt history j key i fragmentCount totalLen part) (more : List (Call R × Effect R)) :
    PushedAt (history ++ more) j key i fragmentCount totalLen part := by
  obtain ⟨c, e, hat, hrest⟩ := h
  have hlt : j < history.length := (List.getElem?_eq_some_iff.mp hat).1
  exact ⟨c, e, by rw [List.getElem?_append_left hlt, hat], hrest⟩

/-- The push `first` at position `j` found no slot of its packet, and left one. -/
def OpenedAt (config : ReassemblyConfig) (history : List (Call R × Effect R)) (j : Nat)
    (first : Push R) : Prop :=
  ∃ e reservation, history[j]? = some (.push first, e) ∧
    ((stateBefore config history j).expire first.now).state.slots.lookup first.key = none ∧
    e.state.slots.lookup first.key = some (.first first.fragment first.now reservation)

theorem OpenedAt.lt (h : OpenedAt config history j first) : j < history.length := by
  obtain ⟨_, _, hat, _⟩ := h
  exact (List.getElem?_eq_some_iff.mp hat).1

theorem OpenedAt.append (h : OpenedAt config history j first) (more : List (Call R × Effect R)) :
    OpenedAt config (history ++ more) j first := by
  have hlt := h.lt
  obtain ⟨e, reservation, hat, hrest⟩ := h
  refine ⟨e, reservation, by rw [List.getElem?_append_left hlt, hat], ?_⟩
  rwa [stateBefore_append hlt.le]

/-- The slot of `key` was created by `first` at `born`, has stayed open since, and holds what was
pushed. -/
structure Live (config : ReassemblyConfig) (history : List (Call R × Effect R))
    (key : ReassemblyKey) (slot : ReassemblySlot R) (born : Nat) (first : Push R) : Prop where
  created : OpenedAt config history born first
  own : first.key = key
  since : slot.createdAt = first.now
  held : ∀ j step, born ≤ j → history[j]? = some step →
    ∃ s, step.2.state.slots.lookup key = some s ∧ s.createdAt = first.now
  spared : ∀ j step, born < j → history[j]? = some step →
    (stateBefore config history j).Spares key first.now step.1
  holds : ∀ j c e, born ≤ j → history[j]? = some (.push c, e) → slot.Holds key c
  pushed : ∀ i part, slot.fragments[i]? = some (some part) →
    ∃ j, born ≤ j ∧ PushedAt history j key i slot.fragmentCount slot.totalLen part

/-- A step that spares the slot keeps it live. -/
theorem Live.snoc (h : Live config history key slot born first) (prior : History config history r)
    (spared : r.Spares key slot.createdAt call) (found : e.state.slots.lookup key = some slot')
    (since : slot'.createdAt = slot.createdAt)
    (grows : ∀ c, slot.Holds key c → slot'.Holds key c)
    (holds : ∀ c, call = .push c → slot'.Holds key c)
    (pushed : ∀ i part, slot'.fragments[i]? = some (some part) →
      ∃ j, born ≤ j ∧ PushedAt (history ++ [(call, e)]) j key i slot'.fragmentCount
        slot'.totalLen part) :
    Live config (history ++ [(call, e)]) key slot' born first where
  created := h.created.append _
  own := h.own
  since := since.trans h.since
  held j step hj hat := by
    rcases getElem?_snoc hat with hat | ⟨_, rfl⟩
    · exact h.held j step hj hat
    · exact ⟨slot', found, since.trans h.since⟩
  spared j step hj hat := by
    rcases getElem?_snoc hat with hat | ⟨rfl, rfl⟩
    · rw [stateBefore_append (List.getElem?_eq_some_iff.mp hat).1.le]
      exact h.spared j step hj hat
    · rw [prior.stateBefore_eq, ← h.since]
      exact spared
  holds j c e' hj hat := by
    rcases getElem?_snoc hat with hat | ⟨_, heq⟩
    · exact grows c (h.holds j c e' hj hat)
    · exact holds c (congrArg Prod.fst heq).symm
  pushed := pushed

theorem pushedAt_last (own : c.key = key) :
    PushedAt (history ++ [(.push c, e)]) history.length key c.fragment.fragmentIndex.toNat
      c.fragment.fragmentCount c.fragment.totalLen c.fragment.payload :=
  ⟨c, e, by simp, own, rfl, rfl, rfl, rfl⟩

/-- A fragment stored into a live slot joins those pushed before. -/
theorem Live.store (h : Live config history key slot born first) (own : c.key = key)
    (alike : slot.Matches c.fragment) :
    ∀ i part, (slot.store c.fragment).fragments[i]? = some (some part) →
      ∃ j, born ≤ j ∧ PushedAt (history ++ [(.push c, e)]) j key i slot.fragmentCount
        slot.totalLen part := by
  intro i part hpart
  simp only [ReassemblySlot.store, List.getElem?_set] at hpart
  split at hpart
  · rename_i hi
    split at hpart
    · obtain rfl := Option.some.inj (Option.some.inj hpart)
      rw [← hi, alike.count, alike.totalLen]
      exact ⟨history.length, h.created.lt.le, pushedAt_last own⟩
    · cases hpart
  · obtain ⟨j, hj, hat⟩ := h.pushed i part hpart
    exact ⟨j, hj, hat.append _⟩

/-- Filling a hole changes nothing about what is there. -/
theorem Fills.holds {fragment : UdpFragment} (h : Fills slot fragment) (holds : slot.Holds key c) :
    (slot.store fragment).Holds key c := by
  intro own accepted
  obtain ⟨hmatch, htaken⟩ := holds own accepted
  refine ⟨⟨hmatch.count, hmatch.totalLen⟩, ?_⟩
  rw [ReassemblySlot.store, List.getElem?_set_ne, htaken]
  intro hi
  rw [← hi, h.hole] at htaken
  cases htaken

theorem Fills.holds_stored (h : Fills slot c.fragment) : (slot.store c.fragment).Holds key c := by
  intro _ _
  refine ⟨⟨h.alike.count, h.alike.totalLen⟩, ?_⟩
  exact List.getElem?_set_self (List.getElem?_eq_some_iff.mp h.hole).1

/-- A slot that was just created is live. -/
theorem live_first (prior : History config history r)
    (missing : (r.expire c.now).state.slots.lookup c.key = none)
    (found : e.state.slots.lookup c.key = some (.first c.fragment c.now reservation)) :
    Live config (history ++ [(.push c, e)]) c.key (.first c.fragment c.now reservation)
      history.length c where
  created := ⟨e, reservation, by simp, by rwa [prior.stateBefore_eq], found⟩
  own := rfl
  since := rfl
  held j step hj hat := by
    rcases getElem?_snoc hat with hat | ⟨_, rfl⟩
    · exact absurd (List.getElem?_eq_some_iff.mp hat).1 (Nat.not_lt_of_le hj)
    · exact ⟨_, found, rfl⟩
  spared j step hj hat := by
    rw [List.getElem?_eq_none (by simp; omega)] at hat
    cases hat
  holds j c' e' hj hat own accepted := by
    rcases getElem?_snoc hat with hat | ⟨_, heq⟩
    · exact absurd (List.getElem?_eq_some_iff.mp hat).1 (Nat.not_lt_of_le hj)
    · cases heq
      refine ⟨⟨rfl, rfl⟩, List.getElem?_set_self ?_⟩
      rw [List.length_replicate]
      exact (invalidFragment_eq_false.mp accepted).index_lt
  pushed i part hpart := by
    simp only [ReassemblySlot.first, List.getElem?_set, List.getElem?_replicate,
      List.length_replicate] at hpart
    split at hpart
    · rename_i hi
      split at hpart
      · obtain rfl := Option.some.inj (Option.some.inj hpart)
        exact ⟨history.length, le_rfl, hi ▸ pushedAt_last rfl⟩
      · cases hpart
    · split at hpart
      · cases hpart
      · cases hpart

/-- Every open slot is live. -/
theorem History.live (h : History config history r) (found : r.slots.lookup key = some slot) :
    ∃ born first, Live config history key slot born first := by
  induction h generalizing slot with
  | new => cases found
  | @call history r call e prior result ih =>
    have hsound : r.ExpirySound instantEnd := prior.expirySound (.inr le_rfl)
    cases Call.slot_from prior.valid.1 result found with
    | same hfound spared holds =>
      obtain ⟨born, first, hlive⟩ := ih hfound
      refine ⟨born, first, hlive.snoc prior (spared hsound) found rfl (fun _ h => h) holds ?_⟩
      intro i part hpart
      obtain ⟨j, hj, hat⟩ := hlive.pushed i part hpart
      exact ⟨j, hj, hat.append _⟩
    | stored by_push own hfound spared fills after =>
      subst by_push after
      obtain ⟨born, first, hlive⟩ := ih hfound
      refine ⟨born, first, hlive.snoc prior (spared hsound) found rfl (fun _ => fills.holds) ?_
        (hlive.store own fills.alike)⟩
      rintro _ ⟨⟩
      exact fills.holds_stored
    | opened by_push own missing _ after =>
      subst by_push own after
      exact ⟨_, _, live_first prior missing found⟩

/-! ## Completed packets -/

/-- The packet completed at position `n` was put together from the pushes `used`, given by
position and bytes in the order of their fragment index. Its slot was created by `first` at `born`
and was open from then on; no call up to `n` ended it, and all valid fragments pushed for it agree
with the packet. -/
structure Assembled (config : ReassemblyConfig) (history : List (Call R × Effect R)) (n : Nat)
    (key : ReassemblyKey) (fragmentCount : UInt8) (totalLen : UInt16) (payload : List UInt8)
    (born : Nat) (first : Push R) (used : List (Nat × List UInt8)) : Prop where
  created : OpenedAt config history born first
  own : first.key = key
  held : ∀ j step, born ≤ j → j < n → history[j]? = some step →
    ∃ slot, step.2.state.slots.lookup key = some slot ∧ slot.createdAt = first.now
  spared : ∀ j step, born < j → j ≤ n → history[j]? = some step →
    (stateBefore config history j).Spares key first.now step.1
  agreed : ∀ j c e, born ≤ j → j ≤ n → history[j]? = some (.push c, e) → c.key = key →
    invalidFragment c.flowId c.fragment = false →
      c.fragment.fragmentCount = fragmentCount ∧ c.fragment.totalLen = totalLen ∧
      (used.map Prod.snd)[c.fragment.fragmentIndex.toNat]? = some c.fragment.payload
  count : used.length = fragmentCount.toNat
  pushed : ∀ i j part, used[i]? = some (j, part) →
    born ≤ j ∧ j ≤ n ∧ PushedAt history j key i fragmentCount totalLen part
  payload_eq : payload = (used.map Prod.snd).flatten
  length_eq : payload.length = totalLen.toNat

variable {fragmentCount : UInt8} {totalLen : UInt16} {used : List (Nat × List UInt8)}

theorem Assembled.append
    (h : Assembled config history n key fragmentCount totalLen payload born first used)
    (hn : n < history.length) (more : List (Call R × Effect R)) :
    Assembled config (history ++ more) n key fragmentCount totalLen payload born first used where
  created := h.created.append _
  own := h.own
  held j step hborn hj hat := by
    rw [List.getElem?_append_left (by omega)] at hat
    exact h.held j step hborn hj hat
  spared j step hborn hj hat := by
    rw [List.getElem?_append_left (by omega)] at hat
    rw [stateBefore_append (by omega)]
    exact h.spared j step hborn hj hat
  agreed j c e hborn hj hat := by
    rw [List.getElem?_append_left (by omega)] at hat
    exact h.agreed j c e hborn hj hat
  count := h.count
  pushed i j part hused := by
    obtain ⟨hborn, hj, hat⟩ := h.pushed i j part hused
    exact ⟨hborn, hj, hat.append more⟩
  payload_eq := h.payload_eq
  length_eq := h.length_eq

/-- Choosing, for every part of a list, a position at which it was pushed. -/
theorem exists_positions {P : Nat → Nat → List UInt8 → Prop} (parts : List (List UInt8))
    (h : ∀ i part, parts[i]? = some part → ∃ j, P i j part) :
    ∃ used : List (Nat × List UInt8), used.map Prod.snd = parts ∧
      ∀ i j part, used[i]? = some (j, part) → P i j part := by
  induction parts generalizing P with
  | nil => exact ⟨[], rfl, by simp⟩
  | cons part parts ih =>
    obtain ⟨j, hj⟩ := h 0 part rfl
    obtain ⟨used, hmap, hused⟩ :=
      ih (P := fun i => P (i + 1)) fun i part hpart => h (i + 1) part hpart
    refine ⟨(j, part) :: used, by rw [List.map_cons, hmap], fun i j' part' hat => ?_⟩
    cases i with
    | zero =>
      obtain ⟨rfl, rfl⟩ := Prod.mk.inj (Option.some.inj hat)
      exact hj
    | succ i => exact hused i j' part' hat

/-- The push `c` filled the last hole of `slot`, which then held `payloads`. -/
structure Completes (r : DatagramReassembler R) (c : Push R) (e : Effect R)
    (slot : ReassemblySlot R) (payloads : List (List UInt8)) : Prop where
  found : (r.expire c.now).state.slots.lookup c.key = some slot
  fills : Fills slot c.fragment
  whole : slot.retained + c.fragment.payload.length = slot.totalLen.toNat
  full : (slot.store c.fragment).fragments = payloads.map some
  gone : e.state.slots.lookup c.key = none

theorem Pushed.completes (h : Pushed r c e) {evicted : Bool}
    (outcome : e.outcome = some (.complete payload reservation evicted)) :
    ∃ slot payloads, Completes r c e slot payloads ∧ payload = payloads.flatten := by
  cases h with
  | @completed slot payloads accepted found fills last whole full =>
    obtain ⟨rfl, _, _⟩ := ReassemblyOutcome.complete.inj (Option.some.inj outcome)
    exact ⟨slot, payloads, ⟨found, fills, whole, full, by simp [without]⟩, rfl⟩
  | _ => cases outcome

/-- A push that completes a packet has assembled it. -/
theorem Completes.assembled {payloads : List (List UInt8)} (h : Completes r c e slot payloads)
    (pushed : Pushed r c e) (prior : History config history r) :
    ∃ born first used, Assembled config (history ++ [(.push c, e)]) history.length c.key
      c.fragment.fragmentCount c.fragment.totalLen payloads.flatten born first used := by
  have hfound := (lookup_expire h.found).1
  obtain ⟨born, first, hlive⟩ := prior.live hfound
  have hvalid := prior.valid.1.slot_valid hfound
  -- every part of the full slot has a position, the last one being this push
  obtain ⟨used, hparts, hused⟩ := exists_positions payloads fun i part hpart =>
    hlive.store (e := e) rfl h.fills.alike i part (by rw [h.full, List.getElem?_map, hpart]; rfl)
  have hlength : payloads.length = slot.fragmentCount.toNat := by
    have hmap := congrArg List.length h.full
    simp only [ReassemblySlot.store, List.length_set, List.length_map, hvalid.length] at hmap
    exact hmap.symm
  have hbytes : payloads.flatten.length = slot.totalLen.toNat := by
    rw [List.length_flatten, ← weight_map_some, ← h.full, ← h.whole, hvalid.retained]
    exact weight_set _ h.fills.hole _
  refine ⟨born, first, used, ?_⟩
  rw [← h.fills.alike.count, ← h.fills.alike.totalLen]
  exact
    { created := hlive.created.append _
      own := hlive.own
      held := fun j step hborn hj hat => by
        rw [List.getElem?_append_left hj] at hat
        exact hlive.held j step hborn hat
      spared := fun j step hborn _ hat => by
        rcases getElem?_snoc hat with hat | ⟨rfl, rfl⟩
        · rw [stateBefore_append (List.getElem?_eq_some_iff.mp hat).1.le]
          exact hlive.spared j step hborn hat
        · rw [prior.stateBefore_eq, ← hlive.since]
          exact pushed.spares h.found (.inr rfl) (prior.expirySound (.inr le_rfl))
      agreed := fun j c' e' hborn _ hat own accepted => by
        have hholds : (slot.store c.fragment).Holds c.key c' := by
          rcases getElem?_snoc hat with hat | ⟨_, heq⟩
          · exact h.fills.holds (hlive.holds j c' e' hborn hat)
          · cases heq
            exact h.fills.holds_stored
        obtain ⟨hmatch, htaken⟩ := hholds own accepted
        rw [h.full, List.getElem?_map, Option.map_eq_some_iff] at htaken
        obtain ⟨part, hpart, hsame⟩ := htaken
        exact ⟨hmatch.count.symm, hmatch.totalLen.symm,
          by rw [hparts, hpart, Option.some.inj hsame]⟩
      count := by rw [← hlength, ← hparts, List.length_map]
      pushed := fun i j part hat => by
        obtain ⟨hborn, hpushed⟩ := hused i j part hat
        refine ⟨hborn, ?_, hpushed⟩
        obtain ⟨_, _, hat, _⟩ := hpushed
        have hlt := (List.getElem?_eq_some_iff.mp hat).1
        simp only [List.length_append, List.length_singleton] at hlt
        omega
      payload_eq := by rw [hparts]
      length_eq := hbytes }

/-! ## Whole histories -/

/-- The state in which a call of the history was made. -/
theorem History.before (h : History config history r) {step : Call R × Effect R}
    (hat : history[n]? = some step) :
    ∃ r₀, History config (history.take n) r₀ ∧ r₀.apply step.1 = .ok step.2 := by
  induction h with
  | new => cases hat
  | @call history r call e prior result ih =>
    rcases getElem?_snoc hat with hat | ⟨rfl, rfl⟩
    · have hlt : n < history.length := (List.getElem?_eq_some_iff.mp hat).1
      rw [List.take_append_of_le_length hlt.le]
      exact ih hat
    · rw [List.take_left]
      exact ⟨r, prior, result⟩

/-- The push `c` at position `n` returned `Complete` with `payload`. -/
def CompletedAt (history : List (Call R × Effect R)) (n : Nat) (c : Push R)
    (payload : List UInt8) : Prop :=
  ∃ e reservation evicted, history[n]? = some (.push c, e) ∧
    e.outcome = some (.complete payload reservation evicted)

/-- The completing step, and the state in which it was made. -/
theorem CompletedAt.completes (hc : CompletedAt history n c payload)
    (h : History config history r) :
    ∃ e r₀ slot payloads, history[n]? = some (.push c, e) ∧ History config (history.take n) r₀ ∧
      Pushed r₀ c e ∧ Completes r₀ c e slot payloads ∧ payload = payloads.flatten := by
  obtain ⟨e, reservation, evicted, hat, outcome⟩ := hc
  obtain ⟨r₀, prior, result⟩ := h.before hat
  cases prior.applied result with
  | push pushed =>
    obtain ⟨slot, payloads, hcompletes, hpayload⟩ := pushed.completes outcome
    exact ⟨e, r₀, slot, payloads, hat, prior, pushed, hcompletes, hpayload⟩
  | removal other => exact (other c rfl).elim

theorem CompletedAt.assembled (hc : CompletedAt history n c payload)
    (h : History config history r) :
    ∃ born first used, Assembled config history n c.key c.fragment.fragmentCount
      c.fragment.totalLen payload born first used := by
  obtain ⟨e, r₀, slot, payloads, hat, prior, pushed, hcompletes, rfl⟩ := hc.completes h
  obtain ⟨born, first, used, hassembled⟩ := hcompletes.assembled pushed prior
  have hlt : n < history.length := (List.getElem?_eq_some_iff.mp hat).1
  have hn : (history.take n).length = n := List.length_take_of_le hlt.le
  have hlast : (history.take n).length < (history.take n ++ [(Call.push c, e)]).length := by
    rw [List.length_append, List.length_singleton]
    exact Nat.lt_succ_self _
  have hmore := hassembled.append hlast (history.drop (n + 1))
  rw [take_snoc_drop hat, hn] at hmore
  exact ⟨born, first, used, hmore⟩

/-- A later packet of the same key has a slot of its own. -/
theorem CompletedAt.lt_born (hc : CompletedAt history n c payload) (h : History config history r)
    (later : Assembled config history n' c.key fragmentCount totalLen payload' born first used)
    (hn : n < n') : n < born := by
  obtain ⟨e, r₀, slot, payloads, hat, _, _, hcompletes, _⟩ := hc.completes h
  by_contra hborn
  obtain ⟨slot', hfound, _⟩ := later.held n _ (Nat.le_of_not_lt hborn) hn hat
  rw [hcompletes.gone] at hfound
  cases hfound

/-- Two packets share no push. -/
theorem CompletedAt.disjoint {n' born' : Nat} {c' first' : Push R} {payload' : List UInt8}
    {used' : List (Nat × List UInt8)}
    (hc : CompletedAt history n c payload) (h : History config history r)
    (earlier : Assembled config history n c.key c.fragment.fragmentCount c.fragment.totalLen payload
      born first used)
    (later : Assembled config history n' c'.key c'.fragment.fragmentCount c'.fragment.totalLen
      payload' born' first' used') (hn : n < n') (hj : j ∈ used.map Prod.fst) :
    j ∉ used'.map Prod.fst := by
  intro hj'
  obtain ⟨⟨_, part⟩, hmem, rfl⟩ := List.mem_map.mp hj
  obtain ⟨⟨_, part'⟩, hmem', hsame⟩ := List.mem_map.mp hj'
  obtain ⟨i, hi⟩ := List.mem_iff_getElem?.mp hmem
  obtain ⟨i', hi'⟩ := List.mem_iff_getElem?.mp hmem'
  dsimp only at hsame
  subst hsame
  obtain ⟨_, hle, d, e, hat, hkey, _⟩ := earlier.pushed _ _ _ hi
  obtain ⟨hborn', _, d', e', hat', hkey', _⟩ := later.pushed _ _ _ hi'
  obtain ⟨hd, _⟩ := Prod.mk.inj (Option.some.inj (hat.symm.trans hat'))
  obtain rfl := Call.push.inj hd
  rw [← hkey', hkey] at later
  have hlt := hc.lt_born h later hn
  omega

/-- A `Complete` carries the bytes of its packet's own fragments, pushed since its slot was
created and with nothing in between that ends the packet, no push serves two of them, and no call
panics. -/
theorem reassembly_sound (h : History config history r) :
    (∀ n c payload, CompletedAt history n c payload →
      ∃ born first used, Assembled config history n c.key c.fragment.fragmentCount
        c.fragment.totalLen payload born first used) ∧
    (∀ n n' c c' payload payload' born born' first first' used used',
      CompletedAt history n c payload → CompletedAt history n' c' payload' → n ≠ n' →
      Assembled config history n c.key c.fragment.fragmentCount c.fragment.totalLen payload born
        first used →
      Assembled config history n' c'.key c'.fragment.fragmentCount c'.fragment.totalLen payload'
        born' first' used' →
      ∀ j ∈ used.map Prod.fst, j ∉ used'.map Prod.fst) ∧
    (∀ call, ∃ e, r.apply call = .ok e) := by
  refine ⟨fun n c payload hc => hc.assembled h, ?_, fun call => ?_⟩
  · intro n n' c c' _ _ born born' first first' used used' hc hc' hne earlier later j hj
    rcases Nat.lt_or_gt_of_ne hne with hlt | hgt
    · exact hc.disjoint h earlier later hlt hj
    · intro hj'
      exact hc'.disjoint h later earlier hgt hj' hj
  · obtain ⟨e, hresult, _⟩ := apply_cases h.valid.1.slot_valid call
    exact ⟨e, hresult⟩

namespace Sample

/-- Two halves pushed in the wrong order are put together in the right one. -/
theorem twoHalves_assembled :
    ∃ (history : List (Call Nat × Effect Nat)) (r : DatagramReassembler Nat),
      History .default history r ∧
      ∃ c born first used, CompletedAt history 1 c [1, 2, 3, 4] ∧
        Assembled .default history 1 c.key c.fragment.fragmentCount c.fragment.totalLen
          [1, 2, 3, 4] born first used := by
  let calls : List (Call Nat) := [.push (pushHalf 3 1 [3, 4]), .push (pushHalf 5 0 [1, 2])]
  obtain ⟨effects, r, hhistory, heffects⟩ := exists_history_of_run .default calls
    (fun effects _ => effects[1]?.bind Effect.outcome == some (.complete [1, 2, 3, 4] 3 false))
    (by decide +kernel)
  obtain ⟨e, he, outcome⟩ := Option.bind_eq_some_iff.mp (beq_iff_eq.mp heffects)
  have hat : (calls.zip effects)[1]? = some (.push (pushHalf 5 0 [1, 2]), e) := by
    simp [List.getElem?_zip_eq_some, calls, he]
  have hcompleted : CompletedAt (calls.zip effects) 1 (pushHalf 5 0 [1, 2]) [1, 2, 3, 4] :=
    ⟨e, 3, false, hat, outcome⟩
  obtain ⟨born, first, used, hassembled⟩ := (reassembly_sound hhistory).1 _ _ _ hcompleted
  exact ⟨_, r, hhistory, _, born, first, used, hcompleted, hassembled⟩

end Sample

end Nowhere.Protocol
