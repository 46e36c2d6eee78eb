import Nowhere.Portal.Kinds
import Nowhere.Portal.Tombstones

/-!
# Calls on corresponding registries

A call on a registry of TCP flows and the same call on the registry of the same flows with kind
UDP, each run alone: both return, and the registries correspond again (`Agree`). The proof moves
through both stacks of frames side by side, and either side may take steps of its own.

This module has the invariants that hold between two calls (`Steady`), the rules for `Agree`, and
the parts of calls that are the same for both kinds: `reject_flow_setup`, what a call drops at its
end, and the activation of a complete flow.
-/

namespace Nowhere.Portal

open Protocol Assoc

/-! ## Invariants of corresponding registries -/

/-- Every guard that the entry owns is the guard of a TLS lane. -/
structure Pending.TlsGuards (p : Pending) : Prop where
  uplink : ∀ g, p.uplink.bind Uplink.guard = some g →
    g.quicGeneration = none ∧ p.metadata.uplink ≠ .quic
  downlink : ∀ g, p.downlink.bind Downlink.guard = some g →
    g.quicGeneration = none ∧ p.metadata.downlink ≠ .quic

/-- Corresponding registries between two operations: a flow with a tombstone is not pending, a
pending flow lacks a half, and the uplink of a pending UDP flow comes with a permit. -/
structure Steady (wt wu : World) : Prop extends Mirrors wt wu where
  apart : ∀ key r, wt.rejections.lookup key = some r → (wt.pending .tcp).lookup key = none
  waiting : ∀ key p, (wt.pending .tcp).lookup key = some p → p.complete = false ∧ p.TlsGuards
  permitted : ∀ key q, (wu.pending .udp).lookup key = some q → q.uplink.isSome = true →
    q.flowPermit.isSome = true

namespace Steady

variable {wt wu : World}

theorem setClaims (h : Steady wt wu) {ct cu : Claims} (hc : ct.Corresponds cu) :
    Steady { wt with claims := ct } { wu with claims := cu } :=
  { h with claims := hc }

theorem setPermits (h : Steady wt wu) {pt pu : Permits} (hp : pu.nextBudget = pt.nextBudget) :
    Steady { wt with permits := pt } { wu with permits := pu } :=
  { h with nextBudget := hp }

theorem takePermit (h : Steady wt wu) {permits : Permits}
    (hp : permits.nextBudget = wu.permits.nextBudget) : Steady wt { wu with permits } :=
  { h with nextBudget := hp.trans h.nextBudget }

/-- The number of free permits does not matter. -/
theorem release (h : Steady wt wu) (a b : Option Permit) :
    Steady { wt with permits := wt.permits.release a }
      { wu with permits := wu.permits.release b } := by
  refine h.setPermits ?_
  have hrelease (t : Permits) (x : Option Permit) : (t.release x).nextBudget = t.nextBudget := by
    cases x <;> rfl
  rw [hrelease, hrelease, h.nextBudget]

theorem emit (h : Steady wt wu) {es es' : List Event}
    (he : List.Forall₂ Event.Corresponds es es') : Steady (wt.emit es) (wu.emit es') :=
  { h with log := List.rel_append he h.log }

theorem setRejections (h : Steady wt wu) {mt mu : Map FlowKey TerminalRejection} (hm : mu = mt)
    (hapart : ∀ key r, mt.lookup key = some r → (wt.pending .tcp).lookup key = none) :
    Steady { wt with rejections := mt } { wu with rejections := mu } :=
  { h with
    rejections := hm
    apart := hapart }

theorem insertRejection (h : Steady wt wu) (cfg : Config) {key : FlowKey}
    (hmissing : (wt.pending .tcp).lookup key = none) (pick : Nat) (r : TerminalRejection) :
    Steady
      { wt with
        rejections := Portal.insertRejection cfg wt.now pick wt.rejections key r }
      { wu with
        rejections := Portal.insertRejection cfg wu.now pick wu.rejections key r } := by
  refine h.setRejections (by rw [h.now, h.rejections]) ?_
  intro k r' hr
  by_cases hk : k = key
  · rw [hk]
    exact hmissing
  · exact h.apart k r' (of_lookup_insertRejection hk hr)

theorem terminalRejection (h : Steady wt wu) (key : FlowKey) (consume : Bool) :
    Steady
      { wt with rejections := (Portal.terminalRejection wt.now wt.rejections key consume).1 }
      { wu with rejections := (Portal.terminalRejection wu.now wu.rejections key consume).1 } := by
  refine h.setRejections (by rw [h.now, h.rejections]) ?_
  exact fun k r hr => h.apart k r (of_lookup_terminalRejection hr)

theorem setPending (h : Steady wt wu) {mt mu : Map FlowKey Pending}
    (hm : Related Pending.Corresponds mt mu)
    (hapart : ∀ key r, wt.rejections.lookup key = some r → mt.lookup key = none)
    (hwaiting : ∀ key p, mt.lookup key = some p → p.complete = false ∧ p.TlsGuards)
    (hpermitted : ∀ key q, mu.lookup key = some q → q.uplink.isSome = true →
      q.flowPermit.isSome = true) :
    Steady { wt with pending := Function.update wt.pending .tcp mt }
      { wu with pending := Function.update wu.pending .udp mu } :=
  { h with
    entries := by simpa using hm
    noUdp := by simpa using h.noUdp
    noTcp := by simpa using h.noTcp
    apart := by simpa using hapart
    waiting := by simpa using hwaiting
    permitted := by simpa using hpermitted }

theorem erasePending (h : Steady wt wu) (key : FlowKey) :
    Steady { wt with pending := Function.update wt.pending .tcp ((wt.pending .tcp).erase key) }
      { wu with pending := Function.update wu.pending .udp ((wu.pending .udp).erase key) } := by
  refine h.setPending (h.entries.erase key) ?_ ?_ ?_
  · intro k r hr
    rw [lookup_erase]
    split
    · rfl
    · exact h.apart k r hr
  · intro k p hp
    rw [lookup_erase] at hp
    split at hp
    · cases hp
    · exact h.waiting k p hp
  · intro k q hq
    rw [lookup_erase] at hq
    split at hq
    · cases hq
    · exact h.permitted k q hq

theorem insertPending (h : Steady wt wu) (key : FlowKey) {p q : Pending} (hpq : p.Corresponds q)
    (hmissing : wt.rejections.lookup key = none) (hwaiting : p.complete = false ∧ p.TlsGuards)
    (hpermitted : q.uplink.isSome = true → q.flowPermit.isSome = true) :
    Steady { wt with pending := Function.update wt.pending .tcp ((wt.pending .tcp).insert key p) }
      { wu with
        pending := Function.update wu.pending .udp ((wu.pending .udp).insert key q) } := by
  refine h.setPending (h.entries.insert key hpq) ?_ ?_ ?_
  · intro k r hr
    rw [lookup_insert]
    split
    · rename_i hk
      rw [hk, hmissing] at hr
      cases hr
    · exact h.apart k r hr
  · intro k p' hp
    rw [lookup_insert] at hp
    split at hp
    · cases hp
      exact hwaiting
    · exact h.waiting k p' hp
  · intro k q' hq
    rw [lookup_insert] at hq
    split at hq
    · cases hq
      exact hpermitted
    · exact h.permitted k q' hq

/-! ### Carriers -/

theorem setLinks (h : Steady wt wu) (links : Map SessionId LinkCounts) (stats : Stats) :
    Steady { wt with links, stats } { wu with links, stats } :=
  { h with
    links := rfl
    stats := rfl }

theorem create (h : Steady wt wu) (permits : Nat) :
    Steady { wt with permits := wt.permits.create permits }
      { wu with permits := wu.permits.create permits } := by
  refine h.setPermits ?_
  unfold Permits.create
  rw [h.nextBudget]

theorem registerTcpLink (h : Steady wt wu) (cfg : Config) (s : SessionId) :
    Steady (Portal.registerTcpLink cfg wt s) (Portal.registerTcpLink cfg wu s) := by
  unfold Portal.registerTcpLink countsOrNew
  rw [h.links, h.stats]
  cases wt.links.lookup s with
  | some counts => exact h.setLinks _ _
  | none =>
    dsimp only
    rw [h.nextBudget]
    exact (h.create cfg.maxUdpFlows).setLinks _ _

theorem registerQuicLink (h : Steady wt wu) (cfg : Config) (s : SessionId) (generation : Nat) :
    Steady (Portal.registerQuicLink cfg wt s generation).1
        (Portal.registerQuicLink cfg wu s generation).1 ∧
      (Portal.registerQuicLink cfg wu s generation).2 =
        (Portal.registerQuicLink cfg wt s generation).2 := by
  unfold Portal.registerQuicLink countsOrNew
  rw [h.links, h.stats]
  cases wt.links.lookup s with
  | some counts => exact ⟨h.setLinks _ _, rfl⟩
  | none =>
    dsimp only
    rw [h.nextBudget]
    exact ⟨(h.create cfg.maxUdpFlows).setLinks _ _, rfl⟩

theorem dropLink (h : Steady wt wu) (g : LinkGuard) :
    Steady (Portal.dropLink wt g).1 (Portal.dropLink wu g).1 ∧
      (Portal.dropLink wu g).2 = (Portal.dropLink wt g).2 := by
  unfold Portal.dropLink
  rw [h.links, h.stats]
  cases wt.links.lookup g.sessionId with
  | none => exact ⟨h, rfl⟩
  | some counts =>
    dsimp only
    cases counts.without g with
    | none => exact ⟨h, rfl⟩
    | some counts' => exact ⟨h.setLinks _ _, rfl⟩

end Steady

/-! ## Two calls, each alone -/

/-- Both calls return, the registries correspond, and the same guard is returned. -/
def Agree (cfg : Config) (ties : Ties) (x y : World × List Frame) : Prop :=
  (portal cfg).Joint ties.choice
    (fun x y => Steady x.1 y.1 ∧ y.2 = x.2 ∧ returned x.2 = true) x y

/-- The frames hold no lock. -/
def Lockless (fs : List Frame) : Prop := ∀ f ∈ fs, f.holds = []

variable {f : Frame}

theorem Lockless.cons {fs : List Frame} (hf : f.holds = []) (h : Lockless fs) :
    Lockless (f :: fs) :=
  List.forall_mem_cons.mpr ⟨hf, h⟩

theorem Lockless.append {fs gs : List Frame} (hf : Lockless fs) (hg : Lockless gs) :
    Lockless (fs ++ gs) :=
  List.forall_mem_append.mpr ⟨hf, hg⟩

theorem wants_notMem_holds {l : Lock} (h : f.wants = some l) : l ∉ f.holds := by
  cases f with
  | installLinks c =>
    cases h
    cases hvia : c.via <;> simp [Frame.holds, pendingLock, hvia]
  | installSweep c active left =>
    cases h
    cases hvia : c.via <;> simp [Frame.holds, pendingLock, hvia]
  | installTombstone c active =>
    cases h
    cases hvia : c.via <;> simp [Frame.holds, pendingLock, hvia]
  | installReserve c active =>
    cases h
    cases hvia : c.via <;> simp [Frame.holds, pendingLock, hvia]
  | installRefreshClaim c epoch =>
    cases h
    cases hvia : c.via <;> simp [Frame.holds, pendingLock, hvia]
  | cancelGeneration s generation held next =>
    cases h
    cases held <;> simp [Frame.holds]
  | activateClaims a => cases h; simp [Frame.holds]
  | rejectUdp key code => cases h; simp [Frame.holds]
  | rejectClaims key code => cases h; simp [Frame.holds]
  | rejectTombstone key code expiresAt => cases h; simp [Frame.holds]
  | _ => first | exact List.not_mem_nil | cases h

section Rules

variable {cfg : Config} {ties : Ties} {f : Frame} {rest st su : List Frame} {g : LinkGuard}
  {w wt wu : World} {a b : Activation}

theorem clear_of_lockless (h : Lockless rest) :
    (portal cfg).Clear f rest := by
  intro l hl g hg
  rcases List.mem_cons.mp hg with rfl | hg
  · exact wants_notMem_holds hl
  · change l ∉ g.holds
    rw [h g hg]
    exact List.not_mem_nil

/-- A guard is dropped while the frame below holds other locks than `links`. -/
theorem clear_guardDrop (hf : .links ∉ f.holds) (h : Lockless rest) :
    (portal cfg).Clear (.linkGuardDrop g) (f :: rest) := by
  rintro l ⟨⟩ f' hf'
  rcases List.mem_cons.mp hf' with rfl | hf'
  · exact List.not_mem_nil
  · rcases List.mem_cons.mp hf' with rfl | hf'
    · exact hf
    · change Lock.links ∉ f'.holds
      rw [h f' hf']
      exact List.not_mem_nil

namespace Agree

variable {f : Frame} {rest : List Frame} {w : World} {r : Effect} {x y : World × List Frame}

theorem left (hr : exec cfg (ties.choice f) w f = some r) (hclear : (portal cfg).Clear f rest)
    (h : Agree cfg ties (r.world, r.frames ++ rest) y) : Agree cfg ties (w, f :: rest) y :=
  Tasks.System.Joint.left (Tasks.System.alone_cons hr hclear) h

theorem right (hr : exec cfg (ties.choice f) w f = some r) (hclear : (portal cfg).Clear f rest)
    (h : Agree cfg ties x (r.world, r.frames ++ rest)) : Agree cfg ties x (w, f :: rest) :=
  Tasks.System.Joint.right (Tasks.System.alone_cons hr hclear) h

/-- Both calls take the step of the frame that is left. -/
theorem last {f' : Frame} {w' : World} {r' : Effect} (hr : exec cfg (ties.choice f) w f = some r)
    (hr' : exec cfg (ties.choice f') w' f' = some r')
    (h : Agree cfg ties (r.world, r.frames) (r'.world, r'.frames)) :
    Agree cfg ties (w, [f]) (w', [f']) := by
  refine .left hr (clear_of_lockless (List.forall_mem_nil _))
    (.right hr' (clear_of_lockless (List.forall_mem_nil _)) ?_)
  rwa [List.append_nil, List.append_nil]

/-- Both calls have returned. -/
theorem done (h : Steady wt wu) : Agree cfg ties (wt, []) (wu, []) :=
  Tasks.System.Joint.done rfl rfl ⟨h, rfl, rfl⟩

end Agree

/-! ### What a call does after its last critical section -/

/-- Frames that do the same to both registries and leave no frame. -/
def Frame.Plain : Frame → Prop
  | .writeReject .. | .discard _ | .abandonClaim .. => True
  | .linkGuardDrop g => g.quicGeneration = none
  | _ => False

/-- The end of a call: the same frames up to texts and leases, and permits to drop on the UDP
side. -/
inductive Tail : List Frame → List Frame → Prop
  | nil : Tail [] []
  | same {f : Frame} {st su : List Frame} (plain : f.Plain) (rest : Tail st su) :
      Tail (f :: st) (f :: su)
  | returnErr (id : Nat) {e e' : PairingError} {st su : List Frame} (code : e'.code = e.code)
      (rest : Tail st su) : Tail (.returnErr id e :: st) (.returnErr id e' :: su)
  | panic (m m' : String) {st su : List Frame} (rest : Tail st su) :
      Tail (.panic m :: st) (.panic m' :: su)
  | leaseDrop {l l' : FlowLease} {st su : List Frame} (lease : l.Corresponds l')
      (rest : Tail st su) : Tail (.leaseDrop l :: st) (.leaseDrop l' :: su)
  | permitDrop (p : Permit) {st su : List Frame} (rest : Tail st su) :
      Tail st (.permitDrop p :: su)

theorem Frame.Plain.holds (h : f.Plain) : f.holds = [] := by
  cases f <;> first | rfl | cases h

theorem Tail.lockless (h : Tail st su) : Lockless st ∧ Lockless su := by
  induction h with
  | nil => exact ⟨List.forall_mem_nil _, List.forall_mem_nil _⟩
  | same plain _ ih => exact ⟨ih.1.cons plain.holds, ih.2.cons plain.holds⟩
  | returnErr _ _ _ ih => exact ⟨ih.1.cons rfl, ih.2.cons rfl⟩
  | panic _ _ _ ih => exact ⟨ih.1.cons rfl, ih.2.cons rfl⟩
  | leaseDrop _ _ ih => exact ⟨ih.1.cons rfl, ih.2.cons rfl⟩
  | permitDrop _ _ ih => exact ⟨ih.1, ih.2.cons rfl⟩

variable {fs : List Frame}

theorem Tail.append (hfs : ∀ f ∈ fs, f.Plain) (h : Tail st su) :
    Tail (fs ++ st) (fs ++ su) := by
  induction fs with
  | nil => exact h
  | cons f fs ih =>
    obtain ⟨hf, hfs⟩ := List.forall_mem_cons.mp hfs
    exact .same hf (ih hfs)

theorem Tail.plains (hfs : ∀ f ∈ fs, f.Plain) : Tail fs fs := by
  have htail := Tail.append hfs .nil
  rwa [List.append_nil] at htail

/-- Dropping the guard of a TLS lane cancels nothing. -/
theorem linkGuardDropStep_frames (hg : g.quicGeneration = none) :
    (linkGuardDropStep w g).frames = [] := by
  have hexit := dropLink_exit (w := w) g
  simp only [hg, Option.elim_none, or_self] at hexit
  simp only [linkGuardDropStep, hexit]

variable (cfg ties) in
theorem Steady.plain (h : Steady wt wu) (hf : f.Plain) :
    ∃ rt ru, exec cfg (ties.choice f) wt f = some rt ∧ exec cfg (ties.choice f) wu f = some ru ∧
      rt.frames = [] ∧ ru.frames = [] ∧ Steady rt.world ru.world ∧
      rt.world.pending = wt.pending := by
  cases f with
  | writeReject d code =>
    exact ⟨_, _, rfl, rfl, rfl, rfl, h.emit (.cons (.wrote d _) .nil), rfl⟩
  | discard d => exact ⟨_, _, rfl, rfl, rfl, rfl, h.emit (.cons (.dropped d _) .nil), rfl⟩
  | abandonClaim key epoch =>
    exact ⟨_, _, rfl, rfl, rfl, rfl, h.setClaims (h.claims.abandonClaim key epoch), rfl⟩
  | linkGuardDrop g =>
    obtain ⟨stats, hdrop⟩ := dropLink_world wt g
    exact ⟨_, _, rfl, rfl, linkGuardDropStep_frames hf, linkGuardDropStep_frames hf,
      (h.dropLink g).1, by
        change (Portal.dropLink wt g).1.pending = wt.pending
        rw [hdrop]⟩
  | _ => cases hf

/-- A plain frame on top of both stacks. -/
theorem Agree.plain {wt wu : World} {f : Frame} {st su : List Frame} (h : Steady wt wu)
    (hf : f.Plain) (ht : (portal cfg).Clear f st) (hu : (portal cfg).Clear f su)
    (next : ∀ wt' wu', Steady wt' wu' → wt'.pending = wt.pending →
      Agree cfg ties (wt', st) (wu', su)) :
    Agree cfg ties (wt, f :: st) (wu, f :: su) := by
  obtain ⟨rt, ru, hrt, hru, hft, hfu, h', hpending⟩ := h.plain cfg ties hf
  refine .left hrt ht (.right hru hu ?_)
  rw [hft, hfu]
  exact next _ _ h' hpending

/-- Plain frames on top of stacks without locks. -/
theorem Agree.plains (hfs : ∀ f ∈ fs, f.Plain) (ht : Lockless st) (hu : Lockless su)
    (next : ∀ wt wu, Steady wt wu → Agree cfg ties (wt, st) (wu, su)) (h : Steady wt wu) :
    Agree cfg ties (wt, fs ++ st) (wu, fs ++ su) := by
  induction fs generalizing wt wu with
  | nil => exact next wt wu h
  | cons f fs ih =>
    obtain ⟨hf, hfs⟩ := List.forall_mem_cons.mp hfs
    have hlockless : Lockless fs := fun g hg => (hfs g hg).holds
    exact .plain h hf (clear_of_lockless (hlockless.append ht))
      (clear_of_lockless (hlockless.append hu)) fun _ _ h' _ => ih hfs h'

theorem Agree.tail (h : Steady wt wu) (htail : Tail st su) :
    Agree cfg ties (wt, st) (wu, su) := by
  induction htail generalizing wt wu with
  | nil => exact .done h
  | same plain rest ih =>
    exact .plain h plain (clear_of_lockless rest.lockless.1) (clear_of_lockless rest.lockless.2)
      fun _ _ h' _ => ih h'
  | returnErr id code rest ih =>
    refine .left rfl (clear_of_lockless rest.lockless.1)
      (.right rfl (clear_of_lockless rest.lockless.2) ?_)
    exact ih (h.emit (.cons (.returned id (congrArg some code)) .nil))
  | panic m m' rest ih =>
    refine .left rfl (clear_of_lockless rest.lockless.1)
      (.right rfl (clear_of_lockless rest.lockless.2) ?_)
    exact ih (h.emit (.cons (.panicked m m') .nil))
  | @leaseDrop l l' st su lease rest ih =>
    refine .left rfl (clear_of_lockless rest.lockless.1)
      (.right rfl (clear_of_lockless rest.lockless.2) ?_)
    have hfinish := h.claims.finishFlow l.key l.epoch
    obtain ⟨hkey, hepoch, _⟩ := lease
    rw [hkey, hepoch]
    exact ih ((h.setClaims hfinish).release l.udpPermit l'.udpPermit)
  | permitDrop p rest ih =>
    refine .right rfl (clear_of_lockless rest.lockless.2) ?_
    exact ih (h.release none (some p))

/-! ### `reject_flow_setup` -/

/-- Nothing is removed from the map of the other kind. -/
theorem rejectEntry_of_empty {kind : FlowKind} (hw : w.pending kind = ∅) (key : FlowKey)
    (next : Option Downlink → Frame) : rejectEntry w kind key next = ⟨w, [next none], []⟩ := by
  have hpending : Function.update w.pending kind ((w.pending kind).erase key) = w.pending := by
    rw [hw]
    exact Function.update_eq_self_iff.mpr hw.symm
  unfold rejectEntry
  dsimp only
  rw [hpending, hw]
  rfl

theorem plain_dropGuard {g : Option LinkGuard} (hg : ∀ x, g = some x → x.quicGeneration = none) :
    ∀ f ∈ dropGuard g, f.Plain := by
  cases g with
  | none => exact List.forall_mem_nil _
  | some x => exact List.forall_mem_singleton.mpr (hg x rfl)

theorem plain_rejectDownlink (d : Option Downlink) (code : FlowErrorCode) :
    ∀ f ∈ rejectDownlink d code, f.Plain := by
  cases d with
  | none => exact List.forall_mem_nil _
  | some d => exact List.forall_mem_singleton.mpr trivial

theorem plain_discards (d : Option Downlink) :
    ∀ f ∈ d.toList.map fun d => Frame.discard d.source, f.Plain := by
  cases d with
  | none => exact List.forall_mem_nil _
  | some d => exact List.forall_mem_singleton.mpr trivial

/-- The end of `reject_flow_setup`: the claim goes, and the code is written to the downlink that
was pending, or kept as a tombstone. -/
theorem Agree.rejectFinish (h : Steady wt wu) {key : FlowKey}
    (hmissing : (wt.pending .tcp).lookup key = none) (code : FlowErrorCode) {d e : Option Downlink}
    {liveness : Option Reader} (hde : Option.Rel (Downlink.Corresponds liveness) d e)
    (hguard : ∀ g, d.bind Downlink.guard = some g → g.quicGeneration = none) (ht : Lockless st)
    (hu : Lockless su) (next : ∀ wt wu, Steady wt wu → Agree cfg ties (wt, st) (wu, su)) :
    Agree cfg ties (wt, .rejectFinish key code d none :: st)
      (wu, .rejectFinish key code none e :: su) := by
  refine .left rfl (clear_of_lockless ht) (.right rfl (clear_of_lockless hu) ?_)
  have hclaims := h.setClaims (h.claims.erase key)
  cases hde with
  | none =>
    -- the pick belongs to the frame, which is the same on both sides
    change Agree cfg ties (_, .rejectTombstone key code (wt.now + cfg.timeout) :: st)
      (_, .rejectTombstone key code (wu.now + cfg.timeout) :: su)
    rw [h.now]
    exact .left rfl (clear_of_lockless ht) (.right rfl (clear_of_lockless hu)
      (next _ _ (hclaims.insertRejection cfg hmissing _ _)))
  | @some d e hde =>
    have hframes : (rejectFinishStep cfg wt key code (some d) none).frames =
        rejectDownlink (some d) code ++ dropGuard d.guard := rfl
    have hframes' : (rejectFinishStep cfg wu key code none (some e)).frames =
        rejectDownlink (some e) code ++ (dropGuard e.guard ++ []) := rfl
    rw [hframes, hframes', List.append_nil, rejectDownlink_of_rel (.some hde),
      show e.guard = d.guard from congrArg Writer.guard hde.writer]
    refine .plains ?_ ht hu next hclaims
    exact List.forall_mem_append.mpr ⟨plain_rejectDownlink _ _, plain_dropGuard hguard⟩

theorem Agree.reject (h : Steady wt wu) (key : FlowKey) (code : FlowErrorCode) (ht : Lockless st)
    (hu : Lockless su) (next : ∀ wt wu, Steady wt wu → Agree cfg ties (wt, st) (wu, su)) :
    Agree cfg ties (wt, .rejectTcp key code :: st) (wu, .rejectTcp key code :: su) := by
  refine .left rfl (clear_of_lockless ht) (.left rfl (clear_of_lockless ht)
    (.left rfl (clear_of_lockless ht) ?_))
  refine .right rfl (clear_of_lockless hu) (.right rfl (clear_of_lockless hu)
    (.right rfl (clear_of_lockless hu) ?_))
  unfold rejectClaimsStep
  rw [h.claims.active]
  split
  · exact next wt wu h
  rw [rejectEntry_of_empty h.noTcp]
  refine .right rfl (clear_of_lockless hu) ?_
  have herased := (h.erasePending key).release
    (((wt.pending .tcp).lookup key).bind Pending.flowPermit)
    (((wu.pending .udp).lookup key).bind Pending.flowPermit)
  have hlookup := h.entries.lookup key
  have hwaiting := h.waiting key
  unfold rejectEntry
  dsimp only
  generalize (wt.pending .tcp).lookup key = found, (wu.pending .udp).lookup key = found' at *
  -- the TCP side visits the map of UDP flows last, the UDP side has done so
  have hfinish {wt' wu' : World} {d e : Option Downlink} {liveness : Option Reader}
      (h' : Steady wt' wu')
      (hpending : wt'.pending = Function.update wt.pending .tcp ((wt.pending .tcp).erase key))
      (hde : Option.Rel (Downlink.Corresponds liveness) d e)
      (hguard : ∀ g, d.bind Downlink.guard = some g → g.quicGeneration = none) :
      Agree cfg ties (wt', .rejectUdpEntry key code d :: st)
        (wu', .rejectFinish key code none e :: su) := by
    refine .left rfl (clear_of_lockless ht) ?_
    rw [rejectEntry_of_empty h'.noUdp]
    refine .rejectFinish h' ?_ code hde hguard ht hu next
    rw [hpending]
    simp
  cases hlookup with
  | none => exact hfinish herased rfl (.none (r := Downlink.Corresponds none)) (by simp)
  | @some p q hpq =>
    obtain ⟨_, hguards⟩ := hwaiting p rfl
    have hdown := fun g hg => (hguards.downlink g hg).1
    simp only [Option.bind_some, uplinkGuard_of_rel hpq.uplink]
    cases hg : p.uplink.bind Uplink.guard with
    | none => exact hfinish herased rfl hpq.downlink hdown
    | some g =>
      refine .plain herased (hguards.uplink g hg).1 (clear_guardDrop (by simp [Frame.holds]) ht)
        (clear_guardDrop (by simp [Frame.holds]) hu) ?_
      intro wt' wu' h' hpending
      exact hfinish h' hpending hpq.downlink hdown

/-! ### Activation -/

/-- Activations of one flow. -/
structure Activation.Corresponds (a b : Activation) : Prop where
  via : a.call.via = .tcp
  call : b.call = a.call.asUdp
  epoch : b.epoch = a.epoch
  generations : b.generations = a.generations
  complete : a.complete.Corresponds b.complete
  uplinkGuard : ∀ g, a.complete.uplink.bind Uplink.guard = some g → g.quicGeneration = none
  downlinkGuard : ∀ g, a.complete.downlink.bind Downlink.guard = some g → g.quicGeneration = none

theorem Agree.activationFailed (h : Steady wt wu) (hab : a.Corresponds b) (e : PairingError) :
    Agree cfg ties
      ((Portal.activationFailed wt a e).world, (Portal.activationFailed wt a e).frames)
      ((Portal.activationFailed wu b e).world, (Portal.activationFailed wu b e).frames) := by
  refine .tail (h.release a.permit b.permit) ?_
  unfold Portal.activationFailed
  dsimp only
  rw [uplinkGuard_of_rel hab.complete.uplink, downlinkGuard_of_rel hab.complete.downlink,
    rejectDownlink_of_rel hab.complete.downlink, hab.call, hab.epoch]
  simp only [List.cons_append, List.append_assoc]
  have hup := plain_dropGuard hab.uplinkGuard
  have hdown := plain_dropGuard hab.downlinkGuard
  exact .same trivial (.append hup (.append (plain_rejectDownlink _ _)
    (.returnErr _ rfl (.plains hdown))))

theorem Agree.activateClaims (h : Steady wt wu) (hab : a.Corresponds b) :
    Agree cfg ties (wt, [.activateClaims a]) (wu, [.activateClaims b]) := by
  refine .last rfl rfl ?_
  have hactivate := h.claims.activateClaim a.call.key a.epoch a.generations
  have hkey : b.call.key = a.call.key := by
    rw [hab.call]
    rfl
  unfold activateClaimsStep
  rw [hkey, hab.epoch, hab.generations]
  generalize wt.claims.activateClaim a.call.key a.epoch a.generations = found,
    wu.claims.activateClaim a.call.key a.epoch a.generations = found' at hactivate ⊢
  cases hactivate with
  | none => exact .activationFailed h hab _
  | @some x y hxy =>
    obtain ⟨claims, cancel⟩ := x
    obtain ⟨claims', cancel'⟩ := y
    obtain ⟨hclaims, hcancel⟩ := hxy
    dsimp only at hclaims hcancel ⊢
    subst hcancel
    rw [hab.call]
    have hlease : FlowLease.Corresponds ⟨a.call.key, a.epoch, cancel', a.permit⟩
        ⟨a.call.key, a.epoch, cancel', b.permit⟩ := ⟨rfl, rfl, rfl⟩
    rcases hab.complete.toPaired hab.via hlease with
      ⟨p, q, hp, hq, hpq⟩ | ⟨message, message', hp, hq⟩
    · rw [hp, hq]
      exact .done ((h.setClaims hclaims).emit (.cons (.paired _ hpq) .nil))
    · rw [hp, hq]
      refine .tail (h.setClaims hclaims) (.panic _ _ (.leaseDrop hlease ?_))
      rw [discards_of_rel hab.complete.downlink, uplinkGuard_of_rel hab.complete.uplink,
        downlinkGuard_of_rel hab.complete.downlink]
      refine .plains ?_
      refine List.forall_mem_append.mpr ⟨List.forall_mem_append.mpr ⟨?_, ?_⟩, ?_⟩
      · exact plain_discards _
      · exact plain_dropGuard hab.uplinkGuard
      · exact plain_dropGuard hab.downlinkGuard

theorem Agree.activateLinks (h : Steady wt wu) (hab : a.Corresponds b) :
    Agree cfg ties (wt, [.activateLinks a]) (wu, [.activateLinks b]) := by
  refine .last rfl rfl ?_
  have hsession : b.call.sessionId = a.call.sessionId := by
    rw [hab.call]
    rfl
  unfold activateLinksStep
  rw [hab.generations, h.links, hsession]
  split
  · exact .activationFailed h hab _
  · exact .activateClaims h hab

end Rules

end Nowhere.Portal
