import Mathlib.Algebra.BigOperators.Group.Multiset.Basic
import Nowhere.Portal.Calls

/-!
# The ownership ledger

Uplinks, downlinks and link guards are moved between calls, pending entries, activations and
relays, and each of them is owned exactly once. The ledger weighs what every frame and every
pending entry owns with an arbitrary weight on single assets; `exec_ledger` says that a step
neither creates nor loses weight, other than by submitting a half, registering a carrier, or
dropping a half or a guard. Choosing the weight gives the counting invariants of the registry:
no half ends up in two pairs, every downlink has one fate, every TLS lane is counted once.
-/

namespace Nowhere.Portal

open Protocol Assoc

/-- What can be owned: a half, known by the submission that brought it, or a link guard. -/
inductive Asset
  | uplink (source : Nat)
  | downlink (source : Nat)
  | guard (g : LinkGuard)
  deriving DecidableEq

section Weights

variable (φ : Asset → Nat)

def guardWeight (g : Option LinkGuard) : Nat := g.elim 0 fun g => φ (.guard g)

def upSource (u : Option Uplink) : Nat := u.elim 0 fun u => φ (.uplink u.source)

def downSource (d : Option Downlink) : Nat := d.elim 0 fun d => φ (.downlink d.source)

def upGuard (u : Option Uplink) : Nat := guardWeight φ (u.bind Uplink.guard)

def downGuard (d : Option Downlink) : Nat := guardWeight φ (d.bind Downlink.guard)

/-- The weight of an uplink and a downlink that may be there. -/
def halves (u : Option Uplink) (d : Option Downlink) : Nat :=
  upSource φ u + upGuard φ u + (downSource φ d + downGuard φ d)

@[simp]
theorem upSource_none : upSource φ none = 0 := rfl

@[simp]
theorem upGuard_none : upGuard φ none = 0 := rfl

@[simp]
theorem downSource_none : downSource φ none = 0 := rfl

@[simp]
theorem downGuard_none : downGuard φ none = 0 := rfl

def AfterCancel.weight (s : SessionId) : AfterCancel → Nat
  | .register fresh => φ (.guard ⟨s, .quic, some fresh⟩)
  | .guardDrop => 0

/-- What a frame owns. `register_quic_link` owns the guard it is about to return from the
moment it has a generation. A relay owns the guards of its pair; the halves of the pair have
left the registry. -/
def Frame.weight : Frame → Nat
  | .submit c | .terminalRejection c | .acquireUdpPermit c | .tryAcquire c _ | .reserveDuplex c
  | .installPending c | .installLinks c | .installSweep c _ _ | .installTombstone c _
  | .installReserve c _ => halves φ c.uplink c.downlink
  | .activateLinks a | .activateClaims a => halves φ a.complete.uplink a.complete.downlink
  | .rejectUdpEntry _ _ d => downSource φ d + downGuard φ d
  | .rejectFinish _ _ d d' => downSource φ d + downGuard φ d + (downSource φ d' + downGuard φ d')
  | .writeReject d _ | .discard d => φ (.downlink d)
  | .lane g | .conn g | .linkGuardDrop g => φ (.guard g)
  | .registerQuicLinks s generation => φ (.guard ⟨s, .quic, some generation⟩)
  | .cancelGeneration s _ _ next | .purgeTcp s _ next | .purgeUdp s _ next _
  | .purgeKeys s _ next _ => next.weight φ s
  | .relay p _ => guardWeight φ p.uplink.guard + guardWeight φ p.downlink.guard
  | _ => 0

def load (fs : List Frame) : Nat := (fs.map (Frame.weight φ)).sum

/-- The halves that an event takes out of the registry. -/
def Event.spent : Event → Nat
  | .paired _ p => φ (.uplink p.uplink.source) + φ (.downlink p.downlink.source)
  | .wrote d _ | .dropped d _ => φ (.downlink d)
  | _ => 0

/-- The halves that an event brings in. -/
def Event.given : Event → Nat
  | .submitted c => upSource φ c.uplink + downSource φ c.downlink
  | _ => 0

def spent (log : List Event) : Nat := (log.map (Event.spent φ)).sum

def given (log : List Event) : Nat := (log.map (Event.given φ)).sum

/-- What the pending entries own. -/
def heldPending (pending : FlowKind → Map FlowKey Pending) : Nat :=
  total (pending .tcp) (fun _ p => halves φ p.uplink p.downlink) +
    total (pending .udp) fun _ p => halves φ p.uplink p.downlink

/-- The guard a step creates. -/
def Frame.gain (w : World) : Frame → Nat
  | .registerTcp s => φ (.guard ⟨s, .tlsTcp, none⟩)
  | .registerQuic s => φ (.guard ⟨s, .quic, some w.nextQuicGeneration⟩)
  | _ => 0

/-- The guard a step destroys. -/
def Frame.loss : Frame → Nat
  | .linkGuardDrop g => φ (.guard g)
  | _ => 0

/-- Weights before and after a step of `f`. Nothing is lost on the way but uplinks. -/
def Balanced (w : World) (f : Frame) (r : Effect) : Prop :=
  ∃ lost, load φ r.all + heldPending φ r.world.pending + spent φ r.world.log + given φ w.log +
      f.loss φ + lost =
    f.weight φ + heldPending φ w.pending + spent φ w.log + given φ r.world.log + f.gain φ w ∧
    ((∀ s, φ (.uplink s) = 0) → lost = 0)

end Weights

attribute [local simp] Frame.weight Frame.gain Frame.loss

/-! ## Weights of lists of frames -/

section Load

variable {φ : Asset → Nat}

@[simp]
theorem load_nil : load φ [] = 0 := rfl

@[simp]
theorem load_cons (f : Frame) (fs : List Frame) : load φ (f :: fs) = f.weight φ + load φ fs := by
  simp [load]

@[simp]
theorem load_append (fs gs : List Frame) : load φ (fs ++ gs) = load φ fs + load φ gs := by
  simp [load]

@[simp]
theorem load_dropGuard (g : Option LinkGuard) : load φ (dropGuard g) = guardWeight φ g := by
  cases g <;> simp [dropGuard, guardWeight]

@[simp]
theorem load_rejectDownlink (d : Option Downlink) (code : FlowErrorCode) :
    load φ (rejectDownlink d code) = downSource φ d := by
  cases d <;> simp [rejectDownlink, downSource]

@[simp]
theorem load_discard (d : Option Downlink) :
    load φ (d.toList.map fun d => .discard d.source) = downSource φ d := by
  cases d <;> simp [downSource]

@[simp]
theorem load_permitDrop (p : Option Permit) : load φ (p.toList.map .permitDrop) = 0 := by
  cases p <;> simp

variable (c : Submission)

theorem load_drops : load φ c.drops = upGuard φ c.uplink + downGuard φ c.downlink := by
  simp [Submission.drops, upGuard, downGuard]

theorem load_replyReject (e : PairingError) :
    load φ (c.replyReject e) + upSource φ c.uplink = halves φ c.uplink c.downlink := by
  simp only [Submission.replyReject, load_append, load_cons, load_rejectDownlink, load_drops,
    Frame.weight, halves]
  omega

theorem load_rejectEarly (e : PairingError) :
    load φ (c.rejectEarly e) + upSource φ c.uplink = halves φ c.uplink c.downlink := by
  rw [Submission.rejectEarly, load_append, ← load_replyReject c e]
  split <;> simp

/-- Whatever is dropped under the locks is not dropped again afterwards. -/
theorem load_lockedDrops : load φ c.lockedDrops + load φ c.lateDrops =
    upGuard φ c.uplink + downGuard φ c.downlink := by
  unfold Submission.lockedDrops Submission.lateDrops
  cases c.via <;> simp [upGuard, downGuard]

theorem load_rejected (e : PairingError) (abortPending : Bool) :
    load φ (c.rejected e abortPending) + upSource φ c.uplink = halves φ c.uplink c.downlink := by
  have hdrops := load_lockedDrops (φ := φ) c
  have habort : load φ (if abortPending then [.rejectTcp c.key e.code] else []) = 0 := by
    split <;> simp
  simp only [Submission.rejected, load_append, load_cons, load_rejectDownlink, habort,
    Frame.weight, halves]
  omega

theorem load_rejectedUplink (e : PairingError) :
    load φ (c.rejectedUplink e) + upSource φ c.uplink = halves φ c.uplink c.downlink := by
  have hdrops := load_lockedDrops (φ := φ) c
  simp only [Submission.rejectedUplink, load_append, load_cons, load_discard, Frame.weight, halves]
  omega

theorem load_unwind :
    load φ c.unwind + upSource φ c.uplink = halves φ c.uplink c.downlink := by
  simp only [Submission.unwind, load_append, load_discard, load_drops, halves]
  omega

end Load

/-! ## Weights of the world -/

section Held

variable {φ : Asset → Nat}

/-- The weight of an entry that may be there. -/
def entryWeight (φ : Asset → Nat) (p : Option Pending) : Nat :=
  p.elim 0 fun p => halves φ p.uplink p.downlink

theorem entryWeight_eq (p : Option Pending) :
    entryWeight φ p = halves φ (p.bind Pending.uplink) (p.bind Pending.downlink) := by
  cases p <;> rfl

/-- A weight of single entries, summed over both maps. -/
def entriesTotal (ψ : Pending → Nat) (pending : FlowKind → Map FlowKey Pending) : Nat :=
  total (pending .tcp) (fun _ p => ψ p) + total (pending .udp) fun _ p => ψ p

theorem entriesTotal_update (ψ : Pending → Nat) (pending : FlowKind → Map FlowKey Pending)
    (kind : FlowKind) (flows : Map FlowKey Pending) :
    entriesTotal ψ (Function.update pending kind flows) + total (pending kind) (fun _ p => ψ p) =
      entriesTotal ψ pending + total flows fun _ p => ψ p := by
  cases kind
  · simp only [entriesTotal, Function.update_self, Function.update_of_ne, ne_eq, reduceCtorEq,
      not_false_eq_true]
    omega
  · simp only [entriesTotal, Function.update_self, Function.update_of_ne, ne_eq, reduceCtorEq,
      not_false_eq_true]
    omega

theorem entriesTotal_erase (ψ : Pending → Nat) (pending : FlowKind → Map FlowKey Pending)
    (kind : FlowKind) (key : FlowKey) :
    entriesTotal ψ (Function.update pending kind ((pending kind).erase key)) +
      ((pending kind).lookup key).elim 0 (fun p => ψ p) = entriesTotal ψ pending := by
  have hupdate := entriesTotal_update ψ pending kind ((pending kind).erase key)
  have herase := total_erase (pending kind) key fun _ p => ψ p
  omega

theorem entriesTotal_insert (ψ : Pending → Nat) (pending : FlowKind → Map FlowKey Pending)
    (kind : FlowKind) (key : FlowKey) (p : Pending) :
    entriesTotal ψ (Function.update pending kind ((pending kind).insert key p)) +
      ((pending kind).lookup key).elim 0 (fun p => ψ p) = entriesTotal ψ pending + ψ p := by
  have hupdate := entriesTotal_update ψ pending kind ((pending kind).insert key p)
  have herase := total_erase (pending kind) key fun _ p => ψ p
  have hinsert := total_insert (pending kind) key p fun _ p => ψ p
  omega

theorem held_update (pending : FlowKind → Map FlowKey Pending) (kind : FlowKind)
    (flows : Map FlowKey Pending) :
    heldPending φ (Function.update pending kind flows) +
        total (pending kind) (fun _ p => halves φ p.uplink p.downlink) =
      heldPending φ pending + total flows fun _ p => halves φ p.uplink p.downlink :=
  entriesTotal_update (fun p => halves φ p.uplink p.downlink) pending kind flows

theorem held_erase (pending : FlowKind → Map FlowKey Pending) (kind : FlowKind) (key : FlowKey) :
    heldPending φ (Function.update pending kind ((pending kind).erase key)) +
      entryWeight φ ((pending kind).lookup key) = heldPending φ pending :=
  entriesTotal_erase (fun p => halves φ p.uplink p.downlink) pending kind key

theorem held_insert (pending : FlowKind → Map FlowKey Pending) (kind : FlowKind) (key : FlowKey)
    (p : Pending) :
    heldPending φ (Function.update pending kind ((pending kind).insert key p)) +
        entryWeight φ ((pending kind).lookup key) =
      heldPending φ pending + halves φ p.uplink p.downlink :=
  entriesTotal_insert (fun p => halves φ p.uplink p.downlink) pending kind key p

@[simp]
theorem spent_cons (e : Event) (log : List Event) :
    spent φ (e :: log) = e.spent φ + spent φ log := by
  simp [spent]

@[simp]
theorem spent_append (es log : List Event) : spent φ (es ++ log) = spent φ es + spent φ log := by
  simp [spent]

@[simp]
theorem given_cons (e : Event) (log : List Event) :
    given φ (e :: log) = e.given φ + given φ log := by
  simp [given]

/-- A dropped downlink that may be there. -/
@[simp]
theorem spent_dropped (d : Option Downlink) (reason : DropReason) :
    spent φ (d.toList.map fun d => .dropped d.source reason) = downSource φ d := by
  cases d <;> simp [spent, downSource, Event.spent]

@[simp]
theorem given_dropped (ds : List Downlink) (reason : DropReason) (log : List Event) :
    given φ ((ds.map fun d => .dropped d.source reason) ++ log) = given φ log := by
  simp [given, Event.given, Function.comp_def]

end Held

section Balance

variable {φ : Asset → Nat} {cfg : Config} {w w' : World} {f : Frame} {fs : List Frame}
  {c : Submission} {r : Effect} {choice : Choice}

/-- A step that only rearranges frames. -/
theorem Balanced.of_load (lost : Nat) (hpending : w'.pending = w.pending) (hlog : w'.log = w.log)
    (hload : load φ fs + f.loss φ + lost = f.weight φ + f.gain φ w)
    (hlost : (∀ s, φ (.uplink s) = 0) → lost = 0) : Balanced φ w f ⟨w', fs, []⟩ := by
  refine ⟨lost, ?_, hlost⟩
  simp only [Tasks.Effect.all, List.flatten_nil, List.append_nil, hpending, hlog]
  omega

theorem upSource_lost (u : Option Uplink) (h : ∀ s, φ (.uplink s) = 0) : upSource φ u = 0 := by
  cases u <;> simp [upSource, h]

/-- A step that loses the uplink `u`. -/
theorem Balanced.of_upSource {w' : World} {fs : List Frame} (u : Option Uplink)
    (hpending : w'.pending = w.pending) (hlog : w'.log = w.log)
    (hload : load φ fs + f.loss φ + upSource φ u = f.weight φ + f.gain φ w) :
    Balanced φ w f ⟨w', fs, []⟩ :=
  .of_load (upSource φ u) hpending hlog hload (upSource_lost u)

theorem Balanced.of_eq (hpending : w'.pending = w.pending) (hlog : w'.log = w.log)
    (hload : load φ fs + f.loss φ = f.weight φ + f.gain φ w) :
    Balanced φ w f ⟨w', fs, []⟩ :=
  .of_load 0 hpending hlog hload fun _ => rfl

theorem submitStep_balanced (c : Submission) : Balanced φ w (.submit c) (submitStep w c) := by
  unfold submitStep
  split
  · exact .of_upSource c.uplink rfl rfl (load_rejectEarly c _)
  · split
    · refine .of_eq rfl rfl ?_
      unfold Submission.afterChecks
      split <;> simp
    · exact .of_upSource c.uplink rfl rfl (load_rejectEarly c _)

theorem terminalRejectionStep_balanced (c : Submission) :
    Balanced φ w (.terminalRejection c) (terminalRejectionStep w c) := by
  unfold terminalRejectionStep
  dsimp only
  split
  · exact .of_upSource c.uplink rfl rfl (load_replyReject c _)
  · refine .of_eq rfl rfl ?_
    split <;> simp

theorem acquireUdpPermitStep_balanced (c : Submission) :
    Balanced φ w (.acquireUdpPermit c) (acquireUdpPermitStep w c) := by
  unfold acquireUdpPermitStep
  split
  · exact .of_upSource c.uplink rfl rfl (load_rejectEarly c _)
  · exact .of_eq rfl rfl (by simp)

theorem tryAcquireStep_balanced (c : Submission) (budget : Nat) :
    Balanced φ w (.tryAcquire c budget) (tryAcquireStep w c budget) := by
  unfold tryAcquireStep
  split
  · refine .of_eq rfl rfl ?_
    dsimp only
    split <;> simp
  · exact .of_upSource c.uplink rfl rfl (load_rejectEarly c _)

theorem reserveDuplexStep_balanced (c : Submission) :
    Balanced φ w (.reserveDuplex c) (reserveDuplexStep cfg w c) := by
  unfold reserveDuplexStep
  generalize w.claims.reserveClaim cfg c.key c.metadata c.target c.link.quicGeneration = res
  obtain ⟨claims, reserved⟩ := res
  dsimp only
  split
  · exact .of_upSource c.uplink rfl rfl (load_replyReject c _)
  · exact .of_upSource c.uplink rfl rfl (load_replyReject c _)
  · split
    · refine .of_upSource c.uplink rfl rfl ?_
      have hunwind := load_unwind (φ := φ) c
      simp only [load_cons, Frame.weight, Frame.loss, Frame.gain]
      omega
    · exact .of_eq rfl rfl (by simp [Submission.toPending])

/-- A stale half leaves the entry with its weight. -/
theorem halves_clearStale (p : Pending) (active : Option Nat) :
    halves φ (p.clearStale active).uplink (p.clearStale active).downlink +
        (upSource φ (if p.uplinkStale active then p.uplink else none) +
          upGuard φ (if p.uplinkStale active then p.uplink else none)) +
        (downSource φ (if p.downlinkStale active then p.downlink else none) +
          downGuard φ (if p.downlinkStale active then p.downlink else none)) =
      halves φ p.uplink p.downlink := by
  cases hu : p.uplinkStale active <;> cases hd : p.downlinkStale active <;>
    simp only [Pending.clearStale, hu, hd, halves, if_true, if_false, Bool.false_eq_true,
      upSource_none, upGuard_none, downSource_none, downGuard_none] <;> omega

theorem installLinksStep_balanced (c : Submission) :
    Balanced φ w (.installLinks c) (installLinksStep w c) := by
  unfold installLinksStep
  split
  · exact .of_upSource c.uplink rfl rfl (load_rejected c _ _)
  · dsimp only
    split
    · exact .of_eq rfl rfl (by simp)
    · rename_i p hfound
      have hclear := halves_clearStale (φ := φ) p (activeQuicGeneration w.links c.sessionId)
      generalize p.clearStale (activeQuicGeneration w.links c.sessionId) = p' at hclear ⊢
      generalize (if p.uplinkStale (activeQuicGeneration w.links c.sessionId) = true then p.uplink
        else none) = lostUplink at hclear ⊢
      generalize (if p.downlinkStale (activeQuicGeneration w.links c.sessionId) = true then
        p.downlink else none) = lostDownlink at hclear ⊢
      have herase := held_erase (φ := φ) w.pending c.via c.key
      have hinsert := held_insert (φ := φ) w.pending c.via c.key p'
      rw [hfound, entryWeight, Option.elim_some] at herase hinsert
      refine ⟨upSource φ lostUplink, ?_, upSource_lost _⟩
      simp only [Tasks.Effect.all, List.flatten_nil, List.append_nil, load_append, load_dropGuard,
        load_cons, load_nil, spent_append, spent_dropped, given_dropped, Frame.weight, Frame.loss,
        Frame.gain, upGuard, downGuard] at hclear ⊢
      split
      · rename_i hgone
        -- nothing is left, so the entry goes with its weight
        simp only [Bool.and_eq_true, Option.isNone_iff_eq_none] at hgone
        have hempty : halves φ p'.uplink p'.downlink = 0 := by simp [halves, hgone]
        omega
      · omega

/-- A half that fits moves from the call into the entry. -/
theorem halves_fill {p p' : Pending} {misfit : Option Pending.Misfit}
    (hbuilt : ({ c with permit := none } : Submission).Built) (hfill : p.fill c = (p', misfit)) :
    halves φ p'.uplink p'.downlink =
      halves φ p.uplink p.downlink + if misfit = none then halves φ c.uplink c.downlink else 0 := by
  have hup := hbuilt.uplink
  have hdown := hbuilt.downlink
  dsimp only at hup hdown
  unfold Pending.fill at hfill
  split at hfill
  · cases hfill
    simp
  · dsimp only at hfill
    split at hfill
    · rename_i hopening
      split at hfill <;> cases hfill
      · simp
      · rename_i huplink
        have hnone : c.downlink = none := by simpa [hopening] using hdown
        have hempty : p.uplink = none := by simpa using huplink
        simp only [halves, hnone, hempty, upSource, upGuard, downSource, downGuard, guardWeight,
          Option.elim_none, Option.bind_none, if_true]
        omega
    · rename_i hattach
      split at hfill <;> cases hfill
      · simp
      · rename_i hdownlink
        have hnone : c.uplink = none := by simpa [hattach] using hup
        have hempty : p.downlink = none := by simpa using hdownlink
        simp only [halves, hnone, hempty, upSource, upGuard, downSource, downGuard, guardWeight,
          Option.elim_none, Option.bind_none, if_true]
        omega
    · cases hfill
      simp

theorem entryWeight_getD_fresh (p : Option Pending) (c : Submission) (epoch : Nat)
    (active : Option Nat) :
    halves φ (p.getD (.fresh c epoch active)).uplink (p.getD (.fresh c epoch active)).downlink =
      entryWeight φ p := by
  cases p <;> rfl

theorem load_missingPermit (c : Submission) (p : Pending) :
    load φ (missingPermit c p) + upSource φ p.uplink = halves φ p.uplink p.downlink := by
  simp only [missingPermit, load_append, load_cons, load_dropGuard, load_rejectDownlink,
    Frame.weight, halves, upGuard, downGuard]
  omega

theorem load_misfitFrames (c : Submission) (m : Pending.Misfit) :
    load φ (misfitFrames c m) + upSource φ c.uplink = halves φ c.uplink c.downlink := by
  cases m with
  | metadata => exact load_rejected c _ _
  | downlink => exact load_rejected c _ _
  | uplink => exact load_rejectedUplink c _
  | duplex =>
    simp only [misfitFrames, load_cons, Frame.weight, Nat.zero_add]
    exact load_unwind c

theorem installReserveStep_balanced (active : Option Nat)
    (hbuilt : ({ c with permit := none } : Submission).Built) :
    Balanced φ w (.installReserve c active) (installReserveStep cfg w c active) := by
  have hinsert (p : Pending) := held_insert (φ := φ) w.pending c.via c.key p
  have herase := held_erase (φ := φ) w.pending c.via c.key
  have hweight {epoch : Nat} {p : Pending} {misfit : Option Pending.Misfit}
      (hfill : c.FillsEntry w epoch active p misfit) := halves_fill (φ := φ) hbuilt hfill
  simp only [entryWeight_getD_fresh] at hweight
  have houtcome := installReserveStep_installs cfg w c active
  generalize installReserveStep cfg w c active = r at houtcome ⊢
  cases houtcome with
  | refused _ => exact .of_upSource c.uplink rfl rfl (load_rejected c _ _)
  | @misfit _ _ _ p m _ hfill =>
    -- the half stays with the call
    have hfilled := hweight hfill
    have hload := load_misfitFrames (φ := φ) c m
    have hinserted := hinsert p
    simp only [reduceCtorEq, if_false] at hfilled
    refine ⟨upSource φ c.uplink, ?_, upSource_lost _⟩
    simp only [Tasks.Effect.all, List.flatten_nil, List.append_nil, Frame.weight, Frame.loss,
      Frame.gain]
    omega
  | @missing _ _ _ p _ hfill _ _ _ =>
    have hfilled := hweight hfill
    have hmissing := load_missingPermit (φ := φ) c p
    simp only [if_true] at hfilled
    refine ⟨upSource φ p.uplink, ?_, upSource_lost _⟩
    simp only [Tasks.Effect.all, List.flatten_nil, List.append_nil, Frame.weight, Frame.loss,
      Frame.gain]
    omega
  | activates _ hfill _ =>
    have hfilled := hweight hfill
    simp only [if_true] at hfilled
    refine ⟨0, ?_, fun _ => rfl⟩
    simp only [Tasks.Effect.all, List.flatten_nil, List.append_nil, load_cons, load_nil,
      Frame.weight, Frame.loss, Frame.gain]
    omega
  | @waits _ _ _ p _ hfill _ =>
    have hfilled := hweight hfill
    have hinserted := hinsert p
    simp only [if_true] at hfilled
    refine ⟨0, ?_, fun _ => rfl⟩
    simp only [Tasks.Effect.all, List.flatten_nil, List.append_nil, load_cons, load_nil,
      Frame.weight, Frame.loss, Frame.gain]
    omega

theorem installTombstoneStep_balanced (c : Submission) (active : Option Nat) :
    Balanced φ w (.installTombstone c active) (installTombstoneStep w c active) := by
  unfold installTombstoneStep
  dsimp only
  split
  · exact .of_upSource c.uplink rfl rfl (load_rejected c _ _)
  · exact .of_eq rfl rfl (by simp)

theorem installRefreshClaimStep_balanced (c : Submission) (epoch : Nat) :
    Balanced φ w (.installRefreshClaim c epoch) (installRefreshClaimStep cfg w c epoch) := by
  unfold installRefreshClaimStep
  dsimp only
  split
  · rename_i claims hrefresh
    refine ⟨0, ?_, fun _ => rfl⟩
    cases hfound : (w.pending c.via).lookup c.key with
    | none =>
      simp [Tasks.Effect.all, Event.spent, Event.given]
    | some p =>
      have hinsert := held_insert (φ := φ) w.pending c.via c.key { p with epoch }
      rw [hfound, entryWeight, Option.elim_some] at hinsert
      dsimp only at hinsert
      simp only [Tasks.Effect.all, List.nil_append, List.flatten_cons, List.flatten_nil,
        List.append_nil, load_cons, load_nil, Option.elim_some, spent_cons, given_cons,
        Frame.weight, Frame.loss, Frame.gain, Event.spent, Event.given]
      omega
  · have herase := held_erase (φ := φ) w.pending c.via c.key
    generalize (w.pending c.via).lookup c.key = p at herase ⊢
    rw [entryWeight_eq, halves] at herase
    refine ⟨upSource φ (p.bind Pending.uplink), ?_, upSource_lost _⟩
    simp only [Tasks.Effect.all, List.flatten_nil, List.append_nil, load_append, load_dropGuard,
      load_rejectDownlink, load_cons, Frame.weight, Frame.loss, Frame.gain]
    rw [upGuard, downGuard] at herase
    omega

theorem activationFailed_balanced (a : Activation) (e : PairingError)
    (hweight : f.weight φ = halves φ a.complete.uplink a.complete.downlink) (hloss : f.loss φ = 0)
    (hgain : f.gain φ w = 0) :
    Balanced φ w f (activationFailed w a e) := by
  refine .of_upSource a.complete.uplink rfl rfl ?_
  rw [hweight, hloss, hgain]
  simp only [load_append, load_dropGuard, load_rejectDownlink, load_cons, Frame.weight, halves,
    upGuard, downGuard]
  omega

theorem activateLinksStep_balanced (a : Activation) :
    Balanced φ w (.activateLinks a) (activateLinksStep w a) := by
  unfold activateLinksStep
  split
  · exact activationFailed_balanced a _ rfl rfl rfl
  · exact .of_eq rfl rfl (by simp)

theorem activateClaimsStep_balanced (a : Activation) :
    Balanced φ w (.activateClaims a) (activateClaimsStep w a) := by
  unfold activateClaimsStep
  split
  · exact activationFailed_balanced a _ rfl rfl rfl
  · dsimp only
    split
    · -- the halves move into the pair
      rename_i p hpair
      obtain ⟨⟨_, huplink, hdownlink, _⟩, _⟩ := toPaired_ok hpair
      refine ⟨0, ?_, fun _ => rfl⟩
      simp only [Tasks.Effect.all, List.nil_append, List.flatten_cons, List.flatten_nil,
        List.append_nil, load_cons, load_nil, spent_cons, given_cons, Frame.weight, Frame.loss,
        Frame.gain, Event.spent, Event.given, huplink, hdownlink, halves, upSource, upGuard,
        downSource, downGuard, Option.elim_some, Option.bind_some]
      omega
    · refine .of_upSource a.complete.uplink rfl rfl ?_
      simp only [load_append, load_dropGuard, load_discard, load_cons, Frame.weight, Frame.loss,
        Frame.gain, halves, upGuard, downGuard]
      omega

/-- An entry that leaves the map gives its downlink to the next frame. -/
theorem rejectEntry_balanced (kind : FlowKind) (key : FlowKey) (next : Option Downlink → Frame)
    (hloss : f.loss φ = 0) (hgain : f.gain φ w = 0)
    (hnext : ∀ d, (next d).weight φ = f.weight φ + (downSource φ d + downGuard φ d)) :
    Balanced φ w f (rejectEntry w kind key next) := by
  have herase := held_erase (φ := φ) w.pending kind key
  unfold rejectEntry
  dsimp only
  generalize (w.pending kind).lookup key = p at herase ⊢
  rw [entryWeight_eq, halves, upGuard] at herase
  refine ⟨upSource φ (p.bind Pending.uplink), ?_, upSource_lost _⟩
  simp only [Tasks.Effect.all, List.flatten_nil, List.append_nil, load_append, load_dropGuard,
    load_cons, load_nil, hnext, hloss, hgain]
  omega

theorem rejectClaimsStep_balanced (key : FlowKey) (code : FlowErrorCode) :
    Balanced φ w (.rejectClaims key code) (rejectClaimsStep w key code) := by
  unfold rejectClaimsStep
  split
  · exact .of_eq rfl rfl rfl
  · exact rejectEntry_balanced .tcp key _ rfl rfl (by simp)

theorem rejectFinishStep_balanced (key : FlowKey) (code : FlowErrorCode)
    (tcp udp : Option Downlink) :
    Balanced φ w (.rejectFinish key code tcp udp) (rejectFinishStep cfg w key code tcp udp) := by
  unfold rejectFinishStep
  refine .of_eq rfl rfl ?_
  split
  · rename_i hnone
    simp [hnone]
  · simp only [load_append, load_rejectDownlink, load_dropGuard, Frame.weight, Frame.loss,
      Frame.gain, downGuard]
    omega

theorem timeoutStep_balanced {kind : FlowKind} {key : FlowKey} {epoch deadline : Nat}
    (h : timeoutStep w kind key epoch deadline = some r) :
    Balanced φ w (.timeout kind key epoch deadline) r := by
  have herase := held_erase (φ := φ) w.pending kind key
  cases timeoutStep_timesOut h with
  | idle => exact .of_eq rfl rfl rfl
  | @uplink p hfound hmissing =>
    rw [hfound, entryWeight, Option.elim_some, halves, upGuard, hmissing] at herase
    refine ⟨upSource φ p.uplink, ?_, upSource_lost _⟩
    simp only [downSource_none, downGuard, Option.bind_none, guardWeight, Option.elim_none]
      at herase
    simp only [Tasks.Effect.all, List.flatten_nil, List.append_nil, load_append, load_dropGuard,
      load_cons, load_nil, Frame.weight, Frame.loss, Frame.gain, timedOut, guardWeight]
    omega
  | @other p hfound =>
    rw [hfound, entryWeight, Option.elim_some, halves, upGuard, downGuard] at herase
    refine ⟨upSource φ p.uplink, ?_, upSource_lost _⟩
    cases kind <;>
      simp only [Tasks.Effect.all, List.flatten_nil, List.append_nil, timeoutFrames, timedOut,
        load_append, load_dropGuard, load_rejectDownlink, load_cons, Frame.weight, Frame.loss,
        Frame.gain] <;> omega

theorem cancelUdpStep_balanced (key : FlowKey) :
    Balanced φ w (.cancelUdp key) (cancelUdpStep w key) := by
  have herase := held_erase (φ := φ) w.pending .udp key
  unfold cancelUdpStep
  dsimp only
  generalize (w.pending .udp).lookup key = p at herase ⊢
  rw [entryWeight_eq, halves, upGuard, downGuard] at herase
  refine ⟨upSource φ (p.bind Pending.uplink), ?_, upSource_lost _⟩
  simp only [Tasks.Effect.all, List.flatten_nil, List.append_nil, load_append, load_dropGuard,
    load_cons, load_nil, spent_append, spent_dropped, given_dropped, Frame.weight, Frame.loss,
    Frame.gain]
  omega

/-- The weight of all entries of a map that is cleared. -/
theorem load_drain (es : List (Sigma fun _ : FlowKey => Pending)) :
    load φ ((es.map Sigma.snd).flatMap fun p => dropGuard (p.uplink.bind Uplink.guard) ++
          dropGuard (p.downlink.bind Downlink.guard)) +
        spent φ (((es.map Sigma.snd).filterMap Pending.downlink).map fun d =>
          .dropped d.source .drainPending) +
        (es.map fun e => upSource φ e.2.uplink).sum =
      (es.map fun e => halves φ e.2.uplink e.2.downlink).sum := by
  induction es with
  | nil => rfl
  | cons e es ih =>
    have hspent : spent φ ((((e :: es).map Sigma.snd).filterMap Pending.downlink).map fun d =>
          .dropped d.source .drainPending) =
        downSource φ e.2.downlink + spent φ (((es.map Sigma.snd).filterMap Pending.downlink).map
          fun d => .dropped d.source .drainPending) := by
      cases hd : e.2.downlink <;> simp [hd, downSource, Event.spent]
    rw [hspent]
    simp only [List.map_cons, List.flatMap_cons, load_append, load_dropGuard, List.sum_cons]
    rw [← ih, halves, upGuard, downGuard]
    omega

theorem drainFlowsStep_balanced (kind : FlowKind) :
    Balanced φ w (.drainFlows kind) (drainFlowsStep w kind) := by
  have hdrain := load_drain (φ := φ) (w.pending kind).entries
  have hupdate := held_update (φ := φ) w.pending kind ∅
  rw [total_empty, Nat.add_zero, total] at hupdate
  refine ⟨((w.pending kind).entries.map fun e => upSource φ e.2.uplink).sum, ?_, ?_⟩
  · have hload : load φ (drainFlowsStep w kind).all =
        load φ (((w.pending kind).entries.map Sigma.snd).flatMap fun p =>
          dropGuard (p.uplink.bind Uplink.guard) ++
            dropGuard (p.downlink.bind Downlink.guard)) := by
      cases kind <;> simp [drainFlowsStep, Tasks.Effect.all]
    rw [hload]
    simp only [drainFlowsStep, spent_append, given_dropped, Frame.weight, Frame.loss, Frame.gain]
    omega
  · intro hzero
    refine List.sum_eq_zero ?_
    intro n hn
    obtain ⟨e, _, rfl⟩ := List.mem_map.mp hn
    exact upSource_lost _ hzero

/-- A step that leaves the pending entries alone and adds one event without halves. -/
theorem Balanced.of_event (e : Event) (hpending : w'.pending = w.pending)
    (hlog : w'.log = e :: w.log) (hgiven : e.given φ = 0)
    (hload : load φ fs + e.spent φ + f.loss φ = f.weight φ + f.gain φ w) :
    Balanced φ w f ⟨w', fs, []⟩ := by
  refine ⟨0, ?_, fun _ => rfl⟩
  simp only [Tasks.Effect.all, List.flatten_nil, List.append_nil, hpending, hlog, spent_cons,
    given_cons, hgiven]
  omega

theorem registerQuicLinksStep_balanced (s : SessionId) (generation : Nat) :
    Balanced φ w (.registerQuicLinks s generation) (registerQuicLinksStep cfg w s generation) := by
  unfold registerQuicLinksStep
  have hpending : (registerQuicLink cfg w s generation).1.pending = w.pending := rfl
  have hlog : (registerQuicLink cfg w s generation).1.log = w.log := rfl
  generalize registerQuicLink cfg w s generation = res at hpending hlog ⊢
  obtain ⟨w', previous⟩ := res
  cases previous with
  | some previous =>
    exact .of_eq hpending hlog (by simp [AfterCancel.weight])
  | none =>
    refine .of_event (.registeredQuic s generation none) hpending ?_ rfl ?_
    · simpa [World.emit] using hlog
    · simp [Event.spent]

theorem linkGuardDropStep_balanced (g : LinkGuard) :
    Balanced φ w (.linkGuardDrop g) (linkGuardDropStep w g) := by
  obtain ⟨stats, hdrop⟩ := dropLink_world w g
  have hpending : (dropLink w g).1.pending = w.pending := by rw [hdrop]
  have hlog : (dropLink w g).1.log = w.log := by rw [hdrop]
  refine .of_eq hpending hlog ?_
  split <;> simp [AfterCancel.weight]

theorem cancelGenerationStep_balanced (runtime : Bool) (s : SessionId) (generation : Nat)
    (held : Bool) (next : AfterCancel) :
    Balanced φ w (.cancelGeneration s generation held next)
      (cancelGenerationStep w runtime s generation next) := by
  unfold cancelGenerationStep
  cases next with
  | register fresh =>
    exact .of_event (.cancelledGeneration s generation) rfl rfl rfl
      (by simp [Event.spent])
  | guardDrop =>
    refine ⟨0, ?_, fun _ => rfl⟩
    cases runtime <;>
      simp [Tasks.Effect.all, Event.spent, Event.given, AfterCancel.weight]

theorem purgeKeysStep_balanced (pick : Nat) (s : SessionId) (generation : Nat)
    (next : AfterCancel) (stale : List FlowKey) :
    Balanced φ w (.purgeKeys s generation next stale)
      (purgeKeysStep w pick s generation next stale) := by
  unfold purgeKeysStep
  split
  · exact .of_eq rfl rfl (by simp)
  · cases next with
    | guardDrop => exact .of_eq rfl rfl rfl
    | register fresh =>
      exact .of_event (.registeredQuic s fresh (some generation)) rfl rfl rfl
        (by simp [Event.spent, AfterCancel.weight])

/-- The halves built on a TLS lane own its guard once. -/
theorem halves_tls (id : Nat) (g : LinkGuard) (kind : FlowKind) (role : FlowRole) :
    halves φ (tlsHalves id g kind role).1 (tlsHalves id g kind role).2.1 =
      φ (.guard g) + (upSource φ (tlsHalves id g kind role).1 +
        downSource φ (tlsHalves id g kind role).2.1) := by
  cases kind <;> cases role <;>
    simp [tlsHalves, halves, upGuard, downGuard, guardWeight, Uplink.guard, Downlink.guard,
      Downlink.writer] <;> omega

theorem halves_quic (id : Nat) (kind : FlowKind) (role : FlowRole) :
    halves φ (quicHalves id kind role).1 (quicHalves id kind role).2.1 =
      upSource φ (quicHalves id kind role).1 + downSource φ (quicHalves id kind role).2.1 := by
  cases kind <;> cases role <;>
    simp [quicHalves, halves, upGuard, downGuard, guardWeight, Uplink.guard, Downlink.guard,
      Downlink.writer]

theorem laneStep_balanced {g : LinkGuard} (h : laneStep w choice g = some r) :
    Balanced φ w (.lane g) r := by
  unfold laneStep at h
  split at h <;> cases h
  · rename_i header target path
    have htls := halves_tls (φ := φ) w.nextSubmission g header.kind header.role
    refine ⟨0, ?_, fun _ => rfl⟩
    simp only [Tasks.Effect.all, startSubmission, World.newSubmission, List.flatten_nil,
      List.append_nil, load_cons, load_nil, spent_cons, given_cons, Frame.weight, Frame.loss,
      Frame.gain, Event.spent, Event.given]
    omega
  · exact .of_eq rfl rfl (by simp)
  · exact .of_eq rfl rfl (by simp)

theorem load_relayEnd (p : Paired) :
    load φ (relayEnd p) = guardWeight φ p.uplink.guard + guardWeight φ p.downlink.guard := by
  simp only [relayEnd, load_append, load_cons, load_dropGuard, Frame.weight]
  omega

theorem relayReject_balanced (p : Paired) (stage : RelayStage) (code : FlowErrorCode) :
    Balanced φ w (.relay p stage) (relayReject w p code) :=
  .of_event (.relayed p.downlink.source (.reject code)) rfl rfl rfl
    (by simp [load_relayEnd, Event.spent])

theorem relayStep_balanced {p : Paired} {stage : RelayStage}
    (h : relayStep w choice p stage = some r) : Balanced φ w (.relay p stage) r := by
  cases relayStep_outcome h with
  | closed _ =>
    exact .of_eq rfl rfl (by simp [load_relayEnd])
  | rejected _ _ => exact relayReject_balanced p _ _
  | moves _ _ => exact .of_eq rfl rfl (by simp)
  | ready =>
    exact .of_event (.relayed p.downlink.source .ready) rfl rfl rfl
      (by simp [Event.spent])

/-- **The ledger.** A step moves ownership and keeps its weight. -/
theorem exec_ledger (φ : Asset → Nat) {others : Multiset Frame}
    (hprov : Provenance w (f ::ₘ others)) (h : exec cfg choice w f = some r) :
    Balanced φ w f r := by
  cases f with
  | submit c =>
    cases h
    exact submitStep_balanced c
  | terminalRejection c =>
    cases h
    exact terminalRejectionStep_balanced c
  | acquireUdpPermit c =>
    cases h
    exact acquireUdpPermitStep_balanced c
  | tryAcquire c budget =>
    cases h
    exact tryAcquireStep_balanced c budget
  | reserveDuplex c =>
    cases h
    exact reserveDuplexStep_balanced c
  | installLinks c =>
    cases h
    exact installLinksStep_balanced c
  | installTombstone c active =>
    cases h
    exact installTombstoneStep_balanced c active
  | installReserve c active =>
    cases h
    exact installReserveStep_balanced active (hprov.built_call hprov.sound.1)
  | installRefreshClaim c epoch =>
    cases h
    exact installRefreshClaimStep_balanced c epoch
  | activateLinks a =>
    cases h
    exact activateLinksStep_balanced a
  | activateClaims a =>
    cases h
    exact activateClaimsStep_balanced a
  | rejectClaims key code =>
    cases h
    exact rejectClaimsStep_balanced key code
  | rejectUdpEntry key code tcp =>
    cases h
    exact rejectEntry_balanced .udp key _ rfl rfl (by simp)
  | rejectFinish key code tcp udp =>
    cases h
    exact rejectFinishStep_balanced key code tcp udp
  | rejectTombstone key code expiresAt =>
    simp only [exec] at h
    split at h <;> cases h
    exact .of_eq rfl rfl rfl
  | writeReject d code =>
    cases h
    exact .of_event (.wrote d (.reject code)) rfl rfl rfl
      (by simp [Event.spent])
  | returnErr id e =>
    cases h
    exact .of_event (.returned id (some e)) rfl rfl rfl rfl
  | discard d =>
    cases h
    exact .of_event (.dropped d .endOfCall) rfl rfl rfl
      (by simp [Event.spent])
  | panic message =>
    cases h
    exact .of_event (.panicked message) rfl rfl rfl rfl
  | timeout kind key epoch deadline => exact timeoutStep_balanced h
  | cancelUdp key =>
    cases h
    exact cancelUdpStep_balanced key
  | cancelUdpClaim key =>
    cases h
    refine .of_eq rfl rfl ?_
    split
    · rfl
    · split <;> rfl
  | drainFlows kind =>
    cases h
    exact drainFlowsStep_balanced kind
  | lane g => exact laneStep_balanced h
  | registerQuicLinks s generation =>
    cases h
    exact registerQuicLinksStep_balanced s generation
  | conn g =>
    simp only [exec] at h
    split at h <;> cases h
    exact .of_eq rfl rfl (by simp)
  | linkGuardDrop g =>
    cases h
    exact linkGuardDropStep_balanced g
  | cancelGeneration s generation held next =>
    simp only [exec] at h
    split at h <;> cases h
    exact cancelGenerationStep_balanced _ s generation held next
  | purgeKeys s generation next stale =>
    simp only [exec] at h
    split at h <;> cases h
    exact purgeKeysStep_balanced _ s generation next stale
  | relay p stage => exact relayStep_balanced h
  | installPending | installSweep | installRefresh | abandonClaim | rejectTcp | rejectUdp
  | permitDrop | leaseDrop | hold | cancelToken | cancelAll | drainRejections | drainClaims
  | registerTcp | registerQuic | purgeTcp | purgeUdp =>
    cases h
    exact .of_eq rfl rfl (by simp)

end Balance

/-! ## The ledger of a run -/

/-- What all frames of a bag own. -/
def owned (φ : Asset → Nat) (fs : Multiset Frame) : Nat := (fs.map (Frame.weight φ)).sum

section Runs

variable {φ : Asset → Nat} {cfg : Config} {cond : Choice → World → Frame → Prop} {p : Pool}

@[simp]
theorem owned_cons (f : Frame) (fs : Multiset Frame) :
    owned φ (f ::ₘ fs) = f.weight φ + owned φ fs := by
  simp [owned]

@[simp]
theorem owned_add (fs : List Frame) (gs : Multiset Frame) :
    owned φ (↑fs + gs) = load φ fs + owned φ gs := by
  simp [owned, load]

theorem le_owned {f : Frame} {fs : Multiset Frame} (h : f ∈ fs) : f.weight φ ≤ owned φ fs := by
  obtain ⟨gs, rfl⟩ := Multiset.exists_cons_of_mem h
  rw [owned_cons]
  exact Nat.le_add_right _ _

/-- Starting an operation brings in nothing but the halves of a new submission. -/
theorem start_ledger (φ : Asset → Nat) (b : Start) (w : World) :
    load φ (start b w).all + given φ w.log = given φ (start b w).world.log ∧
      spent φ (start b w).world.log = spent φ w.log ∧ (start b w).world.pending = w.pending := by
  cases b with
  | stream s generation header target path =>
    have hquic := halves_quic (φ := φ) w.nextSubmission header.kind header.role
    refine ⟨?_, ?_, rfl⟩
    · simp only [start, startSubmission, World.newSubmission, Tasks.Effect.all, List.flatten_nil,
        List.append_nil, load_cons, load_nil, given_cons, Frame.weight, Event.given]
      omega
    · simp [start, startSubmission, Event.spent]
  | tick elapsed => simp [start, Tasks.Effect.all]
  | registerTcp s => simp [start, Tasks.Effect.all]
  | registerQuic s => simp [start, Tasks.Effect.all]
  | refuse key code => simp [start, Tasks.Effect.all]
  | cancelUdp key => simp [start, Tasks.Effect.all]
  | cancelAll => simp [start, Tasks.Effect.all]

/-- **Halves are conserved.** What was submitted is owned by a frame or by an entry, or was
spent, or was an uplink that got dropped. -/
theorem halves_ledger (φ : Asset → Nat) (hguard : ∀ g, φ (.guard g) = 0)
    (h : (portal cfg).Reach cond initial p) :
    ∃ lost, owned φ p.bag + heldPending φ p.world.pending + spent φ p.world.log + lost =
        given φ p.world.log ∧ ((∀ s, φ (.uplink s) = 0) → lost = 0) := by
  refine h.bag_invariant (I := fun w fs => ∃ lost, owned φ fs + heldPending φ w.pending +
    spent φ w.log + lost = given φ w.log ∧ ((∀ s, φ (.uplink s) = 0) → lost = 0)) ?_ ?_ ?_
  · exact ⟨0, rfl, fun _ => rfl⟩
  · rintro p b _ ⟨lost, hsum, hlost⟩
    obtain ⟨hgiven, hspent, hpending⟩ := start_ledger φ b p.world
    refine ⟨lost, ?_, hlost⟩
    change owned φ (↑(start b p.world).all + p.bag) +
        heldPending φ (start b p.world).world.pending + spent φ (start b p.world).world.log + lost =
      given φ (start b p.world).world.log
    rw [owned_add, hspent, hpending]
    omega
  · rintro p choice f others r hreach hbag ⟨lost, hsum, hlost⟩ _ _ hexec
    obtain ⟨lost', hbalance, hlost'⟩ := exec_ledger φ (hbag ▸ provenance hreach) hexec
    have hloss : f.loss φ = 0 := by cases f <;> simp [hguard]
    have hgain : f.gain φ p.world = 0 := by cases f <;> simp [hguard]
    refine ⟨lost + lost', ?_, fun hzero => by rw [hlost hzero, hlost' hzero]⟩
    rw [owned_cons] at hsum
    rw [owned_add]
    omega

end Runs

end Nowhere.Portal
