import Nowhere.Portal.Generations
import Nowhere.Portal.Pairs

/-!
# The fate of a downlink

Every downlink that a submission brings is held by a running call or a pending entry, or it went
into one pair, or it received one rejection, or it was dropped. The ledger gives this count. What
remains is why a downlink is dropped (`Downlinks`) and that a relay writes at most one setup
result (`relays_le_pairs`).
-/

namespace Nowhere.Portal

open Protocol Assoc

namespace Event

/-- A pair that took its downlink from submission `n`. -/
def pairsDownlink (n : Nat) : Event → Bool
  | .paired _ p => decide (p.downlink.source = n)
  | _ => false

/-- A setup result that the registry wrote to the downlink of submission `n`. -/
def writes (n : Nat) : Event → Bool
  | .wrote d _ => decide (d = n)
  | _ => false

/-- A drop of the downlink of submission `n`. -/
def drops (n : Nat) : Event → Bool
  | .dropped d _ => decide (d = n)
  | _ => false

/-- A setup result that a relay wrote to the downlink of submission `n`. -/
def relays (n : Nat) : Event → Bool
  | .relayed d _ => decide (d = n)
  | _ => false

end Event

/-- How many running calls and pending entries hold the downlink of submission `n`. -/
def holders (n : Nat) (p : Pool) : Nat :=
  owned (ofDownlink n) p.bag + heldPending (ofDownlink n) p.world.pending

theorem spent_ofDownlink (n : Nat) (log : List Event) :
    spent (ofDownlink n) log =
      log.countP (Event.pairsDownlink n) + log.countP (Event.writes n) +
        log.countP (Event.drops n) := by
  induction log with
  | nil => rfl
  | cons e log ih =>
    rw [spent_cons, ih, List.countP_cons, List.countP_cons, List.countP_cons]
    cases e with
    | paired call p =>
      simp only [Event.spent, ofDownlink, Event.pairsDownlink, Event.writes, Event.drops,
        decide_eq_true_eq, Bool.false_eq_true, if_false]
      split <;> omega
    | wrote d result =>
      simp only [Event.spent, ofDownlink, Event.pairsDownlink, Event.writes, Event.drops,
        decide_eq_true_eq, Bool.false_eq_true, if_false]
      split <;> omega
    | dropped d reason =>
      simp only [Event.spent, ofDownlink, Event.pairsDownlink, Event.writes, Event.drops,
        decide_eq_true_eq, Bool.false_eq_true, if_false]
      split <;> omega
    | _ =>
      simp only [Event.spent, Event.pairsDownlink, Event.writes, Event.drops,
        Bool.false_eq_true, if_false]
      omega

section Count

variable {cfg : Config} {cond : Choice → World → Frame → Prop} {p : Pool} {c : Submission}
  {d : Downlink}

theorem given_ofDownlink (h : (portal cfg).Reach cond initial p) (hc : .submitted c ∈ p.world.log)
    (hd : c.downlink = some d) :
    given (ofDownlink d.source) p.world.log = 1 := by
  apply Nat.le_antisymm
  · exact given_le_one h fun c hc => ofDownlink_weight ((provenance h).built c hc).1 _
  · rw [given_eq_sum]
    obtain ⟨before, after, hsplit⟩ := List.append_of_mem (mem_submissions.mpr hc)
    have hweight : downSource (ofDownlink d.source) c.downlink = 1 := by
      simp [downSource, hd, ofDownlink]
    rw [hsplit, List.map_append, List.map_cons, List.sum_append, List.sum_cons, hweight]
    omega

/-- **One fate.** -/
theorem holders_add_spent (h : (portal cfg).Reach cond initial p) (hc : .submitted c ∈ p.world.log)
    (hd : c.downlink = some d) :
    holders d.source p + p.world.log.countP (Event.pairsDownlink d.source) +
      p.world.log.countP (Event.writes d.source) + p.world.log.countP (Event.drops d.source) =
        1 := by
  obtain ⟨lost, hsum, hlost⟩ := halves_ledger (ofDownlink d.source) (fun _ => rfl) h
  rw [hlost fun _ => rfl, given_ofDownlink h hc hd, spent_ofDownlink] at hsum
  unfold holders
  omega

theorem pairs_add_writes_le_one (h : (portal cfg).Reach cond initial p) (n : Nat) :
    p.world.log.countP (Event.pairsDownlink n) + p.world.log.countP (Event.writes n) ≤ 1 := by
  have hspent := spent_le_given h (ofDownlink n) fun _ => rfl
  have hgiven := given_le_one h (φ := ofDownlink n) fun c hc =>
    ofDownlink_weight ((provenance h).built c hc).1 n
  rw [spent_ofDownlink] at hspent
  omega

end Count

/-! ## Relays -/

/-- A relay that has not yet written a setup result to the downlink of submission `n`. -/
def Frame.relaying (n : Nat) : Frame → Bool
  | .relay p stage => decide (p.downlink.source = n ∧ stage ≠ .running)
  | _ => false

section Relays

variable {cfg : Config} {choice : Choice} {w : World} {f g : Frame} {r : Effect} {n : Nat}

theorem Frame.relaying_of_cleanup (h : f.cleanup = true) : f.relaying n = false := by
  cases f <;> first | rfl | cases h

theorem relayEnd_relaying (p : Paired) : (relayEnd p).countP (Frame.relaying n) = 0 := by
  rw [List.countP_eq_zero]
  intro g hg
  rcases Tidy.relayEnd hg with hclean | rfl
  · simp [Frame.relaying_of_cleanup hclean]
  · simp [Frame.relaying]

/-- The relay writes at most one result, and only while it has not written one. -/
theorem relayStep_relays {p : Paired} {stage : RelayStage}
    (h : relayStep w choice p stage = some r) :
    r.all.countP (Frame.relaying n) + r.world.log.countP (Event.relays n) ≤
        (if (Frame.relay p stage).relaying n then 1 else 0) + w.log.countP (Event.relays n) ∧
      r.world.log.countP (Event.pairsDownlink n) = w.log.countP (Event.pairsDownlink n) := by
  have hend := relayEnd_relaying (n := n) p
  cases relayStep_outcome h with
  | closed _ =>
    refine ⟨?_, rfl⟩
    simp only [Tasks.Effect.all, List.flatten_nil, List.append_nil, hend]
    omega
  | rejected code hearly =>
    refine ⟨?_, by simp [relayReject, World.emit, Event.pairsDownlink]⟩
    by_cases hn : p.downlink.source = n
    · simp [relayReject, Tasks.Effect.all, hend, World.emit, Event.relays, Frame.relaying, hearly,
        hn, Nat.add_comm]
    · simp [relayReject, Tasks.Effect.all, hend, World.emit, Event.relays, Frame.relaying, hn]
  | moves hearly hearly' =>
    exact ⟨by simp [Tasks.Effect.all, Frame.relaying, List.countP_cons, hearly, hearly'], rfl⟩
  | ready =>
    refine ⟨?_, by simp [World.emit, Event.pairsDownlink]⟩
    by_cases hn : p.downlink.source = n
    · simp [Tasks.Effect.all, World.emit, Event.relays, Frame.relaying, hn, Nat.add_comm]
    · simp [Tasks.Effect.all, World.emit, Event.relays, Frame.relaying, hn]

theorem countP_relaying_eq_zero (hexec : exec cfg choice w f = some r)
    (hno : ∀ p stage, ¬ Next cfg w f (.relay p stage)) : r.all.countP (Frame.relaying n) = 0 := by
  rw [List.countP_eq_zero]
  intro g hg
  rcases exec_next hexec g hg with hclean | hnext
  · simp [Frame.relaying_of_cleanup hclean]
  · cases g with
    | relay p stage => exact absurd hnext (hno p stage)
    | _ => simp [Frame.relaying]

theorem activateClaims_relays {a : Activation}
    (hexec : exec cfg choice w (.activateClaims a) = some r) :
    r.all.countP (Frame.relaying n) + w.log.countP (Event.pairsDownlink n) ≤
      r.world.log.countP (Event.pairsDownlink n) := by
  by_cases hpair : ∃ claims cancel p,
      w.claims.activateClaim a.call.key a.epoch a.generations = some (claims, cancel) ∧
        a.complete.toPaired a.call ⟨a.call.key, a.epoch, cancel, a.permit⟩ = .ok p
  · obtain ⟨claims, cancel, p, hactivate, hp⟩ := hpair
    cases hexec
    simp only [activateClaimsStep, hactivate, hp]
    by_cases hn : p.downlink.source = n
    · simp [Tasks.Effect.all, Frame.relaying, Event.pairsDownlink, hn, Nat.add_comm]
    · simp [Tasks.Effect.all, Frame.relaying, Event.pairsDownlink, hn]
  · rw [countP_relaying_eq_zero hexec, Nat.zero_add]
    · obtain ⟨es, hlog, _⟩ := (exec_changes hexec).appended
      rw [hlog, List.countP_append]
      omega
    · intro p stage hnext
      cases hnext with
      | relay activated paired => exact hpair ⟨_, _, _, activated, paired⟩

/-- What a step adds to the results written by relays is covered by the relays it ends and the
pairs it makes. -/
theorem exec_relays (hexec : exec cfg choice w f = some r) :
    r.all.countP (Frame.relaying n) + r.world.log.countP (Event.relays n) +
        w.log.countP (Event.pairsDownlink n) ≤
      (if f.relaying n then 1 else 0) + w.log.countP (Event.relays n) +
        r.world.log.countP (Event.pairsDownlink n) := by
  by_cases hrelay : ∃ p stage, f = .relay p stage
  · obtain ⟨p, stage, rfl⟩ := hrelay
    obtain ⟨hle, heq⟩ := relayStep_relays (n := n) hexec
    omega
  -- other frames write nothing through a relay
  obtain ⟨es, hlog, hlogs⟩ := (exec_changes hexec).appended
  have hes : es.countP (Event.relays n) = 0 := by
    rw [List.countP_eq_zero]
    intro e he
    cases hlogs e he with
    | relayed => exact absurd ⟨_, _, rfl⟩ hrelay
    | _ => simp [Event.relays]
  have hrelays : r.world.log.countP (Event.relays n) = w.log.countP (Event.relays n) := by
    rw [hlog, List.countP_append, hes, Nat.zero_add]
  by_cases hactivate : ∃ a, f = .activateClaims a
  · obtain ⟨a, rfl⟩ := hactivate
    have := activateClaims_relays (n := n) hexec
    omega
  · rw [countP_relaying_eq_zero hexec, hrelays, hlog, List.countP_append]
    · omega
    · intro p stage hnext
      cases hnext with
      | relay activated paired => exact hactivate ⟨_, rfl⟩
      | relayOn next => exact hrelay ⟨_, _, rfl⟩

theorem coe_countP_relaying (fs : List Frame) :
    Multiset.countP (Frame.relaying n ·) ↑fs = fs.countP (Frame.relaying n) := by
  rw [Multiset.coe_countP]
  simp only [Bool.decide_eq_true]

end Relays

variable {cfg : Config} {cond : Choice → World → Frame → Prop} {p : Pool}

/-- **A relay writes at most one setup result.** -/
theorem relays_le_pairs (h : (portal cfg).Reach cond initial p) (n : Nat) :
    p.bag.countP (Frame.relaying n ·) + p.world.log.countP (Event.relays n) ≤
      p.world.log.countP (Event.pairsDownlink n) := by
  refine h.bag_invariant (I := fun w fs => fs.countP (Frame.relaying n ·) +
    w.log.countP (Event.relays n) ≤ w.log.countP (Event.pairsDownlink n)) ?_ ?_ ?_
  · exact Nat.le_refl _
  · intro p b _ ih
    have hall : (start b p.world).all.countP (Frame.relaying n) = 0 := by
      rw [List.countP_eq_zero]
      intro g hg
      cases b <;> simp [start, startSubmission, Tasks.Effect.all] at hg <;> subst hg <;>
        simp [Frame.relaying]
    have hlog : (start b p.world).world.log.countP (Event.relays n) =
          p.world.log.countP (Event.relays n) ∧
        (start b p.world).world.log.countP (Event.pairsDownlink n) =
          p.world.log.countP (Event.pairsDownlink n) := by
      cases b <;> simp [start, startSubmission, Event.relays, Event.pairsDownlink]
    change Multiset.countP (Frame.relaying n ·) (↑(start b p.world).all + p.bag) +
      (start b p.world).world.log.countP (Event.relays n) ≤
        (start b p.world).world.log.countP (Event.pairsDownlink n)
    rw [Multiset.countP_add, coe_countP_relaying, hall, hlog.1, hlog.2, Nat.zero_add]
    exact ih
  · intro p choice f others r _ _ ih _ _ hexec
    have hstep := exec_relays (n := n) hexec
    rw [Multiset.countP_cons] at ih
    rw [Multiset.countP_add, coe_countP_relaying]
    omega

/-! ## Dropped downlinks -/

/-- The call whose lane a frame of the install block has found current. -/
def Frame.installing : Frame → Option Submission
  | .installSweep c _ _ | .installTombstone c _ | .installReserve c _ => some c
  | _ => none

theorem Frame.installing_of_cleanup {f : Frame} (h : f.cleanup = true) : f.installing = none := by
  cases f <;> first | rfl | cases h

/-- Why the registry dropped a downlink: a CLOSE, the shutdown, or its QUIC connection is gone. -/
def DropCause (w : World) (fs : Multiset Frame) (d : Nat) : DropReason → Prop
  | .cancelUdp | .drainPending => True
  | .staleQuic => ∃ c n, .submitted c ∈ w.log ∧ c.id = d ∧ c.header.role = .attach ∧
      c.header.downlink = .quic ∧ c.link.quicGeneration = some n ∧ Retired w fs c.sessionId n
  | .endOfCall => False

structure Downlinks (w : World) (fs : Multiset Frame) : Prop where
  lanes : ∀ f ∈ fs, ∀ c, f.installing = some c → ∀ n, c.link.quicGeneration = some n →
    activeQuicGeneration w.links c.sessionId = some n
  entries : ∀ kind key q n, (w.pending kind).lookup key = some q →
    q.downlinkGeneration = some n → Installed w fs n
  dropped : ∀ d reason, .dropped d reason ∈ w.log → DropCause w fs d reason
  wrote : ∀ d result, .wrote d result ∈ w.log → ∃ code, result = .reject code

namespace Downlinks

variable {cfg : Config} {choice : Choice} {w : World} {f : Frame} {others : Multiset Frame}
  {r : Effect} {c : Submission} {n : Nat} {q : Pending}

theorem lanes_exec (h : Downlinks w (f ::ₘ others)) (hfree : (portal cfg).Free f (f ::ₘ others))
    (hexec : exec cfg choice w f = some r) {g : Frame} (hg : g ∈ ↑r.all + others)
    (hc : g.installing = some c) (hn : c.link.quicGeneration = some n) :
    activeQuicGeneration r.world.links c.sessionId = some n := by
  have hcurrent {c : Submission} (hn : c.link.quicGeneration = some n)
      (hcurrent : linkCurrent w.links c.sessionId c.link = true) :
      activeQuicGeneration w.links c.sessionId = some n := by
    simpa [linkCurrent, hn] using hcurrent
  have hself := h.lanes f (Multiset.mem_cons_self f others)
  rw [(exec_changes hexec).links]
  rcases Multiset.mem_add.mp hg with hg | hg
  · rcases exec_next hexec g hg with hclean | hnext
    · rw [Frame.installing_of_cleanup hclean] at hc
      cases hc
    · cases hnext with
      | installSweep current left =>
        cases hc
        exact hcurrent hn current
      | installFresh current =>
        cases hc
        exact hcurrent hn current
      | installTombstone =>
        cases hc
        exact hself _ rfl n hn
      | installReserve =>
        cases hc
        exact hself _ rfl n hn
      | _ => cases hc
  · -- the block holds `links`, so the step leaves them alone
    rw [linksAfter_of_wants]
    · exact h.lanes g (Multiset.mem_cons_of_mem hg) c hc n hn
    · intro hwants
      refine hfree .links hwants g (Multiset.mem_cons_of_mem hg) ?_
      cases g <;> cases hc <;> simp [portal, Frame.holds]

/-- The downlink generation of an entry that received a half. -/
theorem fill_downlinkGeneration {q q' : Pending} {misfit : Option Pending.Misfit}
    (h : q.fill c = (q', misfit)) :
    q'.downlinkGeneration = q.downlinkGeneration ∨
      q'.downlinkGeneration = c.link.quicGeneration := by
  unfold Pending.fill at h
  split at h
  · cases h
    exact .inl rfl
  · dsimp only at h
    split at h
    · split at h <;> cases h <;> exact .inl rfl
    · split at h <;> cases h
      · exact .inl rfl
      · exact .inr rfl
    · cases h
      exact .inl rfl

theorem entries_exec (h : Downlinks w (f ::ₘ others)) (hgen : Generations w (f ::ₘ others))
    (hexec : exec cfg choice w f = some r) {kind : FlowKind} {key : FlowKey}
    (hq : (r.world.pending kind).lookup key = some q) (hn : q.downlinkGeneration = some n) :
    Installed w (f ::ₘ others) n := by
  cases (exec_changes hexec).pending kind key q hq with
  | same found => exact h.entries _ _ _ n found hn
  | @stale c q found left =>
    simp only [Pending.clearStale] at hn
    split at hn
    · cases hn
    · exact h.entries _ _ _ n found hn
  | @filled c active claims epoch created q misfit reserved filled =>
    rcases fill_downlinkGeneration filled with hold | hnew
    · rw [hn, entryOf] at hold
      cases hfound : (w.pending c.via).lookup c.key with
      | none =>
        rw [hfound] at hold
        cases hold
      | some q' =>
        rw [hfound] at hold
        exact h.entries _ _ _ n hfound hold.symm
    · have hlane := h.lanes _ (Multiset.mem_cons_self _ _) c rfl n (hnew.symm.trans hn)
      exact hgen.installed _ n hlane
  | refreshed found => exact h.entries _ _ _ n found hn

/-- A downlink cleared by the install block came over a connection that is gone. -/
theorem stale_cause (h : Downlinks w (f ::ₘ others)) (hprov : Provenance w (f ::ₘ others))
    {d : Downlink} (found : (w.pending c.via).lookup c.key = some q)
    (stale : q.downlinkStale (activeQuicGeneration w.links c.sessionId) = true)
    (downlink : q.downlink = some d) : DropCause w (f ::ₘ others) d.source .staleQuic := by
  obtain ⟨o, ho, hattach⟩ := (hprov.entries _ _ _ found).attached (by simp [downlink])
  simp only [Pending.downlinkStale, decide_eq_true_eq] at stale
  have hquic : o.header.downlink = .quic :=
    (congrArg Metadata.downlink hattach.metadata).trans stale.1
  obtain ⟨n, hn⟩ := Option.isSome_iff_exists.mp (hattach.carrier.mp hquic)
  have hgeneration : q.downlinkGeneration = some n := hattach.generation.trans hn
  have hsession : o.sessionId = c.sessionId := congrArg FlowKey.sessionId hattach.key
  have hid : o.id = d.source :=
    ((hprov.built o ho).1.downlinkSource d (hattach.downlink.trans downlink)).symm
  refine ⟨o, n, ho, hid, hattach.role, hquic, hn, h.entries _ _ _ n found hgeneration, ?_⟩
  rw [hsession]
  exact fun hcurrent => stale.2 (hgeneration.trans hcurrent.symm)

theorem DropCause.step {d : Nat} {reason : DropReason} (h : DropCause w (f ::ₘ others) d reason)
    (hexec : exec cfg choice w f = some r) : DropCause r.world (↑r.all + others) d reason := by
  cases reason with
  | staleQuic =>
    obtain ⟨c, n, hc, hid, hrole, hquic, hn, hretired⟩ := h
    exact ⟨c, n, (exec_changes hexec).kept hc, hid, hrole, hquic, hn, hretired.step hexec⟩
  | cancelUdp => trivial
  | drainPending => trivial
  | endOfCall => exact h

theorem exec (h : Downlinks w (f ::ₘ others)) (hprov : Provenance w (f ::ₘ others))
    (hgen : Generations w (f ::ₘ others)) (hfree : (portal cfg).Free f (f ::ₘ others))
    (hexec : exec cfg choice w f = some r) : Downlinks r.world (↑r.all + others) where
  lanes := fun _ hg _ hc _ hn => h.lanes_exec hfree hexec hg hc hn
  entries := fun _ _ _ _ hq hn => (h.entries_exec hgen hexec hq hn).step hexec
  dropped := by
    intro d reason hlog
    refine DropCause.step ?_ hexec
    rcases (exec_changes hexec).logged hlog with hold | hnew
    · exact h.dropped d reason hold
    · cases hnew with
      | stale found stale downlink => exact h.stale_cause hprov found stale downlink
      | closed => trivial
      | drained => trivial
      | discarded => exact hprov.sound
  wrote := by
    intro d result hlog
    rcases (exec_changes hexec).logged hlog with hold | hnew
    · exact h.wrote d result hold
    · cases hnew with
      | wrote => exact ⟨_, rfl⟩

theorem boot {fs : Multiset Frame} (h : Downlinks w fs) (b : Start) :
    Downlinks (start b w).world (↑(start b w).all + fs) := by
  have hsame := start_undisturbed b w
  constructor
  · intro f hf c hc
    have hentry : f.entry = false := by
      cases f <;> first | rfl | cases hc
    rw [hsame.links]
    exact h.lanes f (mem_of_start hf hentry) c hc
  · intro kind key q n hq hn
    rw [hsame.pending] at hq
    exact (h.entries kind key q n hq hn).boot b
  · intro d reason hlog
    have hcause := h.dropped d reason (hsame.logged _ hlog rfl)
    cases reason with
    | staleQuic =>
      obtain ⟨c, n, hc, hid, hrole, hquic, hn, hretired⟩ := hcause
      exact ⟨c, n, hsame.kept hc, hid, hrole, hquic, hn, hretired.boot b⟩
    | cancelUdp => trivial
    | drainPending => trivial
    | endOfCall => exact hcause
  · intro d result hlog
    exact h.wrote d result (hsame.logged _ hlog rfl)

theorem init : Downlinks World.init 0 := by
  constructor <;> simp [World.init]

end Downlinks

theorem downlinks (h : (portal cfg).Reach cond initial p) : Downlinks p.world p.bag := by
  refine h.bag_invariant Downlinks.init (fun _ b _ ih => ih.boot b) ?_
  intro p choice f others r hreach hbag ih hfree _ hexec
  exact ih.exec (hbag ▸ provenance hreach) (hbag ▸ generations hreach) hfree hexec

/-- **The fate of every downlink.** A downlink that was submitted is held once by a running call
or a pending entry, or it is in one pair, or it received one result from the registry, or it was
dropped; the result is a rejection; a drop is due to a CLOSE, to the shutdown, or to a QUIC
connection that is not current any more. Relays write at most one setup result for each pair,
so that no downlink receives two. -/
theorem downlink_fate {cfg : Config} {p : Pool} (h : (portal cfg).Reachable initial p) :
    (∀ c d, .submitted c ∈ p.world.log → c.downlink = some d →
      holders d.source p + p.world.log.countP (Event.pairsDownlink d.source) +
        p.world.log.countP (Event.writes d.source) +
        p.world.log.countP (Event.drops d.source) = 1) ∧
    (∀ d result, .wrote d result ∈ p.world.log → ∃ code, result = .reject code) ∧
    (∀ d reason, .dropped d reason ∈ p.world.log →
      reason = .cancelUdp ∨ reason = .drainPending ∨
        reason = .staleQuic ∧ ∃ c n, .submitted c ∈ p.world.log ∧ c.id = d ∧
          c.header.downlink = .quic ∧ c.link.quicGeneration = some n ∧
          activeQuicGeneration p.world.links c.sessionId ≠ some n) ∧
    (∀ n, p.world.log.countP (Event.relays n) ≤ p.world.log.countP (Event.pairsDownlink n)) ∧
    ∀ n, p.world.log.countP (Event.writes n) + p.world.log.countP (Event.relays n) ≤ 1 := by
  have hdown := downlinks h
  refine ⟨fun c d hc hd => holders_add_spent h hc hd, hdown.wrote, ?_, ?_, ?_⟩
  · intro d reason hlog
    have hcause := hdown.dropped d reason hlog
    cases reason with
    | cancelUdp => exact .inl rfl
    | drainPending => exact .inr (.inl rfl)
    | staleQuic =>
      obtain ⟨c, n, hc, hid, _, hquic, hn, hretired⟩ := hcause
      exact .inr (.inr ⟨rfl, c, n, hc, hid, hquic, hn, hretired.displaced⟩)
    | endOfCall => exact hcause.elim
  · intro n
    have := relays_le_pairs h n
    omega
  · intro n
    have hrelays := relays_le_pairs h n
    have hone := pairs_add_writes_le_one h n
    omega

namespace Sample

/-- An ATTACH without its OPEN waits until it times out, and is refused. -/
def loneAttach : List (Tasks.Act Choice Start) :=
  registerQuic 0 ++ stream 1 attachTcp 7 ++ [.boot (.tick 15), .run 2 .go, .run 2 .go]

theorem loneAttach_refused :
    ∃ p c d, (portal config).Reachable initial p ∧ .submitted c ∈ p.world.log ∧
      c.downlink = some d ∧ p.world.log.countP (Event.writes d.source) = 1 ∧
      holders d.source p = 0 := by
  obtain ⟨p, hreach, hp⟩ := Tasks.System.exists_reachable_of_run (S := portal config)
    (P := fun p => (submissions p.world.log).any fun c => c.downlink.any fun d =>
      decide (p.world.log.countP (Event.writes d.source) = 1))
    (show ((portal config).run initial loneAttach).any _ = true by decide +kernel)
  obtain ⟨c, hc, hdownlink⟩ := List.any_eq_true.mp hp
  obtain ⟨d, hd, hone⟩ := (Option.any_eq_true _ _).mp hdownlink
  have hsubmitted := mem_submissions.mp hc
  have hwrites := of_decide_eq_true hone
  have hfate := (downlink_fate hreach).1 c d hsubmitted hd
  exact ⟨p, c, d, hreach, hsubmitted, hd, hwrites, by omega⟩

end Sample

end Nowhere.Portal
