import Nowhere.Portal.Permits

/-!
# The limit on UDP flows

A session's pool of flow permits is created with its entry in `links` and forgotten with it,
while a permit stays with its flow. The session keeps to its limit as long as it uses one pool
at a time (`OnePool`), that is, unless its entry is created anew while calls, pending flows or
leases still use an earlier pool. When the last carrier leaves before the flows it carried, the
limit is exceeded.
-/

namespace Nowhere.Portal

open Protocol Assoc

/-! ## What counts as a flow with a permit -/

/-- A frame that keeps a UDP lease of session `s` alive. -/
def Frame.udpLease (s : SessionId) : Frame → Bool
  | .relay p _ => decide (p.lease.key.sessionId = s ∧ p.kind = .udp)
  | .leaseDrop l => decide (l.key.sessionId = s) && l.udpPermit.isSome
  | _ => false

/-- The UDP flows of a session that hold a permit: pending entries with an uplink, and leases. -/
def udpFlows (s : SessionId) (p : Pool) : Nat :=
  total (p.world.pending .udp) (fun key e =>
      if key.sessionId = s ∧ e.uplink.isSome = true then 1 else 0) +
    p.bag.countP fun f => f.udpLease s = true

/-! ## The pools a session uses -/

/-- The pool of a permit, if it is held for session `s`. -/
def poolFor (s t : SessionId) (p : Option Permit) : Option Nat :=
  if t = s then p.map Permit.budget else none

/-- The pool a frame uses for a flow of session `s`: its permit is from there, or it is about to
take one. -/
def Frame.pool (s : SessionId) : Frame → Option Nat
  | .submit c | .terminalRejection c | .acquireUdpPermit c | .reserveDuplex c | .installPending c
  | .installLinks c | .installSweep c _ _ | .installTombstone c _ | .installReserve c _ =>
    poolFor s c.sessionId c.permit
  | .tryAcquire c budget => poolFor s c.sessionId (some ⟨budget⟩)
  | .activateLinks a | .activateClaims a => poolFor s a.call.sessionId a.permit
  | .relay p _ => poolFor s p.lease.key.sessionId p.lease.udpPermit
  | .leaseDrop l => poolFor s l.key.sessionId l.udpPermit
  | _ => none

/-- Pool `b` is in use for session `s`. -/
inductive InUse (s : SessionId) (w : World) (fs : Multiset Frame) (b : Nat) : Prop
  | frame {f : Frame} (mem : f ∈ fs) (pool : f.pool s = some b)
  | pending {key : FlowKey} {e : Pending} (session : key.sessionId = s)
      (found : (w.pending .udp).lookup key = some e) (permit : e.flowPermit = some ⟨b⟩)
  | entry {counts : LinkCounts} (found : w.links.lookup s = some counts)
      (pool : counts.udpFlowBudget = b)

def OnePool (s : SessionId) (w : World) (fs : Multiset Frame) : Prop :=
  ∀ b b', InUse s w fs b → InUse s w fs b' → b = b'

/-- Does the frame create the entry of session `s`, and with it a new pool? -/
def Frame.createsPool (s : SessionId) (w : World) : Frame → Bool
  | .registerTcp t | .registerQuicLinks t _ => decide (t = s) && (w.links.lookup s).isNone
  | _ => false

/-- No pool is in use for session `s` by a call, a pending flow or a lease. -/
structure PoolFree (s : SessionId) (p : Pool) : Prop where
  frames : ∀ f ∈ p.bag, f.pool s = none
  pending : ∀ key e, key.sessionId = s → (p.world.pending .udp).lookup key = some e →
    e.flowPermit = none

/-- The entry of session `s` is created only while no pool is in use for it. -/
def RenewsFree (s : SessionId) (p : Pool) (a : Tasks.Act Choice Start) : Prop :=
  Tasks.System.Meets (fun _ w f => f.createsPool s w = true → PoolFree s p) p a

section Exec

variable {cfg : Config} {choice : Choice} {s : SessionId} {w : World} {f g : Frame} {b : Nat}
  {others : Multiset Frame} {r : Effect}

theorem Frame.pool_of_cleanup (h : g.cleanup = true) : g.pool s = none := by
  cases g <;> first | rfl | cases h

theorem pool_of_poolFor {t : SessionId} {p : Option Permit} (h : poolFor s t p = some b) :
    t = s ∧ p = some ⟨b⟩ := by
  unfold poolFor at h
  split at h
  · rename_i hs
    obtain ⟨q, hq, hb⟩ := Option.map_eq_some_iff.mp h
    exact ⟨hs, hq.trans (by rw [← hb])⟩
  · cases h

variable {c : Submission}

/-- The permit of a filled entry was the call's or the entry's own. -/
theorem inUse_of_fill {active : Option Nat} {epoch : Nat} {p : Pending}
    {misfit : Option Pending.Misfit} (hsession : c.sessionId = s)
    (hvia : p.flowPermit.isSome = true → c.via = .udp)
    (hfill : c.FillsEntry w epoch active p misfit) (hpermit : p.flowPermit = some ⟨b⟩) :
    InUse s w (.installReserve c active ::ₘ others) b := by
  have hudp : c.via = .udp := hvia (by rw [hpermit]; rfl)
  have hfrom : p.flowPermit = c.permit ∨
      p.flowPermit =
        (((w.pending c.via).lookup c.key).getD (.fresh c epoch active)).flowPermit := by
    unfold Submission.FillsEntry Pending.fill at hfill
    split at hfill
    · cases hfill
      exact .inr rfl
    · dsimp only at hfill
      split at hfill
      · split at hfill <;> cases hfill
        · exact .inr rfl
        · exact .inl rfl
      · split at hfill <;> cases hfill
        · exact .inr rfl
        · exact .inr rfl
      · cases hfill
        exact .inr rfl
  rcases hfrom with hcall | hentry
  · refine .frame (Multiset.mem_cons_self _ _) ?_
    rw [hpermit] at hcall
    simp [Frame.pool, poolFor, hsession, ← hcall]
  · rw [hpermit] at hentry
    cases hfound : (w.pending c.via).lookup c.key with
    | none =>
      rw [hfound] at hentry
      cases hentry
    | some e =>
      rw [hfound] at hentry
      rw [hudp] at hfound
      exact .pending hsession hfound hentry.symm

theorem Next.pool (hprov : Provenance w (f ::ₘ others)) (h : Next cfg w f g)
    (hf : ∀ c, f ≠ .acquireUdpPermit c) (hg : g.pool s = some b) : InUse s w (f ::ₘ others) b := by
  cases h with
  | tryAcquire budget => exact absurd rfl (hf _)
  | activate reserved filled complete =>
    obtain ⟨hsession, hpermit⟩ := pool_of_poolFor hg
    obtain ⟨hcall, hpermitted, hrole⟩ := hprov.sound
    have hentry := hprov.filled hcall hpermitted hrole filled
    exact inUse_of_fill hsession (fun h => (hentry.flowPermit.mp h).1) filled hpermit
  | relay activated paired =>
    have hlease := (toPaired_ok paired).2.2.2.2.2
    rw [Frame.pool, hlease] at hg
    exact .frame (Multiset.mem_cons_self _ _) hg
  | submitLane =>
    obtain ⟨_, hpermit⟩ := pool_of_poolFor hg
    cases hpermit
  | _ => first | exact .frame (Multiset.mem_cons_self _ _) hg | cases hg

/-- A call looks its pool up in the entry of its session. -/
theorem acquireUdpPermitStep_pool (hg : g ∈ (acquireUdpPermitStep w c).all)
    (hpool : g.pool s = some b) : InUse s w (.acquireUdpPermit c ::ₘ others) b := by
  simp only [acquireUdpPermitStep, Tasks.Effect.all, List.flatten_nil, List.append_nil] at hg
  split at hg
  · have htidy := Tidy.rejectEarly c _ g hg
    rw [Frame.pool_of_cleanup htidy] at hpool
    cases hpool
  · rename_i counts hfound
    rw [List.mem_singleton] at hg
    subst hg
    obtain ⟨rfl, hpermit⟩ := pool_of_poolFor hpool
    cases hpermit
    exact .entry hfound rfl

theorem exec_pool (hprov : Provenance w (f ::ₘ others)) (hexec : exec cfg choice w f = some r)
    (hg : g ∈ r.all) (hpool : g.pool s = some b) : InUse s w (f ::ₘ others) b := by
  by_cases hacquire : ∃ c, f = .acquireUdpPermit c
  · obtain ⟨c, rfl⟩ := hacquire
    cases hexec
    exact acquireUdpPermitStep_pool hg hpool
  · rcases exec_next hexec g hg with hclean | hnext
    · rw [Frame.pool_of_cleanup hclean] at hpool
      cases hpool
    · exact hnext.pool hprov (fun c hc => hacquire ⟨c, hc⟩) hpool

theorem pending_pool (hprov : Provenance w (f ::ₘ others)) {key : FlowKey} {e : Pending}
    (h : PendingFrom cfg w f .udp key e) (hsession : key.sessionId = s)
    (hpermit : e.flowPermit = some ⟨b⟩) : InUse s w (f ::ₘ others) b := by
  generalize hkind : FlowKind.udp = kind at h
  cases h with
  | same found =>
    subst hkind
    exact .pending hsession found hpermit
  | stale found left =>
    rw [← hkind] at found
    refine .pending hsession found ?_
    unfold Pending.clearStale at hpermit
    dsimp only at hpermit
    split at hpermit
    · cases hpermit
    · exact hpermit
  | filled reserved filled => exact inUse_of_fill hsession (fun _ => hkind.symm) filled hpermit
  | refreshed found =>
    rw [← hkind] at found
    exact .pending hsession found hpermit

/-- The pool of an entry was there before, or its number has just been taken. -/
theorem links_pool {counts : LinkCounts} (h : (linksAfter cfg w f).lookup s = some counts) :
    (∃ counts', w.links.lookup s = some counts' ∧
      counts'.udpFlowBudget = counts.udpFlowBudget) ∨
    f.createsPool s w = true ∧ counts.udpFlowBudget = w.permits.nextBudget := by
  have hcreate (t : SessionId) : (∃ counts', w.links.lookup t = some counts' ∧
        counts'.udpFlowBudget = (countsOrNew cfg w.links w.permits t).1.udpFlowBudget) ∨
      (w.links.lookup t).isNone = true ∧
        (countsOrNew cfg w.links w.permits t).1.udpFlowBudget = w.permits.nextBudget := by
    unfold countsOrNew
    split
    · rename_i counts' hfound
      exact .inl ⟨counts', hfound, rfl⟩
    · rename_i hnone
      exact .inr ⟨by rw [hnone]; rfl, rfl⟩
  cases f with
  | registerTcp t =>
    simp only [linksAfter, registerTcpLink, Assoc.lookup_insert] at h
    split at h
    · rename_i ht
      cases h
      subst ht
      exact (hcreate s).imp id fun hnew => ⟨by simp [Frame.createsPool, hnew.1], hnew.2⟩
    · exact .inl ⟨counts, h, rfl⟩
  | registerQuicLinks t generation =>
    simp only [linksAfter, registerQuicLink, Assoc.lookup_insert] at h
    split at h
    · rename_i ht
      cases h
      subst ht
      exact (hcreate s).imp id fun hnew => ⟨by simp [Frame.createsPool, hnew.1], hnew.2⟩
    · exact .inl ⟨counts, h, rfl⟩
  | linkGuardDrop g =>
    simp only [linksAfter, dropLink] at h
    split at h
    · exact .inl ⟨counts, h, rfl⟩
    · rename_i old hold
      split at h
      · exact .inl ⟨counts, h, rfl⟩
      · rename_i left hleft
        have hbudget : left.udpFlowBudget = old.udpFlowBudget := by
          unfold LinkCounts.without at hleft
          split at hleft
          · cases hleft
            rfl
          · split at hleft <;> cases hleft
            rfl
        dsimp only at h
        split at h
        · rw [Assoc.lookup_erase] at h
          split at h
          · cases h
          · exact .inl ⟨counts, h, rfl⟩
        · rw [Assoc.lookup_insert] at h
          split at h
          · rename_i hs
            cases h
            exact .inl ⟨old, hs ▸ hold, hbudget.symm⟩
          · exact .inl ⟨counts, h, rfl⟩
  | _ => exact .inl ⟨counts, h, rfl⟩

/-- A pool in use after a step was in use before, unless the step has just created it. -/
theorem inUse_exec (hprov : Provenance w (f ::ₘ others)) (hexec : exec cfg choice w f = some r)
    (h : InUse s r.world (↑r.all + others) b) :
    InUse s w (f ::ₘ others) b ∨ f.createsPool s w = true ∧ b = w.permits.nextBudget := by
  cases h with
  | frame mem pool =>
    rcases Multiset.mem_add.mp mem with hmem | hmem
    · exact .inl (exec_pool hprov hexec hmem pool)
    · exact .inl (.frame (Multiset.mem_cons_of_mem hmem) pool)
  | pending session found permit =>
    exact .inl (pending_pool hprov ((exec_changes hexec).pending _ _ _ found) session permit)
  | entry found pool =>
    rw [(exec_changes hexec).links] at found
    rcases links_pool found with ⟨counts', hfound, hsame⟩ | ⟨hcreates, hnew⟩
    · exact .inl (.entry hfound (hsame.trans pool))
    · exact .inr ⟨hcreates, pool.symm.trans hnew⟩

theorem PoolFree.not_inUse {p : Pool} (h : PoolFree s p) (hcreates : f.createsPool s p.world = true)
    (hbag : p.bag = f ::ₘ others) : ¬ InUse s p.world (f ::ₘ others) b := by
  intro huse
  cases huse with
  | frame mem pool =>
    rw [h.frames _ (hbag ▸ mem)] at pool
    cases pool
  | pending session found permit =>
    rw [h.pending _ _ session found] at permit
    cases permit
  | entry found pool =>
    have hnone : (p.world.links.lookup s).isNone = true := by
      cases f <;> first | exact (Bool.and_eq_true_iff.mp hcreates).2 | cases hcreates
    rw [found] at hnone
    cases hnone

end Exec

variable {s : SessionId} {g f : Frame} {cfg : Config} {p : Pool}

theorem start_pool (op : Start) (w : World) (hg : g ∈ (start op w).all) : g.pool s = none := by
  cases op <;> simp [start, startSubmission, Tasks.Effect.all] at hg <;> subst hg <;>
    first | rfl | exact ite_self _

/-- A session whose pool is renewed only when nothing uses the old one has one pool. -/
theorem onePool (h : (portal cfg).ReachBy (RenewsFree s) initial p) : OnePool s p.world p.bag := by
  refine h.bag_invariant (I := OnePool s) ?_ ?_ ?_
  · intro b b' hb
    cases hb with
    | frame mem => cases mem
    | pending _ found => cases found
    | entry found => cases found
  · intro p op _ ih b b' hb hb'
    have hsame (b : Nat) (hb : InUse s (start op p.world).world
        (↑(start op p.world).all + p.bag) b) : InUse s p.world p.bag b := by
      cases hb with
      | frame mem pool =>
        rcases Multiset.mem_add.mp mem with hmem | hmem
        · rw [start_pool op p.world hmem] at pool
          cases pool
        · exact .frame hmem pool
      | pending session found permit =>
        rw [(start_permits b op p.world).2.2] at found
        exact .pending session found permit
      | entry found pool =>
        rw [(start_undisturbed op p.world).links] at found
        exact .entry found pool
    exact ih b b' (hsame b hb) (hsame b' hb')
  · intro p i choice f rest r hreach hi hbag ih hfine hexec b b' hb hb'
    have hprov : Provenance p.world (f ::ₘ p.others i) := hbag ▸ provenance hreach.reachable
    have hfree := hfine i choice f rest rfl hi
    rcases inUse_exec hprov hexec hb with hold | ⟨hcreates, hnew⟩
    · rcases inUse_exec hprov hexec hb' with hold' | ⟨hcreates, _⟩
      · exact ih b b' hold hold'
      · exact absurd hold ((hfree hcreates).not_inUse hcreates hbag)
    · rcases inUse_exec hprov hexec hb' with hold' | ⟨_, hnew'⟩
      · exact absurd hold' ((hfree hcreates).not_inUse hcreates hbag)
      · rw [hnew, hnew']

/-! ## Every UDP lease holds a permit -/

/-- A pair holds a permit exactly if it is a UDP pair. -/
def Frame.Licensed : Frame → Prop
  | .activateLinks a | .activateClaims a => a.permit.isSome = true ↔ a.call.via = .udp
  | .relay p _ => p.lease.udpPermit.isSome = true ↔ p.kind = .udp
  | _ => True

theorem Next.licensed {w : World} {others : Multiset Frame} (hprov : Provenance w (f ::ₘ others))
    (hf : f.Licensed) (h : Next cfg w f g) : g.Licensed := by
  cases h with
  | activateDuplex reserved halves =>
    obtain ⟨_, hpermitted, hrole⟩ := hprov.sound
    exact hpermitted.trans (and_iff_left (by simp [hrole]))
  | activate reserved filled complete =>
    obtain ⟨hcall, hpermitted, hrole⟩ := hprov.sound
    have hentry := hprov.filled hcall hpermitted hrole filled
    have huplink := (Bool.and_eq_true_iff.mp complete).1
    exact hentry.flowPermit.trans (and_iff_left huplink)
  | activateClaims current => exact hf
  | relay activated paired =>
    obtain ⟨_, hkind, _, _, _, hlease⟩ := toPaired_ok paired
    rw [Frame.Licensed, hkind, hlease]
    exact hf
  | relayOn next => exact hf
  | _ => trivial

theorem licensed {cond : Choice → World → Frame → Prop} (h : (portal cfg).Reach cond initial p) :
    ∀ f ∈ p.bag, f.Licensed := by
  refine h.bag_invariant (I := fun _ fs => ∀ f ∈ fs, f.Licensed) ?_ ?_ ?_
  · intro f hf
    cases hf
  · intro p op _ ih g hg
    rcases Multiset.mem_add.mp hg with hg | hg
    · have hentry : g.Licensed := by
        change g ∈ (start op p.world).all at hg
        cases op <;> simp [start, startSubmission, Tasks.Effect.all] at hg <;> subst hg <;> trivial
      exact hentry
    · exact ih g hg
  · intro p choice f others r hreach hbag ih _ _ hexec g hg
    have hprov : Provenance p.world (f ::ₘ others) := hbag ▸ provenance hreach
    rcases Multiset.mem_add.mp hg with hg | hg
    · rcases exec_next hexec g hg with hclean | hnext
      · cases g <;> trivial
      · exact hnext.licensed hprov (ih f (Multiset.mem_cons_self _ _))
    · exact ih g (Multiset.mem_cons_of_mem hg)

/-! ## The limit -/

/-- Leases that all have a permit of one pool are at most the permits held of that pool. -/
theorem countP_udpLease_le {b : Nat} {fs : Multiset Frame}
    (h : ∀ f ∈ fs, f.udpLease s = true → f.permit = some ⟨b⟩) :
    fs.countP (fun f => f.udpLease s = true) ≤ permitsHeld b fs := by
  induction fs using Multiset.induction with
  | empty => exact Nat.zero_le _
  | cons f fs ih =>
    have hrest := ih fun g hg => h g (Multiset.mem_cons_of_mem hg)
    rw [permitsHeld_cons]
    by_cases hf : f.udpLease s = true
    · rw [Multiset.countP_cons, if_pos hf, h f (Multiset.mem_cons_self _ _) hf]
      simp only [permitWeight, Option.elim_some, if_true]
      omega
    · rw [Multiset.countP_cons, if_neg hf]
      omega

/-- A live UDP lease of the session uses the pool its permit is from. -/
theorem permit_of_udpLease (hlicensed : f.Licensed) (h : f.udpLease s = true) :
    ∃ b, f.permit = some ⟨b⟩ ∧ f.pool s = some b := by
  cases f with
  | relay p stage =>
    obtain ⟨hsession, hkind⟩ := of_decide_eq_true h
    obtain ⟨permit, hpermit⟩ := Option.isSome_iff_exists.mp (hlicensed.mpr hkind)
    exact ⟨permit.budget, hpermit, by simp [Frame.pool, poolFor, hsession, hpermit]⟩
  | leaseDrop l =>
    simp only [Frame.udpLease, Bool.and_eq_true, decide_eq_true_eq] at h
    obtain ⟨permit, hpermit⟩ := Option.isSome_iff_exists.mp h.2
    exact ⟨permit.budget, hpermit, by simp [Frame.pool, poolFor, h.1, hpermit]⟩
  | _ => cases h

/-- **The limit on UDP flows.** As long as the entry of session `s` is created anew only while no
call, pending flow or lease uses an earlier pool, the flows of `s` that hold a permit never
exceed the limit. -/
theorem udpFlows_le {cfg : Config} {s : SessionId} {p : Pool}
    (h : (portal cfg).ReachBy (RenewsFree s) initial p) : udpFlows s p ≤ cfg.maxUdpFlows := by
  have hone := onePool h
  have hprov := provenance h.reachable
  obtain ⟨b, hb⟩ : ∃ b, ∀ b', InUse s p.world p.bag b' → b' = b := by
    by_cases huse : ∃ b, InUse s p.world p.bag b
    · obtain ⟨b, hb⟩ := huse
      exact ⟨b, fun b' hb' => hone b' b hb' hb⟩
    · exact ⟨0, fun b' hb' => absurd ⟨b', hb'⟩ huse⟩
  have hleases : p.bag.countP (fun f => f.udpLease s = true) ≤ permitsHeld b p.bag := by
    apply countP_udpLease_le
    intro f hf hlease
    obtain ⟨b', hpermit, hpool⟩ := permit_of_udpLease (licensed h.reachable f hf) hlease
    rw [hpermit, hb b' (.frame hf hpool)]
  have hpending : total (p.world.pending .udp) (fun key e =>
        if key.sessionId = s ∧ e.uplink.isSome = true then 1 else 0) ≤
      total (p.world.pending .udp) fun _ e => permitWeight b e.flowPermit := by
    apply total_le_total
    intro key e hfound
    split
    · rename_i hflow
      obtain ⟨permit, hpermit⟩ := Option.isSome_iff_exists.mp
        ((hprov.entries _ _ _ hfound).flowPermit.mpr ⟨rfl, hflow.2⟩)
      have hbudget : permit.budget = b := hb _ (.pending hflow.1 hfound hpermit)
      simp [permitWeight, hpermit, hbudget]
    · exact Nat.zero_le _
  have hledger := permits_ledger b h.reachable
  have hcapacity : capacity cfg b p.world.permits ≤ cfg.maxUdpFlows := by
    unfold capacity
    split
    · exact Nat.le_refl _
    · exact Nat.zero_le _
  simp only [stock, entriesTotal] at hledger
  unfold udpFlows
  omega

namespace Sample

/-- A deployment that allows one UDP flow. -/
def oneFlow : Config := ⟨1024, 15, 1⟩

/-- Task `i` carries a UDP DUPLEX through to its relay, on a stream of the given connection. -/
def duplexUdp (i generation : Nat) (flowId : FlowId) : List (Tasks.Act Choice Start) :=
  .boot (.stream session generation ⟨.duplex, flowId, .udp, .quic, .quic⟩ (some target) path) ::
    List.replicate 7 (.run i .go)

/-- The connection of a running flow closes; its relay is cancelled and has not ended yet. -/
def carrierLost : List (Tasks.Act Choice Start) :=
  registerQuic 0 ++ duplexUdp 1 1 1 ++ [.run 0 .close, .run 0 .go, .run 0 (.runtime true)]

/-- The session connects again and opens another flow before the relay ends. -/
theorem reconnected_exceeds :
    ∃ p, (portal oneFlow).Reachable initial p ∧ udpFlows session p = 2 ∧
      oneFlow.maxUdpFlows = 1 := by
  have hrun : ((portal oneFlow).run initial
      (carrierLost ++ registerQuic 4 ++ duplexUdp 5 2 2)).any
      (fun p => decide (udpFlows session p = 2)) = true := by
    decide +kernel
  obtain ⟨p, hreach, hflows⟩ := Tasks.System.exists_reachable_of_run hrun
  exact ⟨p, hreach, of_decide_eq_true hflows, rfl⟩

/-- `PoolFree`, computed. -/
def poolFree (s : SessionId) (p : Pool) : Bool :=
  p.frames.all (fun f => (f.pool s).isNone) &&
    (p.world.pending .udp).entries.all fun e =>
      decide (e.1.sessionId ≠ s) || e.2.flowPermit.isNone

variable {s : SessionId}

theorem poolFree_spec {p : Pool} (h : poolFree s p = true) : PoolFree s p := by
  simp only [poolFree, Bool.and_eq_true, List.all_eq_true, Option.isNone_iff_eq_none] at h
  constructor
  · intro f hf
    exact h.1 f hf
  · intro key e hsession hfound
    have hentry := h.2 ⟨key, e⟩ (mem_entries.mpr hfound)
    simpa [hsession] using hentry

/-- `RenewsFree`, computed. -/
def renewsFree (s : SessionId) (p : Pool) (a : Tasks.Act Choice Start) : Bool :=
  Tasks.System.meets (fun _ w f => !f.createsPool s w || poolFree s p) p a

theorem renewsFree_spec (p : Pool) (a : Tasks.Act Choice Start) (h : renewsFree s p a = true) :
    RenewsFree s p a := by
  intro i c f rest ha hi hcreates
  subst ha
  simp only [renewsFree, Tasks.System.meets, hi, hcreates, Bool.not_true, Bool.false_or] at h
  exact poolFree_spec h

/-- The relay ends before the session connects again. -/
def carrierRenewed : List (Tasks.Act Choice Start) :=
  carrierLost ++ [.run 2 .close, .run 2 .go] ++ registerQuic 4 ++ duplexUdp 5 2 2

theorem carrierRenewed_within_limit :
    ∃ p, (portal oneFlow).ReachBy (RenewsFree session) initial p ∧ 0 < udpFlows session p ∧
      udpFlows session p ≤ oneFlow.maxUdpFlows := by
  have hrun : ((portal oneFlow).run initial carrierRenewed).any
      (fun p => decide (0 < udpFlows session p)) = true := by
    decide +kernel
  have hpasses : (portal oneFlow).passes (renewsFree session) initial carrierRenewed = true := by
    decide +kernel
  obtain ⟨p, hreach, hflows⟩ :=
    Tasks.System.exists_reachBy_of_run renewsFree_spec hpasses hrun
  exact ⟨p, hreach, of_decide_eq_true hflows, udpFlows_le hreach⟩

end Sample

end Nowhere.Portal
