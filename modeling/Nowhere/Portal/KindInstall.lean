import Nowhere.Portal.KindSteps

/-!
# The install block, for both kinds of flow

The critical section of `submit_tcp` and of `submit_udp` that sweeps stale halves, looks for a
tombstone, reserves the claim and fills the entry of the flow. The two agree on every half whose
uplink owns no guard, and on an OPEN with a guard that the claim and the entry take; a guarded
OPEN that is refused here is not covered, since `submit_udp` drops its guard under the lock of
`links`.
-/

namespace Nowhere.Portal

open Protocol Assoc

section Install

variable {cfg : Config} {ties : Ties} {wt wu : World} {c : Submission} {permit : Option Permit}

/-! ### Leaving the install block -/

theorem Tail.permits (permit : Option Permit) : Tail [] (permit.toList.map Frame.permitDrop) := by
  cases permit with
  | none => exact .nil
  | some p => exact .permitDrop p .nil

/-- The guard of a downlink is the guard of a TLS lane. -/
theorem Submission.BuiltTcp.plain_downlink (h : c.BuiltTcp) :
    ∀ f ∈ dropGuard (c.downlink.bind Downlink.guard), f.Plain := by
  refine plain_dropGuard ?_
  intro g hg
  rw [(h.downlinkGuard g hg).1]

theorem Submission.BuiltTcp.plain_uplink (h : c.BuiltTcp) :
    ∀ f ∈ dropGuard (c.uplink.bind Uplink.guard), f.Plain := by
  refine plain_dropGuard ?_
  intro g hg
  rw [(h.uplinkGuard g hg).1]

variable {e : PairingError} {key : FlowKey} {p q : Pending} {active : Option Nat} {w : World}
  {gone created : Bool} {now epoch : Nat} {m : Map FlowKey TerminalRejection} {g : LinkGuard}
  {claims : Claims} {kind : FlowKind}

/-- A half that owns no guard on its uplink is refused alike. -/
theorem Agree.rejected (h : Steady wt wu) (hc : c.BuiltTcp)
    (hguard : c.uplink.bind Uplink.guard = none) {e' : PairingError} (hcode : e'.code = e.code)
    (abort : Bool) :
    Agree cfg ties (wt, c.rejected e abort)
      (wu, Submission.rejected { c.asUdp with permit } e' abort) := by
  have hguard' : c.asUdp.uplink.bind Uplink.guard = none :=
    (uplinkGuard_of_rel hc.uplink_rel).trans hguard
  have hframes : c.rejected e abort = (if abort then [.rejectTcp c.key e.code] else []) ++
      (rejectDownlink c.downlink e.code ++
        .returnErr c.id e :: dropGuard (c.downlink.bind Downlink.guard)) := by
    simp [Submission.rejected, Submission.lockedDrops, Submission.lateDrops, hc.kind, hc.permit,
      hguard, dropGuard]
  have hframes' : Submission.rejected { c.asUdp with permit } e' abort =
      .hold [.udp, .links] :: ((if abort then [.rejectTcp c.key e.code] else []) ++
        (rejectDownlink c.downlink e.code ++ .returnErr c.id e' ::
          (dropGuard (c.downlink.bind Downlink.guard) ++ permit.toList.map .permitDrop))) := by
    change dropGuard (c.asUdp.uplink.bind Uplink.guard) ++ [.hold [.udp, .links]] ++
      (if abort then [.rejectTcp c.key e'.code] else []) ++
      rejectDownlink c.asUdp.downlink e'.code ++ .returnErr c.id e' ::
        ([] ++ dropGuard (c.asUdp.downlink.bind Downlink.guard) ++
          permit.toList.map .permitDrop) = _
    rw [hguard', rejectDownlink_of_rel hc.downlink_rel, downlinkGuard_of_rel hc.downlink_rel, hcode]
    simp [dropGuard]
  have htail : Tail (rejectDownlink c.downlink e.code ++
        .returnErr c.id e :: dropGuard (c.downlink.bind Downlink.guard))
      (rejectDownlink c.downlink e.code ++ .returnErr c.id e' ::
        (dropGuard (c.downlink.bind Downlink.guard) ++ permit.toList.map .permitDrop)) := by
    refine .append (plain_rejectDownlink _ _) (.returnErr _ hcode ?_)
    simpa using Tail.append hc.plain_downlink (.permits permit)
  rw [hframes, hframes']
  refine .right rfl ?_ ?_
  · rintro l ⟨⟩
  · cases abort with
    | false => exact .tail h htail
    | true => exact .reject h _ _ htail.lockless.1 htail.lockless.2 fun _ _ h' => .tail h' htail

/-- An OPEN has no downlink to name. -/
theorem rejectedUplink_eq (h : c.downlink = none) (e : PairingError) :
    c.rejectedUplink e = c.rejected e true := by
  simp [Submission.rejectedUplink, Submission.rejected, rejectDownlink, h]

/-! ### Stale halves -/

/-- A tombstone would keep the flow from being pending. -/
theorem Steady.rejections_none (h : Steady wt wu) (hp : (wt.pending .tcp).lookup key = some p) :
    wt.rejections.lookup key = none := by
  cases hr : wt.rejections.lookup key with
  | none => rfl
  | some r =>
    rw [h.apart key r hr] at hp
    cases hp

/-- A half of a replaced connection came over QUIC and owns no guard. -/
theorem Pending.TlsGuards.uplink_stale (h : p.TlsGuards) (hstale : p.uplinkStale active = true) :
    p.uplink.bind Uplink.guard = none := by
  have hquic := (of_decide_eq_true hstale).1
  by_contra hguard
  obtain ⟨g, hg⟩ := Option.ne_none_iff_exists'.mp hguard
  exact (h.uplink g hg).2 hquic

theorem Pending.TlsGuards.downlink_stale {p : Pending} (h : p.TlsGuards) {active : Option Nat}
    (hstale : p.downlinkStale active = true) : p.downlink.bind Downlink.guard = none := by
  have hquic := (of_decide_eq_true hstale).1
  by_contra hguard
  obtain ⟨g, hg⟩ := Option.ne_none_iff_exists'.mp hguard
  exact (h.downlink g hg).2 hquic

theorem Pending.TlsGuards.clearStale (h : p.TlsGuards) (active : Option Nat) :
    (p.clearStale active).TlsGuards := by
  constructor
  · intro g hg
    simp only [Pending.clearStale] at hg ⊢
    split at hg
    · cases hg
    · exact h.uplink g hg
  · intro g hg
    simp only [Pending.clearStale] at hg ⊢
    split at hg
    · cases hg
    · exact h.downlink g hg

theorem complete_clearStale (h : p.complete = false) (active : Option Nat) :
    (p.clearStale active).complete = false := by
  simp only [Pending.complete, Bool.and_eq_false_iff, Pending.clearStale] at h ⊢
  rcases h with h | h
  · left
    split
    · rfl
    · exact h
  · right
    split
    · rfl
    · exact h

/-- The registry after the install block of `c` has dropped the halves of replaced connections. -/
def swept (w : World) (c : Submission) : World :=
  match (w.pending c.via).lookup c.key with
  | none => w
  | some p =>
    let p' := p.clearStale (activeQuicGeneration w.links c.sessionId)
    let gone := p'.uplink.isNone && p'.downlink.isNone
    { w with
      pending := Function.update w.pending c.via
        (if gone then (w.pending c.via).erase c.key else (w.pending c.via).insert c.key p')
      claims := w.claims.sweepClaim c.key
        (if gone then none else some (p'.target, p'.generations)) }

theorem swept_none (h : (w.pending c.via).lookup c.key = none) : swept w c = w := by
  rw [swept, h]

theorem swept_some {w : World} {p : Pending} {active : Option Nat} {gone : Bool}
    (hp : (w.pending c.via).lookup c.key = some p)
    (hactive : activeQuicGeneration w.links c.sessionId = active)
    (hgone :
      ((p.clearStale active).uplink.isNone && (p.clearStale active).downlink.isNone) = gone) :
    swept w c =
      { w with
        pending := Function.update w.pending c.via
          (if gone then (w.pending c.via).erase c.key
            else (w.pending c.via).insert c.key (p.clearStale active))
        claims := w.claims.sweepClaim c.key (if gone then none else
          some ((p.clearStale active).target, (p.clearStale active).generations)) } := by
  subst hactive hgone
  rw [swept, hp]

theorem Steady.sweep (h : Steady wt wu) (hpq : p.Corresponds q)
    (hp : (wt.pending .tcp).lookup key = some p) (hq : (wu.pending .udp).lookup key = some q)
    (active : Option Nat) (gone : Bool) :
    Steady
      { wt with
        pending := Function.update wt.pending .tcp
          (if gone then (wt.pending .tcp).erase key
            else (wt.pending .tcp).insert key (p.clearStale active)) }
      { wu with
        pending := Function.update wu.pending .udp
          (if gone then (wu.pending .udp).erase key
            else (wu.pending .udp).insert key (q.clearStale active)) } := by
  cases gone with
  | true => exact h.erasePending key
  | false =>
    obtain ⟨hcomplete, hguards⟩ := h.waiting key p hp
    refine h.insertPending key (hpq.clearStale active) ?_
      ⟨complete_clearStale hcomplete active, hguards.clearStale active⟩ ?_
    · exact h.rejections_none hp
    · have hpermitted := h.permitted key q hq
      simp only [Pending.clearStale]
      split
      · exact fun hnone => by cases hnone
      · exact hpermitted

theorem installLinksStep_none (hlink : linkCurrent w.links c.sessionId c.link = true)
    (hnone : (w.pending c.via).lookup c.key = none) :
    installLinksStep w c =
      ⟨w, [.installTombstone c (activeQuicGeneration w.links c.sessionId)], []⟩ := by
  simp [installLinksStep, validateCurrentLinkLocked, hlink, hnone]

/-- The halves of replaced connections, which own no guard, leave the entry. -/
theorem installLinksStep_some (hlink : linkCurrent w.links c.sessionId c.link = true)
    (hp : (w.pending c.via).lookup c.key = some p)
    (hactive : activeQuicGeneration w.links c.sessionId = active)
    (hgone : ((p.clearStale active).uplink.isNone && (p.clearStale active).downlink.isNone) = gone)
    (huplink : p.uplinkStale active = true → p.uplink.bind Uplink.guard = none)
    (hdownlink : p.downlinkStale active = true → p.downlink.bind Downlink.guard = none) :
    installLinksStep w c =
      ⟨{ w with
          pending := Function.update w.pending c.via
            (if gone then (w.pending c.via).erase c.key
              else (w.pending c.via).insert c.key (p.clearStale active))
          permits := w.permits.release (if p.uplinkStale active then p.flowPermit else none)
          log := ((if p.downlinkStale active then p.downlink else none).toList.map
            fun d => Event.dropped d.source .staleQuic) ++ w.log },
        [.installSweep c active (if gone then none else
          some ((p.clearStale active).target, (p.clearStale active).generations))], []⟩ := by
  subst hactive hgone
  have hup : (if p.uplinkStale (activeQuicGeneration w.links c.sessionId) then p.uplink
      else none).bind Uplink.guard = none := by
    split
    · exact huplink ‹_›
    · rfl
  have hdown : (if p.downlinkStale (activeQuicGeneration w.links c.sessionId) then p.downlink
      else none).bind Downlink.guard = none := by
    split
    · exact hdownlink ‹_›
    · rfl
  unfold installLinksStep
  rw [validateCurrentLinkLocked, if_pos hlink]
  dsimp only
  rw [hp]
  dsimp only
  rw [hup, hdown]
  rfl

/-- From the lock of the pending map to the tombstone lookup. The map of tombstones is not read
on the way, `m` is the one of the UDP side. -/
theorem Agree.installPending (h : Steady wt wu) (hc : c.BuiltTcp)
    (m : Map FlowKey TerminalRejection) (hlink : linkCurrent wt.links c.sessionId c.link = true)
    (next : ∀ wt' wu' active, Steady wt' wu' → wt'.rejections = wt.rejections →
      wt'.now = wt.now → wt'.claims = (swept wt c).claims →
      wt'.pending = (swept wt c).pending →
      Agree cfg ties (wt', [.installTombstone c active])
        ({ wu' with rejections := m }, [.installTombstone { c.asUdp with permit } active])) :
    Agree cfg ties (wt, [.installPending c])
      ({ wu with rejections := m }, [.installPending { c.asUdp with permit }]) := by
  have hnil : Lockless [] := List.forall_mem_nil _
  refine .left rfl (clear_of_lockless hnil) (.left rfl (clear_of_lockless hnil) ?_)
  refine .right rfl (clear_of_lockless hnil) (.right rfl (clear_of_lockless hnil) ?_)
  have hlink' : linkCurrent wu.links c.sessionId c.link = true := by
    rw [h.links]
    exact hlink
  have hlookup := h.entries.lookup c.key
  have hvia : (wt.pending c.via).lookup c.key = (wt.pending .tcp).lookup c.key := by rw [hc.kind]
  generalize hactive : activeQuicGeneration wt.links c.sessionId = active
  have hactive' : activeQuicGeneration wu.links c.sessionId = active := by
    rw [h.links]
    exact hactive
  generalize hp : (wt.pending .tcp).lookup c.key = found,
    hq : (wu.pending .udp).lookup c.key = found' at hlookup
  rw [hp] at hvia
  cases hlookup with
  | none =>
    have ht := installLinksStep_none hlink hvia
    have hu := installLinksStep_none (w := { wu with rejections := m })
      (c := { c.asUdp with permit }) hlink' hq
    rw [ht, hu, hactive]
    have hswept := swept_none hvia
    refine hactive' ▸ next wt wu _ h rfl rfl ?_ ?_
    · rw [hswept]
    · rw [hswept]
  | @some p q hpq =>
    obtain ⟨_, hguards⟩ := h.waiting c.key p hp
    generalize hgone :
      ((p.clearStale active).uplink.isNone && (p.clearStale active).downlink.isNone) = gone
    have hclear := hpq.clearStale active
    have hgone' : ((q.clearStale active).uplink.isNone && (q.clearStale active).downlink.isNone) =
        gone := by
      rw [isNone_of_rel hclear.uplink, isNone_of_rel hclear.downlink]
      exact hgone
    have ht := installLinksStep_some hlink hvia hactive hgone hguards.uplink_stale
      hguards.downlink_stale
    have hu := installLinksStep_some (w := { wu with rejections := m })
      (c := { c.asUdp with permit }) hlink' hq hactive' hgone'
      (by
        rw [hpq.uplinkStale, uplinkGuard_of_rel hpq.uplink]
        exact hguards.uplink_stale)
      (by
        rw [hpq.downlinkStale, downlinkGuard_of_rel hpq.downlink]
        exact hguards.downlink_stale)
    rw [hc.kind] at ht
    rw [ht, hu, hclear.target, hclear.generations]
    refine .last rfl rfl ?_
    have hlost : Option.Rel (Downlink.Corresponds p.downlinkLiveness)
        (if p.downlinkStale active then p.downlink else none)
        (if q.downlinkStale active then q.downlink else none) := by
      rw [hpq.downlinkStale]
      split
      · exact hpq.downlink
      · exact .none
    have hsweep := (((h.sweep hpq hp hq active gone).release
      (if p.uplinkStale active then p.flowPermit else none)
      (if q.uplinkStale active then q.flowPermit else none)).emit
      (dropped_of_rel hlost .staleQuic)).setClaims
      (h.claims.sweepClaim c.key (if gone then none else
        some ((p.clearStale active).target, (p.clearStale active).generations)))
    have hswept := swept_some hvia hactive hgone
    rw [hc.kind] at hswept
    have hagree := next _ _ active hsweep rfl rfl (by rw [hswept]) (by rw [hswept]; rfl)
    exact hagree

/-! ### Tombstone, claim and entry -/

/-- Expired tombstones make no difference to a lookup. -/
theorem terminalRejection_congr {now : Nat} {m m' : Map FlowKey TerminalRejection}
    (h : retain m (fun _ r => decide (now < r.expiresAt)) =
      retain m' (fun _ r => decide (now < r.expiresAt))) (key : FlowKey) (consume : Bool) :
    terminalRejection now m key consume = terminalRejection now m' key consume := by
  unfold terminalRejection
  rw [h]

theorem lookup_of_terminalRejection {consume : Bool}
    (h : (terminalRejection now m key consume).2 = none) :
    (terminalRejection now m key consume).1.lookup key = none := by
  have hlive : (m.lookup key).filter (fun r => decide (now < r.expiresAt)) = none := by
    rw [← lookup_retain m (fun _ r => decide (now < r.expiresAt)) key]
    exact Option.map_eq_none_iff.mp h
  rw [lookup_terminalRejection, hlive, ite_self]

theorem Submission.BuiltTcp.unguarded_of_attach (hc : c.BuiltTcp)
    (hrole : c.header.role = .attach) : c.uplink.bind Uplink.guard = none := by
  cases hu : c.uplink with
  | none => rfl
  | some u => exact absurd hrole (hc.uplink.mp (by rw [hu]; rfl))

theorem installTombstoneStep_eq {w : World} (active : Option Nat)
    {rejections : Map FlowKey TerminalRejection} {code : Option FlowErrorCode}
    (h : terminalRejection w.now w.rejections c.key (decide (c.header.role = .attach)) =
      (rejections, code)) :
    installTombstoneStep w c active =
      ⟨{ w with rejections },
        code.elim [.installReserve c active] fun code =>
          c.rejected ⟨code, "portal::pairing: terminal flow rejection"⟩ false, []⟩ := by
  simp only [installTombstoneStep, h]
  cases code <;> rfl

theorem Agree.installTombstone (h : Steady wt wu) (hc : c.BuiltTcp) {active : Option Nat}
    {m : Map FlowKey TerminalRejection}
    (hm : retain m (fun _ r => decide (wt.now < r.expiresAt)) =
      retain wt.rejections (fun _ r => decide (wt.now < r.expiresAt)))
    (hrole : c.header.role ≠ .duplex)
    (hopen : c.header.role = .opening →
      (terminalRejection wt.now wt.rejections c.key false).2 = none)
    (next : ∀ wt' wu', Steady wt' wu' → wt'.claims = wt.claims → wt'.pending = wt.pending →
      wt'.rejections.lookup c.key = none →
      Agree cfg ties (wt', [.installReserve c active])
        (wu', [.installReserve { c.asUdp with permit } active])) :
    Agree cfg ties (wt, [.installTombstone c active])
      ({ wu with rejections := m }, [.installTombstone { c.asUdp with permit } active]) := by
  refine .last rfl rfl ?_
  have hresult : terminalRejection wu.now m c.key (decide (c.header.role = .attach)) =
      terminalRejection wt.now wt.rejections c.key (decide (c.header.role = .attach)) := by
    rw [h.now]
    exact terminalRejection_congr hm _ _
  have hapart : ∀ key r, (terminalRejection wt.now wt.rejections c.key
      (decide (c.header.role = .attach))).1.lookup key = some r →
      (wt.pending .tcp).lookup key = none :=
    fun key r hr => h.apart key r (of_lookup_terminalRejection hr)
  have hlookup := @lookup_of_terminalRejection c.key wt.now wt.rejections
    (decide (c.header.role = .attach))
  have hcode : c.header.role = .opening → (terminalRejection wt.now wt.rejections c.key
      (decide (c.header.role = .attach))).2 = none := hopen
  generalize hfound : terminalRejection wt.now wt.rejections c.key
    (decide (c.header.role = .attach)) = found at hresult hapart hlookup hcode
  obtain ⟨rejections, code⟩ := found
  have hsteady : Steady { wt with rejections } { wu with rejections } := h.setRejections rfl hapart
  have hu := installTombstoneStep_eq (w := { wu with rejections := m })
    (c := { c.asUdp with permit }) active hresult
  rw [installTombstoneStep_eq active hfound, hu]
  cases code with
  | none => exact next _ _ hsteady rfl rfl (hlookup rfl)
  | some code =>
    have hattach : c.header.role = .attach := by
      cases hr : c.header.role with
      | attach => rfl
      | duplex => exact absurd hr hrole
      | opening => cases hcode hr
    simp only [Option.elim_some]
    exact .rejected hsteady hc (hc.unguarded_of_attach hattach) rfl false

/-- The guard of a half that a valid call brings is the guard of a TLS lane. -/
theorem Submission.BuiltTcp.tls_uplink (hc : c.BuiltTcp)
    (hcarrier : c.carrier = .quic ↔ c.link.quicGeneration.isSome = true)
    (hrole : c.header.role ≠ .attach) (hg : c.uplink.bind Uplink.guard = some g) :
    g.quicGeneration = none ∧ c.header.uplink ≠ .quic := by
  obtain ⟨rfl, hlink⟩ := hc.uplinkGuard g hg
  refine ⟨rfl, ?_⟩
  intro hquic
  have hsome := hcarrier.mp (by cases hr : c.header.role <;> simp_all [Submission.carrier])
  rw [hlink] at hsome
  cases hsome

theorem Submission.BuiltTcp.tls_downlink (hc : c.BuiltTcp)
    (hcarrier : c.carrier = .quic ↔ c.link.quicGeneration.isSome = true)
    (hrole : c.header.role = .attach) (hg : c.downlink.bind Downlink.guard = some g) :
    g.quicGeneration = none ∧ c.header.downlink ≠ .quic := by
  obtain ⟨rfl, hlink⟩ := hc.downlinkGuard g hg
  refine ⟨rfl, ?_⟩
  intro hquic
  have hsome := hcarrier.mp (by simp [Submission.carrier, hrole, hquic])
  rw [hlink] at hsome
  cases hsome

theorem Pending.TlsGuards.fill (h : p.TlsGuards) (hc : c.BuiltTcp)
    (hcarrier : c.carrier = .quic ↔ c.link.quicGeneration.isSome = true) :
    (p.fill c).1.TlsGuards := by
  unfold Pending.fill
  split
  · exact h
  rename_i hmetadata
  rw [ne_eq, not_not] at hmetadata
  cases hrole : c.header.role with
  | opening =>
    dsimp only
    split
    · exact ⟨h.uplink, h.downlink⟩
    · refine ⟨?_, h.downlink⟩
      intro g hg
      rw [hmetadata]
      exact hc.tls_uplink hcarrier (by rw [hrole]; simp) hg
  | attach =>
    dsimp only
    split
    · exact ⟨h.uplink, h.downlink⟩
    · refine ⟨h.uplink, ?_⟩
      intro g hg
      rw [hmetadata]
      exact hc.tls_downlink hcarrier hrole hg
  | duplex => exact ⟨h.uplink, h.downlink⟩

/-- A refused half leaves the halves of the entry alone. -/
theorem complete_fill_of_misfit (h : (p.fill c).2.isSome = true) :
    (p.fill c).1.complete = p.complete := by
  unfold Pending.fill at h ⊢
  split at h
  · rw [if_pos ‹_›]
  · rw [if_neg ‹_›]
    dsimp only at h ⊢
    split at h
    · split at h
      · rw [if_pos ‹_›]
        rfl
      · cases h
    · split at h
      · rw [if_pos ‹_›]
        rfl
      · cases h
    · rfl

/-- With an OPEN comes its permit. -/
theorem permitted_fill {u : Submission} (h : q.uplink.isSome = true → q.flowPermit.isSome = true)
    (hu : u.header.role = .opening → u.permit.isSome = true)
    (hsome : (q.fill u).1.uplink.isSome = true) : (q.fill u).1.flowPermit.isSome = true := by
  unfold Pending.fill at hsome ⊢
  split
  · rw [if_pos ‹_›] at hsome
    exact h hsome
  · rw [if_neg ‹_›] at hsome
    dsimp only at hsome ⊢
    split
    · rename_i hrole
      rw [hrole] at hsome
      dsimp only at hsome
      split
      · exact h ‹_›
      · exact hu hrole
    · rename_i hrole
      rw [hrole] at hsome
      dsimp only at hsome
      split
      · rw [if_pos ‹_›] at hsome
        exact h hsome
      · rw [if_neg ‹_›] at hsome
        exact h hsome
    · rename_i hrole
      rw [hrole] at hsome
      exact h hsome

theorem installReserveStep_error (active : Option Nat) (h : c.Reserves cfg w claims (.error e)) :
    installReserveStep cfg w c active = ⟨{ w with claims }, c.rejected e true, []⟩ := by
  simp only [installReserveStep, h]

theorem installReserveStep_misfit {misfit : Pending.Misfit} (hkind : c.via = kind)
    (h : c.Reserves cfg w claims (.ok (epoch, created)))
    (hfill : c.FillsEntry w epoch active p (some misfit)) (hrole : c.header.role ≠ .duplex)
    (hopen : c.header.role = .opening → c.downlink = none) :
    installReserveStep cfg w c active =
      ⟨{ w with
          claims
          pending := Function.update w.pending kind ((w.pending kind).insert c.key p) },
        c.rejected (misfit.error kind) true, []⟩ := by
  have hmisfit := fill_misfit hfill
  subst hkind
  simp only [installReserveStep, h, hfill]
  cases misfit with
  | duplex => exact absurd (hmisfit.2.2.1 rfl) hrole
  | uplink =>
    dsimp only
    rw [rejectedUplink_eq (hopen (hmisfit.1 rfl).1)]
    rfl
  | metadata => rfl
  | downlink => rfl

theorem installReserveStep_complete (hkind : c.via = kind)
    (h : c.Reserves cfg w claims (.ok (epoch, created)))
    (hfill : c.FillsEntry w epoch active p none) (hcomplete : p.complete = true)
    (hpermit : kind = .udp → p.flowPermit.isSome = true) :
    installReserveStep cfg w c active =
      ⟨{ w with
          claims
          pending := Function.update w.pending kind ((w.pending kind).erase c.key) },
        [.activateLinks ⟨c.bare, p.epoch, p.generations, p.flowPermit, p⟩], []⟩ := by
  subst hkind
  have hmissing : ¬ (c.via = .udp ∧ p.flowPermit = none) := by
    rintro ⟨hvia, hnone⟩
    have hsome := hpermit hvia
    rw [hnone] at hsome
    cases hsome
  simp only [installReserveStep, h, hfill, hcomplete, Option.isNone_none, Bool.and_self, if_true,
    if_neg hmissing]

theorem installReserveStep_waiting (hkind : c.via = kind)
    (h : c.Reserves cfg w claims (.ok (epoch, created)))
    (hfill : c.FillsEntry w epoch active p none) (hcomplete : p.complete = false) :
    installReserveStep cfg w c active =
      ⟨{ w with
          claims
          pending := Function.update w.pending kind ((w.pending kind).insert c.key p) },
        [.installRefresh c.bare], []⟩ := by
  subst hkind
  simp only [installReserveStep, h, hfill, hcomplete, Option.isNone_none, Bool.and_false,
    Bool.false_eq_true, if_false]

theorem installRefreshClaimStep_some (hkind : c.via = kind)
    (h : w.claims.refreshClaim c.key epoch = some claims)
    (hp : (w.pending kind).lookup c.key = some p) :
    installRefreshClaimStep cfg w c epoch =
      ⟨{ w with
          claims
          pending := Function.update w.pending kind ((w.pending kind).insert c.key { p with epoch })
          log := .returned c.id none :: w.log }, [],
        [[.timeout kind c.key epoch (w.now + cfg.timeout)]]⟩ := by
  subst hkind
  simp only [installRefreshClaimStep, h, hp, Option.elim_some]

/-- The call leaves the flow pending. -/
theorem Agree.installRefresh (h : Steady wt wu) (hvia : c.via = .tcp)
    (hp : (wt.pending .tcp).lookup c.key = some p) (hq : (wu.pending .udp).lookup c.key = some q)
    (hpq : p.Corresponds q) (hclaim : (wt.claims.map.lookup c.key).isSome = true) :
    Agree cfg ties (wt, [.installRefresh c.bare])
      (wu, [.installRefresh (Submission.bare { c.asUdp with permit })]) := by
  have hnil : Lockless [] := List.forall_mem_nil _
  have hcounted : Claims.Corresponds { wt.claims with nextEpoch := wt.claims.nextEpoch + 1 }
      { wu.claims with nextEpoch := wu.claims.nextEpoch + 1 } :=
    ⟨h.claims.map, congrArg (· + 1) h.claims.nextEpoch, h.claims.nextToken⟩
  have hrefresh := hcounted.refreshClaim c.key h.claims.nextEpoch
  generalize ht : Claims.refreshClaim { wt.claims with nextEpoch := wt.claims.nextEpoch + 1 } c.key
      wt.claims.nextEpoch = found,
    hu : Claims.refreshClaim { wu.claims with nextEpoch := wu.claims.nextEpoch + 1 } c.key
      wu.claims.nextEpoch = found' at hrefresh
  cases hrefresh with
  | none =>
    have hnone := Option.map_eq_none_iff.mp ht
    simp only [hnone, Option.isSome_none, Bool.false_eq_true] at hclaim
  | some hclaims =>
    obtain ⟨hcomplete, hguards⟩ := h.waiting c.key p hp
    have hinsert := (h.setClaims hclaims).insertPending c.key
      (hpq.with_epoch h.claims.nextEpoch) (h.rejections_none hp)
      ⟨hcomplete, hguards.uplink, hguards.downlink⟩ (h.permitted c.key q hq)
    have hsteady := hinsert.emit (.cons (.returned c.id (e := none) rfl) .nil)
    have hstep := @installRefreshClaimStep_some cfg c.bare p { wt with claims := { wt.claims with
      nextEpoch := wt.claims.nextEpoch + 1 } } _ _ _ hvia ht hp
    have hstep' := @installRefreshClaimStep_some cfg (Submission.bare { c.asUdp with permit }) q
      { wu with claims := { wu.claims with nextEpoch := wu.claims.nextEpoch + 1 } } _ _ _ rfl hu hq
    exact .left rfl (clear_of_lockless hnil) (.last (congrArg some hstep) rfl
      (.right (congrArg some hstep') (clear_of_lockless hnil) (.done hsteady)))

theorem reserveClaim_lookup {claims' : Claims} {m : Metadata} {target : Option Target}
    {generation : Option Nat} {x : Nat × Bool}
    (h : claims.reserveClaim cfg key m target generation = (claims', .ok x)) :
    (claims'.map.lookup key).isSome = true := by
  unfold Claims.reserveClaim at h
  split at h
  · split at h
    · cases h
    · split at h
      · cases h
      · cases h
        simp
  · split at h
    · cases h
    · cases h
      simp

/-- The entries that the two calls fill. -/
theorem Steady.entry (h : Steady wt wu) (hc : c.BuiltTcp) (permit : Option Permit) (epoch : Nat)
    (active : Option Nat) :
    (entryOf wt c epoch active).Corresponds
        (entryOf wu { c.asUdp with permit } epoch active) ∧
      (entryOf wt c epoch active).complete = false ∧
      (entryOf wt c epoch active).TlsGuards ∧
      ((entryOf wu { c.asUdp with permit } epoch active).uplink.isSome = true →
        (entryOf wu { c.asUdp with permit } epoch active).flowPermit.isSome = true) := by
  have hlookup := h.entries.lookup c.key
  have hwaiting := h.waiting c.key
  have hpermitted := h.permitted c.key
  change (((wt.pending c.via).lookup c.key).getD (.fresh c epoch active)).Corresponds
      (((wu.pending .udp).lookup c.key).getD (.fresh { c.asUdp with permit } epoch active)) ∧
    (((wt.pending c.via).lookup c.key).getD (.fresh c epoch active)).complete = false ∧
    (((wt.pending c.via).lookup c.key).getD (.fresh c epoch active)).TlsGuards ∧
    ((((wu.pending .udp).lookup c.key).getD
        (.fresh { c.asUdp with permit } epoch active)).uplink.isSome = true →
      (((wu.pending .udp).lookup c.key).getD
        (.fresh { c.asUdp with permit } epoch active)).flowPermit.isSome = true)
  rw [hc.kind]
  generalize (wt.pending .tcp).lookup c.key = found, (wu.pending .udp).lookup c.key = found' at *
  cases hlookup with
  | none =>
    refine ⟨.fresh hc.header_kind permit epoch active, rfl, ⟨?_, ?_⟩, ?_⟩
    · exact fun g hg => by cases hg
    · exact fun g hg => by cases hg
    · exact fun hnone => by cases hnone
  | @some p q hpq =>
    obtain ⟨hcomplete, hguards⟩ := hwaiting p rfl
    exact ⟨hpq, hcomplete, hguards, hpermitted q rfl⟩

/-- `reserve_claim` answers the same on both sides. -/
theorem Steady.reserveClaim (h : Steady wt wu) (cfg : Config) (hc : c.BuiltTcp)
    (permit : Option Permit) :
    ∃ ct cu reserved,
      c.Reserves cfg wt ct reserved ∧
      Submission.Reserves { c.asUdp with permit } cfg wu cu reserved ∧
      Steady { wt with claims := ct } { wu with claims := cu } := by
  obtain ⟨hclaims, hresult⟩ := h.claims.reserveClaim cfg c.key (m := c.metadata) hc.header_kind
    c.target c.link.quicGeneration
  exact ⟨_, _, _, rfl, Prod.ext rfl hresult, h.setClaims hclaims⟩

/-- The entries of both sides once the half has been put in, if it fits. -/
structure Filled (wt wu : World) (c : Submission) (permit : Option Permit) (epoch : Nat)
    (active : Option Nat) (p q : Pending) (misfit : Option Pending.Misfit) : Prop where
  tcp : c.FillsEntry wt epoch active p misfit
  udp : Submission.FillsEntry { c.asUdp with permit } wu epoch active q misfit
  corresponds : p.Corresponds q
  guards : p.TlsGuards
  permitted : q.uplink.isSome = true → q.flowPermit.isSome = true
  refused : misfit.isSome = true → p.complete = false

theorem Steady.filled (h : Steady wt wu) (hc : c.BuiltTcp)
    (hcarrier : c.carrier = .quic ↔ c.link.quicGeneration.isSome = true)
    (hpermit : c.header.role = .opening → permit.isSome = true) (epoch : Nat)
    (active : Option Nat) : ∃ p q misfit, Filled wt wu c permit epoch active p q misfit := by
  obtain ⟨hentry, hcomplete, hguards, hpermitted⟩ := h.entry hc permit epoch active
  obtain ⟨hpq, hmisfit⟩ := hentry.fill hc permit
  exact ⟨_, _, _, {
    tcp := rfl
    udp := Prod.ext rfl hmisfit
    corresponds := hpq
    guards := hguards.fill hc hcarrier
    permitted := permitted_fill hpermitted (u := { c.asUdp with permit }) hpermit
    refused := fun hsome => (complete_fill_of_misfit hsome).trans hcomplete }⟩

/-- From `reserve_claim` to the return of the call. A refused OPEN must not own a guard. -/
theorem Agree.installReserve (h : Steady wt wu) (hc : c.BuiltTcp)
    (hcarrier : c.carrier = .quic ↔ c.link.quicGeneration.isSome = true)
    (hrole : c.header.role ≠ .duplex)
    (hpermit : c.header.role = .opening → permit.isSome = true)
    (hmissing : wt.rejections.lookup c.key = none)
    (hfits : (c.uplink.bind Uplink.guard).isSome = true → ClaimAdmits cfg wt c ∧ EntryAdmits wt c)
    (active : Option Nat) :
    Agree cfg ties (wt, [.installReserve c active])
      (wu, [.installReserve { c.asUdp with permit } active]) := by
  obtain ⟨ct, cu, reserved, ht, hu, hsteady⟩ := h.reserveClaim cfg hc permit
  cases reserved with
  | error e =>
    have hunguarded : c.uplink.bind Uplink.guard = none := by
      by_contra hguard
      obtain ⟨claims, epoch, created, hok⟩ :=
        claimAdmits_iff.mp (hfits (Option.isSome_iff_ne_none.mpr hguard)).1
      cases ht.symm.trans hok
    refine .last (congrArg some (installReserveStep_error active ht))
      (congrArg some (installReserveStep_error active hu)) ?_
    exact .rejected hsteady hc hunguarded rfl true
  | ok x =>
    obtain ⟨epoch, created⟩ := x
    obtain ⟨p, q, misfit, hfilled⟩ := h.filled hc hcarrier hpermit epoch active
    have hpq := hfilled.corresponds
    have hopening : c.header.role = .opening → c.downlink = none := by
      intro hopen
      cases hd : c.downlink with
      | none => rfl
      | some d => exact absurd hopen (hc.downlink.mp (by rw [hd]; rfl))
    cases misfit with
    | some misfit =>
      have hunguarded : c.uplink.bind Uplink.guard = none := by
        cases hr : c.header.role with
        | attach => exact hc.unguarded_of_attach hr
        | duplex => exact absurd hr hrole
        | opening =>
          by_contra hguard
          have hadmits := (entryAdmits_iff hr epoch active).mp
            (hfits (Option.isSome_iff_ne_none.mpr hguard)).2
          cases (congrArg Prod.snd hfilled.tcp).symm.trans hadmits
      have hstep := installReserveStep_misfit hc.kind ht hfilled.tcp hrole hopening
      have hstep' := installReserveStep_misfit rfl hu hfilled.udp hrole fun hopen => by
          change c.downlink.map _ = none
          rw [hopening hopen]
          rfl
      refine .last (congrArg some hstep) (congrArg some hstep') ?_
      have hcode : (misfit.error .udp).code = (misfit.error .tcp).code := by
        cases misfit <;> rfl
      exact .rejected (hsteady.insertPending c.key hpq hmissing
        ⟨hfilled.refused rfl, hfilled.guards⟩ hfilled.permitted) hc hunguarded hcode true
    | none =>
      cases hdone : p.complete with
      | true =>
        have hdone' : q.complete = true := hpq.complete.trans hdone
        have hstep := installReserveStep_complete hc.kind ht hfilled.tcp hdone (by simp)
        have hstep' := installReserveStep_complete rfl hu hfilled.udp hdone' fun _ =>
          hfilled.permitted (by
            simp only [Pending.complete, Bool.and_eq_true] at hdone'
            exact hdone'.1)
        refine .last (congrArg some hstep) (congrArg some hstep') ?_
        exact .activateLinks (hsteady.erasePending c.key)
          ⟨hc.kind, rfl, hpq.epoch, hpq.generations, hpq,
            fun g hg => (hfilled.guards.uplink g hg).1,
            fun g hg => (hfilled.guards.downlink g hg).1⟩
      | false =>
        have hdone' : q.complete = false := hpq.complete.trans hdone
        have hstep := installReserveStep_waiting hc.kind ht hfilled.tcp hdone
        have hstep' := installReserveStep_waiting rfl hu hfilled.udp hdone'
        refine .last (congrArg some hstep) (congrArg some hstep') ?_
        refine .installRefresh (hsteady.insertPending c.key hpq hmissing ⟨hdone, hfilled.guards⟩
          hfilled.permitted) hc.kind ?_ ?_ hpq (reserveClaim_lookup ht)
        · simp
        · change (Function.update wu.pending FlowKind.udp ((wu.pending .udp).insert c.key q)
            FlowKind.udp).lookup c.key = some q
          simp

end Install

end Nowhere.Portal
