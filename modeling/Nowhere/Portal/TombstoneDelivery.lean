import Nowhere.Portal.Tombstones

/-!
# What a tombstone delivers

A `reject_flow_setup` that finds neither an active claim nor a downlink leaves a tombstone
(`rejection_entombs`). The next submissions of the key find it at their first lookup: before
the install block (`submit_tcp` for a DUPLEX, `submit_udp` for an OPEN or a DUPLEX) or inside it
(the rest). An OPEN leaves it in place, an ATTACH or a DUPLEX removes it; each of them fails with
its code, and a downlink it brought is told (`Refusing.finishes`).
-/

namespace Nowhere.Portal

open Protocol Assoc

/-! ## The way to the lookup -/

namespace Submission

/-- Does the call look for a tombstone before the install block? -/
def looksEarly (c : Submission) : Bool :=
  match c.via, c.header.role with
  | .tcp, .duplex | .udp, .opening | .udp, .duplex => true
  | _, _ => false

theorem afterChecks_eq (c : Submission) :
    c.afterChecks = if c.looksEarly then [.terminalRejection c] else [.installPending c] := by
  unfold afterChecks looksEarly
  cases c.via <;> cases c.header.role <;> rfl

variable {c : Submission} {cfg : Config}

theorem role_of_looksEarly (h : c.looksEarly = true) :
    c.header.role = .duplex ∨ c.header.role = .opening := by
  unfold looksEarly at h
  split at h
  · exact .inl ‹_›
  · exact .inr ‹_›
  · exact .inl ‹_›
  · cases h

theorem role_of_not_looksEarly (h : c.looksEarly = false) :
    c.header.role = .attach ∨ c.header.role = .opening := by
  cases hrole : c.header.role with
  | opening => exact .inr rfl
  | attach => exact .inl rfl
  | duplex => cases hvia : c.via <;> simp [looksEarly, hvia, hrole] at h

/-- The first lookup of a call. -/
inductive LooksUp (c : Submission) : Frame → Prop
  | early (place : c.looksEarly = true) : LooksUp c (.terminalRejection c)
  | installing (place : c.looksEarly = false) (active : Option Nat) :
      LooksUp c (.installTombstone c active)

/-- A call up to its first lookup. -/
inductive Asks (c : Submission) : Frame → Prop
  | submit : Asks c (.submit c)
  | installPending (place : c.looksEarly = false) : Asks c (.installPending c)
  | installLinks (place : c.looksEarly = false) : Asks c (.installLinks c)
  | installSweep (place : c.looksEarly = false) (active : Option Nat)
      (left : Option (Option Target × List Nat)) : Asks c (.installSweep c active left)
  | lookup {f : Frame} (looks : c.LooksUp f) : Asks c f

/-- The call's link is current when the call checks it. -/
def StaysCurrent (c : Submission) (w : World) (f : Frame) : Prop :=
  f = .submit c ∨ f = .installLinks c → linkCurrent w.links c.sessionId c.link = true

theorem validateHeaderAndLink_ok {links : Map SessionId LinkCounts}
    (hheader : c.validateHeader = .ok ()) (hcurrent : linkCurrent links c.sessionId c.link = true) :
    c.validateHeaderAndLink links = .ok () := by
  unfold validateHeaderAndLink
  rw [hheader]
  cases hgeneration : c.link.quicGeneration with
  | none => simp
  | some g =>
    have hactive : activeQuicGeneration links c.sessionId = some g := by
      simpa [linkCurrent, hgeneration] using hcurrent
    simp [hactive]

/-- A well-formed call moves on towards its lookup. -/
theorem Asks.next {choice : Choice} {w : World} {f : Frame} {r : Effect} (h : c.Asks f)
    (hlookup : ¬ c.LooksUp f) (hheader : c.validateHeader = .ok ()) (hshape : c.shapeValid = true)
    (hcurrent : c.StaysCurrent w f) (hexec : exec cfg choice w f = some r) :
    ∃ top g, r.frames = top ++ [g] ∧ c.Asks g := by
  cases h with
  | submit =>
    cases hexec
    have hvalid := validateHeaderAndLink_ok hheader (hcurrent (.inl rfl))
    have hframes : (submitStep w c).frames =
        if c.looksEarly then [.terminalRejection c] else [.installPending c] := by
      simp only [submitStep, hvalid, hshape, if_true, afterChecks_eq]
    cases hplace : c.looksEarly with
    | true => exact ⟨[], _, by rw [hframes, hplace]; rfl, .lookup (.early hplace)⟩
    | false => exact ⟨[], _, by rw [hframes, hplace]; rfl, .installPending hplace⟩
  | installPending place =>
    cases hexec
    exact ⟨[], _, rfl, .installLinks place⟩
  | installLinks place =>
    cases hexec
    have hvalid : validateCurrentLinkLocked w.links c.sessionId c.link = .ok () := by
      rw [validateCurrentLinkLocked, if_pos (hcurrent (.inr rfl))]
    unfold installLinksStep
    rw [hvalid]
    dsimp only
    split
    · exact ⟨[], _, rfl, .lookup (.installing place _)⟩
    · exact ⟨_, _, rfl, .installSweep place _ _⟩
  | installSweep place active left =>
    cases hexec
    exact ⟨[], _, rfl, .lookup (.installing place active)⟩
  | lookup looks => exact absurd looks hlookup

/-- While its link stays current, a well-formed call is on its way to its first lookup until it
has made it. -/
theorem asks_or_looksUp {cond : Choice → World → Frame → Prop} {p q : Pool} {j : Nat}
    {tail : List Frame} (hheader : c.validateHeader = .ok ()) (hshape : c.shapeValid = true)
    (hcurrent : ∀ choice w f, cond choice w f → c.StaysCurrent w f)
    (hj : p.tasks[j]? = some (.submit c :: tail)) (h : (portal cfg).Reach cond p q) :
    (∃ f, q.Rests j f tail ∧ c.Asks f) ∨
      ∃ p₁ p₂ f, (portal cfg).Reach cond p p₁ ∧ c.LooksUp f ∧ (∃ choice, cond choice p₁.world f) ∧
        (portal cfg).Runs j f tail p₁ p₂ ∧ (portal cfg).Reach cond p₂ q := by
  have hfollows := h.follows (fun _ f => c.Asks f) c.LooksUp (fun _ _ _ _ hf => hf)
    (fun _ _ _ _ _ _ _ _ _ hf _ _ => hf)
    (fun _ _ _ _ _ hf hlookup hcond hexec =>
      hf.next hlookup hheader hshape (hcurrent _ _ _ hcond) hexec)
    ⟨[], hj⟩ .submit
  rcases hfollows with hasks | ⟨p₁, p₂, f, hbefore, hlooks, _, hcond, hruns, hafter⟩
  · exact .inl hasks
  · exact .inr ⟨p₁, p₂, f, hbefore, hlooks, hcond, hruns, hafter⟩

end Submission

/-! ## The answer -/

/-- The error of a call that met a tombstone. -/
def terminalError (code : FlowErrorCode) : PairingError :=
  ⟨code, "portal::pairing: terminal flow rejection"⟩

/-- Frames that any schedule can run. -/
def Frame.light : Frame → Bool
  | .hold _ | .writeReject .. | .returnErr .. => true
  | _ => false

theorem Frame.light_spec (cfg : Config) {g : Frame} (h : g.light = true) :
    (portal cfg).Light .go g := by
  cases g with
  | hold | writeReject | returnErr => exact ⟨rfl, fun w => ⟨_, rfl, rfl⟩⟩
  | _ => cases h

/-- The call has returned the error and its downlink, if it brought one, has been told. -/
structure Failed (c : Submission) (e : PairingError) (w : World) : Prop where
  returned : .returned c.id (some e) ∈ w.log
  wrote : ∀ d, c.downlink = some d → .wrote d.source (.reject e.code) ∈ w.log

/-- Task `j` fails the call with `e`: what runs before it returns cannot wait, and tells the
call's downlink. -/
inductive Refusing (c : Submission) (e : PairingError) (j : Nat) (under : List Frame)
    (p : Pool) : Prop
  | failing {top : List Frame} (stack : p.tasks[j]? = some (top ++ .returnErr c.id e :: under))
      (light : ∀ g ∈ top, g.light = true)
      (tells : ∀ d, c.downlink = some d → .writeReject d.source e.code ∈ top ∨
        .wrote d.source (.reject e.code) ∈ p.world.log)
  | failed (failed : Failed c e p.world)

section

variable {cfg : Config} {p q : Pool} {f : Frame} {key : FlowKey} {others : Finset FlowKey}
  {rej : TerminalRejection}

theorem log_step {a : Tasks.Act Choice Start} (h : (portal cfg).step p a = some q) :
    p.world.log ⊆ q.world.log := by
  cases a with
  | boot b =>
    cases h
    exact (start_undisturbed b p.world).kept
  | run i choice =>
    obtain ⟨f, rest, r, _, _, hexec, rfl⟩ := (portal cfg).step_run h
    exact (exec_changes hexec).kept

section Refusing

variable {cfg : Config} {c : Submission} {e : PairingError} {j : Nat} {under : List Frame}
  {p q : Pool}

theorem Failed.mono {w w' : World} (h : Failed c e w) (hlog : w.log ⊆ w'.log) :
    Failed c e w' where
  returned := hlog h.returned
  wrote d hd := hlog (h.wrote d hd)

theorem Refusing.step {a : Tasks.Act Choice Start} (h : Refusing c e j under p)
    (hstep : (portal cfg).step p a = some q) : Refusing c e j under q := by
  have hlog := log_step hstep
  cases h with
  | failed failed => exact .failed (failed.mono hlog)
  | @failing top stack light tells =>
    rcases Tasks.System.step_task stack hstep with
      hsame | ⟨choice, f, rest, r, _, hstack, hexec, hworld, htask⟩
    · exact .failing hsame light fun d hd => (tells d hd).imp_right fun h => hlog h
    · cases top with
      | nil =>
        -- the call returns, after every write
        cases hstack
        cases hexec
        refine .failed ⟨?_, ?_⟩
        · rw [hworld]
          exact List.mem_cons_self
        · intro d hd
          rcases tells d hd with htop | hwrote
          · cases htop
          · exact hlog hwrote
      | cons g top =>
        cases hstack
        have hlight := light f List.mem_cons_self
        have hframes : r.frames = [] := by
          cases f with
          | hold | writeReject | returnErr =>
            cases hexec
            rfl
          | _ => cases hlight
        rw [hframes] at htask
        refine .failing htask (fun g' hg' => light g' (List.mem_cons_of_mem _ hg')) ?_
        intro d hd
        rcases tells d hd with htop | hwrote
        · rcases List.mem_cons.mp htop with rfl | htop
          · cases hexec
            refine .inr ?_
            rw [hworld]
            exact List.mem_cons_self
          · exact .inl htop
        · exact .inr (hlog hwrote)

theorem Refusing.reach (h : Refusing c e j under p) (hreach : (portal cfg).Reachable p q) :
    Refusing c e j under q := by
  induction hreach with
  | refl => exact h
  | step a _ _ next ih => exact ih.step next

/-- Wherever the other tasks have got to, the call's own steps bring it to its return. -/
theorem Refusing.finishes (h : Refusing c e j under p) :
    ∃ n q, (portal cfg).run p (List.replicate n (.run j .go)) = some q ∧ Failed c e q.world := by
  cases h with
  | failed failed => exact ⟨0, p, rfl, failed⟩
  | @failing top stack light tells =>
    have hlight : ∀ g ∈ top ++ [.returnErr c.id e], (portal cfg).Light .go g := by
      intro g hg
      rcases List.mem_append.mp hg with hg | hg
      · exact Frame.light_spec cfg (light g hg)
      · rw [List.mem_singleton.mp hg]
        exact Frame.light_spec cfg rfl
    have hstack : p.tasks[j]? = some ((top ++ [.returnErr c.id e]) ++ under) := by
      rw [stack, List.append_assoc]
      rfl
    obtain ⟨q, hrun, hq⟩ := Tasks.System.run_light hlight hstack
    refine ⟨_, q, hrun, ?_⟩
    -- it has not only come past the return: it cannot be before it either
    have hreach : (portal cfg).Reachable p q := Tasks.System.reachable_of_run hrun
    cases (Refusing.failing stack light tells).reach hreach with
    | failed failed => exact failed
    | @failing top' stack' _ _ =>
      have hlength := congrArg List.length (Option.some.inj (hq.symm.trans stack'))
      simp only [List.length_append, List.length_cons] at hlength
      omega

end Refusing

/-! ## A lookup -/

/-- Where a lookup that finds nothing goes on. -/
def Frame.admitted : Frame → List Frame
  | .terminalRejection c => match c.via with
    | .tcp => [.reserveDuplex c]
    | .udp => [.acquireUdpPermit c]
  | .installTombstone c active => [.installReserve c active]
  | _ => []

section Lookup

variable {cfg : Config} {choice : Choice} {w : World} {c : Submission} {f : Frame} {r : Effect}
  {code : FlowErrorCode}

theorem mem_rejectDownlink {d : Option Downlink} {g : Frame} (h : g ∈ rejectDownlink d code) :
    g.light = true := by
  obtain ⟨_, _, rfl⟩ := List.mem_map.mp h
  rfl

theorem writeReject_mem {d : Downlink} {downlink : Option Downlink} (h : downlink = some d) :
    .writeReject d.source code ∈ rejectDownlink downlink code := by
  subst h
  exact List.mem_singleton_self _

/-- What a well-formed call drops inside the install block. -/
theorem lockedDrops_light (hshape : c.shapeValid = true) (hplace : c.looksEarly = false) :
    ∀ g ∈ c.lockedDrops, g.light = true := by
  unfold Submission.lockedDrops
  cases hvia : c.via with
  | tcp => simp
  | udp =>
    -- the only UDP call that looks for its tombstone here is an ATTACH, and it has no uplink
    cases hrole : c.header.role with
    | opening | duplex => simp [Submission.looksEarly, hvia, hrole] at hplace
    | attach =>
      have huplink : c.uplink = none := by
        simp only [Submission.shapeValid, hvia, hrole, Bool.and_eq_true] at hshape
        exact Option.isNone_iff_eq_none.mp hshape.1
      simp [huplink, dropGuard, Frame.light]

/-- A lookup that finds a tombstone. -/
theorem Submission.LooksUp.found {rej : TerminalRejection} (h : c.LooksUp f)
    (hshape : c.shapeValid = true) (hfound : w.rejections.lookup c.key = some rej)
    (hlive : w.now < rej.expiresAt) (hexec : exec cfg choice w f = some r) :
    (r.world.rejections.lookup c.key =
      if c.header.role = .opening then some rej else none) ∧
    ∃ top below, r.frames = top ++ .returnErr c.id (terminalError rej.code) :: below ∧
      (∀ g ∈ top, g.light = true) ∧
      ∀ d, c.downlink = some d → .writeReject d.source rej.code ∈ top := by
  cases h with
  | early place =>
    cases hexec
    constructor
    · change (terminalRejection _ _ _ _).1.lookup _ = _
      rw [lookup_terminalRejection_self hfound hlive]
      rcases Submission.role_of_looksEarly place with hrole | hrole <;> simp [hrole]
    · refine ⟨rejectDownlink c.downlink rej.code, c.drops, ?_, fun _ => mem_rejectDownlink,
        fun _ => writeReject_mem⟩
      simp only [terminalRejectionStep, terminalRejection_found hfound hlive,
        Submission.replyReject, terminalError]
  | installing place active =>
    cases hexec
    constructor
    · change (terminalRejection _ _ _ _).1.lookup _ = _
      rw [lookup_terminalRejection_self hfound hlive]
      rcases Submission.role_of_not_looksEarly place with hrole | hrole <;> simp [hrole]
    · refine ⟨c.lockedDrops ++ rejectDownlink c.downlink rej.code, c.lateDrops, ?_, ?_, ?_⟩
      · simp [installTombstoneStep, terminalRejection_found hfound hlive, Submission.rejected,
          terminalError]
      · intro g hg
        rcases List.mem_append.mp hg with hg | hg
        · exact lockedDrops_light hshape place g hg
        · exact mem_rejectDownlink hg
      · intro d hd
        exact List.mem_append_right _ (writeReject_mem hd)

/-- A lookup that finds nothing does not stop the call. -/
theorem Submission.LooksUp.missing (h : c.LooksUp f)
    (hmissing : w.rejections.lookup c.key = none) (hexec : exec cfg choice w f = some r) :
    r.frames = f.admitted := by
  cases h with
  | early =>
    cases hexec
    cases hvia : c.via <;>
      simp only [terminalRejectionStep, terminalRejection_missing hmissing, Frame.admitted, hvia]
  | installing =>
    cases hexec
    simp only [installTombstoneStep, terminalRejection_missing hmissing, Frame.admitted]

end Lookup

/-! ## `reject_flow_setup` -/

/-- No downlink of the key is pending. -/
def NoDownlink (w : World) (kind : FlowKind) (key : FlowKey) : Prop :=
  ∀ p, (w.pending kind).lookup key = some p → p.downlink = none

/-- Only the end of an install block brings a downlink. -/
theorem NoDownlink.exec {choice : Choice} {w : World} {r : Effect} {kind : FlowKind}
    (h : NoDownlink w kind key) (hinstall : ∀ c active, f = .installReserve c active → c.via ≠ kind)
    (hexec : Portal.exec cfg choice w f = some r) : NoDownlink r.world kind key := by
  intro p hp
  cases (exec_changes hexec).pending kind key p hp with
  | same found => exact h p found
  | stale found _ => simp [Pending.clearStale, h _ found]
  | filled _ _ => exact absurd rfl (hinstall _ _ rfl)
  | @refreshed c epoch p' found => exact h p' found

/-- The sections of `reject_flow_setup` on the way to a tombstone that does not expire before
`earliest`. -/
inductive Entombs (key : FlowKey) (code : FlowErrorCode) (earliest : Nat) (w : World) :
    Frame → Prop
  | udpEntry (nowhere : NoDownlink w .udp key) :
      Entombs key code earliest w (.rejectUdpEntry key code none)
  | finish : Entombs key code earliest w (.rejectFinish key code none none)
  | tombstone {expiresAt : Nat} (expires : earliest ≤ expiresAt) :
      Entombs key code earliest w (.rejectTombstone key code expiresAt)

section Reject

variable {cfg : Config} {choice : Choice} {w : World} {f : Frame} {r : Effect} {key : FlowKey}
  {code : FlowErrorCode} {earliest : Nat}

/-- A setup that cannot be reported anywhere ends in a tombstone. -/
theorem Entombs.next (h : Entombs key code earliest w f)
    (hearliest : earliest ≤ w.now + cfg.timeout)
    (hexit : ¬ ∃ expiresAt, f = .rejectTombstone key code expiresAt)
    (hexec : exec cfg choice w f = some r) :
    ∃ top g, r.frames = top ++ [g] ∧ Entombs key code earliest r.world g := by
  cases h with
  | udpEntry nowhere =>
    cases hexec
    have hnone : ((w.pending .udp).lookup key).bind Pending.downlink = none := by
      cases hp : (w.pending .udp).lookup key with
      | none => rfl
      | some p => exact nowhere p hp
    refine ⟨_, _, rfl, ?_⟩
    rw [hnone]
    exact .finish
  | finish =>
    cases hexec
    refine ⟨[], .rejectTombstone key code (w.now + cfg.timeout), ?_, .tombstone hearliest⟩
    simp [rejectFinishStep]
  | @tombstone expiresAt _ => exact absurd ⟨expiresAt, rfl⟩ hexit

/-- Another task cannot bring a downlink meanwhile. -/
theorem Entombs.other {g : Frame} {others : Multiset Frame} (h : Entombs key code earliest w f)
    (hf : f ∈ others) (hex : (portal cfg).Exclusive (g ::ₘ others))
    (hexec : exec cfg choice w g = some r) : Entombs key code earliest r.world f := by
  cases h with
  | udpEntry nowhere =>
    refine .udpEntry (nowhere.exec ?_ hexec)
    rintro c active rfl hvia
    exact hex.absurd (l := .udp) hf (by simp [portal, Frame.holds, hvia, pendingLock])
      (by simp [portal, Frame.holds])
  | finish => exact .finish
  | tombstone expires => exact .tombstone expires

/-- `reject_flow_setup` with neither an active claim nor a downlink inserts a tombstone before
it ends. -/
theorem rejection_entombs {p₀ p₁ q : Pool} {i : Nat} {rest : List Frame}
    (reachable : (portal cfg).Reachable initial p₀)
    (rejects : (portal cfg).Runs i (.rejectClaims key code) rest p₀ p₁)
    (inactive : (p₀.world.claims.map.lookup key).any FlowClaim.active = false)
    (nowhere : ∀ kind, NoDownlink p₀.world kind key) (h : (portal cfg).Reachable p₁ q) :
    (∃ f, q.Rests i f rest ∧ Entombs key code (p₀.world.now + cfg.timeout) q.world f) ∨
      ∃ p₂ p₃ expiresAt, (portal cfg).Reachable p₁ p₂ ∧
        (portal cfg).Runs i (.rejectTombstone key code expiresAt) rest p₂ p₃ ∧
        p₀.world.now + cfg.timeout ≤ expiresAt ∧ (portal cfg).Reachable p₃ q := by
  obtain ⟨choice, r, hexec, hworld, htask⟩ := rejects.exec
  have hpending : r.world.pending .udp = p₀.world.pending .udp := by
    cases hexec
    simp [rejectClaimsStep, inactive, rejectEntry]
  have hframes : ∃ top, r.frames = top ++ [.rejectUdpEntry key code none] := by
    have hnone : ((p₀.world.pending .tcp).lookup key).bind Pending.downlink = none := by
      cases hp : (p₀.world.pending .tcp).lookup key with
      | none => rfl
      | some p => exact nowhere .tcp p hp
    cases hexec
    refine ⟨dropGuard ((((p₀.world.pending .tcp).lookup key).bind Pending.uplink).bind
      Uplink.guard), ?_⟩
    simp [rejectClaimsStep, inactive, rejectEntry, hnone]
  obtain ⟨top, htop⟩ := hframes
  have hrests : p₁.Rests i (.rejectUdpEntry key code none) rest := by
    refine ⟨top, ?_⟩
    rw [htask, htop, List.append_assoc]
    rfl
  have hentry : Entombs key code (p₀.world.now + cfg.timeout) p₁.world
      (.rejectUdpEntry key code none) := by
    refine .udpEntry ?_
    intro p hp
    rw [hworld, hpending] at hp
    exact nowhere .udp p hp
  have hnow := now_le rejects.reachable
  have hfollows := h.follows (Entombs key code (p₀.world.now + cfg.timeout))
    (fun f => ∃ expiresAt, f = .rejectTombstone key code expiresAt) ?_ ?_ ?_ hrests hentry
  · rcases hfollows with hentombs | ⟨p₂, p₃, f, hbefore, ⟨expiresAt, rfl⟩, hf, _, hruns, hafter⟩
    · exact .inl hentombs
    · cases hf with
      | tombstone expires => exact .inr ⟨p₂, p₃, expiresAt, hbefore, hruns, expires, hafter⟩
  · intro p b f _ hf
    cases hf with
    | udpEntry nowhere =>
      refine .udpEntry ?_
      intro entry hentry
      rw [(boot_undisturbed cfg b p.world).pending] at hentry
      exact nowhere entry hentry
    | finish => exact .finish
    | tombstone expires => exact .tombstone expires
  · intro p choice g others r f hp hbag hmem hf _ hexec
    have hreach := (reachable.trans rejects.reachable).trans hp
    exact hf.other hmem (hbag ▸ exclusive hreach) hexec
  · intro p choice f r hp hf hexit _ hexec
    exact hf.next (Nat.add_le_add_right (hnow.trans (now_le hp)) _) hexit hexec

end Reject

/-! ## The whole life of a tombstone -/

/-- A tombstone is younger than everything that stands when it is inserted. -/
theorem entombed {i : Nat} {code : FlowErrorCode} {expiresAt : Nat} {rest : List Frame}
    (h : Expiring cfg p.world p.bag)
    (hruns : (portal cfg).Runs i (.rejectTombstone key code expiresAt) rest p q)
    (hdistinct : ∀ k r, k ≠ key → q.world.rejections.lookup k = some r → r.expiresAt ≠ expiresAt) :
    Standing key ⟨code, expiresAt⟩ others q.world.rejections := by
  obtain ⟨choice, r, hexec, hworld, _⟩ := hruns.exec
  change exec cfg choice p.world (.rejectTombstone key code expiresAt) = some r at hexec
  have hmem : .rejectTombstone key code expiresAt ∈ p.bag := by
    rw [Tasks.Pool.bag_of_top hruns.1]
    exact Multiset.mem_cons_self _ _
  constructor
  · rw [hworld]
    cases choice with
    | pick n =>
      cases hexec
      exact lookup_insertRejection_self
    | _ => cases hexec
  · intro k s hk hfound hyoung
    have hne := hdistinct k s hk hfound
    rw [hworld] at hfound
    rcases tombstone_from hexec hfound with hold | hnew
    · have hle := (h.coming _ _ _ hmem).2 k s hold
      exact absurd (Nat.le_antisymm hle hyoung) hne
    · cases hnew
      exact absurd rfl hk

/-- How the call `c` of task `j` comes out of a lookup that found the tombstone `rej` of its key
and led to the pool `p`. -/
structure Answered (cfg : Config) (rej : TerminalRejection) (j : Nat) (c : Submission)
    (p : Pool) : Prop where
  kept : p.world.rejections.lookup c.key = if c.header.role = .opening then some rej else none
  fails : ∀ q, (portal cfg).Reachable p q → ∃ n s,
    (portal cfg).run q (List.replicate n (.run j .go)) = some s ∧
      Failed c (terminalError rej.code) s.world
  spent : c.header.role ≠ .opening → ∀ q,
    (portal cfg).Reach (fun _ _ f => ∀ code e, f ≠ .rejectTombstone c.key code e) p q →
    ∀ k (c' : Submission) f tail s, c'.key = c.key → c'.LooksUp f → (portal cfg).Runs k f tail q s →
      s.tasks[k]? = some (f.admitted ++ tail)

theorem Submission.LooksUp.answered {j : Nat} {c : Submission} {tail : List Frame} (h : c.LooksUp f)
    (hshape : c.shapeValid = true) (hfound : p.world.rejections.lookup c.key = some rej)
    (hlive : p.world.now < rej.expiresAt) (hruns : (portal cfg).Runs j f tail p q) :
    Answered cfg rej j c q := by
  obtain ⟨choice, r, hexec, hworld, htask⟩ := hruns.exec
  obtain ⟨hkept, top, below, hframes, hlight, htells⟩ := h.found hshape hfound hlive hexec
  rw [← hworld] at hkept
  refine ⟨hkept, ?_, ?_⟩
  · intro s hs
    have hrefusing : Refusing c (terminalError rej.code) j (below ++ tail) q := by
      refine .failing ?_ hlight fun d hd => .inl (htells d hd)
      rw [htask, hframes, List.append_assoc]
      rfl
    exact (hrefusing.reach hs).finishes
  · intro hrole s hs k c' f' tail' s' hkey hlooks hruns'
    rw [if_neg hrole] at hkept
    obtain ⟨_, r', hexec', _, htask'⟩ := hruns'.exec
    have hmissing := missing_reach hkept hs
    rw [← hkey] at hmissing
    rw [htask', hlooks.missing hmissing hexec']

/-- What holds in a pool `p` in which the tombstone `rej` of `key` has been left in peace. -/
structure Delivers (cfg : Config) (key : FlowKey) (rej : TerminalRejection)
    (others : Finset FlowKey) (p : Pool) : Prop where
  standing : p.world.rejections.lookup key = some rej
  answers : ∀ j (c : Submission) f tail q, c.key = key → c.shapeValid = true →
    c.LooksUp f → (portal cfg).Runs j f tail p q → p.world.now < rej.expiresAt →
      Answered cfg rej j c q
  reaches : ∀ j (c : Submission) tail, c.key = key → c.validateHeader = .ok () →
    c.shapeValid = true → p.tasks[j]? = some (.submit c :: tail) → ∀ q, (portal cfg).Reach
      (fun _ w f => Quiet key rej.expiresAt others w f ∧ c.StaysCurrent w f) p q →
    (∃ f, q.Rests j f tail ∧ c.Asks f) ∨ ∃ p₁ p₂ f, (portal cfg).Reachable p p₁ ∧ c.LooksUp f ∧
      (portal cfg).Runs j f tail p₁ p₂ ∧ Answered cfg rej j c p₂ ∧ (portal cfg).Reachable p₂ q

theorem Standing.delivers (h : Standing key rej others p.world.rejections)
    (hcard : others.card < cfg.maxPending) : Delivers cfg key rej others p where
  standing := h.found
  answers := by
    rintro j c f tail q rfl hshape hlooks hruns hlive
    exact hlooks.answered hshape h.found hlive hruns
  reaches := by
    rintro j c tail rfl hheader hshape hj q hq
    rcases Submission.asks_or_looksUp hheader hshape (fun _ _ _ hcond => hcond.2) hj hq with
      hasks | ⟨p₁, p₂, f, hbefore, hlooks, ⟨_, hcond⟩, hruns, hafter⟩
    · exact .inl hasks
    · have hstill := h.reach hcard (hbefore.mono fun _ _ _ hcond => hcond.1)
      have hanswered := hlooks.answered hshape hstill.found hcond.1.unexpired hruns
      exact .inr ⟨p₁, p₂, f, hbefore.reachable, hlooks, hruns, hanswered, hafter.reachable⟩

/-- **Tombstones.** `reject_flow_setup` for a key without an active claim and without a pending
downlink inserts a tombstone with its code before it ends. From then on, as long as the
tombstone is left in peace, every well-formed submission of the key looks for it before anything
else, and fails with its code; an ATTACH or a DUPLEX takes it with it. -/
theorem tombstone_delivers {cfg : Config} {p₀ p₁ : Pool} {i : Nat} {key : FlowKey}
    {code : FlowErrorCode} {rest : List Frame} (reachable : (portal cfg).Reachable initial p₀)
    (rejects : (portal cfg).Runs i (.rejectClaims key code) rest p₀ p₁)
    (inactive : (p₀.world.claims.map.lookup key).any FlowClaim.active = false)
    (nowhere : ∀ kind, NoDownlink p₀.world kind key) :
    (∀ q, (portal cfg).Reachable p₁ q →
      (∃ f, q.Rests i f rest ∧ Entombs key code (p₀.world.now + cfg.timeout) q.world f) ∨
        ∃ p₂ p₃ expiresAt, (portal cfg).Reachable p₁ p₂ ∧
          (portal cfg).Runs i (.rejectTombstone key code expiresAt) rest p₂ p₃ ∧
          p₀.world.now + cfg.timeout ≤ expiresAt ∧ (portal cfg).Reachable p₃ q) ∧
    ∀ p₂ p₃ expiresAt others, (portal cfg).Reachable p₁ p₂ →
      (portal cfg).Runs i (.rejectTombstone key code expiresAt) rest p₂ p₃ →
      (∀ k r, k ≠ key → p₃.world.rejections.lookup k = some r → r.expiresAt ≠ expiresAt) →
      others.card < cfg.maxPending → ∀ q,
        (portal cfg).Reach (fun _ w f => Quiet key expiresAt others w f) p₃ q →
        Delivers cfg key ⟨code, expiresAt⟩ others q := by
  refine ⟨fun q hq => rejection_entombs reachable rejects inactive nowhere hq, ?_⟩
  intro p₂ p₃ expiresAt others hp₂ hruns hdistinct hcard q hq
  have hexpiring := expiring ((reachable.trans rejects.reachable).trans hp₂)
  have hstanding : Standing key ⟨code, expiresAt⟩ others p₃.world.rejections :=
    entombed hexpiring hruns hdistinct
  exact (hstanding.reach hcard hq).delivers hcard

end

namespace Sample

/-- `Quiet` without new tombstones, computed. -/
def quiet (key : FlowKey) (expiresAt : Nat) (w : World) (f : Frame) : Bool :=
  decide (w.now < expiresAt) && decide (f.consumes ≠ some key) && match f with
    | .drainRejections | .rejectTombstone .. => false
    | _ => true

theorem quiet_spec {key : FlowKey} {expiresAt : Nat} {w : World} {f : Frame}
    (h : quiet key expiresAt w f = true) : Quiet key expiresAt ∅ w f := by
  simp only [quiet, Bool.and_eq_true, decide_eq_true_eq] at h
  obtain ⟨⟨hnow, hconsumes⟩, hother⟩ := h
  refine ⟨hnow, ?_, hconsumes, ?_⟩
  · rintro rfl
    cases hother
  · rintro k code e rfl
    cases hother

/-- A malformed OPEN is refused before its ATTACH arrives. -/
def refused : List (Tasks.Act Choice Start) :=
  [.boot (.refuse key .invalidRequest), .run 0 .go, .run 0 .go]

/-- A second OPEN is turned away, then the ATTACH comes as far as its lookup. -/
def lateAttach : List (Tasks.Act Choice Start) :=
  registerQuic 1 ++ lane 2 openTcp (some target) 5 ++ stream 3 attachTcp 3

/-- Task 3 is an ATTACH that looks for the tombstone. -/
def attachLooksUp : Pool → Bool :=
  (portal config).runsAnd 3 .go fun f _ _ => match f with
    | .installTombstone c _ =>
      decide (c.key = key ∧ c.header.role = .attach) && c.shapeValid && !c.looksEarly
    | _ => false

variable {p : Pool}

theorem attachLooksUp_spec (h : attachLooksUp p = true) :
    ∃ (c : Submission) (f : Frame) (tail : List Frame) (q : Pool), c.key = key ∧
      c.header.role = .attach ∧ c.shapeValid = true ∧ c.LooksUp f ∧
      (portal config).Runs 3 f tail p q := by
  obtain ⟨f, tail, q, hruns, hf⟩ := Tasks.System.Runs.of_runsAnd h
  split at hf
  · rename_i c active
    simp only [Bool.and_eq_true, decide_eq_true_eq, Bool.not_eq_true'] at hf
    obtain ⟨⟨⟨hkey, hrole⟩, hshape⟩, hplace⟩ := hf
    exact ⟨c, _, tail, q, hkey, hrole, hshape, .installing hplace active, hruns⟩
  · cases hf

/-- Task 0 inserts the only tombstone, and the ATTACH comes. -/
def entombsAlone : Pool → Bool :=
  (portal config).runsAnd 0 (.pick 0) fun f tail p => (match f, tail with
    | .rejectTombstone k code e, [] => decide (k = key ∧ code = .invalidRequest ∧ e = 15)
    | _, _ => false) &&
    p.world.rejections.entries.all (fun entry => decide (entry.1 = key)) &&
    (portal config).obeys (fun _ => quiet key 15) p lateAttach &&
    ((portal config).run p lateAttach).any fun q => decide (q.world.now < 15) && attachLooksUp q

theorem entombsAlone_spec (h : entombsAlone p = true) :
    ∃ p' q, (portal config).Runs 0 (.rejectTombstone key .invalidRequest 15) [] p p' ∧
      (∀ k r, k ≠ key → p'.world.rejections.lookup k = some r → r.expiresAt ≠ 15) ∧
      (portal config).Reach (fun _ w f => Quiet key 15 ∅ w f) p' q ∧ q.world.now < 15 ∧
      attachLooksUp q = true := by
  obtain ⟨f, tail, p', hruns, hchecks⟩ := Tasks.System.Runs.of_runsAnd h
  simp only [Bool.and_eq_true] at hchecks
  obtain ⟨⟨⟨hf, halone⟩, hobeys⟩, hrun⟩ := hchecks
  obtain ⟨q, hquiet, hq⟩ := Tasks.System.exists_reach_of_run
    (.of_obeys (fun _ => quiet key 15) (fun _ _ _ => quiet_spec) hobeys) hrun
  simp only [Bool.and_eq_true, decide_eq_true_eq] at hq
  split at hf
  · obtain ⟨rfl, rfl, rfl⟩ := of_decide_eq_true hf
    refine ⟨p', q, hruns, ?_, hquiet, hq.1, hq.2⟩
    intro k r hk hfound
    have hentry := List.all_eq_true.mp halone _ (mem_entries.mpr hfound)
    exact absurd (of_decide_eq_true hentry) hk
  · cases hf

/-- Task 0 rejects a setup nobody waits for. -/
def rejectsEarly (p : Pool) : Bool :=
  (p.world.claims.map.lookup key).isNone && ((p.world.pending .tcp).lookup key).isNone &&
    ((p.world.pending .udp).lookup key).isNone &&
    (portal config).runsAnd 0 .go (fun f tail q => (match f, tail with
      | .rejectClaims k code, [] => decide (k = key ∧ code = .invalidRequest)
      | _, _ => false) &&
      ((portal config).run q [.run 0 .go, .run 0 .go]).any entombsAlone) p

/-- The ATTACH that comes after the refusal learns its code, and takes the tombstone with it. -/
theorem lateAttach_answered :
    ∃ (p₀ p₁ p₂ p₃ q q' : Pool) (c : Submission), (portal config).Reachable initial p₀ ∧
      (portal config).Runs 0 (.rejectClaims key .invalidRequest) [] p₀ p₁ ∧
      (portal config).Reachable p₁ p₂ ∧
      (portal config).Runs 0 (.rejectTombstone key .invalidRequest 15) [] p₂ p₃ ∧
      (portal config).Reach (fun _ w f => Quiet key 15 ∅ w f) p₃ q ∧
      (portal config).Reachable q q' ∧ c.header.role = .attach ∧
      Answered config ⟨.invalidRequest, 15⟩ 3 c q' := by
  obtain ⟨p₀, hp₀, hrejects⟩ := Tasks.System.exists_reachable_of_run (S := portal config)
    (show ((portal config).run initial refused).any rejectsEarly = true by decide +kernel)
  simp only [rejectsEarly, Bool.and_eq_true, Option.isNone_iff_eq_none] at hrejects
  obtain ⟨⟨⟨hclaim, htcp⟩, hudp⟩, hruns⟩ := hrejects
  obtain ⟨f, tail, p₁, hruns, hchecks⟩ := Tasks.System.Runs.of_runsAnd hruns
  rw [Bool.and_eq_true] at hchecks
  obtain ⟨hf, hrun⟩ := hchecks
  split at hf
  · obtain ⟨rfl, rfl⟩ := of_decide_eq_true hf
    obtain ⟨p₂, hp₂, hentombs⟩ := Tasks.System.exists_reachable_of_run hrun
    obtain ⟨p₃, q, hinserts, hdistinct, hquiet, hnow, hlooks⟩ := entombsAlone_spec hentombs
    obtain ⟨c, f, tail, q', hkey, hrole, hshape, hlooksUp, hlookup⟩ := attachLooksUp_spec hlooks
    have hnowhere (kind : FlowKind) : NoDownlink p₀.world kind key := by
      intro p hp
      cases kind with
      | tcp =>
        rw [htcp] at hp
        cases hp
      | udp =>
        rw [hudp] at hp
        cases hp
    have hdelivers := (tombstone_delivers hp₀ hruns (by rw [hclaim]; rfl) hnowhere).2 p₂ p₃ 15 ∅
      hp₂ hinserts hdistinct (by decide) q hquiet
    exact ⟨p₀, p₁, p₂, p₃, q, q', c, hp₀, hruns, hp₂, hinserts, hquiet, hlookup.reachable, hrole,
      hdelivers.answers 3 c f tail q' hkey hshape hlooksUp hlookup hnow⟩
  · cases hf

end Sample

end Nowhere.Portal
