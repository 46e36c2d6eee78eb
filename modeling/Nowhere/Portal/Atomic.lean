import Nowhere.Lib.Alone
import Nowhere.Portal.SelfLock

/-!
# Sequences of atomic operations

The public operations of the registry, each run from its first critical section to its return
before the next one begins. An operation is the same stack of frames as in
`Nowhere.Portal.Frames`, run alone (`Performs`); it has no outcome when it blocks on a lock of its
own. `Run` is a sequence of operations with the registry after each of them.

Every sequence exists for both kinds of flow: submissions are given in their TCP form, and `asUdp`
is the same flow with kind UDP, with the halves that the ingress handlers build for that kind.
-/

namespace Nowhere.Portal

open Protocol Assoc

/-! ## One flow, two kinds -/

/-- The carrier of the lane. -/
def LinkHalf.carrier (link : LinkHalf) : Carrier :=
  if link.quicGeneration.isSome then .quic else .tlsTcp

/-- The half of a UDP flow on the same stream. -/
def Uplink.asUdp (carrier : Carrier) : Uplink → Uplink
  | .tcp r => match carrier with
    | .tlsTcp => .udp (.tlsTcp r)
    | .quic => .udp (.quic r.source)
  | .udp up => .udp up

def Downlink.asUdp (carrier : Carrier) (liveness : Option Reader) : Downlink → Downlink
  | .tcp w => match carrier with
    | .tlsTcp => .udp (.tlsTcp w liveness)
    | .quic => .udp (.quic w)
  | .udp down => .udp down

def Metadata.asUdp (m : Metadata) : Metadata := { m with kind := .udp }

namespace Submission

def asUdp (c : Submission) : Submission :=
  { c with
    via := .udp
    header := { c.header with kind := .udp }
    uplink := c.uplink.map (.asUdp c.link.carrier)
    downlink := c.downlink.map (.asUdp c.link.carrier c.liveness)
    liveness := none }

/-- The submission with its flow of the given kind. -/
def ofKind (kind : FlowKind) (c : Submission) : Submission :=
  match kind with
  | .tcp => c
  | .udp => c.asUdp

end Submission

/-- A lane builds the halves of `asUdp` when the flow it opens has kind UDP. -/
theorem asUdp_newSubmission_tls (w : World) (s : SessionId) (g : LinkGuard) (header : FlowHeader)
    (target : Option Target) (path : LinkPath) :
    (w.newSubmission s header target ⟨path, none⟩
        (tlsHalves w.nextSubmission g .tcp header.role)).asUdp =
      w.newSubmission s { header with kind := .udp } target ⟨path, none⟩
        (tlsHalves w.nextSubmission g .udp header.role) := by
  obtain ⟨role, flowId, kind, uplink, downlink⟩ := header
  cases role <;> rfl

/-- So does a stream of a QUIC connection. -/
theorem asUdp_newSubmission_quic (w : World) (s : SessionId) (generation : Nat)
    (header : FlowHeader) (target : Option Target) (path : LinkPath) :
    (w.newSubmission s header target ⟨path, some generation⟩
        (quicHalves w.nextSubmission .tcp header.role)).asUdp =
      w.newSubmission s { header with kind := .udp } target ⟨path, some generation⟩
        (quicHalves w.nextSubmission .udp header.role) := by
  obtain ⟨role, flowId, kind, uplink, downlink⟩ := header
  cases role <;> rfl

/-- A TCP submission as the ingress handlers build it, with TCP halves. -/
structure Submission.BuiltTcp (c : Submission) : Prop extends c.Built where
  kind : c.via = .tcp
  reader : ∀ u, c.uplink = some u → ∃ r, u = .tcp r
  writer : ∀ d, c.downlink = some d → ∃ w, d = .tcp w

/-! ## Operations -/

/-- What a call leaves open: in which order a hash map is visited, and whether a guard is dropped
inside the runtime. -/
structure Ties where
  pick : Frame → Nat
  runtime : Bool

def Ties.choice (ties : Ties) (f : Frame) : Choice :=
  match f with
  | .rejectTombstone .. | .purgeKeys .. => .pick (ties.pick f)
  | .cancelGeneration .. => .runtime ties.runtime
  | _ => .go

inductive Op
  | registerTcp (s : SessionId)
  | registerQuic (s : SessionId)
  | dropLink (g : LinkGuard)
  -- the task that the drop of a QUIC guard leaves behind
  | purge (s : SessionId) (generation : Nat)
  | submit (c : Submission)
  | timeout (key : FlowKey) (epoch : Nat)
  | reject (key : FlowKey) (code : FlowErrorCode)
  | dropLease (lease : FlowLease)
  | wait (elapsed : Nat)

/-- The registry and the stack with which an operation on flows of the given kind begins. The
lease of a TCP flow owns no permit. -/
def Op.begin (kind : FlowKind) (w : World) : Op → World × List Frame
  | .registerTcp s => (w, [.registerTcp s])
  | .registerQuic s => (w, [.registerQuic s])
  | .dropLink g => (w, [.linkGuardDrop g])
  | .purge s generation => (w, [.purgeTcp s generation .guardDrop])
  | .submit c => (w, [.submit (c.ofKind kind)])
  | .timeout key epoch => (w, [.timeout kind key epoch 0])
  | .reject key code => (w, [.rejectTcp key code])
  | .dropLease lease => (w, [.leaseDrop (match kind with
      | .tcp => { lease with udpPermit := none }
      | .udp => lease)])
  | .wait elapsed => ({ w with now := w.now + elapsed }, [])

/-- An operation together with what it leaves open. -/
structure Atomic where
  op : Op
  ties : Ties

/-- The call is over; a registration has returned the guard of its carrier. -/
def returned : List Frame → Bool
  | [] | [.lane _] | [.conn _] => true
  | _ => false

/-- The operation, run alone, returns and leaves the registry `w'`. -/
def Performs (cfg : Config) (kind : FlowKind) (a : Atomic) (w w' : World) : Prop :=
  ∃ left, (w', left) ∈ StateTransition.eval ((portal cfg).alone a.ties.choice) (a.op.begin kind w) ∧
    returned left = true

variable {cfg : Config} {kind : FlowKind} {w : World}

theorem Performs.unique {a : Atomic} {w₁ w₂ : World} (h₁ : Performs cfg kind a w w₁)
    (h₂ : Performs cfg kind a w w₂) : w₁ = w₂ := by
  obtain ⟨left₁, hend₁, _⟩ := h₁
  obtain ⟨left₂, hend₂, _⟩ := h₂
  cases Part.mem_unique hend₁ hend₂
  rfl

/-- A sequence of operations, with the registry after each of them. -/
inductive Run (cfg : Config) (kind : FlowKind) : World → List Atomic → List World → Prop
  | nil (w : World) : Run cfg kind w [] []
  | cons {w w' : World} {a : Atomic} {as : List Atomic} {ws : List World}
      (first : Performs cfg kind a w w') (rest : Run cfg kind w' as ws) :
      Run cfg kind w (a :: as) (w' :: ws)

/-- A sequence has one run for each kind. -/
theorem Run.unique {as : List Atomic} {ws₁ ws₂ : List World} (h₁ : Run cfg kind w as ws₁)
    (h₂ : Run cfg kind w as ws₂) :
    ws₁ = ws₂ := by
  induction h₁ generalizing ws₂ with
  | nil w =>
    cases h₂
    rfl
  | cons first _ ih =>
    cases h₂ with
    | cons first' rest' =>
      cases first.unique first'
      rw [ih rest']

/-- An atomic operation is a schedule of the registry's tasks: it can be carried out in any pool
whose other tasks hold no lock. -/
theorem Performs.schedule {cfg : Config} {kind : FlowKind} {a : Atomic} {w w' : World}
    (h : Performs cfg kind a w w') {tasks : List (List Frame)}
    (hidle : ∀ t ∈ tasks, ∀ f ∈ t, f.holds = []) :
    ∃ schedule left spawned, returned left = true ∧
      (portal cfg).run ⟨(a.op.begin kind w).1, tasks ++ [(a.op.begin kind w).2]⟩ schedule =
        some ⟨w', tasks ++ left :: spawned⟩ := by
  obtain ⟨left, hend, hleft⟩ := h
  obtain ⟨hreach, _⟩ := StateTransition.mem_eval.mp hend
  have hothers : ∀ j t, j ≠ tasks.length → (tasks ++ [[]])[j]? = some t →
      ∀ f ∈ t, (portal cfg).holds f = [] := by
    intro j t hj hjt f hf
    rcases Nat.lt_or_ge j tasks.length with hlt | hge
    · rw [List.getElem?_append_left hlt] at hjt
      exact hidle t (List.mem_of_getElem? hjt) f hf
    · rw [List.getElem?_append_right hge, List.getElem?_eq_none (by simp; omega)] at hjt
      cases hjt
  obtain ⟨schedule, spawned, hrun⟩ :=
    Tasks.System.run_of_reaches (disciplined cfg).spawned hreach (by simp) hothers
  refine ⟨schedule, left, spawned, hleft, ?_⟩
  simpa using hrun

end Nowhere.Portal
