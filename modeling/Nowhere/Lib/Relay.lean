import Mathlib.Data.List.Basic

/-!
# Copying between pipes

A pipe keeps what its reader has taken and what is still on its way; together they are what was
written (`Pipe.written`). A copy loop reads a piece, waits for its turn, writes the piece in as
many parts as the other side accepts, and passes the end of its source on. Every `await` of the
loop is a `Leg`, and how it ends is chosen by the environment (`Answer`): reads return pieces of
any size, writes are short, and both may fail.

`Hop.Kept` is what a loop can be relied on for: what it took from its source it has written or
still holds, in order; and it comes to its end only at the end of the source. A relay runs two
loops, waits for the first to end and lets the other drain (`Exchange`, `Phase`).
-/

namespace Relay

variable {α ε : Type}

/-! ## Pipes -/

/-- How the writing side of a pipe was given up. -/
inductive Closing
  | shutdown
  | dropped
  deriving DecidableEq, Repr

structure Pipe (α : Type) where
  taken : List α
  queue : List α
  closed : Option Closing

namespace Pipe

def empty : Pipe α := ⟨[], [], none⟩

def written (p : Pipe α) : List α := p.taken ++ p.queue

def take (p : Pipe α) (n : Nat) : Pipe α :=
  { p with taken := p.taken ++ p.queue.take n, queue := p.queue.drop n }

def push (p : Pipe α) (items : List α) : Pipe α := { p with queue := p.queue ++ items }

/-- A pipe that is closed already stays as it is. -/
def close (p : Pipe α) (c : Closing) : Pipe α := { p with closed := p.closed.or (some c) }

/-- Everything was taken, and nothing more will come. -/
def AtEnd (p : Pipe α) : Prop := p.queue = [] ∧ p.closed ≠ none

instance (p : Pipe α) : Decidable p.AtEnd :=
  inferInstanceAs (Decidable (p.queue = [] ∧ p.closed ≠ none))

/-- A read for at most `capacity` items may return `n` of them. It returns none at the end of the
pipe, and if none were asked for. -/
def Readable (p : Pipe α) (capacity n : Nat) : Prop :=
  n ≤ capacity ∧ n ≤ p.queue.length ∧ (n = 0 → capacity = 0 ∨ p.AtEnd)

instance (p : Pipe α) (capacity n : Nat) : Decidable (p.Readable capacity n) :=
  inferInstanceAs (Decidable (n ≤ capacity ∧ n ≤ p.queue.length ∧ (n = 0 → capacity = 0 ∨ p.AtEnd)))

@[simp]
theorem written_take (p : Pipe α) (n : Nat) : (p.take n).written = p.written := by
  simp [written, take, List.append_assoc]

@[simp]
theorem written_push (p : Pipe α) (items : List α) :
    (p.push items).written = p.written ++ items := by
  simp [written, push]

variable {p : Pipe α}

theorem closed_close_of_open (h : p.closed = none) (c : Closing) :
    (p.close c).closed = some c := by
  rw [close, h]
  rfl

theorem closed_close_of_closed {c : Closing} (h : p.closed = some c) (d : Closing) :
    (p.close d).closed = some c := by
  rw [close, h]
  rfl

theorem closed_close_ne_none (p : Pipe α) (c : Closing) : (p.close c).closed ≠ none := by
  cases h : p.closed with
  | none => simp [closed_close_of_open h]
  | some d => simp [closed_close_of_closed h]

/-- A pipe that is dropped is not shut down by that. -/
theorem closed_close_dropped (h : p.closed ≠ some .shutdown) :
    (p.close .dropped).closed ≠ some .shutdown := by
  cases hc : p.closed with
  | none => simp [closed_close_of_open hc]
  | some c => rwa [closed_close_of_closed hc, ← hc]

theorem taken_isPrefix (p : Pipe α) : p.taken <+: p.written := List.prefix_append _ _

theorem AtEnd.close (h : p.AtEnd) (c : Closing) : (p.close c).AtEnd :=
  ⟨h.1, p.closed_close_ne_none c⟩

theorem AtEnd.taken (h : p.AtEnd) : p.taken = p.written := by
  rw [written, h.1, List.append_nil]

end Pipe

/-! ## The copy loop -/

/-- What distinguishes one copy loop from another: the size of its buffer, whether it waits for a
rate limiter, whether it counts a piece when it was read or when it was written, and whether it
flushes. -/
structure Loop where
  capacity : Nat
  limited : Bool
  countsReads : Bool
  flushes : Bool

/-- Where the loop waits. `writing` keeps the piece and what of it has not been accepted. -/
inductive Leg (α ε : Type)
  | reading
  | waiting (piece : List α)
  | writing (piece rest : List α)
  | flushing (piece : List α)
  | closing
  | ended (result : Except ε Unit)
  deriving DecidableEq

/-- How the awaited operation ends. -/
inductive Answer (ε : Type)
  | read (n : Nat)
  | waited
  | wrote (n : Nat)
  | flushed
  | closed
  | failed (e : ε)

/-- A running loop between its two pipes. -/
structure Hop (α ε : Type) where
  leg : Leg α ε
  counted : Nat
  source : Pipe α
  target : Pipe α

namespace Loop

/-- The piece was passed on. -/
def next (l : Loop) (piece : List α) (h : Hop α ε) : Hop α ε :=
  { h with leg := .reading, counted := h.counted + if l.countsReads then 0 else piece.length }

def step (l : Loop) (h : Hop α ε) (a : Answer ε) : Option (Hop α ε) :=
  match h.leg, a with
  | .reading, .read n =>
    if h.source.Readable l.capacity n then
      if n = 0 then some { h with leg := .closing }
      else
        let piece := h.source.queue.take n
        some { h with
          leg := if l.limited then .waiting piece else .writing piece piece
          counted := h.counted + if l.countsReads then n else 0
          source := h.source.take n }
    else none
  | .waiting piece, .waited => some { h with leg := .writing piece piece }
  | .writing piece rest, .wrote n =>
    if 0 < n ∧ n ≤ rest.length then
      if n < rest.length then
        some { h with
          leg := .writing piece (rest.drop n)
          target := h.target.push (rest.take n) }
      else if l.flushes then
        some { h with leg := .flushing piece, target := h.target.push rest }
      else some (l.next piece { h with target := h.target.push rest })
    else none
  | .flushing piece, .flushed => some (l.next piece h)
  | .closing, .closed =>
    some { h with leg := .ended (.ok ()), target := h.target.close .shutdown }
  | .waiting _, .failed _ | .ended _, .failed _ => none
  | _, .failed e => some { h with leg := .ended (.error e) }
  | _, _ => none

end Loop

namespace Leg

/-- `lost` was taken from the source and has not been written. After an error nobody knows it. -/
def Holds : Leg α ε → List α → Prop
  | .waiting piece, lost => lost = piece
  | .writing _ rest, lost => lost = rest
  | .ended (.error _), _ => True
  | _, lost => lost = []

/-- The loop has returned without an error. -/
def Ended : Leg α ε → Bool
  | .ended (.ok ()) => true
  | _ => false

variable {leg : Leg α ε}

theorem ended_eq_false (h : ∀ r, leg ≠ .ended r) : leg.Ended = false := by
  cases leg with
  | ended r => exact absurd rfl (h r)
  | _ => rfl

/-- The loop has no piece at hand. -/
def Idle : Leg α ε → Prop
  | .reading | .closing | .ended (.ok ()) => True
  | _ => False

theorem Idle.eq_nil (h : leg.Idle) {lost : List α} (hholds : leg.Holds lost) :
    lost = [] := by
  match leg, h, hholds with
  | .reading, _, hholds | .closing, _, hholds | .ended (.ok ()), _, hholds => exact hholds

/-- The loop has seen the end of its source. -/
def Finishing : Leg α ε → Prop
  | .closing | .ended (.ok ()) => True
  | _ => False

theorem Finishing.idle (h : leg.Finishing) : leg.Idle := by
  match leg, h with
  | .closing, _ | .ended (.ok ()), _ => trivial

theorem finishing_of_ended (h : leg.Ended = true) : leg.Finishing := by
  cases leg with
  | ended r =>
    cases r with
    | ok u => trivial
    | error e => cases h
  | _ => cases h

end Leg

namespace Loop

/-- A step of the loop, for every step there is. -/
inductive Moves (l : Loop) (h : Hop α ε) : Hop α ε → Prop
  | sourceEnds (leg : h.leg = .reading) (atEnd : l.capacity = 0 ∨ h.source.AtEnd) :
      Moves l h { h with leg := .closing }
  | takes {n : Nat} {leg : Leg α ε} (reading : h.leg = .reading) (pos : 0 < n)
      (fits : n ≤ l.capacity) (there : n ≤ h.source.queue.length)
      (next : leg = .waiting (h.source.queue.take n) ∨
        leg = .writing (h.source.queue.take n) (h.source.queue.take n)) :
      Moves l h { h with
        leg
        counted := h.counted + if l.countsReads then n else 0
        source := h.source.take n }
  | waits {piece : List α} (leg : h.leg = .waiting piece) :
      Moves l h { h with leg := .writing piece piece }
  | writesPart {piece rest : List α} {n : Nat} (leg : h.leg = .writing piece rest) :
      Moves l h
        { h with leg := .writing piece (rest.drop n), target := h.target.push (rest.take n) }
  | writesAll {piece rest : List α} (leg : h.leg = .writing piece rest) :
      Moves l h { h with leg := .flushing piece, target := h.target.push rest }
  | passesOn {piece rest : List α} (leg : h.leg = .writing piece rest) :
      Moves l h (l.next piece { h with target := h.target.push rest })
  | flushes {piece : List α} (leg : h.leg = .flushing piece) : Moves l h (l.next piece h)
  | closes (leg : h.leg = .closing) :
      Moves l h { h with leg := .ended (.ok ()), target := h.target.close .shutdown }
  | fails {e : ε} (running : ∀ r, h.leg ≠ .ended r) : Moves l h { h with leg := .ended (.error e) }

theorem moves_of_step {l : Loop} {h h' : Hop α ε} {a : Answer ε}
    (hs : l.step h a = some h') : l.Moves h h' := by
  unfold step at hs
  split at hs
  · rename_i n hleg
    split at hs
    · rename_i hread
      obtain ⟨hfits, hthere, hend⟩ := hread
      split at hs
      · rename_i hzero
        cases hs
        exact .sourceEnds hleg (hend hzero)
      · rename_i hpos
        cases hs
        refine .takes hleg (Nat.pos_of_ne_zero hpos) hfits hthere ?_
        cases l.limited
        · exact .inr rfl
        · exact .inl rfl
    · cases hs
  · rename_i hleg
    cases hs
    exact .waits hleg
  · rename_i piece rest n hleg
    split at hs
    · split at hs
      · cases hs
        exact .writesPart hleg
      · split at hs
        · cases hs
          exact .writesAll hleg
        · cases hs
          exact .passesOn hleg
    · cases hs
  · rename_i hleg
    cases hs
    exact .flushes hleg
  · rename_i hleg
    cases hs
    exact .closes hleg
  · cases hs
  · cases hs
  · rename_i hnone hended
    cases hs
    exact .fails fun r hr => hended r hr
  · cases hs

section Moves

variable {l : Loop} {h h' : Hop α ε}

/-- A loop that has ended takes no more steps. -/
theorem Moves.running (hmoves : l.Moves h h') (r : Except ε Unit) : h.leg ≠ .ended r := by
  intro hleg
  cases hmoves with
  | sourceEnds leg => cases leg.symm.trans hleg
  | takes reading => cases reading.symm.trans hleg
  | waits leg => cases leg.symm.trans hleg
  | writesPart leg => cases leg.symm.trans hleg
  | writesAll leg => cases leg.symm.trans hleg
  | passesOn leg => cases leg.symm.trans hleg
  | flushes leg => cases leg.symm.trans hleg
  | closes leg => cases leg.symm.trans hleg
  | fails running => exact running r hleg

/-- The loop reads its source and does nothing else with it. -/
theorem Moves.source (hmoves : l.Moves h h') :
    h'.source.written = h.source.written ∧ h'.source.closed = h.source.closed := by
  cases hmoves with
  | takes => exact ⟨h.source.written_take _, rfl⟩
  | _ => exact ⟨rfl, rfl⟩

/-- The loop does not read its target. -/
theorem Moves.target_taken (hmoves : l.Moves h h') : h'.target.taken = h.target.taken := by
  cases hmoves <;> rfl

end Moves

end Loop

/-! ## What a loop keeps -/

namespace Hop

/-- The loop began with `front` in its target and `back` taken from its source. -/
structure Kept (l : Loop) (front back : List α) (h : Hop α ε) : Prop where
  carries : ∃ passed lost, h.source.taken = back ++ (passed ++ lost) ∧
    h.target.written = front ++ passed ∧ h.leg.Holds lost
  ends : h.leg.Finishing → l.capacity = 0 ∨ h.source.AtEnd

section Kept

variable {l : Loop} {front back : List α} {h h' : Hop α ε}

theorem kept_start {source target : Pipe α} (hsource : source.taken = back)
    (htarget : target.written = front) :
    Kept l front back ⟨(.reading : Leg α ε), 0, source, target⟩ where
  carries := ⟨[], [], by simp [hsource, htarget, Leg.Holds]⟩
  ends := nofun

/-- The loop does not notice when its source grows or when its target is read. -/
theorem Kept.congr (hkept : Kept l front back h) (leg : h'.leg = h.leg)
    (taken : h'.source.taken = h.source.taken)
    (written : h'.target.written = h.target.written)
    (atEnd : h.source.AtEnd → h'.source.AtEnd) : Kept l front back h' where
  carries := by
    rw [leg, taken, written]
    exact hkept.carries
  ends hleg := (hkept.ends (leg ▸ hleg)).imp_right atEnd

/-- What was written is the front of what was taken. -/
theorem Kept.passed (hkept : Kept l front back h) :
    ∃ passed, h.target.written = front ++ passed ∧ back ++ passed <+: h.source.taken := by
  obtain ⟨passed, lost, htaken, hwritten, _⟩ := hkept.carries
  refine ⟨passed, hwritten, lost, ?_⟩
  rw [htaken, List.append_assoc]

theorem Kept.isPrefix (hkept : Kept l [] [] h) : h.target.written <+: h.source.taken := by
  obtain ⟨passed, hwritten, htaken⟩ := hkept.passed
  rw [hwritten]
  exact htaken

/-- A loop that has seen the end of its source has passed everything on. -/
theorem Kept.complete (hkept : Kept l front back h) (hleg : h.leg.Finishing)
    (hpos : 0 < l.capacity) :
    h.source.AtEnd ∧ ∃ passed, h.source.written = back ++ passed ∧
      h.target.written = front ++ passed := by
  have hend := (hkept.ends hleg).resolve_left (Nat.ne_of_gt hpos)
  obtain ⟨passed, lost, htaken, hwritten, hholds⟩ := hkept.carries
  have hlost := hleg.idle.eq_nil hholds
  rw [hlost, List.append_nil, hend.taken] at htaken
  exact ⟨hend, passed, htaken, hwritten⟩

theorem Kept.moves (hkept : Kept l front back h) (hmoves : l.Moves h h') :
    Kept l front back h' := by
  obtain ⟨⟨passed, lost, htaken, hwritten, hholds⟩, hends⟩ := hkept
  cases hmoves with
  | sourceEnds leg atEnd =>
    rw [leg] at hholds
    exact ⟨⟨passed, lost, htaken, hwritten, hholds⟩, fun _ => atEnd⟩
  | @takes n leg reading pos fits there next =>
    rw [reading] at hholds
    have hlost : lost = [] := hholds
    refine ⟨⟨passed, h.source.queue.take n, ?_, hwritten, ?_⟩, ?_⟩
    · rw [Pipe.take, htaken, hlost, List.append_nil, List.append_assoc]
    · rcases next with rfl | rfl <;> rfl
    · rcases next with rfl | rfl <;> exact nofun
  | @waits piece leg =>
    rw [leg] at hholds
    exact ⟨⟨passed, lost, htaken, hwritten, hholds⟩, nofun⟩
  | @writesPart piece rest n leg =>
    rw [leg] at hholds
    obtain rfl : lost = rest := hholds
    refine ⟨⟨passed ++ lost.take n, lost.drop n, ?_, ?_, rfl⟩, nofun⟩
    · rw [htaken, List.append_assoc passed, List.take_append_drop]
    · rw [Pipe.written_push, hwritten, List.append_assoc]
  | @writesAll piece rest leg =>
    rw [leg] at hholds
    obtain rfl : lost = rest := hholds
    exact ⟨⟨passed ++ lost, [], by simpa using htaken, by simp [hwritten], rfl⟩, nofun⟩
  | @passesOn piece rest leg =>
    rw [leg] at hholds
    obtain rfl : lost = rest := hholds
    exact ⟨⟨passed ++ lost, [], by simpa [Loop.next] using htaken,
      by simp [Loop.next, hwritten], rfl⟩, nofun⟩
  | @flushes piece leg =>
    rw [leg] at hholds
    exact ⟨⟨passed, lost, htaken, hwritten, hholds⟩, nofun⟩
  | closes leg =>
    rw [leg] at hends
    exact ⟨⟨passed, lost, htaken, hwritten, by rw [leg] at hholds; exact hholds⟩,
      fun _ => hends trivial⟩
  | fails running => exact ⟨⟨passed, lost, htaken, hwritten, trivial⟩, nofun⟩

end Kept

/-- As long as the loop runs, its target is open; a loop that ends in order has shut it down. -/
def Live (h : Hop α ε) : Prop :=
  h.target.closed = if h.leg.Ended then some .shutdown else none

/-- Only a loop that ended in order has shut its target down. -/
def Shuts (h : Hop α ε) : Prop := h.target.closed = some .shutdown ↔ h.leg.Ended = true

variable {h : Hop α ε} {l : Loop}

theorem Live.shuts (hlive : h.Live) : h.Shuts := by
  unfold Live at hlive
  unfold Shuts
  rw [hlive]
  cases h.leg.Ended <;> simp

/-- A loop that is still at work finds its target open. -/
theorem Live.open (hlive : h.Live) (hleg : h.leg.Ended = false) :
    h.target.closed = none := by
  rw [hlive, hleg]
  rfl

theorem Live.moves {h h' : Hop α ε} (hlive : h.Live) (hmoves : l.Moves h h') :
    h'.Live := by
  have hopen : ∀ leg, h.leg = leg → leg.Ended = false → h.target.closed = none := by
    rintro _ rfl hended
    exact hlive.open hended
  cases hmoves with
  | sourceEnds leg => exact hopen _ leg rfl
  | takes reading _ _ _ next =>
    rcases next with rfl | rfl <;> exact hopen _ reading rfl
  | waits leg => exact hopen _ leg rfl
  | writesPart leg => exact hopen _ leg rfl
  | writesAll leg => exact hopen _ leg rfl
  | passesOn leg => exact hopen _ leg rfl
  | flushes leg => exact hopen _ leg rfl
  | closes leg => exact Pipe.closed_close_of_open (hopen _ leg rfl) _
  | fails running => exact hopen _ rfl (Leg.ended_eq_false running)

/-- As long as the loop takes steps, there is more to come from it. -/
theorem Live.not_atEnd {h h' : Hop α ε} (hlive : h.Live) (hmoves : l.Moves h h') :
    ¬ h.target.AtEnd :=
  fun hend => hend.2 (hlive.open (Leg.ended_eq_false hmoves.running))

/-- When the relay is given up, its target is closed, if it is not yet. -/
theorem Shuts.dropped (hshuts : h.Shuts) :
    Shuts { h with target := h.target.close .dropped } := by
  unfold Shuts at hshuts ⊢
  cases hclosed : h.target.closed with
  | none =>
    rw [hclosed] at hshuts
    rw [Pipe.closed_close_of_open hclosed, ← hshuts]
    simp
  | some c =>
    rw [hclosed] at hshuts
    rw [Pipe.closed_close_of_closed hclosed]
    exact hshuts

end Hop

/-! ## Both directions -/

inductive Side
  | up
  | down
  deriving DecidableEq, Repr

def Side.other : Side → Side
  | .up => .down
  | .down => .up

/-- One direction of a relay, without its pipes. -/
structure Copy (α ε : Type) where
  leg : Leg α ε
  counted : Nat

def Copy.start : Copy α ε := ⟨.reading, 0⟩

def Copy.between (x : Copy α ε) (source target : Pipe α) : Hop α ε :=
  ⟨x.leg, x.counted, source, target⟩

def Hop.copy (h : Hop α ε) : Copy α ε := ⟨h.leg, h.counted⟩

/-- The relay waits for either direction, then for the other one for some time. It is over with
the result it returns, or without one when it is dropped. -/
inductive Phase (ε : Type)
  | both
  | draining (last : Side)
  | finished (result : Option (Except ε Unit))
  deriving DecidableEq

namespace Phase

def polls : Phase ε → Side → Bool
  | .both, _ => true
  | .draining last, s => s == last
  | .finished _, _ => false

def isOver : Phase ε → Bool
  | .finished _ => true
  | _ => false

/-- A direction has got to `leg`. -/
def after (p : Phase ε) (s : Side) : Leg α ε → Phase ε
  | .ended (.ok ()) =>
    match p with
    | .both => .draining s.other
    | _ => .finished (some (.ok ()))
  | .ended (.error e) => .finished (some (.error e))
  | _ => p

theorem isOver_of_polls {p : Phase ε} {s : Side} (h : p.polls s = true) : p.isOver = false := by
  cases p with
  | finished r => cases h
  | _ => rfl

end Phase

/-- The two directions of a relay. -/
structure Exchange (α ε : Type) where
  up : Copy α ε
  down : Copy α ε
  phase : Phase ε

def Exchange.start : Exchange α ε := ⟨.start, .start, .both⟩

end Relay
