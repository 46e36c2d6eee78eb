import Mathlib.Logic.Relation
import Nowhere.Lib.ByteStream

/-!
# Two parties over a channel

A `Dialogue.Party` sends and receives and ends with a result. Two of them are joined by a channel in
each direction (`Dialogue.Config`), which keeps order and loses nothing but says nothing about time:
`Dialogue.Step` lets either party move next, and a message moves one item at a time, so that its
parts may arrive apart.

`Party.Plays p t q` describes one party alone: it can go from `p` to `q` with the traffic `t`. Two
parties whose traffic mirrors each other can do this together. The order of their moves does not
matter (`Step.diamond`), and so this one run speaks for all (`Settles.of_plays`): `Settles step a t`
says that every run from `a` is finite and stops at `t`.

`Party.runOn` is the same party on a stream whose other end is nobody in particular.
-/

namespace Dialogue

open Relation

/-! ## Relations of which every run ends in the same place -/

section Settling

variable {α : Type} {step : α → α → Prop} {a b t : α}

/-- Every run from `a` is finite and stops at `t`. -/
inductive Settles (step : α → α → Prop) : α → α → Prop
  | stop {a : α} (h : ∀ b, ¬ step a b) : Settles step a a
  | next {a b t : α} (h : step a b) (hall : ∀ c, step a c → Settles step c t) : Settles step a t

/-- Two moves can be made in either order. -/
def Diamond (step : α → α → Prop) : Prop :=
  ∀ a b c, step a b → step a c → b = c ∨ ∃ d, step b d ∧ step c d

theorem Settles.of_step (hdiamond : Diamond step) (hstep : step a b) (h : Settles step b t) :
    Settles step a t := by
  -- any other move of `a` can be followed by one that meets a move of `b`, from where the
  -- induction hypothesis leads back
  induction h generalizing a with
  | @stop b h =>
    refine .next hstep fun c hc => ?_
    rcases hdiamond a b c hstep hc with rfl | ⟨d, hbd, _⟩
    · exact .stop h
    · exact absurd hbd (h d)
  | @next b b' t hb hall ih =>
    refine .next hstep fun c hc => ?_
    rcases hdiamond a b c hstep hc with rfl | ⟨d, hbd, hcd⟩
    · exact .next hb hall
    · exact ih d hbd hcd

theorem Settles.acc (h : Settles step a t) : Acc (fun c b => step b c) a := by
  induction h with
  | stop h => exact ⟨_, fun b hb => absurd hb (h b)⟩
  | next _ _ ih => exact ⟨_, ih⟩

theorem Settles.of_reflTransGen (h : Settles step a t) (hrun : ReflTransGen step a b) :
    Settles step b t := by
  induction hrun with
  | refl => exact h
  | tail _ hstep ih =>
    cases ih with
    | stop h => exact absurd hstep (h _)
    | next _ hall => exact hall _ hstep

theorem Settles.eq_of_stuck (h : Settles step a t) (hrun : ReflTransGen step a b)
    (hstuck : ∀ c, ¬ step b c) : b = t := by
  cases h.of_reflTransGen hrun with
  | stop _ => rfl
  | next hstep _ => exact absurd hstep (hstuck _)

theorem exists_stuck_of_acc (h : Acc (fun c b => step b c) a) :
    ∃ b, ReflTransGen step a b ∧ ∀ c, ¬ step b c := by
  induction h with
  | intro a _ ih =>
    by_cases hstuck : ∀ c, ¬ step a c
    · exact ⟨a, .refl, hstuck⟩
    · obtain ⟨c, hstep⟩ := not_forall_not.mp hstuck
      obtain ⟨b, hrun, hb⟩ := ih c hstep
      exact ⟨b, .head hstep hrun, hb⟩

end Settling

/-! ## Parties -/

/-- What one side does: it has ended, or it sends some items, or it waits for `n` items and fails
with `eof` if the other side ends before. -/
inductive Party (B ε α : Type)
  | done (result : Except ε α)
  | send (items : List B) (next : Party B ε α)
  | recv (n : Nat) (eof : ε) (next : List B → Party B ε α)

namespace Party

variable {B ε α β γ : Type}

def bind : Party B ε α → (α → Party B ε β) → Party B ε β
  | done (.ok a), f => f a
  | done (.error e), _ => done (.error e)
  | send items p, f => send items (p.bind f)
  | recv n eof k, f => recv n eof fun items => (k items).bind f

instance : Monad (Party B ε) where
  pure a := done (.ok a)
  bind := bind

def tell (items : List B) : Party B ε Unit := send items (pure ())

def receive (eof : ε) (n : Nat) : Party B ε (List B) := recv n eof pure

def fail (e : ε) : Party B ε α := done (.error e)

theorem tell_bind (items : List B) (f : Unit → Party B ε β) :
    (tell items >>= f) = send items (f ()) := rfl

theorem receive_bind (eof : ε) (n : Nat) (f : List B → Party B ε β) :
    (receive eof n >>= f) = recv n eof f := rfl

theorem bind_assoc' (p : Party B ε α) (f : α → Party B ε β) (g : β → Party B ε γ) :
    ((p >>= f) >>= g) = p >>= fun a => f a >>= g := by
  induction p with
  | done result =>
    cases result with
    | ok a => rfl
    | error e => rfl
  | send items p ih => exact congrArg (send items) ih
  | recv n eof k ih => exact congrArg (recv n eof) (funext ih)

theorem bind_pure' (p : Party B ε α) : (p >>= pure) = p := by
  induction p with
  | done result =>
    cases result with
    | ok a => rfl
    | error e => rfl
  | send items p ih => exact congrArg (send items) ih
  | recv n eof k ih => exact congrArg (recv n eof) (funext ih)

instance : LawfulMonad (Party B ε) :=
  LawfulMonad.mk' _ bind_pure' (fun _ _ => rfl) bind_assoc'

def ended : Party B ε α → Bool
  | done _ => true
  | _ => false

/-- The next move, when the other side has ended or not: what is left to do, what is left in the
inbox, and what goes out. -/
def step (otherEnded : Bool) : Party B ε α → List B → Option (Party B ε α × List B × List B)
  | done _, _ => none
  | send [] p, inbox => some (p, inbox, [])
  | send (item :: items) p, inbox => some (send items p, inbox, [item])
  | recv 0 _ k, inbox => some (k [], inbox, [])
  | recv (n + 1) eof k, item :: inbox => some (recv n eof fun items => k (item :: items), inbox, [])
  | recv (_ + 1) eof _, [] => if otherEnded then some (fail eof, [], []) else none

section Equations

variable (p : Party B ε α) (inbox : List B) (eof : ε) (k : List B → Party B ε α) (otherEnded : Bool)

theorem step_sendNil : (send [] p).step otherEnded inbox = some (p, inbox, []) := rfl

theorem step_sendCons (item : B) (items : List B) :
    (send (item :: items) p).step otherEnded inbox = some (send items p, inbox, [item]) := rfl

theorem step_recvZero : (recv 0 eof k).step otherEnded inbox = some (k [], inbox, []) := rfl

theorem step_recvSucc (n : Nat) (item : B) :
    (recv (n + 1) eof k).step otherEnded (item :: inbox) =
      some (recv n eof fun items => k (item :: items), inbox, []) := rfl

end Equations

variable {p p' : Party B ε α} {inbox inbox' out : List B} {otherEnded : Bool}

theorem not_ended_of_step (h : p.step otherEnded inbox = some (p', inbox', out)) :
    p.ended = false := by
  cases p with
  | done _ => cases h
  | send _ _ => rfl
  | recv _ _ _ => rfl

/-- What arrives later does not change the next move. -/
theorem step_append (h : p.step false inbox = some (p', inbox', out)) (later : List B)
    (otherEnded : Bool) : p.step otherEnded (inbox ++ later) = some (p', inbox' ++ later, out) := by
  unfold step at h
  split at h
  · cases h
  · cases h
    rfl
  · cases h
    rfl
  · cases h
    rfl
  · cases h
    rfl
  · cases h

/-- Several moves that the other side has no part in. -/
inductive Advances : Party B ε α → List B → Party B ε α → List B → List B → Prop
  | refl (p : Party B ε α) (inbox : List B) : Advances p inbox p inbox []
  | head {p q r : Party B ε α} {inbox inbox' inbox'' out out' : List B}
      (hstep : ∀ otherEnded, p.step otherEnded inbox = some (q, inbox', out))
      (h : Advances q inbox' r inbox'' out') : Advances p inbox r inbox'' (out ++ out')

theorem advances_send (items : List B) (p : Party B ε α) (inbox : List B) :
    Advances (send items p) inbox p inbox items := by
  induction items with
  | nil =>
    exact .head (step_sendNil p _) (.refl p inbox)
  | cons item items ih =>
    exact .head (step_sendCons p _ · item items) ih

/-! ### Traffic -/

/-- One item of traffic, as one side sees it. -/
inductive Item (B : Type)
  | sent (item : B)
  | got (item : B)

/-- The same traffic as the other side sees it. -/
def Item.mirror : Item B → Item B
  | sent item => got item
  | got item => sent item

def sends (items : List B) : List (Item B) := items.map .sent

def gets (items : List B) : List (Item B) := items.map .got

@[simp] theorem mirror_sends (items : List B) : (sends items).map Item.mirror = gets items := by
  rw [sends, List.map_map]
  rfl

@[simp] theorem mirror_gets (items : List B) : (gets items).map Item.mirror = sends items := by
  rw [gets, List.map_map]
  rfl

theorem gets_append (items items' : List B) : gets (items ++ items') = gets items ++ gets items' :=
  List.map_append

/-- The party can go from `p` to `q` with this traffic. -/
inductive Plays : Party B ε α → List (Item B) → Party B ε α → Prop
  | refl (p : Party B ε α) : Plays p [] p
  | sendNil {p q : Party B ε α} {t : List (Item B)} (h : Plays p t q) : Plays (send [] p) t q
  | sendCons {item : B} {items : List B} {p q : Party B ε α} {t : List (Item B)}
      (h : Plays (send items p) t q) : Plays (send (item :: items) p) (.sent item :: t) q
  | recvZero {eof : ε} {k : List B → Party B ε α} {q : Party B ε α} {t : List (Item B)}
      (h : Plays (k []) t q) : Plays (recv 0 eof k) t q
  | recvSucc {n : Nat} {eof : ε} {k : List B → Party B ε α} {q : Party B ε α} {item : B}
      {t : List (Item B)} (h : Plays (recv n eof fun items => k (item :: items)) t q) :
      Plays (recv (n + 1) eof k) (.got item :: t) q

theorem Plays.trans {p q r : Party B ε α} {t t' : List (Item B)} (h : Plays p t q)
    (h' : Plays q t' r) : Plays p (t ++ t') r := by
  induction h with
  | refl => exact h'
  | sendNil _ ih => exact .sendNil (ih h')
  | sendCons _ ih => exact .sendCons (ih h')
  | recvZero _ ih => exact .recvZero (ih h')
  | recvSucc _ ih => exact .recvSucc (ih h')

variable {p q : Party B ε α} {t : List (Item B)} {f : Unit → Party B ε α} {item : B}

theorem Plays.bind (h : Plays p t q) (f : α → Party B ε β) : Plays (p >>= f) t (q >>= f) := by
  induction h with
  | refl => exact .refl _
  | sendNil _ ih => exact .sendNil ih
  | sendCons _ ih => exact .sendCons ih
  | recvZero _ ih => exact .recvZero ih
  | recvSucc _ ih => exact .recvSucc ih

/-- One part after the other. -/
theorem Plays.andThen {t' : List (Item B)} {a : α} {f : α → Party B ε β} {q : Party B ε β}
    (h : Plays p t (pure a)) (h' : Plays (f a) t' q) :
    Plays (p >>= f) (t ++ t') q :=
  (h.bind f).trans h'

theorem plays_tell (items : List B) :
    Plays (tell items >>= f) (sends items) (f ()) := by
  rw [tell_bind]
  induction items with
  | nil => exact .sendNil (.refl _)
  | cons item items ih => exact .sendCons ih

/-- Part of a message is out. -/
theorem plays_tell_append (items items' : List B) :
    Plays (tell (items ++ items') >>= f) (sends items) (tell items' >>= f) := by
  rw [tell_bind, tell_bind]
  induction items with
  | nil => exact .refl _
  | cons item items ih => exact .sendCons ih

theorem plays_receive {n : Nat} (items : List B) (hn : items.length = n) {eof : ε}
    {f : List B → Party B ε α} : Plays (receive eof n >>= f) (gets items) (f items) := by
  subst hn
  rw [receive_bind]
  induction items generalizing f with
  | nil => exact .recvZero (.refl _)
  | cons item items ih => exact .recvSucc ih

/-- Nothing sent or received: only moves that the channel does not see are left. -/
theorem Plays.advances_nil (h : Plays p [] q) (inbox : List B) :
    Advances p inbox q inbox [] := by
  generalize ht : ([] : List (Item B)) = t at h
  induction h with
  | refl => exact .refl _ _
  | @sendNil p _ _ _ ih =>
    exact .head (step_sendNil p _) (ih ht)
  | @recvZero eof k _ _ _ ih =>
    exact .head (step_recvZero _ eof k) (ih ht)
  | sendCons _ _ => cases ht
  | recvSucc _ _ => cases ht

theorem Plays.advances_sent (h : Plays p (.sent item :: t) q) (inbox : List B) :
    ∃ p', Plays p' t q ∧ Advances p inbox p' inbox [item] := by
  generalize ht : Item.sent item :: t = t' at h
  induction h with
  | refl => cases ht
  | @sendNil p _ _ _ ih =>
    obtain ⟨p', hplays, hadvances⟩ := ih ht
    exact ⟨p', hplays, .head (step_sendNil p _) hadvances⟩
  | @recvZero eof k _ _ _ ih =>
    obtain ⟨p', hplays, hadvances⟩ := ih ht
    exact ⟨p', hplays, .head (step_recvZero _ eof k) hadvances⟩
  | @sendCons item items p _ _ h _ =>
    cases ht
    exact ⟨send items p, h, .head (step_sendCons p _ · item items) (.refl _ _)⟩
  | recvSucc _ _ => cases ht

theorem Plays.advances_got (h : Plays p (.got item :: t) q) (inbox : List B) :
    ∃ p', Plays p' t q ∧ Advances p (item :: inbox) p' inbox [] := by
  generalize ht : Item.got item :: t = t' at h
  induction h with
  | refl => cases ht
  | @sendNil p _ _ _ ih =>
    obtain ⟨p', hplays, hadvances⟩ := ih ht
    exact ⟨p', hplays, .head (step_sendNil p _) hadvances⟩
  | @recvZero eof k _ _ _ ih =>
    obtain ⟨p', hplays, hadvances⟩ := ih ht
    exact ⟨p', hplays, .head (step_recvZero _ eof k) hadvances⟩
  | sendCons _ _ => cases ht
  | @recvSucc n eof k _ _ _ h _ =>
    cases ht
    exact ⟨_, h, .head (step_recvSucc _ eof k · n item) (.refl _ _)⟩

end Party

/-! ## The joint system -/

structure Config (B ε α β : Type) where
  left : Party B ε α
  right : Party B ε β
  leftInbox : List B
  rightInbox : List B

variable {B ε α β : Type}

inductive Step : Config B ε α β → Config B ε α β → Prop
  | left {c : Config B ε α β} {p : Party B ε α} {inbox out : List B}
      (h : c.left.step c.right.ended c.leftInbox = some (p, inbox, out)) :
      Step c { c with left := p, leftInbox := inbox, rightInbox := c.rightInbox ++ out }
  | right {c : Config B ε α β} {p : Party B ε β} {inbox out : List B}
      (h : c.right.step c.left.ended c.rightInbox = some (p, inbox, out)) :
      Step c { c with right := p, rightInbox := inbox, leftInbox := c.leftInbox ++ out }

/-- Moves of different sides can be made in either order. -/
theorem Step.left_right {c : Config B ε α β} {p : Party B ε α} {q : Party B ε β}
    {inbox inbox' out out' : List B}
    (hleft : c.left.step c.right.ended c.leftInbox = some (p, inbox, out))
    (hright : c.right.step c.left.ended c.rightInbox = some (q, inbox', out')) :
    ∃ d,
      Step { c with left := p, leftInbox := inbox, rightInbox := c.rightInbox ++ out } d ∧
      Step { c with right := q, rightInbox := inbox', leftInbox := c.leftInbox ++ out' } d := by
  have hleft' := hleft
  have hright' := hright
  rw [Party.not_ended_of_step hright] at hleft'
  rw [Party.not_ended_of_step hleft] at hright'
  exact ⟨⟨p, q, inbox ++ out', inbox' ++ out⟩, .right (Party.step_append hright' out _),
    .left (Party.step_append hleft' out' _)⟩

theorem Step.diamond : Diamond (Step : Config B ε α β → Config B ε α β → Prop) := by
  intro a b c hb hc
  cases hb with
  | left hb =>
    cases hc with
    | left hc =>
      cases hb.symm.trans hc
      exact .inl rfl
    | right hc => exact .inr (Step.left_right hb hc)
  | right hb =>
    cases hc with
    | left hc =>
      obtain ⟨d, hd, hd'⟩ := Step.left_right hc hb
      exact .inr ⟨d, hd', hd⟩
    | right hc =>
      cases hb.symm.trans hc
      exact .inl rfl

namespace Settles

variable {left p : Party B ε α} {right q : Party B ε β} {leftInbox rightInbox inbox out : List B}
  {t : Config B ε α β}

theorem left_advances (hadvances : Party.Advances left leftInbox p inbox out)
    (h : Settles Step ⟨p, right, inbox, rightInbox ++ out⟩ t) :
    Settles Step ⟨left, right, leftInbox, rightInbox⟩ t := by
  induction hadvances generalizing rightInbox with
  | refl => rwa [List.append_nil] at h
  | head hstep _ ih =>
    rw [← List.append_assoc] at h
    exact .of_step Step.diamond (.left (hstep _)) (ih h)

theorem right_advances (hadvances : Party.Advances right rightInbox q inbox out)
    (h : Settles Step ⟨left, q, leftInbox ++ out, inbox⟩ t) :
    Settles Step ⟨left, right, leftInbox, rightInbox⟩ t := by
  induction hadvances generalizing leftInbox with
  | refl => rwa [List.append_nil] at h
  | head hstep _ ih =>
    rw [← List.append_assoc] at h
    exact .of_step Step.diamond (.right (hstep _)) (ih h)

variable {items : List B}

theorem left_sends {f : Unit → Party B ε α}
    (h : Settles Step ⟨f (), right, leftInbox, rightInbox ++ items⟩ t) :
    Settles Step ⟨Party.tell items >>= f, right, leftInbox, rightInbox⟩ t :=
  left_advances (Party.advances_send items (f ()) leftInbox) h

theorem right_sends {f : Unit → Party B ε β}
    (h : Settles Step ⟨left, f (), leftInbox ++ items, rightInbox⟩ t) :
    Settles Step ⟨left, Party.tell items >>= f, leftInbox, rightInbox⟩ t :=
  right_advances (Party.advances_send items (f ()) rightInbox) h

/-- Two parties whose traffic mirrors each other. -/
theorem of_plays {traffic : List (Party.Item B)} (hleft : Party.Plays left traffic p)
    (hright : Party.Plays right (traffic.map Party.Item.mirror) q)
    (h : Settles Step ⟨p, q, [], []⟩ t) : Settles Step ⟨left, right, [], []⟩ t := by
  induction traffic generalizing left right with
  | nil =>
    exact left_advances (hleft.advances_nil []) (right_advances (hright.advances_nil _) h)
  | cons item traffic ih =>
    cases item with
    | sent item =>
      obtain ⟨left', hleft', hadvances⟩ := hleft.advances_sent []
      obtain ⟨right', hright', hadvances'⟩ := hright.advances_got []
      exact left_advances hadvances (right_advances hadvances' (ih hleft' hright'))
    | got item =>
      obtain ⟨left', hleft', hadvances⟩ := hleft.advances_got []
      obtain ⟨right', hright', hadvances'⟩ := hright.advances_sent []
      exact right_advances hadvances' (left_advances hadvances (ih hleft' hright'))

theorem both_done (result : Except ε α) (result' : Except ε β) (leftInbox rightInbox : List B) :
    Settles Step ⟨.done result, .done result', leftInbox, rightInbox⟩
      ⟨.done result, .done result', leftInbox, rightInbox⟩ := by
  refine .stop fun c hstep => ?_
  cases hstep with
  | left h => cases h
  | right h => cases h

end Settles

/-! ## A party on a stream -/

/-- The party reads from the stream, and what it sends is of no consequence. -/
def Party.runOn {σ : Type} (stream : ByteStream.Input σ) : Party UInt8 ε α → StateT σ (Except ε) α
  | done result => liftM result
  | send _ p => p.runOn stream
  | recv n eof k => do
    let bytes ← stream.readExact eof n
    (k bytes).runOn stream

section RunOn

variable {σ : Type} (stream : ByteStream.Input σ)

theorem Party.runOn_tell (bytes : List UInt8) (f : Unit → Party UInt8 ε α) :
    (tell bytes >>= f).runOn stream = (f ()).runOn stream := rfl

theorem Party.runOn_receive (eof : ε) (n : Nat) (f : List UInt8 → Party UInt8 ε α) :
    (receive eof n >>= f).runOn stream =
      stream.readExact eof n >>= fun bytes => (f bytes).runOn stream := rfl

end RunOn

/-- The party only receives. -/
inductive Party.Listens : Party UInt8 ε α → Prop
  | done (result : Except ε α) : Listens (done result)
  | recv {n : Nat} {eof : ε} {k : List UInt8 → Party UInt8 ε α} (h : ∀ bytes, Listens (k bytes)) :
      Listens (recv n eof k)

section Listens

open ByteStream (Input)

theorem Party.Listens.receive_bind {eof : ε} {n : Nat} {f : List UInt8 → Party UInt8 ε α}
    (h : ∀ bytes, (f bytes).Listens) : (receive eof n >>= f).Listens := .recv h

theorem readExact_whole (eof : ε) (n : Nat) (bytes : List UInt8) :
    Input.whole.readExact eof n bytes = Input.takeExact eof n bytes := by
  have hfollows := Input.follows_readExact (R := Input.whole) eof n bytes
  rw [show Input.whole.bytes bytes = bytes from rfl] at hfollows
  rw [← hfollows]
  cases Input.whole.readExact eof n bytes <;> rfl

variable {p : Party UInt8 ε α} {a : α}

/-- What is left is the end of what was there. -/
theorem Party.Listens.length_le (h : p.Listens) {bytes rest : List UInt8}
    (hrun : p.runOn Input.whole bytes = .ok (a, rest)) : rest.length ≤ bytes.length := by
  induction h generalizing bytes with
  | done result =>
    cases result with
    | error e => cases hrun
    | ok b =>
      cases hrun
      exact Nat.le_refl _
  | @recv n eof k _ ih =>
    change (Input.whole.readExact eof n bytes >>= fun r => (k r.1).runOn Input.whole r.2) = _
      at hrun
    rw [readExact_whole, Input.takeExact] at hrun
    split at hrun
    · cases hrun
    · refine Nat.le_trans (ih _ hrun) ?_
      rw [List.length_drop]
      exact Nat.sub_le _ _

/-- A party that only receives takes from a dialogue what it takes from a stream. -/
theorem Party.Listens.plays (h : p.Listens) {input rest : List UInt8}
    (hrun : p.runOn Input.whole (input ++ rest) = .ok (a, rest)) :
    Plays p (gets input) (pure a) := by
  induction h generalizing input with
  | done result =>
    cases result with
    | error e => cases hrun
    | ok b =>
      obtain ⟨rfl, hrest⟩ := Prod.mk.inj (Except.ok.inj hrun)
      rw [List.self_eq_append_left.mp hrest.symm]
      exact .refl _
  | @recv n eof k hk ih =>
    change (Input.whole.readExact eof n (input ++ rest) >>= fun r =>
      (k r.1).runOn Input.whole r.2) = _ at hrun
    rw [readExact_whole, Input.takeExact] at hrun
    split at hrun
    · cases hrun
    · rename_i hlong
      have hrest := (hk _).length_le hrun
      rw [List.length_append] at hlong
      rw [List.length_drop, List.length_append] at hrest
      have hn : n ≤ input.length := by omega
      change (k ((input ++ rest).take n)).runOn Input.whole ((input ++ rest).drop n) = _ at hrun
      rw [List.take_append_of_le_length hn, List.drop_append_of_le_length hn] at hrun
      have hfront : Plays (receive eof n >>= k) (gets (input.take n)) (k (input.take n)) :=
        plays_receive _ (by rw [List.length_take, Nat.min_eq_left hn])
      have hwhole := hfront.trans (ih _ hrun)
      rwa [← gets_append, List.take_append_drop] at hwhole

end Listens

end Dialogue
