import Mathlib.Data.Set.Lattice
import Mathlib.Order.CompletePartialOrder
import Nowhere.Lib.Queue
import Nowhere.Transport.RateBucket

/-!
# The rate limiter

The limiter of `src/transport/rate.rs` has a bucket for each direction with a limit, made by
`TokenBucket::new` with the limit as rate and no capacity. Such a bucket never saves anything up: a
call that asks for bytes always waits, and the bucket's clock is where the calls before it end. The
calls of one direction are therefore served like jobs in a queue, in the order in which they get the
lock, whatever instants they were made at.
-/

namespace Nowhere.Transport

open Queue

/-- One call of `reserve`. -/
structure Call where
  now : Nat
  bytes : Int64

section Queueing

variable (d : Int64 → Int64 → Nat)

/-- Calls of `reserve` one after the other, each with the time it is released at. -/
def reserveAll : TokenBucket → List Call → List (Call × Nat)
  | _, [] => []
  | bucket, call :: calls =>
    let (delay, bucket) := bucket.reserve d call.now call.bytes
    (call, call.now + delay) :: reserveAll bucket calls

/-- The time that a call is charged for: as long as its bytes take, up to its release. -/
def service (rate : Int64) (released : Call × Nat) : Set Nat :=
  Set.Ico (released.2 - d released.1.bytes rate) released.2

variable {d}

/-- A bucket with nothing in it and no room for anything. -/
def TokenBucket.Empty (bucket : TokenBucket) : Prop :=
  bucket.inner.capacity = 0 ∧ bucket.inner.budget = 0

/-- How long the bytes of a call take. -/
def Call.takes (d : Int64 → Int64 → Nat) (rate : Int64) (call : Call) : Nat := d call.bytes rate

/-- A call finds the clock at the release of the call before it, and leaves it at its own. -/
theorem TokenBucket.Empty.reserve_eq {bucket : TokenBucket} (h : bucket.Empty) {call : Call}
    (hbytes : 0 < call.bytes) {release : Nat}
    (hrelease : release = departure Call.now (Call.takes d bucket.inner.rate)
      bucket.inner.updatedAt call) :
    bucket.reserve d call.now call.bytes =
      (release - call.now, ⟨{ bucket.inner with updatedAt := release }⟩) := by
  obtain ⟨hcapacity, hbudget⟩ := h
  have hrefill : bucket.inner.refill call.now =
      { bucket.inner with updatedAt := max bucket.inner.updatedAt call.now } := by
    rw [TokenBucketInner.refill]
    split
    · rename_i hlate
      rw [Nat.max_eq_left hlate]
    · rename_i hlate
      have hnone : ¬ 0 < bucket.inner.capacity := by
        rw [hcapacity]
        decide
      rw [if_neg hnone, Nat.max_eq_right (Nat.le_of_not_le hlate)]
  have hshort : ¬ call.bytes ≤ bucket.inner.budget := by
    rw [hbudget]
    exact Int64.not_le.mpr hbytes
  subst hrelease
  rw [TokenBucket.reserve, if_neg (Int64.not_le.mpr hbytes), hrefill]
  dsimp only
  rw [if_neg hshort, hbudget, Int64.sub_zero]
  rfl

theorem reserveAll_eq_serve {bucket : TokenBucket} (h : bucket.Empty) {calls : List Call}
    (hbytes : ∀ call ∈ calls, 0 < call.bytes) : reserveAll d bucket calls =
      serve Call.now (Call.takes d bucket.inner.rate) bucket.inner.updatedAt calls := by
  induction calls generalizing bucket with
  | nil => rfl
  | cons call calls ih =>
    have hcall := h.reserve_eq (d := d) (hbytes call List.mem_cons_self) rfl
    have hnow : call.now ≤ departure Call.now (Call.takes d bucket.inner.rate)
        bucket.inner.updatedAt call := by
      unfold departure
      omega
    rw [reserveAll, hcall, serve]
    dsimp only
    rw [Nat.add_sub_of_le hnow]
    exact congrArg _ (ih ⟨h.1, h.2⟩ fun c hc => hbytes c (List.mem_cons_of_mem _ hc))

/-- Calls on a bucket of the limiter are released like jobs that leave a queue: each one takes its
time from where the call before it ends or, if that is later, from its own instant on. So the
releases come in the order of the calls, and no time is charged for twice. -/
theorem reserve_queues (hd : ∀ bytes rate, 1 ≤ d bytes rate) {rate : Int64} (hrate : 0 < rate)
    (created : Nat) {calls : List Call} (hbytes : ∀ call ∈ calls, 0 < call.bytes) :
    (reserveAll d (.new rate 0 created) calls).map Prod.fst = calls ∧
    (∀ i call release, (reserveAll d (.new rate 0 created) calls)[i]? = some (call, release) →
      release = max ((created :: (reserveAll d (.new rate 0 created) calls).map Prod.snd).getD i 0)
        call.now + d call.bytes rate) ∧
    (reserveAll d (.new rate 0 created) calls).Pairwise (fun c c' => c.2 < c'.2) ∧
    (reserveAll d (.new rate 0 created) calls).Pairwise
      (fun c c' => Disjoint (service d rate c) (service d rate c')) ∧
    ∀ start stop, (((reserveAll d (.new rate 0 created) calls).filter fun c =>
      start ≤ c.2 - d c.1.bytes rate ∧ c.2 ≤ stop).map fun c => d c.1.bytes rate).sum ≤
        stop - start := by
  have hnew : normalizeRate rate = rate := if_neg (Int64.not_le.mpr hrate)
  have hserve := @reserveAll_eq_serve d (.new rate 0 created) ⟨rfl, rfl⟩ calls hbytes
  have hfields : (TokenBucket.new rate 0 created).inner.rate = rate ∧
      (TokenBucket.new rate 0 created).inner.updatedAt = created := ⟨hnew, rfl⟩
  rw [hfields.1, hfields.2] at hserve
  rw [hserve]
  refine ⟨serve_jobs, ?_, serve_pairwise_lt fun call _ => hd call.bytes rate, ?_, ?_⟩
  · intro i call release hi
    exact departure_after hi
  · refine serve_pairwise.imp ?_
    intro c c' hafter
    refine Set.disjoint_left.mpr ?_
    intro t ht ht'
    exact absurd (hafter.trans ht'.1) (Nat.not_le_of_lt ht.2)
  · intro start stop
    exact @sum_within Call Call.now (Call.takes d rate) created calls start stop

end Queueing

/-- Two calls for half a second each, the second made earlier than the first. -/
theorem reserve_queues_outOfOrder :
    reserveAll durationForBytes (.new 100 0 0) [⟨500000000, 50⟩, ⟨100000000, 50⟩] =
      [(⟨500000000, 50⟩, 1000000000), (⟨100000000, 50⟩, 1500000000)] ∧
    (reserveAll durationForBytes (.new 100 0 0) [⟨500000000, 50⟩, ⟨100000000, 50⟩]).Pairwise
      fun c c' => Disjoint (service durationForBytes 100 c) (service durationForBytes 100 c') := by
  obtain ⟨-, -, -, hdisjoint, -⟩ := @reserve_queues durationForBytes one_le_durationForBytes 100
    (by decide) 0 [⟨500000000, 50⟩, ⟨100000000, 50⟩] (by decide)
  exact ⟨rfl, hdisjoint⟩

end Nowhere.Transport
