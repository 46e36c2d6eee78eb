import Mathlib.Algebra.BigOperators.Group.List.Basic
import Mathlib.Algebra.Order.Ring.Int
import Mathlib.Logic.Relation

/-!
# Token buckets

The bucket of `src/transport/rate_bucket.rs`. Every call takes the bucket's mutex for its whole
length, so a call is a function on what the mutex protects; the instant is read before the lock is
taken, hence the instants of successive calls come in any order. Instants and durations are counted
in nanoseconds. Amounts are `i64` and wrap as the release build lets them.

Two computations go through `f64`. The bytes that a stretch of time adds are read as the exact
product, cut to whole bytes. `duration_for_bytes` is a parameter of the calls that use it, of which
at most its lower bound matters; `durationForBytes` is the same reading of its source.

Each refill cuts off the fraction of a byte and still moves the clock, so looking at the budget in
between costs what is cut off there (`budget_polled_iff`).
-/

namespace Nowhere.Transport

def unlimitedBytesPerSecond : Int64 := 2 ^ 40

def nanosPerSecond : Nat := 1000000000

def normalizeRate (rate : Int64) : Int64 :=
  if rate ≤ 0 then unlimitedBytesPerSecond else rate

/-- `duration_for_bytes`, with the quotient taken exactly. -/
def durationForBytes (bytes rate : Int64) : Nat :=
  let rate := normalizeRate rate
  let nanos := min (bytes.toInt * nanosPerSecond / rate.toInt).toNat (2 ^ 64 - 1)
  if nanos = 0 then 1 else nanos

theorem one_le_durationForBytes (bytes rate : Int64) : 1 ≤ durationForBytes bytes rate := by
  unfold durationForBytes
  dsimp only
  split <;> omega

structure TokenBucketInner where
  rate : Int64
  capacity : Int64
  budget : Int64
  updatedAt : Nat

/-- The bytes that `elapsed` nanoseconds add; a cast to `i64` saturates. -/
def addedBytes (rate : Int64) (elapsed : Nat) : Int64 :=
  Int64.ofIntClamp (rate.toInt * elapsed / nanosPerSecond)

def TokenBucketInner.refill (inner : TokenBucketInner) (now : Nat) : TokenBucketInner :=
  if now ≤ inner.updatedAt then inner
  else if 0 < inner.capacity then
    let budget := inner.budget + addedBytes inner.rate (now - inner.updatedAt)
    { inner with
      budget := if inner.capacity < budget then inner.capacity else budget
      updatedAt := now }
  else { inner with updatedAt := now }

structure TokenBucket where
  inner : TokenBucketInner

namespace TokenBucket

/-- `TokenBucket::new` at the instant `now`. -/
def new (rate capacity : Int64) (now : Nat) : TokenBucket :=
  ⟨⟨normalizeRate rate, max capacity 0, max capacity 0, now⟩⟩

def configure (bucket : TokenBucket) (now : Nat) (rate capacity : Int64) : TokenBucket :=
  let inner := bucket.inner.refill now
  let capacity := max capacity 0
  ⟨⟨normalizeRate rate, capacity, if capacity < inner.budget then capacity else inner.budget,
    inner.updatedAt⟩⟩

def budget (bucket : TokenBucket) (now : Nat) : Int64 × TokenBucket :=
  let inner := bucket.inner.refill now
  (inner.budget, ⟨inner⟩)

def spend (bucket : TokenBucket) (now : Nat) (bytes : Int64) : TokenBucket :=
  if bytes ≤ 0 then bucket
  else
    let inner := bucket.inner.refill now
    ⟨{ inner with budget := inner.budget - bytes }⟩

section Delays

variable (durationForBytes : Int64 → Int64 → Nat)

def reserve (bucket : TokenBucket) (now : Nat) (bytes : Int64) : Nat × TokenBucket :=
  if bytes ≤ 0 then (0, bucket)
  else
    let inner := bucket.inner.refill now
    if bytes ≤ inner.budget then (0, ⟨{ inner with budget := inner.budget - bytes }⟩)
    else
      let delay := durationForBytes (bytes - inner.budget) inner.rate
      let updatedAt := inner.updatedAt + delay
      (updatedAt - now, ⟨{ inner with budget := 0, updatedAt }⟩)

def delayUntilAvailable (bucket : TokenBucket) (now : Nat) (bytes : Int64) (minDelay : Nat) :
    Nat × TokenBucket :=
  if bytes ≤ 0 then (0, bucket)
  else
    let inner := bucket.inner.refill now
    if bytes ≤ inner.budget then (0, ⟨inner⟩)
    else (max (durationForBytes (bytes - inner.budget) inner.rate) minDelay, ⟨inner⟩)

end Delays

def reset (bucket : TokenBucket) (now : Nat) : TokenBucket :=
  ⟨{ bucket.inner with budget := bucket.inner.capacity, updatedAt := now }⟩

/-- One call on a bucket that exists. -/
inductive Step (d : Int64 → Int64 → Nat) : TokenBucket → TokenBucket → Prop
  | configure {b : TokenBucket} (now : Nat) (rate capacity : Int64) :
      Step d b (b.configure now rate capacity)
  | budget {b : TokenBucket} (now : Nat) : Step d b (b.budget now).2
  | spend {b : TokenBucket} (now : Nat) (bytes : Int64) : Step d b (b.spend now bytes)
  | reserve {b : TokenBucket} (now : Nat) (bytes : Int64) : Step d b (b.reserve d now bytes).2
  | delayUntilAvailable {b : TokenBucket} (now : Nat) (bytes : Int64) (minDelay : Nat) :
      Step d b (b.delayUntilAvailable d now bytes minDelay).2
  | reset {b : TokenBucket} (now : Nat) : Step d b (b.reset now)

/-- Some sequence of calls leads from a new bucket to `b`. -/
def Reachable (d : Int64 → Int64 → Nat) (b : TokenBucket) : Prop :=
  ∃ rate capacity now, Relation.ReflTransGen (Step d) (new rate capacity now) b

/-! ## The rate is positive -/

theorem normalizeRate_pos (rate : Int64) : 0 < normalizeRate rate := by
  unfold normalizeRate
  split
  · decide
  · rename_i h
    exact Int64.not_le.mp h

theorem refill_rate (inner : TokenBucketInner) (now : Nat) :
    (inner.refill now).rate = inner.rate := by
  unfold TokenBucketInner.refill
  split
  · rfl
  · split <;> rfl

theorem refill_capacity (inner : TokenBucketInner) (now : Nat) :
    (inner.refill now).capacity = inner.capacity := by
  unfold TokenBucketInner.refill
  split
  · rfl
  · split <;> rfl

variable {d : Int64 → Int64 → Nat} {b : TokenBucket}

theorem Step.rate_pos {b' : TokenBucket} (h : Step d b b') (hb : 0 < b.inner.rate) :
    0 < b'.inner.rate := by
  cases h with
  | configure now rate capacity => exact normalizeRate_pos rate
  | budget now => simpa [TokenBucket.budget, refill_rate] using hb
  | spend now bytes =>
    unfold TokenBucket.spend
    split
    · exact hb
    · simpa [refill_rate] using hb
  | reserve now bytes =>
    unfold TokenBucket.reserve
    split
    · exact hb
    · dsimp only
      split <;> simpa [refill_rate] using hb
  | delayUntilAvailable now bytes minDelay =>
    unfold TokenBucket.delayUntilAvailable
    split
    · exact hb
    · dsimp only
      split <;> simpa [refill_rate] using hb
  | reset now => exact hb

theorem Reachable.rate_pos (h : Reachable d b) :
    0 < b.inner.rate := by
  obtain ⟨rate, capacity, now, h⟩ := h
  induction h with
  | refl => exact normalizeRate_pos rate
  | tail _ hstep ih => exact hstep.rate_pos ih

/-! ## Looking at the budget in between -/

/-- The bucket after its budget was read at each of the instants. -/
def polled (bucket : TokenBucket) (instants : List Nat) : TokenBucket :=
  instants.foldl (fun bucket now => (bucket.budget now).2) bucket

end TokenBucket

/-- The stretches of time from `start` through the instants. -/
def gaps : Nat → List Nat → List Nat
  | _, [] => []
  | start, now :: later => (now - start) :: gaps now later

/-- The whole bytes that a stretch of time is worth. -/
def wholeBytes (rate : Int64) (gap : Nat) : Int := rate.toInt * gap / nanosPerSecond

/-- What is left of it, in billionths of a byte. -/
def cutOff (rate : Int64) (gap : Nat) : Int := rate.toInt * gap % nanosPerSecond

/-- The bytes that a stretch of time adds: its whole bytes, as many as an `i64` can hold. -/
def granted (rate : Int64) (gap : Nat) : Int := min (wholeBytes rate gap) (2 ^ 63 - 1)

theorem sum_gaps {start : Nat} {instants : List Nat} {last : Nat}
    (h : (start :: (instants ++ [last])).IsChain (· ≤ ·)) :
    start ≤ last ∧ (gaps start (instants ++ [last])).sum = last - start := by
  induction instants generalizing start with
  | nil =>
    rw [List.nil_append, List.isChain_cons_cons] at h
    exact ⟨h.1, rfl⟩
  | cons now later ih =>
    rw [List.cons_append, List.isChain_cons_cons] at h
    obtain ⟨hle, hsum⟩ := ih h.2
    rw [List.cons_append, gaps, List.sum_cons, hsum]
    omega

section Amounts

variable {rate : Int64}

theorem wholeBytes_nonneg (hrate : 0 < rate) (gap : Nat) : 0 ≤ wholeBytes rate gap := by
  have hpos : 0 < rate.toInt := Int64.lt_iff_toInt_lt.mp hrate
  exact Int.ediv_nonneg (Int.mul_nonneg hpos.le (Int.natCast_nonneg gap)) (by decide)

theorem granted_range (hrate : 0 < rate) (gap : Nat) :
    0 ≤ granted rate gap ∧ granted rate gap < 2 ^ 63 := by
  have := wholeBytes_nonneg hrate gap
  unfold granted
  omega

theorem granted_zero (rate : Int64) : granted rate 0 = 0 := by simp [granted, wholeBytes]

theorem sum_map_nonneg {f : Nat → Int} (h : ∀ g, 0 ≤ f g) (gs : List Nat) :
    0 ≤ (gs.map f).sum := by
  induction gs with
  | nil => exact Int.le_refl 0
  | cons g gs ih =>
    have := h g
    rw [List.map_cons, List.sum_cons]
    omega

theorem sum_granted_nonneg (hrate : 0 < rate) (gs : List Nat) :
    0 ≤ (gs.map (granted rate)).sum :=
  sum_map_nonneg (fun g => (granted_range hrate g).1) gs

theorem sum_granted_of_no_time {gs : List Nat} (h : gs.sum = 0) :
    (gs.map (granted rate)).sum = 0 := by
  induction gs with
  | nil => rfl
  | cons g gs ih =>
    rw [List.sum_cons, Nat.add_eq_zero_iff] at h
    rw [List.map_cons, List.sum_cons, ih h.2, h.1, granted_zero]
    rfl

/-- A cast to `i64` saturates. -/
theorem toInt_addedBytes (hrate : 0 < rate) (elapsed : Nat) :
    (addedBytes rate elapsed).toInt = granted rate elapsed := by
  have hnonneg := wholeBytes_nonneg hrate elapsed
  have hmax : Int64.maxValue.toInt = 2 ^ 63 - 1 := Int64.toInt_maxValue
  have hmin : Int64.minValue.toInt = -2 ^ 63 := Int64.toInt_minValue
  change (Int64.ofIntClamp (wholeBytes rate elapsed)).toInt = _
  unfold granted
  by_cases hfits : wholeBytes rate elapsed ≤ 2 ^ 63 - 1
  · rw [Int64.toInt_ofIntClamp (by omega) (by omega)]
    omega
  · rw [Int64.ofIntClamp, dif_pos (by omega), dif_neg (by omega), hmax]
    omega

/-- Whole bytes and what is cut off make up the time. -/
theorem sum_whole_add_cut (rate : Int64) (gs : List Nat) :
    nanosPerSecond * (gs.map (wholeBytes rate)).sum + (gs.map (cutOff rate)).sum =
      rate.toInt * gs.sum := by
  induction gs with
  | nil => simp
  | cons g gs ih =>
    have hg : nanosPerSecond * wholeBytes rate g + cutOff rate g = rate.toInt * g :=
      Int.mul_ediv_add_emod _ _
    simp only [List.map_cons, List.sum_cons, Int.natCast_add, Int.mul_add] at ih ⊢
    omega

theorem sum_granted_eq_whole (hrate : 0 < rate) {gs : List Nat}
    (hfits : (gs.map (wholeBytes rate)).sum < 2 ^ 63) :
    (gs.map (granted rate)).sum = (gs.map (wholeBytes rate)).sum := by
  induction gs with
  | nil => rfl
  | cons g gs ih =>
    have hg := wholeBytes_nonneg hrate g
    have hrest := sum_map_nonneg (wholeBytes_nonneg hrate) gs
    rw [List.map_cons, List.sum_cons] at hfits
    rw [List.map_cons, List.sum_cons, List.map_cons, List.sum_cons, ih (by omega), granted]
    omega

/-- As long as nothing saturates, the parts of a time add as much as the time as a whole exactly if
less than a byte is cut off from them in all. -/
theorem sum_granted_eq_iff (hrate : 0 < rate) {gs : List Nat}
    (hfits : wholeBytes rate gs.sum < 2 ^ 63) :
    (gs.map (granted rate)).sum = granted rate gs.sum ↔
      (gs.map (cutOff rate)).sum < nanosPerSecond := by
  have hcut := sum_map_nonneg (f := cutOff rate) (fun g => Int.emod_nonneg _ (by decide)) gs
  have hwhole : wholeBytes rate gs.sum =
      (gs.map (wholeBytes rate)).sum + (gs.map (cutOff rate)).sum / nanosPerSecond := by
    rw [wholeBytes, ← sum_whole_add_cut, Int.add_comm, Int.add_mul_ediv_left _ _ (by decide),
      Int.add_comm]
  have hparts := @sum_granted_eq_whole rate hrate gs
  rw [nanosPerSecond] at hwhole ⊢
  rw [hparts (by omega)]
  unfold granted
  omega

end Amounts

namespace TokenBucket

variable {b : TokenBucket}

/-- The budget, and what the stretches of time through the instants add to it. -/
def total (b : TokenBucket) (instants : List Nat) : Int :=
  b.inner.budget.toInt + ((gaps b.inner.updatedAt instants).map (granted b.inner.rate)).sum

/-- The refill at `now` exceeds what a budget can hold, so that it wraps around. -/
def Overflows (b : TokenBucket) (now : Nat) : Prop := 2 ^ 63 ≤ b.total [now]

instance (b : TokenBucket) (now : Nat) : Decidable (b.Overflows now) :=
  inferInstanceAs (Decidable (_ ≤ _))

/-- Reading the budget at the instants never makes it overflow. -/
def InRange : TokenBucket → List Nat → Prop
  | _, [] => True
  | b, now :: later => ¬ b.Overflows now ∧ InRange (b.budget now).2 later

/-- Of the refills at the instants, the one at `now` is the last that overflows. -/
structure LastOverflow (b : TokenBucket) (instants before : List Nat) (now : Nat)
    (after : List Nat) : Prop where
  split : instants = before ++ now :: after
  overflows : (b.polled before).Overflows now
  inRange : ((b.polled before).budget now).2.InRange after

/-- When reading the budget at instants in between makes no difference. An overflow takes `2 ^ 64`
off, and what was there before the last one is gone. -/
inductive Agrees (b : TokenBucket) (instants : List Nat) (last : Nat) : Prop
  | inRange (polls : b.InRange (instants ++ [last])) (alone : ¬ b.Overflows last)
      (same : b.total (instants ++ [last]) = b.total [last] ∨
        b.inner.capacity.toInt ≤ min (b.total (instants ++ [last])) (b.total [last]))
  | overflow {before after : List Nat} {now : Nat}
      (polls : b.LastOverflow (instants ++ [last]) before now after) (alone : b.Overflows last)
      (same : (b.polled before).total (now :: after) = b.total [last])
  | pollsOverflow {before after : List Nat} {now : Nat}
      (polls : b.LastOverflow (instants ++ [last]) before now after) (alone : ¬ b.Overflows last)
      (same : (b.polled before).total (now :: after) - 2 ^ 64 = b.total [last] ∨
        b.inner.capacity.toInt ≤
          min ((b.polled before).total (now :: after) - 2 ^ 64) (b.total [last]))

theorem total_singleton (b : TokenBucket) (now : Nat) : b.total [now] =
    b.inner.budget.toInt + granted b.inner.rate (now - b.inner.updatedAt) := by
  simp [total, gaps]

/-- A refill over some time. -/
theorem refill_budget {now : Nat} (hrate : 0 < b.inner.rate) (hcapacity : 0 < b.inner.capacity)
    (hnow : b.inner.updatedAt < now) :
    (b.budget now).2.inner.updatedAt = now ∧ (b.budget now).2.inner.budget.toInt =
      min b.inner.capacity.toInt
        (if b.Overflows now then b.total [now] - 2 ^ 64 else b.total [now]) := by
  have hbudget : (b.inner.budget + addedBytes b.inner.rate (now - b.inner.updatedAt)).toInt =
      if b.Overflows now then b.total [now] - 2 ^ 64 else b.total [now] := by
    obtain ⟨hnonneg, hlt⟩ := granted_range hrate (now - b.inner.updatedAt)
    have hlow := b.inner.budget.le_toInt
    have hhigh := b.inner.budget.toInt_lt
    have htotal := b.total_singleton now
    rw [Int64.toInt_add, toInt_addedBytes hrate, ← htotal]
    split <;> rename_i hover <;> unfold Overflows at hover
    · rw [← Int.sub_bmod_right]
      exact Int.bmod_eq_of_le (by omega) (by omega)
    · exact Int.bmod_eq_of_le (by omega) (by omega)
  rw [budget, TokenBucketInner.refill, if_neg (by omega), if_pos hcapacity, ← hbudget]
  refine ⟨rfl, ?_⟩
  dsimp only
  split
  · rename_i hfull
    have := Int64.lt_iff_toInt_lt.mp hfull
    omega
  · rename_i hroom
    have := mt Int64.lt_iff_toInt_lt.mpr hroom
    omega

/-- A refill at the instant of the last one does nothing. -/
theorem budget_same (b : TokenBucket) : (b.budget b.inner.updatedAt).2 = b := by
  rw [budget, TokenBucketInner.refill, if_pos (Nat.le_refl _)]

theorem Overflows.lt {now : Nat} (h : b.Overflows now) : b.inner.updatedAt < now := by
  by_contra hle
  have := b.inner.budget.toInt_lt
  rw [Overflows, total_singleton, Nat.sub_eq_zero_of_le (Nat.le_of_not_lt hle), granted_zero] at h
  omega

/-- The bucket is refilled, and the instants come in order from its clock on. -/
structure Polling (b : TokenBucket) (instants : List Nat) : Prop where
  rate : 0 < b.inner.rate
  capacity : 0 < b.inner.capacity
  sorted : (b.inner.updatedAt :: instants).IsChain (· ≤ ·)

namespace Polling

variable {instants before after : List Nat} {now last : Nat}

theorem le (h : b.Polling (now :: after)) : b.inner.updatedAt ≤ now :=
  (List.isChain_cons_cons.mp h.sorted).1

theorem clock (h : b.Polling (now :: after)) : (b.budget now).2.inner.updatedAt = now := by
  rcases Nat.eq_or_lt_of_le h.le with rfl | hlater
  · rw [budget_same]
  · exact (refill_budget h.rate h.capacity hlater).1

theorem budget (h : b.Polling (now :: after)) : (b.budget now).2.Polling after where
  rate := (refill_rate b.inner now).symm ▸ h.rate
  capacity := (refill_capacity b.inner now).symm ▸ h.capacity
  sorted := h.clock.symm ▸ (List.isChain_cons_cons.mp h.sorted).2

theorem polled (h : b.Polling (before ++ after)) : (b.polled before).Polling after ∧
    b.inner.updatedAt ≤ (b.polled before).inner.updatedAt ∧
    (b.polled before).inner.capacity = b.inner.capacity := by
  induction before generalizing b with
  | nil => exact ⟨h, Nat.le_refl _, rfl⟩
  | cons now before ih =>
    obtain ⟨hpolling, hclock, hcapacity⟩ := ih h.budget
    exact ⟨hpolling, h.le.trans (h.clock.ge.trans hclock), hcapacity.trans (refill_capacity _ _)⟩

/-- What is left after the budget was read at the instants, as long as nothing overflows. Without
any stretch of time nothing happens at all. -/
theorem inRange (h : b.Polling instants) (hrange : b.InRange instants) :
    (b.polled instants).inner.budget.toInt =
      if (gaps b.inner.updatedAt instants).sum = 0 then b.inner.budget.toInt
      else min b.inner.capacity.toInt (b.total instants) := by
  induction instants generalizing b with
  | nil => rfl
  | cons now later ih =>
    obtain ⟨hfits, hrange⟩ := hrange
    have hpoll := ih h.budget hrange
    change ((b.budget now).2.polled later).inner.budget.toInt = _
    simp only [total, gaps, List.map_cons, List.sum_cons]
    rcases Nat.eq_or_lt_of_le h.le with rfl | hlater
    · rw [budget_same] at hpoll ⊢
      rw [Nat.sub_self, granted_zero, Nat.zero_add, Int.zero_add]
      exact hpoll
    · obtain ⟨hclock, hbudget⟩ := refill_budget h.rate h.capacity hlater
      rw [if_neg hfits, total_singleton] at hbudget
      have hrest := sum_granted_nonneg h.rate (gaps now later)
      rw [total, hclock, hbudget] at hpoll
      rw [hpoll, if_neg (by omega : ¬ now - b.inner.updatedAt + (gaps now later).sum = 0)]
      simp only [TokenBucket.budget, refill_rate, refill_capacity]
      split
      · rename_i hnone
        rw [sum_granted_of_no_time hnone]
        omega
      · omega

/-- An overflow leaves a negative amount, to which the later stretches of time add theirs. -/
theorem overflows (h : b.Polling (now :: after)) (hover : b.Overflows now)
    (hrange : (b.budget now).2.InRange after) :
    (b.polled (now :: after)).inner.budget.toInt =
      min b.inner.capacity.toInt (b.total (now :: after) - 2 ^ 64) := by
  have hpoll := h.budget.inRange hrange
  obtain ⟨hclock, hbudget⟩ := refill_budget h.rate h.capacity hover.lt
  obtain ⟨_, hlt⟩ := granted_range h.rate (now - b.inner.updatedAt)
  have hhigh := b.inner.budget.toInt_lt
  have hpos : 0 < b.inner.capacity.toInt := Int64.lt_iff_toInt_lt.mp h.capacity
  rw [if_pos hover, total_singleton] at hbudget
  rw [total, hclock, hbudget] at hpoll
  change ((b.budget now).2.polled after).inner.budget.toInt = _
  rw [hpoll, total, gaps, List.map_cons, List.sum_cons]
  simp only [TokenBucket.budget, refill_rate, refill_capacity]
  split
  · rename_i hnone
    rw [sum_granted_of_no_time hnone]
    omega
  · omega

theorem lastOverflow (h : b.Polling instants) (hlast : b.LastOverflow instants before now after) :
    (b.polled instants).inner.budget.toInt = min b.inner.capacity.toInt
      ((b.polled before).total (now :: after) - 2 ^ 64) := by
  obtain ⟨rfl, hover, hrange⟩ := hlast
  obtain ⟨hpolling, _, hcapacity⟩ := h.polled
  rw [← hcapacity, ← hpolling.overflows hover hrange, TokenBucket.polled, List.foldl_append]
  rfl

/-- Some time has passed where a refill overflows. -/
theorem lt_last (h : b.Polling (instants ++ [last]))
    (hlast : b.LastOverflow (instants ++ [last]) before now after) : b.inner.updatedAt < last := by
  have hmem : now ∈ instants ++ [last] := hlast.split ▸ List.mem_append_right _ List.mem_cons_self
  have hpairs := (List.pairwise_cons.mp (List.isChain_iff_pairwise.mp h.sorted)).2
  have hle : now ≤ last := by
    rcases List.mem_append.mp hmem with hnow | hnow
    · exact (List.pairwise_append.mp hpairs).2.2 now hnow last (List.mem_singleton_self _)
    · exact (List.mem_singleton.mp hnow).le
  obtain ⟨_, hclock, _⟩ := (hlast.split ▸ h).polled
  exact (hclock.trans_lt hlast.overflows.lt).trans_le hle

/-- What the last reading alone returns. -/
theorem alone (h : b.Polling (instants ++ [last])) : (b.budget last).1.toInt =
      if last - b.inner.updatedAt = 0 then b.inner.budget.toInt
      else min b.inner.capacity.toInt
        (if b.Overflows last then b.total [last] - 2 ^ 64 else b.total [last]) := by
  rcases Nat.eq_or_lt_of_le (sum_gaps h.sorted).1 with rfl | hlater
  · rw [if_pos (Nat.sub_self _)]
    exact congrArg (·.inner.budget.toInt) b.budget_same
  · rw [if_neg (by omega)]
    exact (refill_budget h.rate h.capacity hlater).2

end Polling

theorem exists_lastOverflow {instants : List Nat} (h : ¬ b.InRange instants) :
    ∃ before now after, b.LastOverflow instants before now after := by
  induction instants generalizing b with
  | nil => exact absurd trivial h
  | cons now later ih =>
    by_cases hrange : (b.budget now).2.InRange later
    · exact ⟨[], now, later, rfl, not_not.mp fun hfits => h ⟨hfits, hrange⟩, hrange⟩
    · obtain ⟨before, instant, after, hsplit, hover, hafter⟩ := ih hrange
      exact ⟨now :: before, instant, after, by rw [hsplit, List.cons_append], hover, hafter⟩

/-- A bucket whose budget is read again before a byte has come in is never refilled. -/
theorem polled_starves {instants : List Nat} (h : b.Polling instants)
    (hbudget : b.inner.budget ≤ b.inner.capacity)
    (hshort : ∀ g ∈ gaps b.inner.updatedAt instants, wholeBytes b.inner.rate g = 0) :
    (b.polled instants).inner.budget = b.inner.budget := by
  induction instants generalizing b with
  | nil => rfl
  | cons now later ih =>
    rw [gaps, List.forall_mem_cons] at hshort
    have hsame : (b.budget now).2.inner.budget = b.inner.budget := by
      rcases Nat.eq_or_lt_of_le h.le with rfl | hlater
      · rw [budget_same]
      · have hle := Int64.le_iff_toInt_le.mp hbudget
        have hlt := b.inner.budget.toInt_lt
        have hnothing : b.total [now] = b.inner.budget.toInt := by
          rw [total_singleton, granted, hshort.1]
          omega
        have hstep := (refill_budget h.rate h.capacity hlater).2
        rw [if_neg (by rw [Overflows]; omega), hnothing] at hstep
        exact Int64.toInt_inj.mp (by omega)
    have hpoll := ih h.budget
    rw [hsame, h.clock] at hpoll
    simp only [budget, refill_rate, refill_capacity] at hpoll
    exact hpoll hbudget hshort.2

section Agreement

variable {instants : List Nat} {last : Nat}

theorem budget_polled (b : TokenBucket) (instants : List Nat) (last : Nat) :
    ((b.polled instants).budget last).1 = (b.polled (instants ++ [last])).inner.budget := by
  rw [polled, polled, List.foldl_append]
  rfl

theorem Polling.agrees (h : b.Polling (instants ++ [last]))
    (hsame : ((b.polled instants).budget last).1.toInt = (b.budget last).1.toInt) :
    b.Agrees instants last := by
  have htime := (sum_gaps h.sorted).2
  have hpos : 0 < b.inner.capacity.toInt := Int64.lt_iff_toInt_lt.mp h.capacity
  obtain ⟨_, hadded⟩ := granted_range h.rate (last - b.inner.updatedAt)
  have hhigh := b.inner.budget.toInt_lt
  have htotal := b.total_singleton last
  rw [budget_polled, h.alone] at hsame
  by_cases hrange : b.InRange (instants ++ [last])
  · rw [h.inRange hrange, htime] at hsame
    have hgain := sum_granted_nonneg h.rate (gaps b.inner.updatedAt (instants ++ [last]))
    by_cases hover : b.Overflows last
    · -- alone the budget wraps around, and falls below what it was
      have := hover.lt
      rw [if_neg (by omega), if_neg (by omega), if_pos hover, total] at hsame
      omega
    · refine .inRange hrange hover ?_
      rw [if_neg hover] at hsame
      by_cases hnone : last - b.inner.updatedAt = 0
      · rw [htotal, hnone, granted_zero, total, sum_granted_of_no_time (htime.trans hnone)]
        exact .inl rfl
      · rw [if_neg hnone, if_neg hnone] at hsame
        omega
  · obtain ⟨before, now, after, hpolled⟩ := exists_lastOverflow hrange
    have hlater := h.lt_last hpolled
    rw [h.lastOverflow hpolled, if_neg (by omega)] at hsame
    by_cases hover : b.Overflows last
    · rw [if_pos hover] at hsame
      exact .overflow hpolled hover (by omega)
    · rw [if_neg hover] at hsame
      exact .pollsOverflow hpolled hover (by omega)

theorem Agrees.eq (hagrees : b.Agrees instants last) (h : b.Polling (instants ++ [last])) :
    ((b.polled instants).budget last).1.toInt = (b.budget last).1.toInt := by
  rw [budget_polled, h.alone]
  cases hagrees with
  | inRange hrange hover hsame =>
    rw [h.inRange hrange, (sum_gaps h.sorted).2, if_neg hover]
    split
    · rfl
    · omega
  | overflow hpolled hover hsame =>
    have := hover.lt
    rw [h.lastOverflow hpolled, if_neg (by omega), if_pos hover, hsame]
  | pollsOverflow hpolled hover hsame =>
    have := h.lt_last hpolled
    rw [h.lastOverflow hpolled, if_neg (by omega), if_neg hover]
    omega

/-- Reading the budget at instants in between leaves what is granted at the last one exactly under
`Agrees`. As long as nothing saturates, the stretches of time add up to the whole exactly if less
than a byte is cut off in all. -/
theorem budget_polled_iff {d : Int64 → Int64 → Nat} (h : Reachable d b)
    (hcapacity : 0 < b.inner.capacity)
    (hsorted : (b.inner.updatedAt :: (instants ++ [last])).IsChain (· ≤ ·)) :
    (((b.polled instants).budget last).1 = (b.budget last).1 ↔ b.Agrees instants last) ∧
      (wholeBytes b.inner.rate (last - b.inner.updatedAt) < 2 ^ 63 →
        (b.total (instants ++ [last]) = b.total [last] ↔
          ((gaps b.inner.updatedAt (instants ++ [last])).map (cutOff b.inner.rate)).sum <
            nanosPerSecond)) := by
  have hpolling : b.Polling (instants ++ [last]) := ⟨h.rate_pos, hcapacity, hsorted⟩
  have htime := (sum_gaps hsorted).2
  refine ⟨?_, fun hfits => ?_⟩
  · rw [← Int64.toInt_inj]
    exact ⟨hpolling.agrees, fun hagrees => hagrees.eq hpolling⟩
  · rw [total_singleton, total, ← htime, Int.add_right_inj]
    exact sum_granted_eq_iff h.rate_pos (htime ▸ hfits)

end Agreement

/-- Half a second is worth whole bytes. -/
theorem budget_polled_iff_halfSecond : ∃ b : TokenBucket, Reachable durationForBytes b ∧
    b.inner.budget = 20 ∧ ((b.polled [500000000]).budget 1000000000).1 =
      (b.budget 1000000000).1 := by
  have hreach : Reachable durationForBytes ((new 100 100 0).spend 0 80) :=
    ⟨100, 100, 0, .single (.spend 0 80)⟩
  refine ⟨_, hreach, by decide, (budget_polled_iff hreach (by decide) (by decide)).1.mpr ?_⟩
  exact .inRange ⟨by decide, by decide, trivial⟩ (by decide) (.inl (by decide))

/-- A hundred days at once are worth more than the budget can hold, sixty and forty are not. -/
example : (((new 0 100 0).spend 0 50).budget (100 * 86400 * nanosPerSecond)).1 = -(2 ^ 63 - 49) ∧
    ((((new 0 100 0).spend 0 50).polled [60 * 86400 * nanosPerSecond]).budget
      (100 * 86400 * nanosPerSecond)).1 = 100 := by
  decide

/-- A hundred bytes a second, of which fifty are spent; the budget is read after five and after
ten milliseconds. The byte that came in is not there. -/
theorem budget_polled_loses : ∃ b : TokenBucket, Reachable durationForBytes b ∧
    0 < b.inner.capacity ∧ b.inner.updatedAt = 0 ∧
    (b.budget 10000000).1 = 51 ∧ ((b.polled [5000000]).budget 10000000).1 = 50 := by
  refine ⟨(new 100 100 0).spend 0 50, ⟨100, 100, 0, .single (.spend 0 50)⟩, ?_⟩
  decide

end TokenBucket

end Nowhere.Transport
