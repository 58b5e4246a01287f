import Mathlib.Algebra.Order.Floor.Ring
import Mathlib.Data.Rat.Floor
import Mathlib.Tactic.Linarith
import Rankuno.Foundation.Table
import Rankuno.Python.Values

/-!
# Token buckets and their registry

`TokenBucket` and `RateLimiterRegistry` of `core/rate_limiter.py`. A bucket's
own lock makes each of its methods one step, and `acquire` is a loop of such
steps with other callers in between, so it is modelled stage by stage, each
stage with the reading of the clock it takes. Times and tokens are rational
numbers.

With a timeout the loop is short: a caller sleeps at least `minSleepS` a round
and gives up when its deadline has passed.
-/

namespace Rankuno

/-- `f"{q:.nf}"`. -/
def fixed (digits : Nat) (q : ℚ) : String :=
  let scaled := |q| * 10 ^ digits
  let below := ⌊scaled⌋₊
  let rest := scaled - below
  let nearest := if rest < 1 / 2 ∨ rest = 1 / 2 ∧ below % 2 = 0 then below else below + 1
  (if q < 0 then "-" else "") ++ toString (nearest / 10 ^ digits) ++ "." ++
    String.ofList ((Nat.toDigits 10 (nearest % 10 ^ digits)).leftpad digits '0')

structure RateLimitExceededError where
  key : String
  retryAfterS : ℚ
  deriving DecidableEq

def RateLimitExceededError.message (e : RateLimitExceededError) : String :=
  "Rate limit '" ++ e.key ++ "' exhausted; retry in " ++ fixed 2 e.retryAfterS ++ "s"

/-- `_MIN_SLEEP_S`. -/
def minSleepS : ℚ := 1 / 1000

theorem minSleepS_pos : 0 < minSleepS := by
  unfold minSleepS
  norm_num

/-- A bucket whose configuration `_validate_bucket_config` let through. -/
structure TokenBucket where
  key : String
  capacity : Nat
  refillPerSecond : ℚ
  tokens : ℚ
  updatedAt : ℚ
  capacity_pos : 0 < capacity
  refill_pos : 0 < refillPerSecond

/-- Where a caller of `acquire` stands. It knows its deadline once it has read
the clock, and the time until which it sleeps while it does. -/
inductive AcquireStage where
  | started
  | trying (deadline : ℚ)
  | short (deadline : ℚ)
  | waiting (deadline waitS : ℚ)
  | sleeping (deadline till : ℚ)
  deriving DecidableEq

/-- How a stage of `acquire` ends. -/
inductive AcquireMove where
  | next (stage : AcquireStage)
  | granted
  | invalid (error : ValueError)
  | exceeded (error : RateLimitExceededError)
  deriving DecidableEq

namespace TokenBucket

/-- `_accrued_tokens`. -/
def accruedTokens (current updatedAt : ℚ) (capacity : Nat) (refillPerSecond now : ℚ) : ℚ :=
  let elapsed := max 0 (now - updatedAt)
  min capacity (current + elapsed * refillPerSecond)

/-- `per_minute`: a new bucket is full. -/
def perMinute (key : String) (requestsPerMinute : Nat) (burst : Option Nat) (now : ℚ)
    (pos : 0 < requestsPerMinute) : TokenBucket where
  key := key
  capacity := max 1 (burst.getD requestsPerMinute)
  refillPerSecond := requestsPerMinute / 60
  tokens := (max 1 (burst.getD requestsPerMinute) : Nat)
  updatedAt := now
  capacity_pos := le_max_left 1 _
  refill_pos := div_pos (Nat.cast_pos.mpr pos) (by norm_num)

variable (bucket : TokenBucket)

/-- `_refill_locked`. -/
def refill (now : ℚ) : TokenBucket :=
  { bucket with
    tokens := accruedTokens bucket.tokens bucket.updatedAt bucket.capacity
      bucket.refillPerSecond now
    updatedAt := now }

/-- `try_acquire`. -/
def tryAcquire (tokens : Nat) (now : ℚ) : Except ValueError (Bool × TokenBucket) :=
  if bucket.capacity < tokens then
    .error ⟨"Cannot acquire " ++ toString tokens ++ " tokens from '" ++ bucket.key ++
      "' (capacity " ++ toString bucket.capacity ++ ")."⟩
  else
    let refilled := bucket.refill now
    if tokens ≤ refilled.tokens then
      .ok (true, { refilled with tokens := refilled.tokens - tokens })
    else .ok (false, refilled)

/-- `time_until_available`. -/
def timeUntilAvailable (tokens : Nat) (now : ℚ) : ℚ × TokenBucket :=
  let refilled := bucket.refill now
  (max 0 ((tokens - refilled.tokens) / refilled.refillPerSecond), refilled)

/-- One stage of `acquire(timeout_s=…)`, with the bucket after it. A sleeping
caller does nothing before the time it sleeps until. -/
def acquireStep (tokens : Nat) (timeoutS now : ℚ) :
    AcquireStage → Option (TokenBucket × AcquireMove)
  | .started => some (bucket, .next (.trying (now + timeoutS)))
  | .trying deadline =>
    match bucket.tryAcquire tokens now with
    | .error e => some (bucket, .invalid e)
    | .ok (true, after) => some (after, .granted)
    | .ok (false, after) => some (after, .next (.short deadline))
  | .short deadline =>
    let (waitS, after) := bucket.timeUntilAvailable tokens now
    some (after, .next (.waiting deadline waitS))
  | .waiting deadline waitS =>
    let remaining := deadline - now
    if remaining ≤ 0 ∨ remaining < waitS then some (bucket, .exceeded ⟨bucket.key, waitS⟩)
    else some (bucket, .next (.sleeping deadline (now + max waitS minSleepS)))
  | .sleeping deadline till =>
    if till ≤ now then some (bucket, .next (.trying deadline)) else none

@[simp] theorem key_perMinute {key : String} {requestsPerMinute : Nat} {burst : Option Nat}
    {now : ℚ} (pos : 0 < requestsPerMinute) :
    (perMinute key requestsPerMinute burst now pos).key = key := rfl

@[simp] theorem key_refill (now : ℚ) : (bucket.refill now).key = bucket.key := rfl

variable {bucket} {tokens : Nat} {timeoutS now : ℚ} {stage : AcquireStage}
variable {after : TokenBucket} {move : AcquireMove}

theorem exists_isSome_acquireStep (bucket : TokenBucket) (tokens : Nat) (timeoutS clock : ℚ)
    (stage : AcquireStage) :
    ∃ now, clock ≤ now ∧ (bucket.acquireStep tokens timeoutS now stage).isSome := by
  cases stage with
  | sleeping deadline till =>
    refine ⟨max clock till, le_max_left _ _, ?_⟩
    rw [acquireStep, if_pos (le_max_right _ _)]
    rfl
  | trying deadline =>
    refine ⟨clock, le_refl _, ?_⟩
    rw [acquireStep]
    split
    · rfl
    · rfl
    · rfl
  | waiting deadline waitS =>
    refine ⟨clock, le_refl _, ?_⟩
    rw [acquireStep]
    split
    · rfl
    · rfl
  | started => exact ⟨clock, le_refl _, rfl⟩
  | short deadline => exact ⟨clock, le_refl _, rfl⟩

end TokenBucket

namespace AcquireStage

/-- How often a caller can still go to sleep between a time and its deadline. -/
def rounds (deadline now : ℚ) : Nat := ⌈(deadline - now) / minSleepS⌉₊

theorem rounds_le (deadline : ℚ) {now later : ℚ} (h : now ≤ later) :
    rounds deadline later ≤ rounds deadline now := by
  refine Nat.ceil_le_ceil ?_
  have pos := minSleepS_pos
  gcongr

theorem rounds_sleep {deadline now till : ℚ} (before : now < deadline)
    (slept : now + minSleepS ≤ till) : rounds deadline till + 1 ≤ rounds deadline now := by
  have pos := minSleepS_pos
  have less : (deadline - till) / minSleepS ≤ (deadline - now) / minSleepS - 1 := by
    rw [div_sub_one (ne_of_gt pos), div_le_div_iff_of_pos_right pos]
    linarith
  have some_left : 0 < rounds deadline now :=
    Nat.ceil_pos.mpr (div_pos (sub_pos.mpr before) pos)
  have bound : rounds deadline till ≤ rounds deadline now - 1 := by
    calc rounds deadline till ≤ ⌈(deadline - now) / minSleepS - 1⌉₊ := Nat.ceil_le_ceil less
      _ = rounds deadline now - 1 := Nat.ceil_sub_one _
  omega

/-- Falls with every stage, and never rises while the clock runs. -/
def rank (timeoutS clock : ℚ) : AcquireStage → Nat
  | started => 4 * rounds timeoutS 0 + 4
  | trying deadline => 4 * rounds deadline clock + 3
  | short deadline => 4 * rounds deadline clock + 2
  | waiting deadline _ => 4 * rounds deadline clock + 1
  | sleeping deadline till => 4 * rounds deadline till + 4

theorem rank_pos (timeoutS clock : ℚ) (stage : AcquireStage) : 0 < stage.rank timeoutS clock := by
  cases stage <;> exact Nat.succ_pos _

theorem rank_le {timeoutS clock later : ℚ} (h : clock ≤ later) (stage : AcquireStage) :
    stage.rank timeoutS later ≤ stage.rank timeoutS clock := by
  cases stage with
  | started => exact Nat.le_refl _
  | trying deadline =>
    have fewer := rounds_le deadline h
    simp only [rank]
    omega
  | short deadline =>
    have fewer := rounds_le deadline h
    simp only [rank]
    omega
  | waiting deadline waitS =>
    have fewer := rounds_le deadline h
    simp only [rank]
    omega
  | sleeping deadline till => exact Nat.le_refl _

theorem rank_lt {bucket after : TokenBucket} {tokens : Nat} {timeoutS clock now : ℚ}
    {stage next : AcquireStage} (forward : clock ≤ now)
    (h : bucket.acquireStep tokens timeoutS now stage = some (after, .next next)) :
    next.rank timeoutS now < stage.rank timeoutS clock := by
  cases stage with
  | started =>
    cases h
    have same : rounds (now + timeoutS) now = rounds timeoutS 0 := by
      simp [rounds]
    simp only [rank, same]
    omega
  | trying deadline =>
    have fewer := rounds_le deadline forward
    rw [TokenBucket.acquireStep] at h
    split at h
    · cases h
    · cases h
    · cases h
      simp only [rank]
      omega
  | short deadline =>
    have fewer := rounds_le deadline forward
    cases h
    simp only [rank]
    omega
  | waiting deadline waitS =>
    have fewer := rounds_le deadline forward
    rw [TokenBucket.acquireStep] at h
    split at h
    · cases h
    · next inTime =>
      cases h
      have before : now < deadline := by
        have := not_or.mp inTime
        linarith
      have slept : now + minSleepS ≤ now + max waitS minSleepS := by
        gcongr
        exact le_max_right waitS minSleepS
      have used := rounds_sleep before slept
      simp only [rank]
      omega
  | sleeping deadline till =>
    rw [TokenBucket.acquireStep] at h
    split at h
    · next awake =>
      cases h
      have fewer := rounds_le deadline awake
      simp only [rank]
      omega
    · cases h

/-- What a call of `acquire` reaches in so many stages. Between two of them others may move
the bucket as they like. -/
inductive Reached (tokens : Nat) (timeoutS since : ℚ) : AcquireStage → ℚ → Nat → Prop
  | started : Reached tokens timeoutS since started since 0
  | next {stage later : AcquireStage} {clock now : ℚ} {n : Nat} {bucket after : TokenBucket}
      (before : Reached tokens timeoutS since stage clock n) (forward : clock ≤ now)
      (step : bucket.acquireStep tokens timeoutS now stage = some (after, .next later)) :
      Reached tokens timeoutS since later now (n + 1)

theorem lt_of_sleeping {bucket after : TokenBucket} {tokens : Nat} {timeoutS now : ℚ}
    {stage : AcquireStage} {deadline till : ℚ}
    (h : bucket.acquireStep tokens timeoutS now stage =
      some (after, .next (.sleeping deadline till))) : till < deadline + minSleepS := by
  cases stage with
  | waiting deadline waitS =>
    rw [TokenBucket.acquireStep] at h
    split at h
    · cases h
    · next inTime =>
      cases h
      obtain ⟨left, fits⟩ := not_or.mp inTime
      have pos := minSleepS_pos
      rw [add_max]
      exact max_lt (by linarith) (by linarith)
  | trying | sleeping =>
    rw [TokenBucket.acquireStep] at h
    split at h <;> cases h
  | started | short => cases h

/-- Whatever the others do, a call can go on until it ends, and its timeout alone bounds
the stages it takes and how long it sleeps. -/
theorem acquire_bounded {tokens n : Nat} {timeoutS since clock : ℚ} {stage : AcquireStage}
    (h : Reached tokens timeoutS since stage clock n) :
    n < 4 * ⌈timeoutS / minSleepS⌉₊ + 4 ∧
      (∀ deadline till, stage = sleeping deadline till → till < deadline + minSleepS) ∧
      ∀ bucket : TokenBucket, ∃ now, clock ≤ now ∧
        (bucket.acquireStep tokens timeoutS now stage).isSome := by
  have ranked : n + stage.rank timeoutS clock ≤ 4 * rounds timeoutS 0 + 4 := by
    induction h with
    | started => exact (Nat.zero_add _).le
    | next _ forward step ih =>
      have lower := rank_lt forward step
      omega
  refine ⟨?_, ?_, fun bucket => bucket.exists_isSome_acquireStep tokens timeoutS clock stage⟩
  · have pos := stage.rank_pos timeoutS clock
    rw [rounds, sub_zero] at ranked
    omega
  · rintro deadline till rfl
    cases h with
    | next _ _ step => exact lt_of_sleeping step

theorem acquire_bounded_trying :
    1 < 4 * ⌈(1 : ℚ) / minSleepS⌉₊ + 4 ∧
      (∀ deadline till, trying (0 + 1) = sleeping deadline till → till < deadline + minSleepS) ∧
      ∀ bucket : TokenBucket, ∃ now, 0 ≤ now ∧
        (bucket.acquireStep 1 1 now (trying (0 + 1))).isSome := by
  let bucket : TokenBucket := .perMinute "gsc" 60 none 0 (by decide)
  have step : bucket.acquireStep 1 1 0 started = some (bucket, .next (trying (0 + 1))) := rfl
  exact acquire_bounded (Reached.started.next le_rfl step)

end AcquireStage

/-- `RateLimiterRegistry._buckets`. -/
abbrev Buckets := Table String TokenBucket.key

namespace Buckets

/-- `get_or_create`, with the settings' `default_requests_per_minute`. -/
def getOrCreate (buckets : Buckets) (key : String) (requestsPerMinute : Nat)
    (pos : 0 < requestsPerMinute) (now : ℚ) : Buckets :=
  match buckets.find? key with
  | some _ => buckets
  | none => buckets.put (.perMinute key requestsPerMinute none now pos)

variable {buckets : Buckets} {key k : String} {requestsPerMinute : Nat}
variable {pos : 0 < requestsPerMinute} {now : ℚ}

theorem isSome_put {bucket : TokenBucket} (found : (buckets.find? k).isSome) :
    ((buckets.put bucket).find? k).isSome := by
  rw [Table.find?_put]
  split
  · rfl
  · exact found

theorem isSome_getOrCreate_self :
    ((buckets.getOrCreate key requestsPerMinute pos now).find? key).isSome := by
  unfold getOrCreate
  split
  · next found => rw [found]; rfl
  · rw [Table.find?_put, if_pos (TokenBucket.key_perMinute pos)]
    rfl

theorem isSome_getOrCreate (found : (buckets.find? k).isSome) :
    ((buckets.getOrCreate key requestsPerMinute pos now).find? k).isSome := by
  unfold getOrCreate
  split
  · exact found
  · exact isSome_put found

end Buckets

end Rankuno
