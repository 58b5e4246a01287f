import Mathlib.Algebra.Order.Field.Basic
import Mathlib.Tactic.Linarith
import Mathlib.Tactic.Ring
import Rankuno.Foundation.Machine

/-!
# The token bucket that workers share through Redis

`AsyncRedisTokenBucket` of `core/rate_limiter.py`: its script runs atomically,
with the capacity, the rate and the caller's own clock as arguments. Numbers are
those of any ordered field. The script stores the time it is given even when it
is earlier than the stored one, so the rate bound holds in the runs whose times
never step back behind the stored one.
-/

universe u

namespace Rankuno

variable {K : Type u} [Field K] [LinearOrder K]

/-- What `_validate_bucket_config` lets through. -/
structure RedisTokenBucket (K : Type u) [Field K] [LinearOrder K] where
  capacity : K
  refillRate : K
  capacity_pos : 0 < capacity
  refillRate_pos : 0 < refillRate

/-- The two fields the script keeps under its key. -/
structure BucketHash (K : Type u) where
  tokens : Option K
  updatedAt : Option K
  deriving DecidableEq

/-- A call of `try_acquire`: the tokens it asks for and the time it read. -/
structure AcquireRequest (K : Type u) where
  tokens : K
  now : K
  deriving DecidableEq

/-- The hash, and what has been granted in total. -/
structure BucketState (K : Type u) where
  hash : BucketHash K
  granted : K
  deriving DecidableEq

namespace RedisTokenBucket

variable (bucket : RedisTokenBucket K)

/-- The tokens there are at a time, before any are taken. -/
def accrued (hash : BucketHash K) (now : K) : K :=
  let tokens := hash.tokens.getD bucket.capacity
  let updatedAt := hash.updatedAt.getD now
  let elapsed := max 0 (now - updatedAt)
  min bucket.capacity (tokens + elapsed * bucket.refillRate)

/-- `ACQUIRE_SCRIPT`: whether it returns 1, and the hash it writes. -/
def acquireScript (hash : BucketHash K) (request : AcquireRequest K) : Bool × BucketHash K :=
  let tokens := bucket.accrued hash request.now
  if request.tokens ≤ tokens then (true, ⟨some (tokens - request.tokens), some request.now⟩)
  else (false, ⟨some tokens, some request.now⟩)

def machine : Machine (BucketState K) (AcquireRequest K) where
  step s request :=
    let answer := bucket.acquireScript s.hash request
    some ⟨answer.2, if answer.1 then s.granted + request.tokens else s.granted⟩

/-- The key does not exist yet. -/
def start : BucketState K := ⟨⟨none, none⟩, 0⟩

/-- The tokens granted over a run stay below the rate bound. -/
def WithinRate (requests : List (AcquireRequest K)) : Prop :=
  ∀ s ∈ bucket.machine.run start requests,
    ∀ hi ∈ (requests.map AcquireRequest.now).max?, ∀ lo ∈ (requests.map AcquireRequest.now).min?,
      s.granted ≤ bucket.capacity + bucket.refillRate * (hi - lo)

/-- A request that does not step back behind the stored time. -/
def NotBefore (s : BucketState K) (request : AcquireRequest K) : Prop :=
  ∀ updatedAt ∈ s.hash.updatedAt, updatedAt ≤ request.now

instance (s : BucketState K) (request : AcquireRequest K) : Decidable (NotBefore s request) :=
  inferInstanceAs (Decidable (∀ updatedAt ∈ s.hash.updatedAt, updatedAt ≤ request.now))

theorem accrued_start (now : K) :
    bucket.accrued (start : BucketState K).hash now = bucket.capacity := by
  simp [accrued, start]

section Bound

variable [IsStrictOrderedRing K] {bucket} {s t : BucketState K} {request : AcquireRequest K}
variable {requests : List (AcquireRequest K)}

theorem step_cases (hstep : bucket.machine.step s request = some t) :
    t.hash.updatedAt = some request.now ∧ ∃ left, t.hash.tokens = some left ∧
      t.granted + left = s.granted + bucket.accrued s.hash request.now ∧
      (0 ≤ bucket.accrued s.hash request.now → 0 ≤ left) := by
  cases hstep
  unfold acquireScript
  by_cases enough : request.tokens ≤ bucket.accrued s.hash request.now
  · refine ⟨by rw [if_pos enough], _, by rw [if_pos enough], ?_, ?_⟩
    · simp only [if_pos enough, if_true]
      ring
    · intro _
      exact sub_nonneg.mpr enough
  · refine ⟨by rw [if_neg enough], _, by rw [if_neg enough], ?_, id⟩
    simp only [if_neg enough]
    rfl

theorem accrued_of_notBefore (bucket : RedisTokenBucket K) {left last now : K}
    (nonneg : 0 ≤ left) (forward : last ≤ now) :
    0 ≤ bucket.accrued ⟨some left, some last⟩ now ∧
      bucket.accrued ⟨some left, some last⟩ now ≤ left + bucket.refillRate * (now - last) := by
  have elapsed : max 0 (now - last) = now - last := max_eq_right (sub_nonneg.mpr forward)
  have refilled : 0 ≤ (now - last) * bucket.refillRate :=
    mul_nonneg (sub_nonneg.mpr forward) bucket.refillRate_pos.le
  simp only [accrued, Option.getD_some, elapsed]
  constructor
  · exact le_min bucket.capacity_pos.le (add_nonneg nonneg refilled)
  · rw [mul_comm]
    exact min_le_right _ _

/-- What has been granted and what is left, against the times presented so far.
The stored time is the last of them. -/
inductive Metered (bucket : RedisTokenBucket K) :
    List (AcquireRequest K) → BucketState K → Prop where
  | unused : Metered bucket [] start
  | used {requests : List (AcquireRequest K)} {s : BucketState K} {left last : K}
      (hash : s.hash = ⟨some left, some last⟩) (nonneg : 0 ≤ left)
      (presented : last ∈ requests.map AcquireRequest.now)
      (balance : ∀ lo, (∀ now ∈ requests.map AcquireRequest.now, lo ≤ now) →
        s.granted + left ≤ bucket.capacity + bucket.refillRate * (last - lo)) :
      Metered bucket requests s

theorem Metered.step (h : Metered bucket requests s) (notBefore : NotBefore s request)
    (hstep : bucket.machine.step s request = some t) :
    Metered bucket (requests ++ [request]) t := by
  obtain ⟨updatedAt, left, tokens, taken, nonneg⟩ := step_cases hstep
  have hash : t.hash = ⟨some left, some request.now⟩ := by
    rw [← tokens, ← updatedAt]
  have presented : request.now ∈ (requests ++ [request]).map AcquireRequest.now := by simp
  cases h with
  | unused =>
    rw [accrued_start] at taken nonneg
    refine .used hash (nonneg bucket.capacity_pos.le) presented fun lo below => ?_
    have low : lo ≤ request.now := below _ presented
    have refilled : 0 ≤ bucket.refillRate * (request.now - lo) :=
      mul_nonneg bucket.refillRate_pos.le (sub_nonneg.mpr low)
    have none_granted : (start : BucketState K).granted = 0 := rfl
    rw [taken, none_granted]
    linarith
  | @used _ _ before last stored positive known balance =>
    have forward : last ≤ request.now := notBefore last (by rw [stored]; rfl)
    obtain ⟨accrued_nonneg, accrued_le⟩ := bucket.accrued_of_notBefore positive forward
    rw [stored] at taken nonneg
    refine .used hash (nonneg accrued_nonneg) presented fun lo below => ?_
    have earlier := balance lo fun now mem =>
      below now (by rw [List.map_append]; exact List.mem_append_left _ mem)
    calc t.granted + left
        = s.granted + bucket.accrued ⟨some before, some last⟩ request.now := taken
      _ ≤ s.granted + (before + bucket.refillRate * (request.now - last)) := by linarith
      _ ≤ bucket.capacity + bucket.refillRate * (last - lo) +
            bucket.refillRate * (request.now - last) := by linarith
      _ = bucket.capacity + bucket.refillRate * (request.now - lo) := by ring

end Bound

end RedisTokenBucket

end Rankuno
