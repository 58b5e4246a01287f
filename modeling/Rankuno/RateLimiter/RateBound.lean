import Rankuno.Foundation.Machine
import Rankuno.RateLimiter.TokenBucket

/-!
# How fast a token bucket lets callers through

The runs of one bucket under `try_acquire` and `time_until_available`, with a clock that
does not go back. Each call holds the bucket's lock from its reading of the clock to its
end, so it is one step. A meter keeps what was granted and when.

What was granted since a time, with what the bucket still holds, is no more than its
capacity and what it accrued since then.
-/

namespace Rankuno

/-- `AsyncTokenBucket`, which has the fields of the other bucket and the same two methods
under a lock of the event loop. -/
abbrev AsyncTokenBucket := TokenBucket

/-- A call of a bucket, with its reading of the clock. -/
inductive BucketCall where
  | tryAcquire (tokens : Nat) (now : ℚ)
  | timeUntilAvailable (tokens : Nat) (now : ℚ)
  deriving DecidableEq

def BucketCall.now : BucketCall → ℚ
  | tryAcquire _ now => now
  | timeUntilAvailable _ now => now

namespace TokenBucket

/-- `__post_init__`: a bucket starts full. -/
def start (key : String) (capacity : Nat) (refillPerSecond now : ℚ) (capacity_pos : 0 < capacity)
    (refill_pos : 0 < refillPerSecond) : TokenBucket where
  key := key
  capacity := capacity
  refillPerSecond := refillPerSecond
  tokens := capacity
  updatedAt := now
  capacity_pos := capacity_pos
  refill_pos := refill_pos

/-- `from_crawl_delay`. -/
def fromCrawlDelay (key : String) (crawlDelayS now : ℚ) (pos : 0 < crawlDelayS) :
    AsyncTokenBucket :=
  start key 1 (1 / crawlDelayS) now Nat.one_pos (one_div_pos.mpr pos)

section Accrual

variable {current updatedAt refillPerSecond now later : ℚ} {capacity : Nat}

theorem accruedTokens_le_capacity :
    accruedTokens current updatedAt capacity refillPerSecond now ≤ capacity :=
  min_le_left _ _

theorem accruedTokens_nonneg (filled : 0 ≤ current) (pos : 0 < refillPerSecond) :
    0 ≤ accruedTokens current updatedAt capacity refillPerSecond now :=
  le_min (Nat.cast_nonneg capacity)
    (add_nonneg filled (mul_nonneg (le_max_left _ _) (le_of_lt pos)))

theorem accruedTokens_eq (forward : updatedAt ≤ now) :
    accruedTokens current updatedAt capacity refillPerSecond now =
      min (capacity : ℚ) (current + (now - updatedAt) * refillPerSecond) := by
  rw [accruedTokens, max_eq_right (sub_nonneg.mpr forward)]

theorem accruedTokens_self (capped : current ≤ capacity) :
    accruedTokens current now capacity refillPerSecond now = current := by
  rw [accruedTokens_eq (le_refl now), sub_self, zero_mul, add_zero, min_eq_right capped]

theorem accruedTokens_trans (pos : 0 < refillPerSecond) (first : updatedAt ≤ now)
    (second : now ≤ later) :
    accruedTokens (accruedTokens current updatedAt capacity refillPerSecond now) now capacity
        refillPerSecond later =
      accruedTokens current updatedAt capacity refillPerSecond later := by
  rw [accruedTokens_eq second, accruedTokens_eq first, accruedTokens_eq (le_trans first second)]
  have more : 0 ≤ (later - now) * refillPerSecond :=
    mul_nonneg (sub_nonneg.mpr second) (le_of_lt pos)
  have whole : (later - updatedAt) * refillPerSecond =
      (now - updatedAt) * refillPerSecond + (later - now) * refillPerSecond := by ring
  rw [whole, ← add_assoc, ← min_add_add_right, ← min_assoc,
    min_eq_left (le_add_of_nonneg_right more)]

end Accrual

end TokenBucket

/-- A bucket with what it granted so far, and when. -/
structure BucketMeter where
  bucket : TokenBucket
  grants : List (ℚ × Nat) := []

namespace BucketMeter

variable (m : BucketMeter)

/-- One call. A `try_acquire` of more than the capacity raises before it takes the lock. -/
def call : BucketCall → BucketMeter
  | .tryAcquire tokens now =>
    match m.bucket.tryAcquire tokens now with
    | .error _ => m
    | .ok (true, bucket) => ⟨bucket, m.grants ++ [(now, tokens)]⟩
    | .ok (false, bucket) => { m with bucket }
  | .timeUntilAvailable tokens now =>
    { m with bucket := (m.bucket.timeUntilAvailable tokens now).2 }

/-- The runs of a bucket whose clock does not go back. -/
def calls : Machine BucketMeter BucketCall where
  step m c := if m.bucket.updatedAt ≤ c.now then some (m.call c) else none

def grantedIn (s t : ℚ) : Nat :=
  ((m.grants.filter fun g => s ≤ g.1 ∧ g.1 ≤ t).map Prod.snd).sum

variable {m} {m' : BucketMeter} {c : BucketCall} {s t t' : ℚ} {tokens : Nat}

theorem step_cases (h : calls.step m c = some m') : m.bucket.updatedAt ≤ c.now ∧ (m' = m ∨
      m' = { m with bucket := m.bucket.refill c.now } ∨
      ∃ tokens : Nat, (tokens : ℚ) ≤ (m.bucket.refill c.now).tokens ∧
        m' = ⟨{ m.bucket.refill c.now with
          tokens := (m.bucket.refill c.now).tokens - tokens }, m.grants ++ [(c.now, tokens)]⟩) := by
  rw [calls] at h
  dsimp only at h
  split at h
  · next forward =>
    refine ⟨forward, ?_⟩
    obtain rfl := Option.some.inj h
    cases c with
    | tryAcquire tokens now =>
      rw [call, TokenBucket.tryAcquire]
      split
      · exact Or.inl rfl
      · next granted =>
        split at granted
        · cases granted
        · dsimp only at granted
          split at granted
          · next enough =>
            cases granted
            exact Or.inr (Or.inr ⟨tokens, enough, rfl⟩)
          · cases granted
      · next short =>
        split at short
        · cases short
        · dsimp only at short
          split at short
          · cases short
          · cases short
            exact Or.inr (Or.inl rfl)
    | timeUntilAvailable tokens now => exact Or.inr (Or.inl rfl)
  · cases h

/-- What a meter keeps of its bucket: the grants that follow a time are covered by what
the bucket could hold then and accrued since. -/
structure Bounded (m : BucketMeter) : Prop where
  filled : 0 ≤ m.bucket.tokens
  capped : m.bucket.tokens ≤ m.bucket.capacity
  past : ∀ g ∈ m.grants, g.1 ≤ m.bucket.updatedAt
  since : ∀ s ≤ m.bucket.updatedAt, m.grantedIn s m.bucket.updatedAt + m.bucket.tokens ≤
    m.bucket.capacity + m.bucket.refillPerSecond * (m.bucket.updatedAt - s)
  within : ∀ s t, s ≤ t → m.grantedIn s t ≤ m.bucket.capacity + m.bucket.refillPerSecond * (t - s)

theorem grantedIn_congr (h : ∀ g ∈ m.grants, (s ≤ g.1 ∧ g.1 ≤ t ↔ s ≤ g.1 ∧ g.1 ≤ t')) :
    m.grantedIn s t = m.grantedIn s t' := by
  have same : m.grants.filter (fun g => s ≤ g.1 ∧ g.1 ≤ t) =
      m.grants.filter fun g => s ≤ g.1 ∧ g.1 ≤ t' :=
    List.filter_congr fun g mem => decide_eq_decide.mpr (h g mem)
  rw [grantedIn, grantedIn, same]

theorem grantedIn_of_le (past : ∀ g ∈ m.grants, g.1 ≤ m.bucket.updatedAt)
    (later : m.bucket.updatedAt ≤ t) : m.grantedIn s t = m.grantedIn s m.bucket.updatedAt :=
  grantedIn_congr fun g mem => and_congr_right fun _ =>
    iff_of_true (le_trans (past g mem) later) (past g mem)

theorem grantedIn_of_lt (past : ∀ g ∈ m.grants, g.1 ≤ m.bucket.updatedAt)
    (later : m.bucket.updatedAt < s) : m.grantedIn s t = 0 := by
  have nothing : m.grants.filter (fun g => s ≤ g.1 ∧ g.1 ≤ t) = [] := by
    refine List.filter_eq_nil_iff.mpr fun g mem => ?_
    rw [decide_eq_true_eq]
    exact fun h => absurd (le_trans h.1 (past g mem)) (not_le_of_gt later)
  rw [grantedIn, nothing]
  rfl

theorem grantedIn_append {bucket : TokenBucket} {now : ℚ} :
    grantedIn ⟨bucket, m.grants ++ [(now, tokens)]⟩ s t =
      m.grantedIn s t + if s ≤ now ∧ now ≤ t then tokens else 0 := by
  rw [grantedIn, grantedIn, List.filter_append, List.map_append, List.sum_append]
  congr 1
  simp only [List.filter_cons, List.filter_nil, decide_eq_true_eq]
  split
  · rfl
  · rfl

theorem bounded_start (key : String) {capacity : Nat} {refillPerSecond now : ℚ}
    (capacity_pos : 0 < capacity) (refill_pos : 0 < refillPerSecond) :
    Bounded ⟨.start key capacity refillPerSecond now capacity_pos refill_pos, []⟩ where
  filled := Nat.cast_nonneg capacity
  capped := le_refl _
  past g mem := by cases mem
  since s before := by
    rw [grantedIn, List.filter_nil, List.map_nil, List.sum_nil, Nat.cast_zero, zero_add]
    exact le_add_of_nonneg_right (mul_nonneg (le_of_lt refill_pos) (sub_nonneg.mpr before))
  within s t before := by
    rw [grantedIn, List.filter_nil, List.map_nil, List.sum_nil, Nat.cast_zero]
    exact add_nonneg (Nat.cast_nonneg capacity)
      (mul_nonneg (le_of_lt refill_pos) (sub_nonneg.mpr before))

theorem Bounded.refill (h : Bounded m) {now : ℚ} (forward : m.bucket.updatedAt ≤ now) :
    Bounded { m with bucket := m.bucket.refill now } where
  filled := TokenBucket.accruedTokens_nonneg h.filled m.bucket.refill_pos
  capped := TokenBucket.accruedTokens_le_capacity
  past g mem := le_trans (h.past g mem) forward
  within := h.within
  since s before := by
    have pos := m.bucket.refill_pos
    rcases le_or_gt s m.bucket.updatedAt with held | after
    · have same : grantedIn { m with bucket := m.bucket.refill now } s now =
          m.grantedIn s m.bucket.updatedAt := grantedIn_of_le h.past forward
      have accrued : (m.bucket.refill now).tokens ≤
          m.bucket.tokens + (now - m.bucket.updatedAt) * m.bucket.refillPerSecond := by
        rw [TokenBucket.refill, TokenBucket.accruedTokens_eq forward]
        exact min_le_right _ _
      have covered := h.since s held
      calc (grantedIn { m with bucket := m.bucket.refill now } s now : ℚ) +
            (m.bucket.refill now).tokens
        _ ≤ m.grantedIn s m.bucket.updatedAt + (m.bucket.tokens +
            (now - m.bucket.updatedAt) * m.bucket.refillPerSecond) := by
          rw [same]
          exact add_le_add_right accrued _
        _ ≤ m.bucket.capacity + m.bucket.refillPerSecond * (now - s) := by linarith
    · have nothing : grantedIn { m with bucket := m.bucket.refill now } s now = 0 :=
        grantedIn_of_lt (m := m) h.past after
      have cap : (m.bucket.refill now).tokens ≤ m.bucket.capacity :=
        TokenBucket.accruedTokens_le_capacity
      have more : 0 ≤ m.bucket.refillPerSecond * (now - s) :=
        mul_nonneg (le_of_lt pos) (sub_nonneg.mpr before)
      calc (grantedIn { m with bucket := m.bucket.refill now } s now : ℚ) +
            (m.bucket.refill now).tokens
        _ = (m.bucket.refill now).tokens := by rw [nothing, Nat.cast_zero, zero_add]
        _ ≤ m.bucket.capacity + m.bucket.refillPerSecond * (now - s) := by linarith

theorem Bounded.grant (h : Bounded m) (enough : (tokens : ℚ) ≤ m.bucket.tokens) :
    Bounded ⟨{ m.bucket with tokens := m.bucket.tokens - tokens },
      m.grants ++ [(m.bucket.updatedAt, tokens)]⟩ where
  filled := sub_nonneg.mpr enough
  capped := le_trans (sub_le_self _ (Nat.cast_nonneg tokens)) h.capped
  past g mem := by
    obtain old | new := List.mem_append.mp mem
    · exact h.past g old
    · obtain rfl := List.mem_singleton.mp new
      exact le_refl _
  since s before := by
    rw [grantedIn_append, if_pos ⟨before, le_refl _⟩, Nat.cast_add]
    have covered := h.since s before
    dsimp only
    linarith
  within s t before := by
    rw [grantedIn_append]
    split
    · next inside =>
      have covered := h.since s inside.1
      have later : m.bucket.refillPerSecond * (m.bucket.updatedAt - s) ≤
          m.bucket.refillPerSecond * (t - s) :=
        mul_le_mul_of_nonneg_left (sub_le_sub_right inside.2 s) (le_of_lt m.bucket.refill_pos)
      have filled := h.filled
      rw [grantedIn_of_le h.past inside.2, Nat.cast_add]
      dsimp only
      linarith
    · exact h.within s t before

theorem Bounded.step (h : Bounded m) (step : calls.step m c = some m') : Bounded m' := by
  obtain ⟨forward, rfl | rfl | ⟨tokens, enough, rfl⟩⟩ := step_cases step
  · exact h
  · exact h.refill forward
  · exact (h.refill forward).grant enough

theorem config_step (step : calls.step m c = some m') : m'.bucket.capacity = m.bucket.capacity ∧
      m'.bucket.refillPerSecond = m.bucket.refillPerSecond := by
  obtain ⟨-, rfl | rfl | ⟨tokens, -, rfl⟩⟩ := step_cases step
  · exact ⟨rfl, rfl⟩
  · exact ⟨rfl, rfl⟩
  · exact ⟨rfl, rfl⟩

theorem grants_step (step : calls.step m c = some m') : m.grants.length ≤ m'.grants.length := by
  obtain ⟨-, rfl | rfl | ⟨tokens, -, rfl⟩⟩ := step_cases step
  · exact Nat.le_refl _
  · exact Nat.le_refl _
  · rw [List.length_append]
    exact Nat.le_add_right _ _

/-- What a bucket holds is what it had at a time, with what it accrued since. -/
structure AccruedFrom (tokens now : ℚ) (m : BucketMeter) : Prop where
  past : now ≤ m.bucket.updatedAt
  tokens_eq : m.bucket.tokens = TokenBucket.accruedTokens tokens now m.bucket.capacity
    m.bucket.refillPerSecond m.bucket.updatedAt

theorem AccruedFrom.refill {held since now : ℚ} (h : AccruedFrom held since m)
    (forward : m.bucket.updatedAt ≤ now) :
    AccruedFrom held since { m with bucket := m.bucket.refill now } where
  past := le_trans h.past forward
  tokens_eq := by
    rw [TokenBucket.refill]
    dsimp only
    rw [h.tokens_eq, TokenBucket.accruedTokens_trans m.bucket.refill_pos h.past forward]

theorem AccruedFrom.run {held since : ℚ} {between : List BucketCall}
    (h : AccruedFrom held since m) (run : calls.run m between = some m')
    (quiet : m'.grants.length ≤ m.grants.length) : AccruedFrom held since m' := by
  induction between generalizing m with
  | nil =>
    cases run
    exact h
  | cons c between ih =>
    obtain ⟨mid, step, rest⟩ := Machine.run_cons_eq_some.mp run
    have grows : mid.grants.length ≤ m'.grants.length := by
      refine Machine.invariant (I := fun x => mid.grants.length ≤ x.grants.length)
        (fun x c y le step => Nat.le_trans le (grants_step step)) (Nat.le_refl _) rest
    obtain ⟨forward, rfl | rfl | ⟨tokens, -, rfl⟩⟩ := step_cases step
    · exact ih h rest quiet
    · exact ih (h.refill forward) rest quiet
    · rw [List.length_append, List.length_singleton] at grows
      omega

theorem granted_after_wait {now later : ℚ} (fits : tokens ≤ m.bucket.capacity)
    {between : List BucketCall}
    (run : calls.run (m.call (.timeUntilAvailable tokens now)) between = some m')
    (quiet : m'.grants = m.grants)
    (waited : now + (m.bucket.timeUntilAvailable tokens now).1 ≤ later)
    (after : m'.bucket.updatedAt ≤ later) :
    ∃ bucket, m'.bucket.tryAcquire tokens later = .ok (true, bucket) := by
  have pos := m.bucket.refill_pos
  have asked : AccruedFrom (m.bucket.refill now).tokens now
      { m with bucket := m.bucket.refill now } :=
    ⟨le_refl now, (TokenBucket.accruedTokens_self
      TokenBucket.accruedTokens_le_capacity).symm⟩
  have config : m'.bucket.capacity = m.bucket.capacity ∧
      m'.bucket.refillPerSecond = m.bucket.refillPerSecond := by
    refine Machine.invariant (I := fun x => x.bucket.capacity = m.bucket.capacity ∧
      x.bucket.refillPerSecond = m.bucket.refillPerSecond) ?_ ⟨rfl, rfl⟩ run
    intro x c y same step
    exact ⟨(config_step step).1.trans same.1, (config_step step).2.trans same.2⟩
  have accrued := asked.run run (Nat.le_of_eq (congrArg List.length quiet))
  have enough : (tokens : ℚ) ≤ (m'.bucket.refill later).tokens := by
    rw [TokenBucket.refill]
    dsimp only
    rw [accrued.tokens_eq, TokenBucket.accruedTokens_trans m'.bucket.refill_pos accrued.past after,
      TokenBucket.accruedTokens_eq (le_trans accrued.past after), config.1, config.2]
    refine le_min (Nat.cast_le.mpr fits) ?_
    have wait : (tokens - (m.bucket.refill now).tokens) / m.bucket.refillPerSecond ≤ later - now :=
      le_trans (le_max_right 0 _) (le_sub_iff_add_le'.mpr waited)
    rw [div_le_iff₀ pos] at wait
    linarith
  rw [TokenBucket.tryAcquire, if_neg (by rw [config.1]; exact Nat.not_lt.mpr fits)]
  dsimp only
  rw [if_pos enough]
  exact ⟨_, rfl⟩

/-- In every run of a bucket: the tokens granted from one time to another are no more than
its capacity and what it accrues between them, it never holds less than nothing or more
than its capacity, and the wait a query answers is long enough. -/
theorem rate_bound {key : String} {capacity : Nat} {refillPerSecond created : ℚ}
    {capacity_pos : 0 < capacity} {refill_pos : 0 < refillPerSecond} {cs : List BucketCall}
    (run : calls.run ⟨.start key capacity refillPerSecond created capacity_pos refill_pos, []⟩ cs =
      some m) :
    (∀ s t, s ≤ t → m.grantedIn s t ≤ capacity + refillPerSecond * (t - s)) ∧
      (0 ≤ m.bucket.tokens ∧ m.bucket.tokens ≤ capacity) ∧
      ∀ tokens now between m' later, tokens ≤ capacity → m.bucket.updatedAt ≤ now →
        calls.run (m.call (.timeUntilAvailable tokens now)) between = some m' →
        m'.grants = m.grants → now + (m.bucket.timeUntilAvailable tokens now).1 ≤ later →
        m'.bucket.updatedAt ≤ later →
          ∃ bucket, m'.bucket.tryAcquire tokens later = .ok (true, bucket) := by
  have bounded : Bounded m :=
    Machine.invariant (fun _ _ _ h step => h.step step) (bounded_start key capacity_pos refill_pos)
      run
  have config : m.bucket.capacity = capacity ∧ m.bucket.refillPerSecond = refillPerSecond := by
    refine Machine.invariant (I := fun x => x.bucket.capacity = capacity ∧
      x.bucket.refillPerSecond = refillPerSecond) ?_ ⟨rfl, rfl⟩ run
    intro x c y same step
    exact ⟨(config_step step).1.trans same.1, (config_step step).2.trans same.2⟩
  obtain ⟨rfl, rfl⟩ := config
  exact ⟨bounded.within, ⟨bounded.filled, bounded.capped⟩,
    fun tokens now between m' later fits _ run quiet waited after =>
      granted_after_wait fits run quiet waited after⟩

/-- A bucket of one token a second that grants it, and is asked for the next one. -/
theorem rate_bound_one : ∃ m,
    calls.run ⟨.start "gsc" 1 1 0 Nat.one_pos one_pos, []⟩ [.tryAcquire 1 0] = some m ∧
      (∀ s t, s ≤ t → m.grantedIn s t ≤ (1 : Nat) + 1 * (t - s)) ∧
      ∃ bucket, (m.call (.timeUntilAvailable 1 0)).bucket.tryAcquire 1 1 = .ok (true, bucket) := by
  have moves : (calls.run ⟨.start "gsc" 1 1 0 Nat.one_pos one_pos, []⟩
      [.tryAcquire 1 0]).map (fun m => (m.bucket.updatedAt, (m.bucket.timeUntilAvailable 1 0).1)) =
        some (0, 1) := by
    decide +kernel
  obtain ⟨m, run, held⟩ := Option.map_eq_some_iff.mp moves
  obtain ⟨granted, -, waited⟩ := rate_bound run
  refine ⟨m, run, granted, waited 1 0 [] _ 1 (Nat.le_refl 1) ?_ rfl rfl ?_ zero_le_one⟩
  · exact le_of_eq (congrArg Prod.fst held)
  · exact le_of_eq ((zero_add _).trans (congrArg Prod.snd held))

end BucketMeter

end Rankuno
