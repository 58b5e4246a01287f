import Mathlib.Algebra.Order.Archimedean.Basic
import Mathlib.Tactic.FieldSimp
import Rankuno.Foundation.Machine
import Rankuno.HttpFetcher.Fetcher
import Rankuno.UrlSafety.Rebuilt

/-!
# The declared crawl delay

A fetcher paces each host by one token bucket, made at the first request for the
host. That is the one for its robots.txt, before any delay is known, so the bucket has
the configured rate and keeps it. A declared delay bounds the rate exactly where the
configured rate does so by itself.
-/

namespace Rankuno

open Python Python.Text HttpFetcher

section Windows

/-- How many of the times are in the window. -/
def countIn (times : List ℚ) (start length : ℚ) : Nat :=
  times.countP fun t => start ≤ t ∧ t ≤ start + length

/-- How many of the times are not before the start. -/
def countFrom (times : List ℚ) (start : ℚ) : Nat := times.countP fun t => start ≤ t

/-- What a bucket owes its rate, with the times at which it let a request through. -/
structure Paced (capacity : Nat) (rate : ℚ) (bucket : TokenBucket) (times : List ℚ) : Prop where
  capacity_eq : bucket.capacity = capacity
  rate_eq : bucket.refillPerSecond = rate
  tokens_nonneg : 0 ≤ bucket.tokens
  tokens_le : bucket.tokens ≤ capacity
  past : ∀ t ∈ times, t ≤ bucket.updatedAt
  since : ∀ start ≤ bucket.updatedAt,
    countFrom times start + bucket.tokens ≤ capacity + (bucket.updatedAt - start) * rate
  window : ∀ start length, 0 ≤ length → countIn times start length ≤ capacity + length * rate

variable {capacity : Nat} {rate : ℚ} {bucket : TokenBucket} {times : List ℚ} {now : ℚ}

theorem countFrom_eq_zero {start : ℚ} (before : ∀ t ∈ times, t < start) :
    countFrom times start = 0 := by
  refine List.countP_eq_zero.mpr fun t mem => ?_
  rw [decide_eq_true_eq, not_le]
  exact before t mem

theorem Paced.refill (h : Paced capacity rate bucket times) (later : bucket.updatedAt ≤ now) :
    Paced capacity rate (bucket.refill now) times := by
  have rate_pos : 0 < rate := h.rate_eq ▸ bucket.refill_pos
  have elapsed : max 0 (now - bucket.updatedAt) = now - bucket.updatedAt :=
    max_eq_right (by linarith)
  have accrued : (bucket.refill now).tokens =
      min (capacity : ℚ) (bucket.tokens + (now - bucket.updatedAt) * rate) := by
    simp only [TokenBucket.refill, TokenBucket.accruedTokens, elapsed, h.capacity_eq, h.rate_eq]
  have gain : 0 ≤ (now - bucket.updatedAt) * rate :=
    mul_nonneg (by linarith) (le_of_lt rate_pos)
  refine ⟨h.capacity_eq, h.rate_eq, ?_, ?_, ?_, ?_, h.window⟩
  · rw [accrued]
    exact le_min (Nat.cast_nonneg _) (add_nonneg h.tokens_nonneg gain)
  · rw [accrued]
    exact min_le_left _ _
  · exact fun t mem => le_trans (h.past t mem) later
  · intro start started
    have atNow : (bucket.refill now).updatedAt = now := rfl
    rw [atNow] at started ⊢
    rw [accrued]
    rcases le_or_gt start bucket.updatedAt with before | after
    · have bound := h.since start before
      have least := min_le_right (capacity : ℚ) (bucket.tokens + (now - bucket.updatedAt) * rate)
      have split : (now - start) * rate =
          (bucket.updatedAt - start) * rate + (now - bucket.updatedAt) * rate := by ring
      linarith
    · have unseen : countFrom times start = 0 :=
        countFrom_eq_zero fun t mem => lt_of_le_of_lt (h.past t mem) after
      have least := min_le_left (capacity : ℚ) (bucket.tokens + (now - bucket.updatedAt) * rate)
      have more : 0 ≤ (now - start) * rate := mul_nonneg (by linarith) (le_of_lt rate_pos)
      rw [unseen, Nat.cast_zero, zero_add]
      linarith

def TokenBucket.spend (bucket : TokenBucket) : TokenBucket :=
  { bucket with tokens := bucket.tokens - (1 : Nat) }

theorem Paced.spend (h : Paced capacity rate bucket times) (enough : (1 : Nat) ≤ bucket.tokens) :
    Paced capacity rate bucket.spend times where
  capacity_eq := h.capacity_eq
  rate_eq := h.rate_eq
  tokens_nonneg := sub_nonneg.mpr enough
  tokens_le := by
    have := h.tokens_le
    simp only [TokenBucket.spend]
    push_cast
    linarith
  past := h.past
  since := by
    intro start started
    have := h.since start started
    simp only [TokenBucket.spend]
    push_cast
    linarith
  window := h.window

theorem Paced.page (h : Paced capacity rate bucket times) (enough : (1 : Nat) ≤ bucket.tokens) :
    Paced capacity rate bucket.spend (times ++ [bucket.updatedAt]) := by
  have spent := h.spend enough
  have rate_pos : 0 < rate := h.rate_eq ▸ bucket.refill_pos
  refine ⟨spent.capacity_eq, spent.rate_eq, spent.tokens_nonneg, spent.tokens_le, ?_, ?_, ?_⟩
  · intro t mem
    rcases List.mem_append.mp mem with before | here
    · exact h.past t before
    · rw [List.mem_singleton.mp here]
      exact le_refl _
  · intro start started
    have bound := h.since start started
    have one : countFrom (times ++ [bucket.updatedAt]) start = countFrom times start + 1 := by
      rw [countFrom, List.countP_append]
      congr 1
      have started : start ≤ bucket.updatedAt := started
      rw [List.countP_singleton, if_pos (by simpa using started)]
    rw [one]
    simp only [TokenBucket.spend]
    push_cast
    linarith
  · intro start length nonneg
    have bound := h.window start length nonneg
    rw [countIn, List.countP_append, List.countP_singleton]
    split
    · next inside =>
      obtain ⟨started, ended⟩ := of_decide_eq_true inside
      have all : countIn times start length = countFrom times start := by
        refine List.countP_congr fun t mem => ?_
        have := h.past t mem
        simp only [decide_eq_true_eq]
        exact ⟨And.left, fun begun => ⟨begun, le_trans this ended⟩⟩
      have since := h.since start started
      have most : (bucket.updatedAt - start) * rate ≤ length * rate :=
        mul_le_mul_of_nonneg_right (by linarith) (le_of_lt rate_pos)
      rw [countIn] at all
      rw [all]
      push_cast at enough ⊢
      linarith
    · exact bound

theorem Paced.perMinute {key : String} {requestsPerMinute burst : Nat}
    (pos : 0 < requestsPerMinute) (burst_pos : 0 < burst) :
    Paced burst (requestsPerMinute / 60)
      (.perMinute key requestsPerMinute (some burst) now pos) [] := by
  have capacity : max 1 burst = burst := Nat.max_eq_right burst_pos
  have rate_pos : (0 : ℚ) < requestsPerMinute / 60 :=
    div_pos (Nat.cast_pos.mpr pos) (by norm_num)
  have full : (TokenBucket.perMinute key requestsPerMinute (some burst) now pos).tokens =
      (burst : ℚ) := by
    simp only [TokenBucket.perMinute, Option.getD_some, capacity]
  refine ⟨capacity, rfl, ?_, le_of_eq full, ?_, ?_, ?_⟩
  · rw [full]
    exact Nat.cast_nonneg _
  · intro t mem
    cases mem
  · intro start started
    have accrued := mul_nonneg (sub_nonneg.mpr started) (le_of_lt rate_pos)
    rw [full, countFrom, List.countP_nil, Nat.cast_zero, zero_add]
    exact le_add_of_nonneg_right accrued
  · intro start length nonneg
    rw [countIn, List.countP_nil, Nat.cast_zero]
    exact add_nonneg (Nat.cast_nonneg _) (mul_nonneg nonneg (le_of_lt rate_pos))

end Windows

namespace HttpFetcher

section Pacing

theorem roundHalfEven_mono {p q : ℚ} (h : p ≤ q) : roundHalfEven p ≤ roundHalfEven q := by
  simp only [roundHalfEven]
  rcases Nat.lt_or_eq_of_le (Nat.floor_mono h) with less | same
  · split <;> split <;> omega
  · have rest : p - ⌊p⌋₊ ≤ q - ⌊q⌋₊ := by
      rw [same]
      exact sub_le_sub_right h _
    rw [same] at rest ⊢
    split
    · split <;> omega
    · next up =>
      rw [if_neg fun down => up ?_]
      rcases down with below | ⟨half, even⟩
      · exact .inl (lt_of_le_of_lt rest below)
      · rcases lt_or_eq_of_le rest with under | equal
        · exact .inl (half ▸ under)
        · exact .inr ⟨equal.trans half, even⟩

theorem hostBurst_pos (rpm : Nat) : 0 < hostBurst rpm := le_max_left 1 _

variable (fetcher : HttpFetcher)

theorem configuredRpm_pos : 0 < fetcher.configuredRpm := by
  rw [configuredRpm]
  split
  · exact fetcher.default_pos
  · split
    · exact fetcher.default_pos
    · exact le_max_left 1 _

theorem hostRpm_pos (delay : Option ℚ) : 0 < fetcher.hostRpm delay := by
  cases delay with
  | none => exact fetcher.configuredRpm_pos
  | some delay =>
    rw [hostRpm]
    split
    · exact fetcher.configuredRpm_pos
    · exact lt_min fetcher.configuredRpm_pos (le_max_left 1 _)

end Pacing

section Runs

/-- A fetcher's buckets and rules, and the page requests it has sent. -/
structure PacingState where
  buckets : Buckets := .empty
  robots : Dict Text RobotsTxt := .empty
  clock : ℚ := 0
  pages : List (Text × ℚ) := []

/-- What a chain does that has to do with the pace of a host. A hop is one try of its
`acquire`. -/
inductive PacingEvent where
  | robotsHop (host : Text) (now : ℚ)
  | robotsRead (host : Text) (rules : RobotsTxt)
  | pageHop (host : Text) (now : ℚ)

/-- The times at which pages of a host were requested. -/
def PacingState.pagesOf (s : PacingState) (host : Text) : List ℚ :=
  (s.pages.filter fun page => page.1 = host).map Prod.snd

def hostKey (host : Text) : String := "host:" ++ String.ofList host

/-- `get_or_create` of a host's bucket. -/
def hostBucket (buckets : Buckets) (host : Text) (rpm : Nat) (pos : 0 < rpm) (now : ℚ) :
    TokenBucket :=
  match buckets.find? (hostKey host) with
  | some bucket => bucket
  | none => .perMinute (hostKey host) rpm (some (hostBurst rpm)) now pos

variable (unicode : UnicodeData) (fetcher : HttpFetcher)

/-- The bucket a hop goes through, under the rules known for its host. -/
def hopBucket (buckets : Buckets) (host : Text) (rules : Option RobotsTxt) (now : ℚ) :
    TokenBucket :=
  let delay := rules.bind fun rules => rules.crawlDelay unicode fetcher.userAgent
  hostBucket buckets host (fetcher.hostRpm delay) (fetcher.hostRpm_pos delay) now

/-- A hop to a host: whether it is let through, and the state after it. -/
def tryHop (s : PacingState) (host : Text) (rules : Option RobotsTxt) (now : ℚ) :
    Bool × PacingState :=
  let bucket := hopBucket unicode fetcher s.buckets host rules now
  match bucket.tryAcquire 1 now with
  | .error _ => (false, { s with buckets := s.buckets.put bucket, clock := now })
  | .ok (granted, after) => (granted, { s with buckets := s.buckets.put after, clock := now })

/-- One event. Rules that are not empty were read from a response, after a hop. A page
is asked for only after the rules have been read. -/
def pacingStep (s : PacingState) : PacingEvent → Option PacingState
  | .robotsHop host now =>
    if s.clock ≤ now then some (tryHop unicode fetcher s host none now).2 else none
  | .robotsRead host rules =>
    if rules = {} ∨ (s.buckets.find? (hostKey host)).isSome then
      some { s with robots := s.robots.alter host rules fun _ => rules }
    else none
  | .pageHop host now =>
    match s.robots.get host with
    | none => none
    | some rules =>
      if s.clock ≤ now then
        let (granted, after) := tryHop unicode fetcher s host (some rules) now
        some (if granted then { after with pages := after.pages ++ [(host, now)] } else after)
      else none

/-- The runs of a fetcher. -/
def pacing : Machine PacingState PacingEvent where
  step := pacingStep unicode fetcher

/-- A declared delay bounds the page requests of every window of every run. -/
def DelayIsFloor (delay : ℚ) : Prop :=
  ∀ opened events s host rules start length,
    (pacing unicode fetcher).run { clock := opened } events = some s →
    s.robots.get host = some rules → rules.crawlDelay unicode fetcher.userAgent = some delay →
    0 ≤ length →
    countIn (s.pagesOf host) start length ≤
      (max 1 (roundHalfEven (1 / delay)) : Nat) + length / delay

end Runs

section Upper

variable {unicode : UnicodeData} {fetcher : HttpFetcher} {s t : PacingState} {host : Text}
variable {rules : Option RobotsTxt} {now : ℚ}

theorem hostKey_inj {host other : Text} : hostKey host = hostKey other ↔ host = other := by
  rw [hostKey, hostKey]
  constructor
  · intro same
    exact String.ofList_injective ((String.append_right_inj _).mp same)
  · rintro rfl
    rfl

/-- Every bucket has the configured rate, and a delay is declared only by a host that has
one. -/
structure ConfiguredPace (unicode : UnicodeData) (fetcher : HttpFetcher) (s : PacingState) :
    Prop where
  paced : ∀ host bucket, s.buckets.find? (hostKey host) = some bucket →
    Paced (hostBurst fetcher.configuredRpm) (fetcher.configuredRpm / 60) bucket (s.pagesOf host) ∧
      bucket.updatedAt ≤ s.clock
  unpaced : ∀ host, s.buckets.find? (hostKey host) = none → s.pagesOf host = []
  delayed : ∀ host rules, s.robots.get host = some rules →
    rules.crawlDelay unicode fetcher.userAgent ≠ none →
    (s.buckets.find? (hostKey host)).isSome

theorem ConfiguredPace.hopBucket (h : ConfiguredPace unicode fetcher s) (later : s.clock ≤ now)
    (configured : s.buckets.find? (hostKey host) = none →
      (rules.bind fun rules => rules.crawlDelay unicode fetcher.userAgent) = none) :
    (hopBucket unicode fetcher s.buckets host rules now).key = hostKey host ∧
      Paced (hostBurst fetcher.configuredRpm) (fetcher.configuredRpm / 60)
        ((HttpFetcher.hopBucket unicode fetcher s.buckets host rules now).refill now)
        (s.pagesOf host) := by
  rw [HttpFetcher.hopBucket, hostBucket]
  split
  · next bucket found =>
    obtain ⟨paced, past⟩ := h.paced host bucket found
    exact ⟨(Table.find?_eq_some.mp found).2, paced.refill (le_trans past later)⟩
  · next missing =>
    refine ⟨rfl, ?_⟩
    rw [h.unpaced host missing]
    simp only [configured missing]
    exact Paced.refill (.perMinute fetcher.configuredRpm_pos (hostBurst_pos _)) (le_refl _)

theorem tryHop_of_le {bucket : TokenBucket}
    (own : HttpFetcher.hopBucket unicode fetcher s.buckets host rules now = bucket)
    (enough : (1 : Nat) ≤ (bucket.refill now).tokens) :
    tryHop unicode fetcher s host rules now =
      (true, { s with buckets := s.buckets.put (bucket.refill now).spend, clock := now }) := by
  have room : ¬bucket.capacity < 1 := not_lt.mpr bucket.capacity_pos
  rw [tryHop, own, TokenBucket.tryAcquire, if_neg room, if_pos enough]
  rfl

theorem tryHop_cases (h : ConfiguredPace unicode fetcher s) (host : Text)
    (rules : Option RobotsTxt) (later : s.clock ≤ now)
    (configured : s.buckets.find? (hostKey host) = none →
      (rules.bind fun rules => rules.crawlDelay unicode fetcher.userAgent) = none) :
    ∃ bucket : TokenBucket, bucket.key = hostKey host ∧ bucket.updatedAt = now ∧
      Paced (hostBurst fetcher.configuredRpm) (fetcher.configuredRpm / 60) bucket (s.pagesOf host) ∧
      (tryHop unicode fetcher s host rules now =
          (false, { s with buckets := s.buckets.put bucket, clock := now }) ∨
        (1 : Nat) ≤ bucket.tokens ∧ tryHop unicode fetcher s host rules now =
          (true, { s with buckets := s.buckets.put bucket.spend, clock := now })) := by
  obtain ⟨key, paced⟩ := h.hopBucket later configured
  generalize own : HttpFetcher.hopBucket unicode fetcher s.buckets host rules now = bucket
    at key paced
  refine ⟨bucket.refill now, key, rfl, paced, ?_⟩
  by_cases enough : ((1 : Nat) : ℚ) ≤ (bucket.refill now).tokens
  · exact .inr ⟨enough, tryHop_of_le own enough⟩
  · have room : ¬bucket.capacity < 1 := not_lt.mpr bucket.capacity_pos
    rw [tryHop, own, TokenBucket.tryAcquire, if_neg room, if_neg enough]
    exact .inl rfl

theorem ConfiguredPace.put (h : ConfiguredPace unicode fetcher s) (later : s.clock ≤ now)
    (bucket : TokenBucket) (key : bucket.key = hostKey host) (updated : bucket.updatedAt = now)
    (more : List (Text × ℚ)) (own : ∀ page ∈ more, page.1 = host)
    (paced : Paced (hostBurst fetcher.configuredRpm) (fetcher.configuredRpm / 60) bucket
      (s.pagesOf host ++ more.map Prod.snd)) :
    ConfiguredPace unicode fetcher
      { s with buckets := s.buckets.put bucket, clock := now, pages := s.pages ++ more } := by
  have pagesOf : ∀ other, PacingState.pagesOf
      { s with buckets := s.buckets.put bucket, clock := now, pages := s.pages ++ more } other =
      if host = other then s.pagesOf other ++ more.map Prod.snd else s.pagesOf other := by
    intro other
    simp only [PacingState.pagesOf, List.filter_append, List.map_append]
    split
    · next same =>
      have all : more.filter (fun page => page.1 = other) = more :=
        List.filter_eq_self.mpr fun page mem => by simp [own page mem, same]
      rw [all]
    · next differs =>
      have nothing : more.filter (fun page => page.1 = other) = [] :=
        List.filter_eq_nil_iff.mpr fun page mem => by simp [own page mem, differs]
      rw [nothing, List.map_nil, List.append_nil]
  refine ⟨?_, ?_, ?_⟩
  · intro other found lookup
    rw [Table.find?_put, key] at lookup
    rw [pagesOf]
    by_cases same : host = other
    · rw [if_pos (congrArg hostKey same)] at lookup
      cases lookup
      rw [if_pos same, ← same]
      exact ⟨paced, le_of_eq updated⟩
    · rw [if_neg (fun keys => same (hostKey_inj.mp keys))] at lookup
      obtain ⟨kept, past⟩ := h.paced other found lookup
      rw [if_neg same]
      exact ⟨kept, le_trans past later⟩
  · intro other missing
    rw [Table.find?_put, key] at missing
    rw [pagesOf]
    split at missing
    · cases missing
    · next differs =>
      rw [if_neg fun same => differs (congrArg hostKey same)]
      exact h.unpaced other missing
  · intro other cached read declares
    exact Buckets.isSome_put (h.delayed other cached read declares)

theorem ConfiguredPace.step {event : PacingEvent} (h : ConfiguredPace unicode fetcher s)
    (step : (pacing unicode fetcher).step s event = some t) : ConfiguredPace unicode fetcher t := by
  cases event with
  | robotsHop host now =>
    simp only [pacing, pacingStep] at step
    split at step
    · next later =>
      obtain ⟨bucket, key, updated, paced, refused | ⟨enough, granted⟩⟩ :=
        tryHop_cases h host none later fun _ => rfl
      · rw [refused] at step
        cases step
        simpa using h.put later bucket key updated [] (by simp) (by simpa using paced)
      · rw [granted] at step
        cases step
        simpa using h.put later bucket.spend key updated [] (by simp)
          (by simpa using paced.spend enough)
    · cases step
  | robotsRead host rules =>
    simp only [pacing, pacingStep] at step
    split at step
    · next known =>
      cases step
      refine ⟨h.paced, h.unpaced, ?_⟩
      intro other cached read declares
      rw [Dict.get_alter] at read
      split at read
      · next same =>
        cases read
        rw [same]
        exact known.resolve_left fun empty => declares (by rw [empty]; rfl)
      · exact h.delayed other cached read declares
    · cases step
  | pageHop host now =>
    simp only [pacing, pacingStep] at step
    split at step
    · cases step
    · next rules read =>
      split at step
      · next later =>
        obtain ⟨bucket, key, updated, paced, refused | ⟨enough, granted⟩⟩ :=
          tryHop_cases h host (some rules) later fun missing => by
            by_contra declares
            have known := h.delayed host rules read declares
            rw [missing] at known
            cases known
        · rw [refused] at step
          cases step
          simpa using h.put later bucket key updated [] (by simp) (by simpa using paced)
        · rw [granted] at step
          cases step
          refine h.put later bucket.spend key updated [(host, now)] (by simp) ?_
          have page := paced.page enough
          rw [updated] at page
          exact page
      · cases step

theorem pages_le_configured {opened : ℚ} {events : List PacingEvent}
    (run : (pacing unicode fetcher).run { clock := opened } events = some s)
    {start length : ℚ} (nonneg : 0 ≤ length) :
    countIn (s.pagesOf host) start length ≤
      hostBurst fetcher.configuredRpm + length * (fetcher.configuredRpm / 60) := by
  have init : ConfiguredPace unicode fetcher { clock := opened } := by
    refine ⟨?_, fun _ _ => rfl, ?_⟩
    · intro host bucket found
      cases found
    · intro host rules read
      cases read
  have h := Machine.invariant (fun _ _ _ held step => held.step step) init run
  cases found : s.buckets.find? (hostKey host) with
  | some bucket => exact (h.paced host bucket found).1.window start length nonneg
  | none =>
    rw [h.unpaced host found, countIn, List.countP_nil, Nat.cast_zero]
    positivity

theorem delayIsFloor_of_le {delay : ℚ} (pos : 0 < delay)
    (slow : fetcher.configuredRpm * delay ≤ 60) : DelayIsFloor unicode fetcher delay := by
  intro opened events s host rules start length run _ _ nonneg
  have rate : (fetcher.configuredRpm : ℚ) / 60 ≤ 1 / delay := by
    rw [div_le_div_iff₀ (by norm_num) pos]
    linarith
  have burst : hostBurst fetcher.configuredRpm ≤ max 1 (roundHalfEven (1 / delay)) :=
    max_le_max (le_refl 1) (roundHalfEven_mono rate)
  calc (countIn (s.pagesOf host) start length : ℚ)
      ≤ hostBurst fetcher.configuredRpm + length * (fetcher.configuredRpm / 60) :=
        pages_le_configured run nonneg
    _ ≤ (max 1 (roundHalfEven (1 / delay)) : Nat) + length * (1 / delay) :=
        add_le_add (Nat.cast_le.mpr burst) (mul_le_mul_of_nonneg_left rate nonneg)
    _ = (max 1 (roundHalfEven (1 / delay)) : Nat) + length / delay := by rw [mul_one_div]

end Upper

section Lower

variable (unicode : UnicodeData) (fetcher : HttpFetcher)

/-- A host's rules that declare a delay for everyone. -/
def declaring (delay : ℚ) : RobotsTxt := ⟨[⟨[['*']], [], some delay⟩], []⟩

theorem crawlDelay_declaring (delay : ℚ) (userAgent : Text) :
    (declaring delay).crawlDelay unicode userAgent = some delay := by
  simp [declaring, RobotsTxt.crawlDelay, RobotsTxt.groupFor, RobotsTxt.GroupChoice.consider]

/-- A request for the rules of a host, then pages as fast as the configured rate lets
them through. -/
def steadyPages (host : Text) (delay : ℚ) (pages : Nat) : List PacingEvent :=
  .robotsHop host 0 :: .robotsRead host (declaring delay) ::
    (List.range pages).map fun k => .pageHop host ((k + 1) * (60 / fetcher.configuredRpm))

/-- The state of a fetcher that paces a host steadily, after some pages. -/
structure Steady (host : Text) (delay : ℚ) (pages : Nat) (s : PacingState) : Prop where
  clock : s.clock = pages * (60 / fetcher.configuredRpm)
  rules : s.robots.get host = some (declaring delay)
  pagesOf : s.pagesOf host =
    (List.range pages).map fun k : Nat => (k + 1 : ℚ) * (60 / fetcher.configuredRpm)
  bucket : ∃ bucket, s.buckets.find? (hostKey host) = some bucket ∧
    bucket.capacity = hostBurst fetcher.configuredRpm ∧
    bucket.refillPerSecond = fetcher.configuredRpm / 60 ∧
    bucket.tokens = hostBurst fetcher.configuredRpm - 1 ∧ bucket.updatedAt = s.clock

variable {unicode fetcher} {host : Text} {delay : ℚ} {pages : Nat} {s : PacingState}

theorem Steady.next (unicode : UnicodeData) (h : Steady fetcher host delay pages s) :
    ∃ t, (pacing unicode fetcher).step s
        (.pageHop host ((pages + 1) * (60 / fetcher.configuredRpm))) = some t ∧
      Steady fetcher host delay (pages + 1) t := by
  have rpm_pos : (0 : ℚ) < fetcher.configuredRpm := Nat.cast_pos.mpr fetcher.configuredRpm_pos
  have gap_pos : 0 < 60 / (fetcher.configuredRpm : ℚ) := div_pos (by norm_num) rpm_pos
  obtain ⟨bucket, found, capacity, rate, tokens, updated⟩ := h.bucket
  have burst : (1 : ℚ) ≤ hostBurst fetcher.configuredRpm :=
    Nat.one_le_cast.mpr (hostBurst_pos _)
  have now : ((pages + 1 : Nat) : ℚ) = pages + 1 := by push_cast; rfl
  rw [← now]
  have elapsed : ((pages + 1 : Nat) : ℚ) * (60 / fetcher.configuredRpm) - s.clock =
      60 / fetcher.configuredRpm := by
    rw [h.clock, now]
    ring
  have full : (bucket.refill ((pages + 1 : Nat) * (60 / fetcher.configuredRpm))).tokens =
      hostBurst fetcher.configuredRpm := by
    have gain : 60 / (fetcher.configuredRpm : ℚ) * (fetcher.configuredRpm / 60) = 1 := by
      field_simp
    rw [TokenBucket.refill]
    simp only [TokenBucket.accruedTokens]
    rw [updated, elapsed, max_eq_right (le_of_lt gap_pos), tokens, capacity, rate, gain,
      sub_add_cancel, min_self]
  have later : s.clock ≤ (pages + 1 : Nat) * (60 / fetcher.configuredRpm) := by linarith
  have key := (Table.find?_eq_some.mp found).2
  have own : hopBucket unicode fetcher s.buckets host (some (declaring delay))
      ((pages + 1 : Nat) * (60 / fetcher.configuredRpm)) = bucket := by
    rw [hopBucket, hostBucket, found]
  have granted := tryHop_of_le own (by rw [full]; exact_mod_cast burst)
  refine ⟨_, by
    simp only [pacing, pacingStep]
    rw [h.rules]
    simp only
    rw [if_pos later, granted], ?_⟩
  refine ⟨rfl, h.rules, ?_, ?_⟩
  · rw [List.range_succ, List.map_append, ← h.pagesOf]
    simp [PacingState.pagesOf]
  · refine ⟨(bucket.refill ((pages + 1 : Nat) * (60 / fetcher.configuredRpm))).spend, ?_, capacity,
      rate, ?_, rfl⟩
    · exact (Table.find?_put).trans (if_pos key)
    · rw [← full]
      simp [TokenBucket.spend]

theorem steady_run (unicode : UnicodeData) (fetcher : HttpFetcher) (host : Text) (delay : ℚ)
    (pages : Nat) :
    ∃ s, (pacing unicode fetcher).run { clock := 0 } (steadyPages fetcher host delay pages) =
      some s ∧ Steady fetcher host delay pages s := by
  induction pages with
  | zero =>
    have burst : (1 : ℚ) ≤ hostBurst fetcher.configuredRpm :=
      Nat.one_le_cast.mpr (hostBurst_pos _)
    have full : max 1 (hostBurst fetcher.configuredRpm) = hostBurst fetcher.configuredRpm :=
      Nat.max_eq_right (hostBurst_pos _)
    obtain ⟨bucket, new⟩ : ∃ bucket : TokenBucket, bucket = .perMinute (hostKey host)
      fetcher.configuredRpm (some (hostBurst fetcher.configuredRpm)) 0
      fetcher.configuredRpm_pos := ⟨_, rfl⟩
    have capacity : bucket.capacity = hostBurst fetcher.configuredRpm := by
      rw [new]
      exact full
    have tokens : (bucket.refill 0).tokens = hostBurst fetcher.configuredRpm := by
      rw [TokenBucket.refill]
      simp only [TokenBucket.accruedTokens, capacity]
      rw [new]
      simp [TokenBucket.perMinute, full]
    have own : hopBucket unicode fetcher ({ clock := 0 } : PacingState).buckets host none 0 =
        bucket := new.symm
    have granted := tryHop_of_le own (by rw [tokens]; exact_mod_cast burst)
    have key : bucket.key = hostKey host := by rw [new]; rfl
    have made : Table.find? (Table.put (.empty : Buckets) (bucket.refill 0).spend)
        (hostKey host) = some (bucket.refill 0).spend :=
      Table.find?_put.trans (if_pos key)
    refine ⟨_, by
      rw [steadyPages, Machine.run_cons_eq_some]
      refine ⟨_, by
        simp only [pacing, pacingStep]
        rw [if_pos (le_refl _), granted], ?_⟩
      rw [Machine.run_cons_eq_some]
      refine ⟨_, by
        simp only [pacing, pacingStep]
        rw [if_pos (.inr (by rw [made]; rfl))], rfl⟩, ?_⟩
    refine ⟨?_, ?_, rfl, (bucket.refill 0).spend, made, capacity, ?_, ?_, rfl⟩
    · simp
    · exact Dict.get_alter.trans (if_pos rfl)
    · rw [new]
      rfl
    · rw [← tokens]
      simp [TokenBucket.spend]
  | succ pages ih =>
    obtain ⟨s, run, steady⟩ := ih
    obtain ⟨t, step, next⟩ := steady.next unicode
    refine ⟨t, ?_, next⟩
    have more : steadyPages fetcher host delay (pages + 1) = steadyPages fetcher host delay pages ++
          [.pageHop host ((pages + 1) * (60 / fetcher.configuredRpm))] := by
      simp [steadyPages, List.range_succ]
    rw [more, Machine.run_append_eq_some]
    exact ⟨s, run, (Machine.run_singleton _ _).trans step⟩

theorem le_of_delayIsFloor (pos : 0 < delay) (floor : DelayIsFloor unicode fetcher delay) :
    fetcher.configuredRpm * delay ≤ 60 := by
  by_contra fast
  have rpm_pos : (0 : ℚ) < fetcher.configuredRpm := Nat.cast_pos.mpr fetcher.configuredRpm_pos
  have passes : 60 < fetcher.configuredRpm * delay := not_le.mp fast
  have share_lt : 60 / fetcher.configuredRpm / delay < 1 := by
    rw [div_div, div_lt_one (mul_pos rpm_pos pos)]
    exact passes
  have spare : 0 < 1 - 60 / fetcher.configuredRpm / delay := sub_pos.mpr share_lt
  obtain ⟨pages, many⟩ := exists_nat_gt
    (((max 1 (roundHalfEven (1 / delay)) : Nat) : ℚ) / (1 - 60 / fetcher.configuredRpm / delay))
  rw [div_lt_iff₀ spare] at many
  obtain ⟨s, run, steady⟩ := steady_run unicode fetcher [] delay pages
  have gap_pos : 0 < 60 / (fetcher.configuredRpm : ℚ) := div_pos (by norm_num) rpm_pos
  have bound := floor 0 _ s [] _ 0 (pages * (60 / fetcher.configuredRpm)) run steady.rules
    (crawlDelay_declaring unicode delay fetcher.userAgent)
    (mul_nonneg (Nat.cast_nonneg _) (le_of_lt gap_pos))
  have all : countIn (s.pagesOf []) 0 (pages * (60 / fetcher.configuredRpm)) = pages := by
    rw [steady.pagesOf, countIn, List.countP_eq_length.mpr, List.length_map, List.length_range]
    intro t mem
    obtain ⟨k, lt, rfl⟩ := List.mem_map.mp mem
    have within : (k : ℚ) + 1 ≤ pages := by exact_mod_cast List.mem_range.mp lt
    rw [decide_eq_true_eq, zero_add]
    exact ⟨by positivity, mul_le_mul_of_nonneg_right within (le_of_lt gap_pos)⟩
  rw [all] at bound
  have share : (pages : ℚ) * (60 / fetcher.configuredRpm) / delay =
      pages * (60 / fetcher.configuredRpm / delay) := by rw [mul_div_assoc]
  rw [share] at bound
  linarith

end Lower

/-- A declared delay is a floor exactly where the configured rate is not above it. -/
theorem delayIsFloor_iff_le (unicode : UnicodeData) (fetcher : HttpFetcher) {delay : ℚ}
    (pos : 0 < delay) :
    DelayIsFloor unicode fetcher delay ↔ fetcher.configuredRpm * delay ≤ 60 :=
  ⟨le_of_delayIsFloor pos, delayIsFloor_of_le pos⟩

section Sample

open UrlSafetyPolicy (asciiData)

theorem sixty_pos : 0 < 60 := by decide

/-- A fetcher with the settings' default of 60 requests per minute. -/
def oneEachSecond : HttpFetcher where
  userAgent := "RankunoBot".toList
  defaultRequestsPerMinute := 60
  default_pos := sixty_pos

theorem delayIsFloor_half_second : DelayIsFloor asciiData oneEachSecond (1 / 2) :=
  (delayIsFloor_iff_le asciiData oneEachSecond (by norm_num)).mpr (by decide +kernel)

/-- A host that asks for ten seconds between requests gets three pages in two. -/
theorem pages_despite_delay : ¬DelayIsFloor asciiData oneEachSecond 10 := by
  have run : ((pacing asciiData oneEachSecond).run { clock := 0 }
      (steadyPages oneEachSecond "shop".toList 10 3)).map (fun s =>
        (s.robots.get "shop".toList, countIn (s.pagesOf "shop".toList) 1 2)) =
      some (some (declaring 10), 3) := by decide +kernel
  intro floor
  obtain ⟨s, ran, seen⟩ := Option.map_eq_some_iff.mp run
  obtain ⟨rules, pages⟩ := Prod.mk.inj seen
  have bound := floor 0 _ s "shop".toList _ 1 2 ran rules
    (crawlDelay_declaring asciiData 10 _) (by norm_num)
  rw [pages] at bound
  have most : max 1 (roundHalfEven (1 / 10)) = 1 := by decide +kernel
  rw [most] at bound
  norm_num at bound

end Sample

end HttpFetcher

end Rankuno
