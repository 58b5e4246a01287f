import Rankuno.Foundation.Machine

/-!
# The circuit breaker in front of the database

`CircuitBreaker` of `core/circuit_breaker.py`. Every reading of the clock is an
argument, over any type of times that can be subtracted and compared. A success
leaves the failure count of a closed breaker as it is, and a half-open breaker
answers every query like a closed one, so failures count as consecutive, and
probes stay single, exactly in the runs that avoid these two calls.
-/

universe u

namespace Rankuno

/-- `opened` is the source's `OPEN`. -/
inductive CircuitBreakerState where
  | closed
  | opened
  | halfOpen
  deriving DecidableEq

structure CircuitBreaker (τ : Type u) where
  failureThreshold : Int
  recoveryTimeoutS : τ
  state : CircuitBreakerState := .closed
  failureCount : Nat := 0
  lastFailureTime : Option τ := none
  deriving DecidableEq

namespace CircuitBreaker

variable {τ : Type u}

/-- A breaker as it is constructed. -/
def new (failureThreshold : Int) (recoveryTimeoutS : τ) : CircuitBreaker τ where
  failureThreshold := failureThreshold
  recoveryTimeoutS := recoveryTimeoutS

variable (b : CircuitBreaker τ)

/-- `record_failure`. -/
def recordFailure (now : τ) : CircuitBreaker τ :=
  let b := { b with failureCount := b.failureCount + 1, lastFailureTime := some now }
  match b.state with
  | .closed => if b.failureThreshold ≤ b.failureCount then { b with state := .opened } else b
  | .halfOpen => { b with state := .opened, failureCount := 1 }
  | .opened => b

/-- `record_success`. -/
def recordSuccess : CircuitBreaker τ :=
  match b.state with
  | .halfOpen => { b with state := .closed, failureCount := 0, lastFailureTime := none }
  | .closed | .opened => b

variable [Sub τ] [LE τ] [DecidableLE τ]

/-- `is_open`, with the breaker it leaves. -/
def isOpen (now : τ) : Bool × CircuitBreaker τ :=
  match b.state with
  | .opened =>
    match b.lastFailureTime with
    | some last =>
      if b.recoveryTimeoutS ≤ now - last then (false, { b with state := .halfOpen })
      else (true, b)
    | none => (true, b)
  | .closed | .halfOpen => (false, b)

end CircuitBreaker

/-- A call on a breaker, with its reading of the clock. -/
inductive BreakerCall (τ : Type u) where
  | recordSuccess
  | recordFailure (now : τ)
  | isOpen (now : τ)
  deriving DecidableEq

inductive BreakerOutcome where
  | success
  | failure
  deriving DecidableEq

namespace BreakerCall

variable {τ : Type u}

/-- The outcome a call records, if it records one. -/
def outcome? : BreakerCall τ → Option BreakerOutcome
  | .recordSuccess => some .success
  | .recordFailure _ => some .failure
  | .isOpen _ => none

def failureTime? : BreakerCall τ → Option τ
  | .recordFailure now => some now
  | .recordSuccess | .isOpen _ => none

/-- The recorded outcomes of a sequence of calls, oldest first. -/
def outcomes (calls : List (BreakerCall τ)) : List BreakerOutcome := calls.filterMap outcome?

/-- When the last failure of a sequence of calls was recorded. -/
def lastFailure? (calls : List (BreakerCall τ)) : Option τ :=
  (calls.filterMap failureTime?).getLast?

end BreakerCall

namespace CircuitBreaker

open BreakerCall

variable {τ : Type u}

section Tracking

variable {threshold : Int} {timeout : τ} {calls : List (BreakerCall τ)}
variable {b : CircuitBreaker τ} {call : BreakerCall τ}

theorem outcomes_append (calls : List (BreakerCall τ)) (call : BreakerCall τ) :
    outcomes (calls ++ [call]) = outcomes calls ++ call.outcome?.toList := by
  rw [outcomes, List.filterMap_append]
  cases call <;> rfl

theorem lastFailure?_append_failure (calls : List (BreakerCall τ)) (now : τ) :
    lastFailure? (calls ++ [.recordFailure now]) = some now := by
  simp [lastFailure?, failureTime?]

theorem lastFailure?_append (calls : List (BreakerCall τ)) (call : BreakerCall τ)
    (h : call.failureTime? = none) :
    lastFailure? (calls ++ [call]) = lastFailure? calls := by
  simp [lastFailure?, h]

/-- What a breaker knows of the calls made on it: while it is closed its count
is a run of failures at the end, and otherwise it holds the time of the last
one. -/
structure Tracks (threshold : Int) (timeout : τ) (calls : List (BreakerCall τ))
    (b : CircuitBreaker τ) : Prop where
  failureThreshold : b.failureThreshold = threshold
  recoveryTimeoutS : b.recoveryTimeoutS = timeout
  consecutive : b.state = .closed → List.replicate b.failureCount .failure <:+ outcomes calls
  last : b.state ≠ .closed → b.lastFailureTime = lastFailure? calls

theorem Tracks.new (threshold : Int) (timeout : τ) :
    Tracks threshold timeout [] (new threshold timeout) where
  failureThreshold := rfl
  recoveryTimeoutS := rfl
  consecutive := fun _ => List.suffix_rfl
  last := fun h => absurd rfl h

theorem Tracks.failures_append (h : Tracks threshold timeout calls b) (closed : b.state = .closed)
    (now : τ) :
    List.replicate (b.failureCount + 1) .failure <:+ outcomes (calls ++ [.recordFailure now]) := by
  obtain ⟨earlier, same⟩ := h.consecutive closed
  refine ⟨earlier, ?_⟩
  rw [outcomes_append, ← same, List.append_assoc, List.replicate_succ']
  rfl

theorem Tracks.recordFailure (h : Tracks threshold timeout calls b) (now : τ) :
    Tracks threshold timeout (calls ++ [.recordFailure now]) (b.recordFailure now) := by
  have last := lastFailure?_append_failure calls now
  unfold CircuitBreaker.recordFailure
  cases state : b.state with
  | closed =>
    have failures := h.failures_append state now
    dsimp only
    split
    · exact ⟨h.failureThreshold, h.recoveryTimeoutS, nofun, fun _ => last.symm⟩
    · exact ⟨h.failureThreshold, h.recoveryTimeoutS, fun _ => failures, fun _ => last.symm⟩
  | halfOpen =>
    exact ⟨h.failureThreshold, h.recoveryTimeoutS, nofun, fun _ => last.symm⟩
  | opened =>
    exact ⟨h.failureThreshold, h.recoveryTimeoutS, (by simp), fun _ => last.symm⟩

theorem Tracks.recordSuccess (h : Tracks threshold timeout calls b)
    (unfailed : b.state = .closed → b.failureCount = 0) :
    Tracks threshold timeout (calls ++ [.recordSuccess]) b.recordSuccess := by
  have last := lastFailure?_append calls .recordSuccess rfl
  unfold CircuitBreaker.recordSuccess
  cases state : b.state with
  | closed =>
    refine ⟨h.failureThreshold, h.recoveryTimeoutS, fun _ => ?_, fun other => absurd state other⟩
    rw [unfailed state]
    exact List.nil_suffix
  | halfOpen =>
    exact ⟨h.failureThreshold, h.recoveryTimeoutS, fun _ => List.nil_suffix,
      fun other => absurd rfl other⟩
  | opened =>
    refine ⟨h.failureThreshold, h.recoveryTimeoutS, (by simp [state]), fun other => ?_⟩
    rw [last]
    exact h.last other

end Tracking

variable [Sub τ] [LE τ] [DecidableLE τ]

def machine : Machine (CircuitBreaker τ) (BreakerCall τ) where
  step b
    | .recordSuccess => some b.recordSuccess
    | .recordFailure now => some (b.recordFailure now)
    | .isOpen now => some (b.isOpen now).2

/-- What a series of queries answers. -/
def answers (b : CircuitBreaker τ) : List τ → List Bool
  | [] => []
  | now :: nows => (b.isOpen now).1 :: answers (b.isOpen now).2 nows

/-- What the breaker promises of the calls made on a new one. -/
structure Contract (threshold : Int) (timeout : τ) (calls : List (BreakerCall τ)) : Prop where
  /-- It opens only on consecutive failures. -/
  opens_on_consecutive : ∀ pre call post b c, calls = pre ++ call :: post →
    machine.run (new threshold timeout) pre = some b →
    machine.step b call = some c → b.state = .closed → c.state = .opened →
    List.replicate threshold.toNat .failure <:+ outcomes (pre ++ [call])
  /-- While it is open, it answers so until the timeout since the last failure. -/
  open_until_timeout : ∀ pre now post b last, calls = pre ++ .isOpen now :: post →
    machine.run (new threshold timeout) pre = some b → b.state = .opened →
    lastFailure? pre = some last → ¬timeout ≤ now - last → (b.isOpen now).1 = true
  /-- After that, one query is let through before the next outcome. -/
  one_probe : ∀ pre nows post b last, calls = pre ++ nows.map .isOpen ++ post →
    machine.run (new threshold timeout) pre = some b → b.state = .opened →
    lastFailure? pre = some last → (∃ now ∈ nows, timeout ≤ now - last) →
    (answers b nows).count false = 1

/-- A success finds a closed breaker without failures, and no query finds it
half-open. -/
def InTurn (b : CircuitBreaker τ) : BreakerCall τ → Prop
  | .recordSuccess => b.state = .closed → b.failureCount = 0
  | .recordFailure _ => True
  | .isOpen _ => b.state ≠ .halfOpen

instance (b : CircuitBreaker τ) : ∀ call, Decidable (InTurn b call)
  | .recordSuccess => inferInstanceAs (Decidable (b.state = .closed → b.failureCount = 0))
  | .recordFailure _ => isTrue trivial
  | .isOpen _ => inferInstanceAs (Decidable (b.state ≠ .halfOpen))

section Runs

variable {threshold : Int} {timeout now last : τ} {calls : List (BreakerCall τ)}
variable {b c : CircuitBreaker τ} {call : BreakerCall τ}

theorem isOpen_cases (b : CircuitBreaker τ) (now : τ) : (b.isOpen now).2 = b ∨
      b.state = .opened ∧ (b.isOpen now).2 = { b with state := .halfOpen } := by
  unfold CircuitBreaker.isOpen
  split
  · next opened =>
    split
    · split
      · exact .inr ⟨opened, rfl⟩
      · exact .inl rfl
    · exact .inl rfl
  · exact .inl rfl
  · exact .inl rfl

theorem Tracks.isOpen (h : Tracks threshold timeout calls b) (now : τ) :
    Tracks threshold timeout (calls ++ [.isOpen now]) (b.isOpen now).2 := by
  have last := lastFailure?_append calls (.isOpen now) rfl
  have same : outcomes (calls ++ [.isOpen now]) = outcomes calls := by
    rw [outcomes_append]
    exact List.append_nil _
  rcases isOpen_cases b now with kept | ⟨opened, halfOpen⟩
  · rw [kept]
    exact ⟨h.failureThreshold, h.recoveryTimeoutS, fun closed => same ▸ h.consecutive closed,
      fun other => last ▸ h.last other⟩
  · rw [halfOpen]
    exact ⟨h.failureThreshold, h.recoveryTimeoutS, nofun, fun _ => last ▸ h.last (by simp [opened])⟩

theorem Tracks.step (h : Tracks threshold timeout calls b) (inTurn : InTurn b call)
    (hstep : machine.step b call = some c) : Tracks threshold timeout (calls ++ [call]) c := by
  cases call with
  | recordSuccess =>
    cases hstep
    exact h.recordSuccess inTurn
  | recordFailure now =>
    cases hstep
    exact h.recordFailure now
  | isOpen now =>
    cases hstep
    exact h.isOpen now

theorem tracks_of_run (inTurn : machine.Meets InTurn (new threshold timeout) calls)
    (run : machine.run (new threshold timeout) calls = some b) :
    Tracks threshold timeout calls b :=
  Machine.trace_invariant_of_meets (fun _ _ _ _ h => h.step) (.new threshold timeout) inTurn run

theorem opens_of_failure (hstep : machine.step b call = some c) (closed : b.state = .closed)
    (opened : c.state = .opened) :
    (∃ now, call = .recordFailure now) ∧ b.failureThreshold ≤ b.failureCount + 1 := by
  cases call with
  | recordSuccess =>
    cases hstep
    simp [CircuitBreaker.recordSuccess, closed] at opened
  | recordFailure now =>
    cases hstep
    simp only [CircuitBreaker.recordFailure, closed] at opened
    split at opened
    · next reached => exact ⟨⟨now, rfl⟩, by exact_mod_cast reached⟩
    · cases opened
  | isOpen now =>
    cases hstep
    simp [CircuitBreaker.isOpen, closed] at opened

theorem Tracks.opens (h : Tracks threshold timeout calls b)
    (hstep : machine.step b call = some c) (closed : b.state = .closed)
    (opened : c.state = .opened) :
    List.replicate threshold.toNat .failure <:+ outcomes (calls ++ [call]) := by
  obtain ⟨⟨now, rfl⟩, reached⟩ := opens_of_failure hstep closed opened
  rw [h.failureThreshold] at reached
  have fewer : threshold.toNat ≤ b.failureCount + 1 := by omega
  refine List.IsSuffix.trans ⟨List.replicate (b.failureCount + 1 - threshold.toNat) .failure, ?_⟩
    (h.failures_append closed now)
  rw [List.replicate_append_replicate, Nat.sub_add_cancel fewer]

theorem Tracks.isOpen_of_opened (h : Tracks threshold timeout calls b) (opened : b.state = .opened)
    (hlast : lastFailure? calls = some last) (now : τ) :
    b.isOpen now =
      if timeout ≤ now - last then (false, { b with state := .halfOpen }) else (true, b) := by
  have held : b.lastFailureTime = some last := hlast ▸ h.last (by simp [opened])
  simp only [CircuitBreaker.isOpen, opened, held, h.recoveryTimeoutS]

theorem count_answers (compares : ∀ now, b.isOpen now =
      if timeout ≤ now - last then (false, { b with state := .halfOpen }) else (true, b))
    {nows : List τ} {post : List (BreakerCall τ)}
    (inTurn : machine.Meets InTurn b (nows.map .isOpen ++ post))
    (elapsed : ∃ now ∈ nows, timeout ≤ now - last) : (answers b nows).count false = 1 := by
  induction nows with
  | nil =>
    obtain ⟨now, mem, -⟩ := elapsed
    cases mem
  | cons now nows ih =>
    rw [answers, compares now]
    have rest := inTurn.tail (t := (b.isOpen now).2) rfl
    rw [compares now] at rest
    by_cases due : timeout ≤ now - last
    · rw [if_pos due] at rest ⊢
      cases nows with
      | nil => rfl
      | cons next nows => exact absurd rfl rest.head
    · rw [if_neg due] at rest ⊢
      refine ih rest ?_
      obtain ⟨later, mem, due_later⟩ := elapsed
      rcases List.mem_cons.mp mem with rfl | mem
      · exact absurd due_later due
      · exact ⟨later, mem, due_later⟩

end Runs

/-- In every run whose successes and queries come in turn, the breaker opens only
on consecutive failures, stays open until the timeout and lets one probe
through. -/
theorem contract_of_inTurn (threshold : Int) (timeout : τ) (calls : List (BreakerCall τ))
    (inTurn : machine.Meets InTurn (new threshold timeout) calls) :
    Contract threshold timeout calls where
  opens_on_consecutive := by
    rintro pre call post b c rfl hb hc closed opened
    have tracks := tracks_of_run (Machine.meets_append.mp inTurn).1 hb
    exact tracks.opens hc closed opened
  open_until_timeout := by
    rintro pre now post b last rfl hb opened hlast early
    have tracks := tracks_of_run (Machine.meets_append.mp inTurn).1 hb
    rw [tracks.isOpen_of_opened opened hlast, if_neg early]
  one_probe := by
    rintro pre nows post b last rfl hb opened hlast elapsed
    rw [List.append_assoc] at inTurn
    obtain ⟨before, after⟩ := Machine.meets_append.mp inTurn
    have tracks := tracks_of_run before hb
    exact count_answers (tracks.isOpen_of_opened opened hlast) (after b hb) elapsed

/-- A failure, a probe that fails, and one that closes the breaker again. -/
theorem contract_of_two_probes :
    Contract 1 (10 : Int) [.recordFailure 0, .isOpen 5, .isOpen 10, .recordFailure 11, .isOpen 21,
      .recordSuccess, .recordFailure 30, .isOpen 31] :=
  contract_of_inTurn 1 10 _ (by decide)

/-- A success between two failures does not keep them from opening the breaker,
and two queries pass after the timeout. -/
theorem opens_across_success_and_probes_twice :
    ¬Contract 2 (10 : Int) [.recordFailure 0, .recordSuccess, .recordFailure 1] ∧
      ¬Contract 1 (10 : Int) [.recordFailure 0, .isOpen 10, .isOpen 11] := by
  constructor
  · intro contract
    have failures := contract.opens_on_consecutive [.recordFailure 0, .recordSuccess]
      (.recordFailure 1) [] _ _ rfl rfl rfl rfl rfl
    exact absurd failures (by decide)
  · intro contract
    have one := contract.one_probe [.recordFailure 0] [10, 11] [] _ 0 rfl rfl rfl rfl
      ⟨10, by decide, by decide⟩
    exact absurd one (by decide)

end CircuitBreaker

end Rankuno
