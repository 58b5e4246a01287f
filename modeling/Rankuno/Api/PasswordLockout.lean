import Mathlib.Order.Max
import Mathlib.Order.MinMax
import Rankuno.Api.PasswordGate

/-!
# What the lockout bounds

A wrong password is compared before it is counted, so the compared ones are at
most the recorded ones and those on their way to be recorded. The lockout binds
over every run whose comparisons still stand on the lock their call read and
leave room for the wrong answers under way.
-/

namespace Rankuno

namespace DeleteLockout

variable {lockout : DeleteLockout} {now later : Timestamp}

theorem remaining_pos : 0 < lockout.remaining now ↔
    ∃ lockedUntil, lockout.lockedUntil = some lockedUntil ∧ now < lockedUntil := by
  rw [remaining]
  cases lockout.lockedUntil with
  | none => simp
  | some lockedUntil =>
    simp only [Option.some.injEq, exists_eq_left', lt_max_iff, lt_self_iff_false, false_or]
    exact Int.sub_pos

theorem remaining_pos_of_le (h : 0 < lockout.remaining later) (le : now ≤ later) :
    0 < lockout.remaining now := by
  obtain ⟨lockedUntil, same, lt⟩ := remaining_pos.mp h
  exact remaining_pos.mpr ⟨lockedUntil, same, Int.lt_of_le_of_lt le lt⟩

theorem deleteLockWindowS_pos (lockouts lifetimeFailures : Nat) :
    0 < deleteLockWindowS lockouts lifetimeFailures := by
  have grows : 0 < 2 ^ (lockouts - 1) := Nat.two_pow_pos _
  rw [deleteLockWindowS, deleteLockMaxS, deleteLockBaseS]
  split
  · decide
  · omega

theorem recordFailedDelete_cases (lockout : DeleteLockout) (now : Timestamp) :
    0 < (lockout.recordFailedDelete now).1 ∧ (lockout.recordFailedDelete now).2.failures = 0 ∨
      (lockout.recordFailedDelete now).1 = 0 ∧
      (lockout.recordFailedDelete now).2.failures = lockout.failures + 1 ∧
      lockout.failures + 1 < deleteLockFailures := by
  simp only [recordFailedDelete]
  split
  · exact .inl ⟨deleteLockWindowS_pos _ _, rfl⟩
  · exact .inr ⟨rfl, rfl, by omega⟩

end DeleteLockout

namespace PasswordGate

variable {verify : String → Bool} {s t : PasswordGate} {event : GateEvent}

/-- A wrong password that was compared and is not recorded yet. -/
def IsRecording (phase : GatePhase) : Bool := phase = .recording

/-- The wrong answers on their way to the counter. -/
def underway (s : PasswordGate) : Nat := s.calls.countP IsRecording

/-- The password that a step compares with the job's hash, if it does, and the
counter its call read. -/
def compared? (s : PasswordGate) : GateEvent → Option (String × DeleteLockout)
  | .verify call =>
    s.calls[call]?.bind fun phase =>
      match phase with
      | .verifying password read => some (password, read)
      | _ => none
  | _ => none

/-- Nothing is compared with the job's hash while a lock is in force. -/
def ComparesUnlocked (s : PasswordGate) (event : GateEvent) : Prop :=
  (s.compared? event).isSome → ¬s.Locked

/-- The lockout over a whole run. -/
structure LockoutBinds (verify : String → Bool) (s : PasswordGate) (events : List GateEvent) :
    Prop where
  unlocked : (machine verify).Meets ComparesUnlocked s events
  bounded : (machine verify).Always (fun t => t.wrongCompared ≤ deleteLockFailures) s events

/-- A comparison stands on the lock its call read, unless there is none by now,
and a wrong one leaves room for the wrong answers under way. -/
def ComparesInTime (verify : String → Bool) (s : PasswordGate) (event : GateEvent) : Prop :=
  ∀ password read, s.compared? event = some (password, read) →
    (s.counter.lockedUntil = none ∨ s.counter.lockedUntil = read.lockedUntil) ∧
      (verify password = false → s.counter.failures + s.underway < deleteLockFailures)

theorem compared?_eq_some {call : Nat} {password : String} {read : DeleteLockout} :
    s.compared? (.verify call) = some (password, read) ↔
      s.calls[call]? = some (.verifying password read) := by
  simp only [compared?]
  cases s.calls[call]? with
  | none => simp
  | some phase => cases phase <;> simp

/-- Everything one step can do, with the phase the call was in. -/
inductive Effect (verify : String → Bool) (s : PasswordGate) : GateEvent → PasswordGate → Prop where
  | call (arrival : GateArrival) :
      Effect verify s (.call arrival) { s with calls := s.calls ++ [arrival.phase] }
  | tick (elapsed : Nat) : Effect verify s (.tick elapsed) { s with clock := s.clock + elapsed }
  | refuse (call : Nat) (password : String)
      (hcall : s.calls[call]? = some (.arrived password)) (locked : s.Locked) :
      Effect verify s (.readLockout call)
        (s.setPhase call (.refusing password (s.counter.remaining s.clock)))
  | proceed (call : Nat) (password : String)
      (hcall : s.calls[call]? = some (.arrived password)) (unlocked : ¬s.Locked) :
      Effect verify s (.readLockout call) (s.setPhase call (.verifying password s.counter))
  | dummy (call : Nat) (password : String) (remaining : Int)
      (hcall : s.calls[call]? = some (.refusing password remaining)) :
      Effect verify s (.verify call)
        (s.setPhase call (.answered (some (lockedException (ceilSeconds remaining)))))
  | right (call : Nat) (password : String) (read : DeleteLockout)
      (hcall : s.calls[call]? = some (.verifying password read)) (right : verify password = true) :
      Effect verify s (.verify call) (s.setPhase call .clearing)
  | wrong (call : Nat) (password : String) (read : DeleteLockout)
      (hcall : s.calls[call]? = some (.verifying password read))
      (wrong : verify password = false) :
      Effect verify s (.verify call)
        { s.setPhase call .recording with wrongCompared := s.wrongCompared + 1 }
  | recorded (call : Nat) (answer : HTTPException)
      (hcall : s.calls[call]? = some .recording) :
      Effect verify s (.recordFailed call)
        { s.setPhase call (.answered (some answer)) with
          lockout := some (s.counter.recordFailedDelete s.clock).2
          wrongCompared :=
            if 0 < (s.counter.recordFailedDelete s.clock).1 then 0 else s.wrongCompared }
  | cleared (call : Nat) (hcall : s.calls[call]? = some .clearing) : Effect verify s (.clear call)
        { s.setPhase call (.answered none) with lockout := none, wrongCompared := 0 }

theorem step_effect (hstep : (machine verify).step s event = some t) : Effect verify s event t := by
  cases event with
  | call arrival =>
    cases hstep
    exact .call arrival
  | tick elapsed =>
    cases hstep
    exact .tick elapsed
  | readLockout call =>
    obtain ⟨phase, hcall, hstep⟩ := Option.bind_eq_some_iff.mp hstep
    cases phase with
    | arrived password =>
      simp only [stepCall] at hstep
      split at hstep
      · next locked =>
        cases hstep
        exact .refuse call password hcall locked
      · next unlocked =>
        cases hstep
        exact .proceed call password hcall unlocked
    | _ => cases hstep
  | verify call =>
    obtain ⟨phase, hcall, hstep⟩ := Option.bind_eq_some_iff.mp hstep
    cases phase with
    | refusing password remaining =>
      cases hstep
      exact .dummy call password remaining hcall
    | verifying password read =>
      simp only [stepCall] at hstep
      split at hstep
      · next right =>
        cases hstep
        exact .right call password read hcall right
      · next wrong =>
        cases hstep
        exact .wrong call password read hcall (Bool.eq_false_iff.mpr wrong)
    | _ => cases hstep
  | recordFailed call =>
    obtain ⟨phase, hcall, hstep⟩ := Option.bind_eq_some_iff.mp hstep
    cases phase with
    | recording =>
      cases hstep
      exact .recorded call _ hcall
    | _ => cases hstep
  | clear call =>
    obtain ⟨phase, hcall, hstep⟩ := Option.bind_eq_some_iff.mp hstep
    cases phase with
    | clearing =>
      cases hstep
      exact .cleared call hcall
    | _ => cases hstep

theorem underway_set {call : Nat} {phase : GatePhase} (hcall : s.calls[call]? = some phase)
    (next : GatePhase) :
    (s.calls.set call next).countP IsRecording + (if IsRecording phase then 1 else 0) =
      s.underway + if IsRecording next then 1 else 0 := by
  obtain ⟨inRange, hphase⟩ := List.getElem?_eq_some_iff.mp hcall
  have present : (if IsRecording phase then 1 else 0) ≤ s.calls.countP IsRecording := by
    rw [← hphase]
    exact List.boole_getElem_le_countP inRange
  rw [underway, List.countP_set inRange, hphase]
  omega

/-- What every step within the condition keeps: calls that verify read an open
lock, and each compared password is recorded or under way. -/
structure Bounded (s : PasswordGate) : Prop where
  read_open : ∀ (i : Nat) password read, s.calls[i]? = some (.verifying password read) →
    ¬0 < read.remaining s.clock
  counted : s.wrongCompared ≤ s.counter.failures + s.underway
  bounded : s.wrongCompared ≤ deleteLockFailures

theorem Bounded.start (clock : Timestamp) : Bounded (start clock) where
  read_open i password read h := by simp [PasswordGate.start] at h
  counted := Nat.zero_le _
  bounded := Nat.zero_le _

theorem Bounded.read_open_set (h : s.Bounded) (call : Nat) {next : GatePhase}
    (opens : ∀ password read, next = .verifying password read → ¬0 < read.remaining s.clock)
    (i : Nat) (password : String) (read : DeleteLockout)
    (hi : (s.calls.set call next)[i]? = some (.verifying password read)) :
    ¬0 < read.remaining s.clock := by
  rw [List.getElem?_set] at hi
  split at hi
  · split at hi
    · exact opens password read (Option.some.inj hi)
    · cases hi
  · exact h.read_open i password read hi

theorem Bounded.quiet (h : s.Bounded) {call : Nat} {phase next : GatePhase}
    (hcall : s.calls[call]? = some phase)
    (opens : ∀ password read, next = .verifying password read → ¬0 < read.remaining s.clock)
    (same : IsRecording phase = IsRecording next) : (s.setPhase call next).Bounded := by
  refine ⟨h.read_open_set call opens, ?_, h.bounded⟩
  have moved := underway_set hcall next
  have counted := h.counted
  rw [same] at moved
  show s.wrongCompared ≤ s.counter.failures + (s.calls.set call next).countP IsRecording
  omega

theorem arrival_not_verifying (arrival : GateArrival) (password : String) (read : DeleteLockout) :
    arrival.phase ≠ .verifying password read := by
  rw [GateArrival.phase]
  split
  · exact nofun
  · split
    · exact nofun
    · split <;> exact nofun

theorem Bounded.step (h : s.Bounded) (inTime : ComparesInTime verify s event)
    (hstep : (machine verify).step s event = some t) : t.Bounded := by
  have counted := h.counted
  cases step_effect hstep with
  | call arrival =>
    refine ⟨fun i password read hi => ?_, ?_, h.bounded⟩
    · rw [List.getElem?_append] at hi
      split at hi
      · exact h.read_open i password read hi
      · rw [List.getElem?_singleton] at hi
        split at hi
        · exact absurd (Option.some.inj hi) (arrival_not_verifying arrival password read)
        · cases hi
    · show s.wrongCompared ≤ s.counter.failures + (s.calls ++ [arrival.phase]).countP IsRecording
      rw [List.countP_append]
      rw [underway] at counted
      omega
  | tick elapsed =>
    refine ⟨fun i password read hi later => ?_, h.counted, h.bounded⟩
    refine h.read_open i password read hi (DeleteLockout.remaining_pos_of_le later ?_)
    exact Int.le_add_of_nonneg_right (Int.natCast_nonneg elapsed)
  | refuse call password hcall locked => exact h.quiet hcall (fun _ _ same => nomatch same) rfl
  | proceed call password hcall unlocked =>
    refine h.quiet hcall (fun _ _ same => ?_) rfl
    cases same
    exact unlocked
  | dummy call password remaining hcall =>
    exact h.quiet hcall (fun _ _ same => nomatch same) rfl
  | right call password read hcall right =>
    exact h.quiet hcall (fun _ _ same => nomatch same) rfl
  | wrong call password read hcall wrong =>
    have room := (inTime password read (compared?_eq_some.mpr hcall)).2 wrong
    have moved := underway_set hcall .recording
    refine ⟨h.read_open_set call (fun _ _ same => nomatch same), ?_, ?_⟩
    · show s.wrongCompared + 1 ≤ s.counter.failures + (s.calls.set call _).countP IsRecording
      have now : IsRecording .recording = true := rfl
      have before : IsRecording (.verifying password read) = false := rfl
      rw [now, before] at moved
      simp only [Bool.false_eq_true, if_false, if_true] at moved
      omega
    · show s.wrongCompared + 1 ≤ deleteLockFailures
      omega
  | recorded call answer hcall =>
    have moved := underway_set hcall (.answered (some answer))
    have now : IsRecording (.answered (some answer)) = false := rfl
    have before : IsRecording .recording = true := rfl
    rw [now, before] at moved
    simp only [Bool.false_eq_true, if_false, if_true] at moved
    have room := h.bounded
    refine ⟨h.read_open_set call (fun _ _ same => nomatch same), ?_, ?_⟩
    · show (if _ then 0 else s.wrongCompared) ≤ (s.counter.recordFailedDelete s.clock).2.failures +
        (s.calls.set call _).countP IsRecording
      rcases s.counter.recordFailedDelete_cases s.clock with ⟨locks, -⟩ | ⟨zero, more, -⟩
      · rw [if_pos locks]
        exact Nat.zero_le _
      · rw [zero, more, if_neg (Nat.lt_irrefl 0)]
        omega
    · show (if _ then 0 else s.wrongCompared) ≤ deleteLockFailures
      split
      · exact Nat.zero_le _
      · exact room
  | cleared call hcall =>
    exact ⟨h.read_open_set call (fun _ _ same => nomatch same), Nat.zero_le _, Nat.zero_le _⟩

theorem Bounded.comparesUnlocked (h : s.Bounded) (inTime : ComparesInTime verify s event) :
    s.ComparesUnlocked event := by
  intro compares locked
  obtain ⟨⟨password, read⟩, compared⟩ := Option.isSome_iff_exists.mp compares
  obtain ⟨call, rfl⟩ : ∃ call, event = .verify call := by
    cases event with
    | verify call => exact ⟨call, rfl⟩
    | _ => cases compared
  obtain ⟨lockedUntil, inForce, later⟩ := DeleteLockout.remaining_pos.mp locked
  have readOpen := h.read_open call password read (compared?_eq_some.mp compared)
  rcases (inTime password read compared).1 with gone | same
  · rw [gone] at inForce
    cases inForce
  · exact readOpen (DeleteLockout.remaining_pos.mpr ⟨lockedUntil, same ▸ inForce, later⟩)

/-- Over every run whose comparisons with the job's hash stand on the lock their
call read and leave room for the wrong answers under way, the lockout binds. -/
theorem lockout_binds_of_compares_in_time {clock : Timestamp} {events : List GateEvent}
    (inTime : (machine verify).Meets (ComparesInTime verify) (start clock) events) :
    LockoutBinds verify (start clock) events where
  unlocked := inTime.of_invariant (I := Bounded) (fun _ _ _ h guard hstep => h.step guard hstep)
    (fun _ _ h guard => h.comparesUnlocked guard) (.start clock)
  bounded := Machine.always_of_meets (I := Bounded) (fun _ _ _ h guard hstep => h.step guard hstep)
    (.start clock) inTime fun _ h => h.bounded

/-- The steps of a call that brings a password to a disk store. -/
def attempt (password : String) (call : Nat) : List GateEvent :=
  [.call ⟨some password, true, true, true⟩, .readLockout call, .verify call]

instance (verify : String → Bool) (s : PasswordGate) (event : GateEvent) :
    Decidable (ComparesInTime verify s event) :=
  match h : s.compared? event with
  | none => isTrue fun _ _ same => by rw [h] at same; cases same
  | some (password, read) =>
    decidable_of_iff
      ((s.counter.lockedUntil = none ∨ s.counter.lockedUntil = read.lockedUntil) ∧
        (verify password = false → s.counter.failures + s.underway < deleteLockFailures))
      ⟨fun holds _ _ same => by rw [h] at same; cases same; exact holds,
        fun holds => holds password read h⟩

/-- Two wrong answers that overlap, and the right one after them. -/
def overlappingPair : List GateEvent :=
  attempt "a" 0 ++ attempt "b" 1 ++ [.recordFailed 1, .tick 5, .recordFailed 0] ++
    attempt "right" 2 ++ [.clear 2]

theorem lockout_binds_on_overlapping_pair : LockoutBinds (· = "right") (start 0) overlappingPair :=
  lockout_binds_of_compares_in_time (by decide)

/-- Six calls that read the lock before any of them is counted. -/
def sixAtOnce : List GateEvent :=
  attempt "0" 0 ++ attempt "1" 1 ++ attempt "2" 2 ++ attempt "3" 3 ++ attempt "4" 4 ++ attempt "5" 5

/-- All six compare a wrong password with the job's hash. -/
theorem six_at_once_pass_the_bound : ¬∀ events, LockoutBinds (· = "right") (start 0) events := by
  intro h
  obtain ⟨s, hs, six⟩ := Option.map_eq_some_iff.mp
    (show ((machine (· = "right")).run (start 0) sixAtOnce).map wrongCompared = some 6 by decide)
  have bounded : s.wrongCompared ≤ deleteLockFailures := (h sixAtOnce).bounded.last hs
  rw [six] at bounded
  exact absurd bounded (by decide)

end PasswordGate

end Rankuno
