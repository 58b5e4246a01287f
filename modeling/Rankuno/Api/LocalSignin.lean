import Rankuno.Foundation.Machine
import Rankuno.Python.Base64
import Rankuno.Python.Utf8RoundTrip
import Rankuno.Python.Values

/-!
# The sign-in link of the local launcher

`LocalSigninGate` of `local_signin.py`. The digest of a presented token is taken before the lock,
and is a function of the token alone; what `redeem` does under the lock is one step, so that the
calls of any number of threads are interleaved by these steps. The clock may read anything there.

The gate is closed by a success, by a refusal for any other reason than a wrong token, and by the
last wrong token that is allowed. Then it has no digest any more.
-/

namespace Rankuno

open Python

/-- `MAX_FAILURES`. -/
def maxSigninFailures : Nat := 5

/-- `SigninOutcome`. -/
inductive SigninOutcome where
  | ok
  | mismatch
  | expired
  | consumed
  | locked
  deriving DecidableEq

/-- `LocalSigninGate`. -/
structure LocalSigninGate where
  digest : Option Bytes
  expiresAt : Timestamp
  failures : Nat := 0
  consumed : Bool := false

namespace LocalSigninGate

/-- `__init__`, with the time that the clock reads. -/
def arm (digest : Text → Bytes) (token : Text) (ttl now : Timestamp) : LocalSigninGate where
  digest := some (digest token)
  expiresAt := now + ttl

/-- The critical section of `redeem`, with the time that the clock reads in it. -/
def redeem (gate : LocalSigninGate) (presented : Bytes) (now : Timestamp) :
    SigninOutcome × LocalSigninGate :=
  if gate.consumed then (.consumed, gate)
  else if maxSigninFailures ≤ gate.failures then (.locked, gate)
  else
    match gate.digest with
    | none => (.expired, gate)
    | some expected =>
      if gate.expiresAt ≤ now then (.expired, { gate with digest := none })
      else if presented ≠ expected then
        (.mismatch, { gate with
          failures := gate.failures + 1
          digest := if maxSigninFailures ≤ gate.failures + 1 then none else some expected })
      else (.ok, { gate with consumed := true, digest := none })

end LocalSigninGate

/-- What a call was answered, and the time that was read for it. -/
structure SigninAnswer where
  presented : Text
  readAt : Timestamp
  outcome : SigninOutcome
  deriving DecidableEq

/-- The wrong tokens so far. -/
def mismatches (answers : List SigninAnswer) : Nat :=
  answers.countP fun answer => answer.outcome = .mismatch

/-- The gate, the calls that wait for its lock, and the answers so far. -/
structure SigninDesk where
  gate : LocalSigninGate
  waiting : List Text := []
  answers : List SigninAnswer := []

/-- A call comes, with a text that `encode` may refuse, or gets the lock. -/
inductive SigninEvent where
  | present (presented : Option Text)
  | redeem (call : Nat) (now : Timestamp)

/-- Every interleaving of calls of `redeem`. -/
def signinMachine (digest : Text → Bytes) : Machine SigninDesk SigninEvent where
  step desk
    | .present none => some desk
    | .present (some presented) => some { desk with waiting := desk.waiting ++ [presented] }
    | .redeem call now =>
      desk.waiting[call]?.map fun presented =>
        let (outcome, gate) := desk.gate.redeem (digest presented) now
        { gate, waiting := desk.waiting.eraseIdx call,
          answers := desk.answers ++ [⟨presented, now, outcome⟩] }

/-- One call is admitted, with the token, in time, after fewer wrong tokens than are allowed and
nothing but wrong tokens; from then on, and from any other refusal on, the gate is closed. -/
structure AdmitsOnce (token : Text) (expiresAt : Timestamp) (desk : SigninDesk) : Prop where
  once : desk.answers.Pairwise fun earlier later =>
    ¬(earlier.outcome = .ok ∧ later.outcome = .ok)
  first : desk.answers.Pairwise fun earlier later =>
    later.outcome = .ok → earlier.outcome = .mismatch
  admitted : ∀ answer ∈ desk.answers, answer.outcome = .ok →
    answer.readAt < expiresAt ∧ answer.presented = token
  allowed : (∃ answer ∈ desk.answers, answer.outcome = .ok) →
    mismatches desk.answers < maxSigninFailures
  closed : (∃ answer ∈ desk.answers, answer.outcome ≠ .mismatch) ∨
    maxSigninFailures ≤ desk.answers.length → desk.gate.digest = none

namespace LocalSigninGate

variable {gate gate' : LocalSigninGate} {presented : Bytes} {now : Timestamp}
  {outcome : SigninOutcome}

theorem redeem_cases (h : gate.redeem presented now = (outcome, gate')) :
    outcome = .ok ∧ gate.digest = some presented ∧ now < gate.expiresAt ∧
        gate' = { gate with consumed := true, digest := none } ∨
      outcome = .mismatch ∧ gate.consumed = false ∧ (∃ expected, gate.digest = some expected ∧
        gate' = { gate with
          failures := gate.failures + 1
          digest := if maxSigninFailures ≤ gate.failures + 1 then none else some expected }) ∨
      outcome ≠ .ok ∧ outcome ≠ .mismatch ∧ gate'.expiresAt = gate.expiresAt ∧
        gate'.failures = gate.failures ∧ (gate'.digest = none ∨ gate' = gate ∧
          (gate.consumed = true ∨ maxSigninFailures ≤ gate.failures)) := by
  unfold redeem at h
  split at h
  · next spent =>
    cases h
    exact .inr (.inr ⟨by decide, by decide, rfl, rfl, .inr ⟨rfl, .inl spent⟩⟩)
  · next fresh =>
    split at h
    · next locked =>
      cases h
      exact .inr (.inr ⟨by decide, by decide, rfl, rfl, .inr ⟨rfl, .inr locked⟩⟩)
    · cases armed : gate.digest with
      | none =>
        rw [armed] at h
        cases h
        exact .inr (.inr ⟨by decide, by decide, rfl, rfl, .inl armed⟩)
      | some expected =>
        rw [armed] at h
        dsimp only at h
        split at h
        · cases h
          exact .inr (.inr ⟨by decide, by decide, rfl, rfl, .inl rfl⟩)
        · next early =>
          split at h
          · cases h
            exact .inr (.inl ⟨rfl, Bool.eq_false_iff.mpr fresh, expected, rfl, rfl⟩)
          · next right =>
            cases h
            rw [Decidable.not_not.mp right]
            exact .inl ⟨rfl, rfl, Int.not_le.mp early, rfl⟩

end LocalSigninGate

section Mismatches

variable {answers : List SigninAnswer} {answer : SigninAnswer}

theorem mismatches_snoc : mismatches (answers ++ [answer]) =
    mismatches answers + if answer.outcome = .mismatch then 1 else 0 := by
  simp only [mismatches, List.countP_append, List.countP_singleton, decide_eq_true_eq]

theorem mismatches_eq_length (all : ∀ answer ∈ answers, answer.outcome = .mismatch) :
    mismatches answers = answers.length :=
  List.countP_eq_length.mpr fun answer listed => decide_eq_true (all answer listed)

end Mismatches

/-- While the gate has a digest, it is the token's, and all answers so far are mismatches. -/
structure SigninKept (digest : Text → Bytes) (token : Text) (expiresAt : Timestamp)
    (desk : SigninDesk) : Prop where
  admits : AdmitsOnce token expiresAt desk
  expiry : desk.gate.expiresAt = expiresAt
  failures : desk.gate.failures = mismatches desk.answers
  armed : ∀ expected, desk.gate.digest = some expected →
    expected = digest token ∧ desk.gate.consumed = false ∧ desk.gate.failures < maxSigninFailures ∧
      ∀ answer ∈ desk.answers, answer.outcome = .mismatch

namespace SigninKept

variable {digest : Text → Bytes} {token : Text} {expiresAt : Timestamp} {desk t : SigninDesk}
  {event : SigninEvent} {answer : SigninAnswer}

theorem admits_snoc (h : SigninKept digest token expiresAt desk)
    (unspent : answer.outcome = .ok → answer.readAt < expiresAt ∧ answer.presented = token ∧
      mismatches desk.answers < maxSigninFailures ∧
      ∀ earlier ∈ desk.answers, earlier.outcome = .mismatch)
    (fewer : answer.outcome = .mismatch → ∀ earlier ∈ desk.answers, earlier.outcome ≠ .ok)
    {gate : LocalSigninGate} {waiting : List Text}
    (closed : (∃ answer' ∈ desk.answers ++ [answer], answer'.outcome ≠ .mismatch) ∨
      maxSigninFailures ≤ (desk.answers ++ [answer]).length → gate.digest = none) :
    AdmitsOnce token expiresAt ⟨gate, waiting, desk.answers ++ [answer]⟩ := by
  have first : (desk.answers ++ [answer]).Pairwise fun earlier later =>
      later.outcome = .ok → earlier.outcome = .mismatch := by
    refine List.pairwise_append.mpr ⟨h.admits.first, List.pairwise_singleton _ _, ?_⟩
    intro earlier listed later last admitted
    rw [List.mem_singleton.mp last] at admitted
    exact (unspent admitted).2.2.2 earlier listed
  refine ⟨first.imp ?_, first, ?_, ?_, closed⟩
  · rintro earlier later before ⟨ok, ok'⟩
    rw [before ok'] at ok
    cases ok
  · intro answer' listed admitted
    obtain listed | last := List.mem_append.mp listed
    · exact h.admits.admitted answer' listed admitted
    · rw [List.mem_singleton.mp last] at admitted ⊢
      exact ⟨(unspent admitted).1, (unspent admitted).2.1⟩
  · rintro ⟨answer', listed, admitted⟩
    dsimp only at listed ⊢
    rw [mismatches_snoc]
    obtain listed | last := List.mem_append.mp listed
    · rw [if_neg fun mismatch => fewer mismatch answer' listed admitted]
      exact h.admits.allowed ⟨answer', listed, admitted⟩
    · rw [List.mem_singleton.mp last] at admitted
      rw [if_neg fun mismatch => by rw [admitted] at mismatch; cases mismatch]
      exact (unspent admitted).2.2.1

theorem step (unique : ∀ presented, digest presented = digest token → presented = token)
    (h : SigninKept digest token expiresAt desk)
    (moves : (signinMachine digest).step desk event = some t) :
    SigninKept digest token expiresAt t := by
  cases event with
  | present presented =>
    cases presented with
    | none =>
      cases moves
      exact h
    | some presented =>
      cases moves
      exact ⟨⟨h.admits.once, h.admits.first, h.admits.admitted, h.admits.allowed,
        h.admits.closed⟩, h.expiry, h.failures, h.armed⟩
  | redeem call now =>
    obtain ⟨presented, -, same⟩ := Option.map_eq_some_iff.mp moves
    generalize redeemed : desk.gate.redeem (digest presented) now = result at same
    obtain ⟨outcome, gate⟩ := result
    dsimp only at same
    subst same
    obtain ⟨rfl, same, early, rfl⟩ | ⟨rfl, fresh, expected, armed, rfl⟩ |
      ⟨notOk, other, expiry, failures, shut⟩ := LocalSigninGate.redeem_cases redeemed
    · obtain ⟨isToken, -, few, wrong⟩ := h.armed _ same
      refine ⟨h.admits_snoc (fun _ => ⟨h.expiry ▸ early, unique presented isToken,
        h.failures ▸ few, wrong⟩) (fun never => by cases never) fun _ => rfl, h.expiry, ?_,
        fun expected armed => by cases armed⟩
      rw [mismatches_snoc, if_neg fun mismatch => by cases mismatch]
      exact h.failures
    · obtain ⟨isToken, -, few, wrong⟩ := h.armed _ armed
      have all : ∀ answer ∈ desk.answers ++ [⟨presented, now, .mismatch⟩],
          answer.outcome = .mismatch := by
        intro answer listed
        obtain listed | last := List.mem_append.mp listed
        · exact wrong answer listed
        · rw [List.mem_singleton.mp last]
      have counted : desk.gate.failures + 1 =
          mismatches (desk.answers ++ [⟨presented, now, .mismatch⟩]) := by
        rw [mismatches_snoc, if_pos rfl, h.failures]
      refine ⟨h.admits_snoc (fun never => by cases never) (fun _ earlier listed ok => ?_) ?_,
        h.expiry, counted, ?_⟩
      · rw [wrong earlier listed] at ok
        cases ok
      · rintro (⟨answer, listed, other⟩ | many)
        · exact absurd (all answer listed) other
        · rw [counted, mismatches_eq_length all]
          exact if_pos many
      · intro expected' armed'
        dsimp only at armed'
        split at armed'
        · cases armed'
        · next few =>
          rw [← Option.some.inj armed']
          exact ⟨isToken, fresh, Nat.not_le.mp few, all⟩
    · have disarmed : gate.digest = none := by
        obtain emptied | ⟨rfl, spent⟩ := shut
        · exact emptied
        · cases armed : desk.gate.digest with
          | none => rfl
          | some expected =>
            obtain ⟨-, fresh, few, -⟩ := h.armed expected armed
            obtain consumed | locked := spent
            · rw [fresh] at consumed
              cases consumed
            · exact absurd locked (Nat.not_le.mpr few)
      refine ⟨h.admits_snoc (fun ok => absurd ok notOk) (fun mismatch => absurd mismatch other)
        fun _ => disarmed, expiry.trans h.expiry, ?_, fun expected armed => ?_⟩
      · rw [mismatches_snoc, if_neg other, failures]
        exact h.failures
      · rw [disarmed] at armed
        cases armed

end SigninKept

end Rankuno
