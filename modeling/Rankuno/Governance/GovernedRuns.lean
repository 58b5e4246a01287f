import Mathlib.Data.List.Nodup
import Rankuno.Governance.RunMoves

/-!
# No tool runs ungoverned

The record a run leaves is an initial part of the gates of its tool, and
`execute` is the last of them. The ledger holds what the charged runs cost, and
only the run in its lock changes it. What a run raises instead of returning is
not an `Exception`, or an exception whose own text cannot be taken.
-/

namespace Rankuno

variable {π ω : Type}

namespace GovernanceState

variable {s : GovernanceState π} {i j : Nat} {events : List (AuditEvent π)}

theorem history_recordAll_self : (s.recordAll i events).history i = s.history i ++ events := by
  simp [history, recordAll, List.filterMap_append, List.filterMap_map]

theorem history_recordAll_of_ne (other : j ≠ i) :
    (s.recordAll i events).history j = s.history j := by
  simp [history, recordAll, List.filterMap_append, List.filterMap_map, Ne.symm other]

theorem payments_recordAll (unpaid : ∀ amount, .charged amount ∉ events) :
    (s.recordAll i events).payments = s.payments := by
  have nothing : (events.map (AuditEntry.mk i)).filterMap AuditEntry.payment = [] := by
    rw [List.filterMap_map, List.filterMap_eq_nil_iff]
    intro event mem
    cases event with
    | charged amount => exact absurd mem (unpaid amount)
    | _ => rfl
  rw [payments, recordAll, List.filterMap_append, nothing, List.append_nil]
  rfl

theorem mem_payments {amount : ℚ} : (i, amount) ∈ s.payments ↔ .charged amount ∈ s.history i := by
  simp only [payments, history, List.mem_filterMap]
  constructor
  · rintro ⟨⟨run, event⟩, mem, paid⟩
    cases event with
    | charged a =>
      cases paid
      exact ⟨_, mem, if_pos rfl⟩
    | _ => cases paid
  · rintro ⟨⟨run, event⟩, mem, mine⟩
    split at mine
    · next same =>
      subst same
      cases mine
      exact ⟨_, mem, rfl⟩
    · cases mine

theorem mem_charged : i ∈ s.charged ↔ ∃ amount, .charged amount ∈ s.history i := by
  simp [charged, mem_payments]

theorem payments_record_charged {amount : ℚ} :
    (s.record i (.charged amount)).payments = s.payments ++ [(i, amount)] := by
  rw [payments, record, recordAll, List.filterMap_append]
  rfl

end GovernanceState

/-- What holds of each run, whatever the others do. -/
structure RunSafe (settings : GovernanceSettings) (i : Nat) (s : GovernanceState π)
    (r : ToolRun π ω) : Prop where
  history : r.phase.Passed r.tool (s.history i)
  lock : s.holder = some i ↔ r.phase.inCharge = true
  funds : r.phase.Affords settings.ceilingUsd s.spent r.tool.metadata.estimatedCostUsd
  bucket : ∀ key ∈ r.phase.waitsOn, (s.buckets.find? key).isSome
  honest : r.phase.Honest

/-- What holds of the record and the ledger, with `n` runs so far. -/
structure LedgerSafe (settings : GovernanceSettings) (s : GovernanceState π) (n : Nat) : Prop where
  known : ∀ entry ∈ s.log, entry.run < n
  holder : ∀ j, s.holder = some j → j < n
  spent : s.spent = (s.payments.map Prod.snd).sum
  within : s.spent ≤ max settings.ceilingUsd 0
  once : s.charged.Nodup

theorem LedgerSafe.start (settings : GovernanceSettings) (buckets : Buckets) (clock : ℚ) :
    LedgerSafe settings (GovernanceState.start buckets clock : GovernanceState π) 0 where
  known entry mem := by cases mem
  holder j held := by cases held
  spent := rfl
  within := le_max_right _ _
  once := List.nodup_nil

section Safety

variable {settings : GovernanceSettings} {i j n : Nat} {s s' : GovernanceState π}
variable {r r' u : ToolRun π ω} {events : List (AuditEvent π)}

theorem RunSafe.quiet (h : RunSafe settings i s r) (quiet : Quiet s s') :
    RunSafe settings i s' r where
  history := by
    rw [GovernanceState.history, quiet.log]
    exact h.history
  lock := by
    rw [quiet.holder]
    exact h.lock
  funds := by
    rw [quiet.spent]
    exact h.funds
  bucket key waits := quiet.buckets key (h.bucket key waits)
  honest := h.honest

theorem LedgerSafe.quiet (h : LedgerSafe settings s n) (quiet : Quiet s s') :
    LedgerSafe settings s' n where
  known := by
    rw [quiet.log]
    exact h.known
  holder := by
    rw [quiet.holder]
    exact h.holder
  spent := by
    rw [quiet.spent, GovernanceState.payments, quiet.log]
    exact h.spent
  within := by
    rw [quiet.spent]
    exact h.within
  once := by
    rw [GovernanceState.charged, GovernanceState.payments, quiet.log]
    exact h.once

theorem LedgerSafe.known_recordAll (h : LedgerSafe settings s n) (hi : i < n) :
    ∀ entry ∈ (s.recordAll i events).log, entry.run < n := by
  intro entry mem
  obtain old | new := List.mem_append.mp mem
  · exact h.known entry old
  · obtain ⟨event, -, rfl⟩ := List.mem_map.mp new
    exact hi

theorem LedgerSafe.recordAll (h : LedgerSafe settings s n) (hi : i < n)
    (unpaid : ∀ amount, .charged amount ∉ events) :
    LedgerSafe settings (s.recordAll i events) n where
  known := h.known_recordAll hi
  holder := h.holder
  spent := by
    rw [GovernanceState.payments_recordAll unpaid]
    exact h.spent
  within := h.within
  once := by
    rw [GovernanceState.charged, GovernanceState.payments_recordAll unpaid]
    exact h.once

theorem LedgerSafe.release (h : LedgerSafe settings s n) : LedgerSafe settings (s.release i) n where
  known := h.known
  holder k held := by
    simp only [GovernanceState.release] at held
    split at held
    · cases held
    · exact h.holder k held
  spent := h.spent
  within := h.within
  once := h.once

theorem RunSafe.apart (mine : RunSafe settings i s r) (other : RunSafe settings j s u)
    (ne : j ≠ i) (inside : r.phase.inCharge = true) : u.phase.inCharge = false := by
  rw [← Bool.not_eq_true, ← other.lock, mine.lock.mpr inside]
  exact fun same => ne (Option.some.inj same).symm

theorem RunPhase.affords_of_outside {phase : RunPhase π ω} (outside : phase.inCharge = false)
    (ceiling spent amount : ℚ) : phase.Affords ceiling spent amount := by
  cases phase with
  | governed payload decision stage =>
    cases stage with
    | affordable => cases outside
    | loaded read => cases outside
    | _ => trivial
  | _ => trivial

theorem RunSafe.recordAll_of_ne (h : RunSafe settings j s u) (ne : j ≠ i) :
    RunSafe settings j (s.recordAll i events) u where
  history := by
    rw [GovernanceState.history_recordAll_of_ne ne]
    exact h.history
  lock := h.lock
  funds := h.funds
  bucket := h.bucket
  honest := h.honest

theorem RunSafe.release_of_ne (h : RunSafe settings j s u) (ne : j ≠ i) :
    RunSafe settings j (s.release i) u where
  history := h.history
  lock := by
    rw [← h.lock]
    simp only [GovernanceState.release]
    split
    · next held =>
      rw [held]
      simp [Ne.symm ne]
    · rfl
  funds := h.funds
  bucket := h.bucket
  honest := h.honest

theorem Moved.others (moved : Moved settings i s r s' r') (ne : j ≠ i)
    (mine : RunSafe settings i s r) (other : RunSafe settings j s u) :
    RunSafe settings j s' u := by
  cases moved with
  | passes quiet recorded =>
    subst recorded
    exact (other.quiet quiet).recordAll_of_ne ne
  | fails quiet e => exact (other.quiet quiet).release_of_ne ne
  | denied place e => exact (other.recordAll_of_ne ne).release_of_ne ne
  | locks quiet place free =>
    have other := other.quiet quiet
    refine ⟨other.history, ?_, other.funds, other.bucket, other.honest⟩
    rw [← other.lock, quiet.holder, free]
    simp [Ne.symm ne]
  | checks quiet => exact other.quiet quiet
  | loads quiet => exact other.quiet quiet
  | stores quiet place =>
    have outside := mine.apart other ne (by rw [place]; rfl)
    have other : RunSafe settings j
        (GovernanceState.recordAll _ i [.charged r.tool.metadata.estimatedCostUsd]) u :=
      (other.quiet quiet).recordAll_of_ne ne
    exact ⟨other.history, other.lock, RunPhase.affords_of_outside outside _ _ _, other.bucket,
      other.honest⟩
  | unlocks quiet => exact (other.quiet quiet).release_of_ne ne

theorem RunSafe.of_outside (free : s'.holder ≠ some i) {phase : RunPhase π ω}
    (outside : phase.inCharge = false) (honest : phase.Honest)
    (history : phase.Passed r.tool (s'.history i))
    (bucket : ∀ key ∈ phase.waitsOn, (s'.buckets.find? key).isSome) :
    RunSafe settings i s' (r.goto phase) where
  history := history
  lock := by
    rw [show (r.goto phase).phase = phase from rfl, outside]
    simp [free]
  funds := RunPhase.affords_of_outside outside _ _ _
  bucket := bucket
  honest := honest

theorem release_holder_ne : (s.release i).holder ≠ some i := by
  simp only [GovernanceState.release]
  split
  · intro held
    cases held
  · next free => exact free

theorem Moved.mine (moved : Moved settings i s r s' r') (mine : RunSafe settings i s r) :
    RunSafe settings i s' r' := by
  cases moved with
  | @passes s₁ s₂ quiet events recorded phase before after honest gates unpaid bucket lower =>
    subst recorded
    have kept := mine.quiet quiet
    have free : (s₁.recordAll i events).holder ≠ some i := by
      show s₁.holder ≠ some i
      rw [Ne, kept.lock, before]
      exact Bool.false_ne_true
    refine .of_outside free after honest ?_ bucket
    rw [GovernanceState.history_recordAll_self]
    exact gates _ kept.history
  | @fails s₁ quiet e alive =>
    have kept := mine.quiet quiet
    exact .of_outside release_holder_ne rfl (RunPhase.honest_ofRaised _ e) (kept.history.ended _)
      (fun key waits => by cases waits)
  | @denied payload context place e =>
    have history := mine.history
    rw [place] at history
    refine .of_outside release_holder_ne rfl (RunPhase.honest_ofRaised _ e) ?_
      (fun key waits => by cases waits)
    refine .inr ⟨payload, .inl (GovernanceState.history_recordAll_self.trans ?_)⟩
    rw [show GovernanceState.history s i = _ from history]
    rfl
  | locks quiet place free =>
    have kept := mine.quiet quiet
    have history := kept.history
    rw [place] at history
    exact ⟨history, ⟨fun _ => rfl, fun _ => rfl⟩, trivial, (fun key waits => by cases waits),
      trivial⟩
  | checks quiet place fits =>
    have kept := mine.quiet quiet
    have history := kept.history
    have lock := kept.lock
    rw [place] at history lock
    exact ⟨history, lock, quiet.spent ▸ fits, (fun key waits => by cases waits), trivial⟩
  | loads quiet place =>
    have kept := mine.quiet quiet
    have history := kept.history
    have lock := kept.lock
    have funds := kept.funds
    rw [place] at history lock funds
    exact ⟨history, lock, ⟨quiet.spent.symm, funds⟩, (fun key waits => by cases waits), trivial⟩
  | stores quiet place =>
    have kept := mine.quiet quiet
    have history := kept.history
    have lock := kept.lock
    rw [place] at history lock
    refine ⟨⟨?_, fun key waits => by cases waits⟩, lock, trivial,
      (fun key waits => by cases waits), trivial⟩
    refine GovernanceState.history_recordAll_self.trans ?_
    refine (congrArg (· ++ _) history.1).trans ?_
    simp [GateStage.passed, ToolRun.goto]
  | unlocks quiet place =>
    have kept := mine.quiet quiet
    have history := kept.history
    rw [place] at history
    exact .of_outside release_holder_ne rfl trivial history fun key waits => by cases waits

theorem Moved.ledger (moved : Moved settings i s r s' r') (hi : i < n)
    (mine : RunSafe settings i s r) (ledger : LedgerSafe settings s n) :
    LedgerSafe settings s' n := by
  cases moved with
  | passes quiet recorded before after honest gates unpaid =>
    subst recorded
    exact (ledger.quiet quiet).recordAll hi unpaid
  | fails quiet e => exact (ledger.quiet quiet).release
  | denied place e => exact (ledger.recordAll hi fun amount paid => by simp at paid).release
  | locks quiet place free =>
    have kept := ledger.quiet quiet
    refine ⟨kept.known, fun j held => ?_, kept.spent, kept.within, kept.once⟩
    rw [← Option.some.inj held]
    exact hi
  | checks quiet => exact ledger.quiet quiet
  | loads quiet => exact ledger.quiet quiet
  | @stores s₁ quiet payload decision spent place =>
    have kept := ledger.quiet quiet
    have mine := mine.quiet quiet
    have funds := mine.funds
    have history := mine.history
    rw [place] at funds history
    obtain ⟨rfl, fits⟩ := funds
    refine ⟨kept.known_recordAll hi, kept.holder, ?_, fits.trans (le_max_left _ _), ?_⟩
    · rw [GovernanceState.payments_record_charged, List.map_append, List.sum_append]
      refine congrArg₂ (· + ·) kept.spent ?_
      simp
    · have unpaid : i ∉ s₁.charged := by
        rw [GovernanceState.mem_charged, history.1]
        rintro ⟨amount, paid⟩
        simp [GateStage.passed, Tool.tokens, Tool.not_mem_approvals] at paid
      rw [GovernanceState.charged, GovernanceState.payments_record_charged, List.map_append,
        List.nodup_append]
      refine ⟨kept.once, List.nodup_singleton _, fun j paid k mem same => unpaid ?_⟩
      obtain rfl : k = i := List.mem_singleton.mp mem
      exact same ▸ paid
  | unlocks quiet => exact (ledger.quiet quiet).release

theorem Moved.clock_le (moved : Moved settings i s r s' r') : s.clock ≤ s'.clock := by
  cases moved with
  | denied place e => exact le_refl _
  | passes quiet recorded =>
    subst recorded
    exact quiet.clock
  | fails quiet => exact quiet.clock
  | locks quiet => exact quiet.clock
  | checks quiet => exact quiet.clock
  | loads quiet => exact quiet.clock
  | stores quiet => exact quiet.clock
  | unlocks quiet => exact quiet.clock

theorem Moved.rank_lt (moved : Moved settings i s r s' r') :
    r'.phase.rank settings.defaultTimeoutS s'.clock <
      r.phase.rank settings.defaultTimeoutS s.clock := by
  cases moved with
  | passes quiet recorded before after honest gates unpaid bucket lower =>
    subst recorded
    exact lower
  | fails quiet e alive => exact RunPhase.rank_pos alive _ _
  | denied place e => exact RunPhase.rank_pos (by rw [place]; rfl) _ _
  | locks quiet place => rw [place]; exact Nat.lt_succ_self 8
  | checks quiet place => rw [place]; exact Nat.lt_succ_self 7
  | loads quiet place => rw [place]; exact Nat.lt_succ_self 6
  | stores quiet place => rw [place]; exact Nat.lt_succ_self 5
  | unlocks quiet place => rw [place]; exact Nat.lt_succ_self 4

theorem Moved.tool (moved : Moved settings i s r s' r') : r'.tool = r.tool := by
  cases moved <;> rfl

theorem Moved.spends (moved : Moved settings i s r s' r') :
    s.log <+: s'.log ∧ (s'.spent = s.spent ∨ i ∈ s'.charged) := by
  cases moved with
  | passes quiet recorded =>
    subst recorded
    refine ⟨?_, .inl quiet.spent⟩
    rw [← quiet.log]
    exact List.prefix_append _ _
  | denied place e => exact ⟨List.prefix_append _ _, .inl rfl⟩
  | @stores s₁ quiet payload decision spent place =>
    refine ⟨?_, .inr ?_⟩
    · rw [← quiet.log]
      exact List.prefix_append _ _
    · rw [GovernanceState.charged, GovernanceState.payments_record_charged]
      simp
  | fails quiet => exact ⟨quiet.log ▸ List.prefix_refl _, .inl quiet.spent⟩
  | locks quiet => exact ⟨quiet.log ▸ List.prefix_refl _, .inl quiet.spent⟩
  | checks quiet => exact ⟨quiet.log ▸ List.prefix_refl _, .inl quiet.spent⟩
  | loads quiet => exact ⟨quiet.log ▸ List.prefix_refl _, .inl quiet.spent⟩
  | unlocks quiet => exact ⟨quiet.log ▸ List.prefix_refl _, .inl quiet.spent⟩

end Safety

namespace GovernanceSettings

variable (settings : GovernanceSettings)

/-- How many actions a run can take. -/
def actionBound : Nat := 4 * AcquireStage.rounds settings.defaultTimeoutS 0 + 17

theorem tools_invariant :
    (settings.tools π ω).Invariant (LedgerSafe settings) (RunSafe settings) where
  spawn s n call ledger := by
    refine ⟨⟨fun entry mem => Nat.lt_succ_of_lt (ledger.known entry mem),
      fun j held => Nat.lt_succ_of_lt (ledger.holder j held), ledger.spent, ledger.within,
      ledger.once⟩, ?_⟩
    refine ⟨?_, ?_, trivial, (fun key waits => by cases waits), trivial⟩
    · refine List.filterMap_eq_nil_iff.mpr fun entry mem => ?_
      rw [if_neg (ne_of_lt (ledger.known entry mem))]
    · refine ⟨fun held => absurd (ledger.holder n held) (lt_irrefl n), fun inside => ?_⟩
      cases inside
  move i n action s r s' r' hi ledger mine h :=
    ⟨(move_moved h).ledger hi mine ledger, (move_moved h).mine mine⟩
  others i j action s r s' r' u ne mine other h := (move_moved h).others ne mine other

theorem tools_ranked : (settings.tools π ω).Ranked
    (fun s r => r.phase.rank settings.defaultTimeoutS s.clock) settings.actionBound where
  spawn s call := by
    show 4 * _ + 4 + 10 + 3 ≤ 4 * _ + 17
    omega
  move i action s r s' r' h := (move_moved h).rank_lt
  others i action s r s' r' u h := RunPhase.rank_le (move_moved h).clock_le u.phase

end GovernanceSettings

section Results

variable {settings : GovernanceSettings} {s : PoolState (GovernanceState π) (ToolRun π ω)}
variable {i : Nat} {r : ToolRun π ω}

theorem eq_of_append_cons_prefix {α : Type} {front before after : List α} {x y : α}
    (fresh : x ∉ front) (h : before ++ x :: after <+: front ++ [y]) :
    before = front ∧ x = y := by
  obtain ⟨rest, h⟩ := h
  rw [List.append_assoc, List.cons_append] at h
  obtain ⟨middle, rfl, tail⟩ | ⟨middle, rfl, tail⟩ := List.append_eq_append_iff.mp h
  · cases middle with
    | nil => exact ⟨(List.append_nil before).symm, (List.cons.inj tail).1⟩
    | cons z middle =>
      rw [List.cons_append] at tail
      rw [(List.cons.inj tail).1] at fresh
      simp at fresh
  · cases middle with
    | nil => exact ⟨List.append_nil front, (List.cons.inj tail).1.symm⟩
    | cons z middle => simp at tail

theorem RunSafe.entered {s : GovernanceState π} (h : RunSafe settings i s r) {payload : π}
    {pre post : List (AuditEntry π)} (log : s.log = pre ++ ⟨i, .entered payload⟩ :: post) :
    ∀ event ∈ (.validated payload :: (r.tool.approvals ++ (r.tool.tokens ++
      [.charged r.tool.metadata.estimatedCostUsd])) : List (AuditEvent π)), ⟨i, event⟩ ∈ pre := by
  have history : s.history i = (pre.filterMap fun entry =>
      if entry.run = i then some entry.event else none) ++ .entered payload ::
        post.filterMap fun entry => if entry.run = i then some entry.event else none := by
    rw [GovernanceState.history, log, List.filterMap_append, List.filterMap_cons, if_pos rfl]
  have mem : .entered payload ∈ s.history i := by
    rw [history]
    exact List.mem_append_right _ List.mem_cons_self
  obtain empty | ⟨payload', refused | gates⟩ := h.history.ended (.raised (.baseException ""))
  · rw [empty] at mem
    cases mem
  · rw [refused] at mem
    simp at mem
  · have split : r.tool.gates payload' = (.validated payload' :: (r.tool.approvals ++
        (r.tool.tokens ++ [.charged r.tool.metadata.estimatedCostUsd]))) ++
          [.entered payload'] := by
      simp [Tool.gates]
    have fresh : (.entered payload : AuditEvent π) ∉ .validated payload' :: (r.tool.approvals ++
        (r.tool.tokens ++ [.charged r.tool.metadata.estimatedCostUsd])) := by
      simp [Tool.tokens, Tool.not_mem_approvals]
    rw [split, history] at gates
    obtain ⟨front, same⟩ := eq_of_append_cons_prefix fresh gates
    cases same
    intro event passed
    rw [← front] at passed
    obtain ⟨⟨run, event'⟩, placed, mine⟩ := List.mem_filterMap.mp passed
    split at mine
    · next own =>
      cases mine
      rw [← own]
      exact placed
    · cases mine

theorem RunSafe.proceeds {s : GovernanceState π} (h : RunSafe settings i s r) {payload : π}
    {decision : GuardrailDecision} {stage : GateStage ω}
    (place : r.phase = .governed payload decision stage) (other : stage ≠ .executing)
    (ready : s.holder = none ∨ stage.inCharge = true) :
    ∃ now, s.clock ≤ now ∧
      (ToolRun.proceed settings i { s with clock := now } r payload decision stage).isSome := by
  cases stage with
  | rateLimit =>
    refine ⟨s.clock, le_refl _, ?_⟩
    rw [ToolRun.proceed]
    split
    · rfl
    · rfl
  | acquire key stage =>
    have waits : key ∈ r.phase.waitsOn := by
      rw [place]
      rfl
    obtain ⟨bucket, found⟩ := Option.isSome_iff_exists.mp (h.bucket key waits)
    obtain ⟨now, forward, steps⟩ := bucket.exists_isSome_acquireStep 1
      settings.defaultTimeoutS s.clock stage
    refine ⟨now, forward, ?_⟩
    rw [ToolRun.proceed]
    simp only [found, Option.bind_some, Option.isSome_map]
    exact steps
  | charge =>
    refine ⟨s.clock, le_refl _, ?_⟩
    obtain free | inside := ready
    · rw [ToolRun.proceed]
      split
      · rfl
      · simp only [free]
        rfl
    · cases inside
  | locked =>
    refine ⟨s.clock, le_refl _, ?_⟩
    rw [ToolRun.proceed]
    dsimp only
    split
    · rfl
    · rfl
  | output output =>
    refine ⟨s.clock, le_refl _, ?_⟩
    cases output with
    | model data => rfl
    | other typeName => rfl
  | executing => exact absurd rfl other
  | affordable => exact ⟨s.clock, le_refl _, rfl⟩
  | loaded read => exact ⟨s.clock, le_refl _, rfl⟩
  | stored => exact ⟨s.clock, le_refl _, rfl⟩
  | execute => exact ⟨s.clock, le_refl _, rfl⟩
  | finish data => exact ⟨s.clock, le_refl _, rfl⟩

theorem RunSafe.goes_on {s : GovernanceState π} (h : RunSafe settings i s r)
    (alive : r.phase.isEnded = false) (ready : s.holder = none ∨ r.phase.inCharge = true) :
    ∃ action, (∀ e, action ≠ .raised e) ∧ (ToolRun.move settings i action s r).isSome := by
  cases place : r.phase with
  | validate =>
    refine ⟨.validate, fun e same => (by cases same), ?_⟩
    simp only [ToolRun.move, place]
    split
    · rfl
    · rfl
  | describe payload =>
    refine ⟨.describe "", fun e same => (by cases same), ?_⟩
    simp only [ToolRun.move, place]
    rfl
  | authorize payload context =>
    refine ⟨.authorize true, fun e same => (by cases same), ?_⟩
    simp only [ToolRun.move, place]
    split
    · rfl
    · rfl
  | governed payload decision stage =>
    rw [place] at ready
    by_cases executing : stage = .executing
    · subst executing
      refine ⟨.returned (.other "NoneType"), fun e same => (by cases same), ?_⟩
      simp only [ToolRun.move, place]
      rfl
    · obtain ⟨now, forward, goes⟩ := h.proceeds place executing ready
      refine ⟨.proceed now, fun e same => (by cases same), ?_⟩
      simp only [ToolRun.move, place, if_pos forward]
      exact goes
  | ended outcome =>
    rw [place] at alive
    cases alive

theorem some_goes_on (h : ThreadPool.Holds (LedgerSafe settings) (RunSafe settings) s)
    (found : s.threads[i]? = some r) (alive : r.phase.isEnded = false) :
    ∃ j action s', (∀ e, action ≠ .raised e) ∧
      (settings.tools π ω).machine.step s (.act j action) = some s' := by
  have step : ∀ j u, s.threads[j]? = some u → (∃ action, (∀ e, action ≠ .raised e) ∧
        (ToolRun.move settings j action s.shared u).isSome) →
      ∃ action s', (∀ e, action ≠ .raised e) ∧
        (settings.tools π ω).machine.step s (.act j action) = some s' := by
    rintro j u hu ⟨action, calm, moves⟩
    obtain ⟨moved, hmoved⟩ := Option.isSome_iff_exists.mp moves
    refine ⟨action, ⟨moved.1, s.threads.set j moved.2⟩, calm, ?_⟩
    show (s.threads[j]?.bind _) = _
    rw [hu, Option.bind_some]
    exact congrArg (Option.map _) hmoved
  cases held : s.shared.holder with
  | none => exact ⟨i, step i r found ((h.threads i r found).goes_on alive (.inl held))⟩
  | some j =>
    -- the run in the ledger's lock waits for nobody
    obtain ⟨u, hu⟩ : ∃ u, s.threads[j]? = some u :=
      ⟨_, List.getElem?_eq_getElem (h.shared.holder j held)⟩
    have inside := (h.threads j u hu).lock.mp held
    have going : u.phase.isEnded = false := by
      cases place : u.phase with
      | ended outcome =>
        rw [place] at inside
        cases inside
      | _ => rfl
    exact ⟨j, step j u hu ((h.threads j u hu).goes_on going (.inr inside))⟩

/-- What the tool of a run costs. -/
def costOf (s : PoolState (GovernanceState π) (ToolRun π ω)) (i : Nat) : ℚ :=
  ((s.threads[i]?).map fun r => r.tool.metadata.estimatedCostUsd).getD 0

theorem spent_eq (h : ThreadPool.Holds (LedgerSafe settings) (RunSafe settings) s) :
    s.shared.spent = (s.shared.charged.map (costOf s)).sum := by
  rw [h.shared.spent, GovernanceState.charged, List.map_map]
  refine congrArg List.sum (List.map_congr_left ?_)
  rintro ⟨j, amount⟩ paid
  have mem := GovernanceState.mem_payments.mp paid
  have inRange : j < s.threads.length := by
    obtain ⟨entry, placed, mine⟩ := List.mem_filterMap.mp mem
    split at mine
    · next own => exact own ▸ h.shared.known entry placed
    · cases mine
  have found := List.getElem?_eq_getElem inRange
  have costs : amount = s.threads[j].tool.metadata.estimatedCostUsd := by
    obtain empty | ⟨payload, refused | gates⟩ :=
      (h.threads j _ found).history.ended (.raised (.baseException ""))
    · rw [empty] at mem
      cases mem
    · rw [refused] at mem
      simp at mem
    · have mem := gates.subset mem
      simpa [Tool.gates, Tool.tokens, Tool.not_mem_approvals] using mem
  show amount = costOf s j
  rw [costOf, found, costs]
  rfl

variable {buckets : Buckets} {clock : ℚ}
variable {events : List (PoolEvent (Tool × RawInput π) (RunAction ω))}

theorem spent_of_not_charged
    (run : (settings.tools π ω).machine.run (ThreadPool.start (.start buckets clock)) events =
      some s) (refused : i ∉ s.shared.charged)
    {pre post : List (PoolEvent (Tool × RawInput π) (RunAction ω))} {action : RunAction ω}
    {u v : PoolState (GovernanceState π) (ToolRun π ω)}
    (split : events = pre ++ .act i action :: post)
    (before : (settings.tools π ω).machine.run (ThreadPool.start (.start buckets clock)) pre =
      some u)
    (step : (settings.tools π ω).machine.step u (.act i action) = some v) :
    v.shared.spent = u.shared.spent := by
  have grows : ∀ u v event, (settings.tools π ω).machine.step u event = some v →
      u.shared.log <+: v.shared.log := by
    intro u v event hstep
    obtain ⟨call, -, rfl⟩ | ⟨j, action, t, shared, t', -, -, hmove, rfl⟩ :=
      ThreadPool.step_cases hstep
    · exact List.prefix_refl _
    · exact (move_moved hmove).spends.1
  have relates : (settings.tools π ω).machine.Relates
      (fun u v => u.shared.log <+: v.shared.log) (ThreadPool.start (.start buckets clock))
      events :=
    Machine.relates_of_invariant (I := fun _ => True) (fun u => List.prefix_refl _)
      (fun {_ _ _} => List.IsPrefix.trans) (fun _ _ _ _ _ => trivial)
      (fun u event v _ => grows u v event) trivial
  have after : (settings.tools π ω).machine.run (ThreadPool.start (.start buckets clock))
      (pre ++ [.act i action]) = some v :=
    Machine.run_append_eq_some.mpr ⟨u, before, by rw [Machine.run_singleton, step]⟩
  have split' : events = (pre ++ [.act i action]) ++ post := by
    rw [split, List.append_assoc]
    rfl
  subst split'
  have kept : v.shared.log <+: s.shared.log := relates.endpoints after run
  obtain ⟨call, same, -⟩ | ⟨j, action', t, shared, t', same, -, hmove, rfl⟩ :=
    ThreadPool.step_cases step
  · cases same
  · cases same
    obtain spent | charged := (move_moved hmove).spends.2
    · exact spent
    · refine absurd ?_ refused
      exact List.map_subset Prod.fst (kept.filterMap AuditEntry.payment).subset charged

end Results

section Claim

variable (settings : GovernanceSettings)

/-- A paid tool, called twice under a ceiling that allows one call. -/
def paidTool : Tool where
  metadata :=
    { name := "ads.update_budget", riskClass := .financial, rateLimitKey := some "google.ads"
      estimatedCostUsd := 3, cost_nonneg := by decide, cost_implies_financial := fun _ => rfl }
  environment := .production
  guardrailsEnabled := true
  inputModel := "In"
  outputModel := "Out"

def smallBudget : GovernanceSettings := ⟨5, 60, 30, by decide⟩

/-- The actions of one run, up to a granted token. -/
def admitted : List (RunAction Unit) :=
  [.validate, .describe "", .authorize true, .proceed 0, .proceed 0, .proceed 0]

/-- From the ledger's lock into `execute`. -/
def charging : List (RunAction Unit) := List.replicate 6 (.proceed 1)

def finishing : List (RunAction Unit) := [.returned (.model ()), .proceed 2, .proceed 2]

/-- Both calls have passed the rate limit when the first one takes the lock. -/
def twoCalls : List (PoolEvent (Tool × RawInput Unit) (RunAction Unit)) :=
  List.flatten [[.call (paidTool, .payload ()), .call (paidTool, .payload ())],
    admitted.map (.act 0), admitted.map (.act 1), charging.map (.act 0),
    [.act 1 (.proceed 1), .act 1 (.proceed 1)], finishing.map (.act 0)]

def RunPhase.outcome? : RunPhase π ω → Option (RunOutcome ω)
  | ended outcome => some outcome
  | _ => none

end Claim

end Rankuno
