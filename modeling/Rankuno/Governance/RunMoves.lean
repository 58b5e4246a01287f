import Rankuno.Governance.ToolRun

/-!
# What an action of a run can do

`Tool.gates` lists the gates of a tool in their order, and `RunPhase.Passed`
says which of them lie behind each phase of a run. `Moved` says once what an
action can do: pass gates outside the ledger's lock, fail, be denied, or take
one of the steps that hold the lock. Every action lowers the rank of its run.
-/

namespace Rankuno

variable {π ω : Type}

namespace Tool

variable (tool : Tool)

/-- Whether the tool's engine asks its provider. -/
def mustAsk : Bool :=
  tool.guardrailsEnabled && decide (tool.metadata.riskClass.basePolicy = .mandatoryHitl)

def approvals : List (AuditEvent π) := if tool.mustAsk then [.asked true] else []

def tokens : List (AuditEvent π) := tool.metadata.rateLimitKey.toList.map .token

/-- All the gates, in their order. -/
def gates (payload : π) : List (AuditEvent π) :=
  .validated payload :: (tool.approvals ++
    (tool.tokens ++ [.charged tool.metadata.estimatedCostUsd, .entered payload]))

theorem not_mem_approvals {event : AuditEvent π} (other : event ≠ .asked true) :
    event ∉ tool.approvals := by
  unfold approvals
  split
  · rwa [List.mem_singleton]
  · exact List.not_mem_nil

variable {tool} {i : Nat} {approved : Bool} {context : String} {s s' : GovernanceState π}

theorem authorize_engine (tool : Tool) (i : Nat) (approved : Bool) (context : String)
    (s : GovernanceState π) :
    ((tool.engine i approved).authorize tool.metadata.toToolMetadata context s).1.allowed =
        (!tool.mustAsk || approved) ∧
      ((tool.engine i approved).authorize tool.metadata.toToolMetadata context s).2 =
        if tool.mustAsk then s.record i (.asked approved) else s := by
  cases enabled : tool.guardrailsEnabled with
  | false =>
    obtain ⟨allowed, same⟩ := GuardrailEngine.authorize_disabled (tool.engine i approved)
      tool.metadata.toToolMetadata context s enabled
    rw [allowed, same]
    simp [mustAsk, enabled]
  | true =>
    rw [GuardrailEngine.authorize, GuardrailEngine.policyFor_eq]
    simp only [engine, mustAsk, enabled, Bool.not_true, Bool.false_eq_true, if_false, Bool.true_and]
    cases tool.metadata.riskClass.basePolicy with
    | automatic => exact ⟨rfl, rfl⟩
    | operatorReview => exact ⟨rfl, rfl⟩
    | mandatoryHitl => exact ⟨rfl, rfl⟩

theorem recorded_of_enforce {decision : GuardrailDecision}
    (h : (tool.engine i approved).enforce tool.metadata.toToolMetadata context s =
      (.ok decision, s')) : s' = s.recordAll i tool.approvals := by
  obtain ⟨follows, recorded⟩ := authorize_engine tool i approved context s
  rw [GuardrailEngine.enforce_eq_ok _ (congrArg Prod.fst h)] at follows
  have state := congrArg Prod.snd h
  rw [GuardrailEngine.enforce_state, recorded] at state
  refine state.symm.trans ?_
  rw [approvals]
  cases asks : tool.mustAsk with
  | false => simp [GovernanceState.recordAll]
  | true =>
    rw [asks, Bool.not_true, Bool.false_or] at follows
    rw [← follows]
    rfl

theorem recorded_of_refusal {e : ApprovalRequiredError}
    (h : (tool.engine i approved).enforce tool.metadata.toToolMetadata context s =
      (.error e, s')) : s' = s.recordAll i [.asked false] := by
  obtain ⟨follows, recorded⟩ := authorize_engine tool i approved context s
  have state := congrArg Prod.snd h
  rw [GuardrailEngine.enforce_state, recorded] at state
  have denied : (!tool.mustAsk || approved) = false := by
    rw [← Bool.not_eq_true, ← follows]
    intro allowed
    rw [GuardrailEngine.enforce_of_allowed _ allowed] at h
    cases h
  rw [Bool.or_eq_false_iff, Bool.not_eq_false'] at denied
  refine state.symm.trans ?_
  rw [if_pos denied.1, denied.2]
  rfl

end Tool

namespace GateStage

/-- The gates from the rate limit on that lie behind a stage. -/
def passed (tool : Tool) (payload : π) : GateStage ω → List (AuditEvent π)
  | rateLimit | acquire .. => []
  | charge | locked | affordable | loaded _ => tool.tokens
  | stored | execute => tool.tokens ++ [.charged tool.metadata.estimatedCostUsd]
  | executing | output _ | finish _ =>
    tool.tokens ++ [.charged tool.metadata.estimatedCostUsd, .entered payload]

/-- The stages that hold the ledger's lock. -/
def inCharge : GateStage ω → Bool
  | locked | affordable | loaded _ | stored => true
  | _ => false

/-- What a stage that holds the lock knows of the ledger. -/
def Affords (ceiling spent amount : ℚ) : GateStage ω → Prop
  | affordable => spent + amount ≤ ceiling
  | loaded read => read = spent ∧ spent + amount ≤ ceiling
  | _ => True

def waitsOn : GateStage ω → Option String
  | acquire key _ => some key
  | _ => none

def rank (timeoutS clock : ℚ) : GateStage ω → Nat
  | rateLimit => AcquireStage.started.rank timeoutS clock + 10
  | acquire _ stage => stage.rank timeoutS clock + 9
  | charge => 9
  | locked => 8
  | affordable => 7
  | loaded _ => 6
  | stored => 5
  | execute => 4
  | executing => 3
  | output _ => 2
  | finish _ => 1

theorem rank_pos (timeoutS clock : ℚ) (stage : GateStage ω) : 0 < stage.rank timeoutS clock := by
  cases stage <;> exact Nat.succ_pos _

theorem rank_le {timeoutS clock later : ℚ} (h : clock ≤ later) (stage : GateStage ω) :
    stage.rank timeoutS later ≤ stage.rank timeoutS clock := by
  cases stage with
  | acquire key stage => exact Nat.add_le_add_right (AcquireStage.rank_le h stage) 9
  | _ => exact Nat.le_refl _

end GateStage

namespace RunPhase

/-- The gates that lie behind a phase. A run that has ended has passed some of
them, or was refused when it asked. -/
def Passed (tool : Tool) (history : List (AuditEvent π)) : RunPhase π ω → Prop
  | validate => history = []
  | describe payload | authorize payload _ => history = [.validated payload]
  | governed payload _ stage =>
    history = .validated payload :: (tool.approvals ++ stage.passed tool payload) ∧
      ∀ key ∈ stage.waitsOn, tool.metadata.rateLimitKey = some key
  | ended _ =>
    history = [] ∨ ∃ payload, history = [.validated payload, .asked false] ∨
      history <+: tool.gates payload

def inCharge : RunPhase π ω → Bool
  | governed _ _ stage => stage.inCharge
  | _ => false

def Affords (ceiling spent amount : ℚ) : RunPhase π ω → Prop
  | governed _ _ stage => stage.Affords ceiling spent amount
  | _ => True

def waitsOn : RunPhase π ω → Option String
  | governed _ _ stage => stage.waitsOn
  | _ => none

/-- A run that raises has met something that is no `Exception`, or an exception
whose text cannot be taken. -/
def Honest : RunPhase π ω → Prop
  | ended (.raised e) => e.isException = false ∨ e.text = none
  | _ => True

def isEnded : RunPhase π ω → Bool
  | ended _ => true
  | _ => false

def rank (timeoutS clock : ℚ) : RunPhase π ω → Nat
  | validate => (GateStage.rateLimit : GateStage ω).rank timeoutS clock + 3
  | describe _ => (GateStage.rateLimit : GateStage ω).rank timeoutS clock + 2
  | authorize _ _ => (GateStage.rateLimit : GateStage ω).rank timeoutS clock + 1
  | governed _ _ stage => stage.rank timeoutS clock
  | ended _ => 0

theorem rank_pos {phase : RunPhase π ω} (alive : phase.isEnded = false) (timeoutS clock : ℚ) :
    0 < phase.rank timeoutS clock := by
  cases phase with
  | governed payload decision stage => exact stage.rank_pos timeoutS clock
  | ended outcome => cases alive
  | _ => exact Nat.succ_pos _

theorem rank_le {timeoutS clock later : ℚ} (h : clock ≤ later) (phase : RunPhase π ω) :
    phase.rank timeoutS later ≤ phase.rank timeoutS clock := by
  cases phase with
  | governed payload decision stage => exact stage.rank_le h
  | _ => exact Nat.le_refl _

theorem honest_ofRaised (tool : String) (e : Raised) :
    (RunPhase.ended (.ofRaised tool e) : RunPhase π ω).Honest := by
  unfold RunOutcome.ofRaised
  split
  · split
    · trivial
    · next silent => exact .inr silent
  · next escapes => exact .inl (Bool.eq_false_iff.mpr escapes)

theorem Passed.ended {tool : Tool} {history : List (AuditEvent π)} {phase : RunPhase π ω}
    (h : phase.Passed tool history) (outcome : RunOutcome ω) :
    (RunPhase.ended outcome : RunPhase π ω).Passed tool history := by
  cases phase with
  | validate => exact .inl h
  | describe payload => exact .inr ⟨payload, .inr (h ▸ List.prefix_append _ _)⟩
  | authorize payload context => exact .inr ⟨payload, .inr (h ▸ List.prefix_append _ _)⟩
  | ended outcome => exact h
  | governed payload decision stage =>
    have behind : stage.passed tool payload <+:
        tool.tokens ++ [.charged tool.metadata.estimatedCostUsd, .entered payload] := by
      cases stage with
      | rateLimit => exact List.nil_prefix
      | acquire key stage => exact List.nil_prefix
      | charge => exact List.prefix_append _ _
      | locked => exact List.prefix_append _ _
      | affordable => exact List.prefix_append _ _
      | loaded read => exact List.prefix_append _ _
      | stored => exact (List.prefix_append_right_inj _).mpr ⟨[_], rfl⟩
      | execute => exact (List.prefix_append_right_inj _).mpr ⟨[_], rfl⟩
      | executing => exact List.prefix_refl _
      | output output => exact List.prefix_refl _
      | finish data => exact List.prefix_refl _
    refine .inr ⟨payload, .inr ?_⟩
    rw [h.1]
    exact List.cons_prefix_cons.mpr ⟨rfl, (List.prefix_append_right_inj _).mpr behind⟩

end RunPhase

section Moves

variable {settings : GovernanceSettings} {i : Nat} {s s' : GovernanceState π}
variable {r r' : ToolRun π ω}

/-- Only the clock has gone on, and buckets were used or added. -/
structure Quiet (s s' : GovernanceState π) : Prop where
  log : s'.log = s.log
  spent : s'.spent = s.spent
  holder : s'.holder = s.holder
  clock : s.clock ≤ s'.clock
  buckets : ∀ key, (s.buckets.find? key).isSome → (s'.buckets.find? key).isSome

theorem Quiet.refl (s : GovernanceState π) : Quiet s s :=
  ⟨rfl, rfl, rfl, le_refl _, fun _ found => found⟩

variable {payload : π} {now : ℚ} {decision : GuardrailDecision}

theorem Quiet.tick (h : s.clock ≤ now) : Quiet s { s with clock := now } :=
  ⟨rfl, rfl, rfl, h, fun _ found => found⟩

theorem Quiet.withBuckets (h : Quiet s s') {buckets : Buckets}
    (kept : ∀ key, (s'.buckets.find? key).isSome → (buckets.find? key).isSome) :
    Quiet s { s' with buckets } :=
  ⟨h.log, h.spent, h.holder, h.clock, fun key found => kept key (h.buckets key found)⟩

/-- What an action of a run can do. -/
inductive Moved (settings : GovernanceSettings) (i : Nat) (s : GovernanceState π)
    (r : ToolRun π ω) : GovernanceState π → ToolRun π ω → Prop where
  | passes {s₁ s₂ : GovernanceState π} (quiet : Quiet s s₁) {events : List (AuditEvent π)}
      (recorded : s₂ = s₁.recordAll i events) {phase : RunPhase π ω}
      (before : r.phase.inCharge = false) (after : phase.inCharge = false)
      (honest : phase.Honest)
      (gates : ∀ history, r.phase.Passed r.tool history → phase.Passed r.tool (history ++ events))
      (unpaid : ∀ amount, .charged amount ∉ events)
      (bucket : ∀ key ∈ phase.waitsOn, (s₁.buckets.find? key).isSome)
      (lower : phase.rank settings.defaultTimeoutS s₁.clock <
        r.phase.rank settings.defaultTimeoutS s.clock) :
      Moved settings i s r s₂ (r.goto phase)
  | fails {s₁ : GovernanceState π} (quiet : Quiet s s₁) (e : Raised)
      (alive : r.phase.isEnded = false) : Moved settings i s r (s₁.release i) (r.fail e)
  | denied {payload : π} {context : String} (place : r.phase = .authorize payload context)
      (e : Raised) : Moved settings i s r ((s.recordAll i [.asked false]).release i) (r.fail e)
  | locks {s₁ : GovernanceState π} (quiet : Quiet s s₁) {payload : π}
      {decision : GuardrailDecision} (place : r.phase = .governed payload decision .charge)
      (free : s.holder = none) :
      Moved settings i s r { s₁ with holder := some i }
        (r.goto (.governed payload decision .locked))
  | checks {s₁ : GovernanceState π} (quiet : Quiet s s₁) {payload : π}
      {decision : GuardrailDecision} (place : r.phase = .governed payload decision .locked)
      (fits : s.spent + r.tool.metadata.estimatedCostUsd ≤ settings.ceilingUsd) :
      Moved settings i s r s₁ (r.goto (.governed payload decision .affordable))
  | loads {s₁ : GovernanceState π} (quiet : Quiet s s₁) {payload : π}
      {decision : GuardrailDecision} (place : r.phase = .governed payload decision .affordable) :
      Moved settings i s r s₁ (r.goto (.governed payload decision (.loaded s.spent)))
  | stores {s₁ : GovernanceState π} (quiet : Quiet s s₁) {payload : π}
      {decision : GuardrailDecision} {spent : ℚ}
      (place : r.phase = .governed payload decision (.loaded spent)) :
      Moved settings i s r
        ({ s₁ with spent := spent + r.tool.metadata.estimatedCostUsd }.record i
          (.charged r.tool.metadata.estimatedCostUsd))
        (r.goto (.governed payload decision .stored))
  | unlocks {s₁ : GovernanceState π} (quiet : Quiet s s₁) {payload : π}
      {decision : GuardrailDecision} (place : r.phase = .governed payload decision .stored) :
      Moved settings i s r (s₁.release i) (r.goto (.governed payload decision .execute))

theorem recordAll_nil (s : GovernanceState π) (i : Nat) : s = s.recordAll i [] := by
  simp [GovernanceState.recordAll]

theorem Moved.advances {s₁ : GovernanceState π} {events : List (AuditEvent π)}
    {stage next : GateStage ω} (quiet : Quiet s s₁)
    (recorded : s' = s₁.recordAll i events) (place : r.phase = .governed payload decision stage)
    (before : stage.inCharge = false) (after : next.inCharge = false)
    (gates : (∀ key ∈ stage.waitsOn, r.tool.metadata.rateLimitKey = some key) →
      next.passed r.tool payload = stage.passed r.tool payload ++ events ∧
        ∀ key ∈ next.waitsOn, r.tool.metadata.rateLimitKey = some key)
    (unpaid : ∀ amount, .charged amount ∉ events)
    (bucket : ∀ key ∈ next.waitsOn, (s₁.buckets.find? key).isSome)
    (lower : next.rank settings.defaultTimeoutS s₁.clock <
      stage.rank settings.defaultTimeoutS s.clock) :
    Moved settings i s r s' (r.goto (.governed payload decision next)) := by
  refine .passes quiet recorded ?_ after trivial (fun history passed => ?_) unpaid bucket ?_
  · rw [place]
    exact before
  · rw [place] at passed
    obtain ⟨more, keyed⟩ := gates passed.2
    refine ⟨?_, keyed⟩
    rw [passed.1, more]
    simp
  · rw [place]
    exact lower

theorem rateLimit_moved
    (place : r.phase = .governed payload decision .rateLimit) (forward : s.clock ≤ now)
    (h : ToolRun.proceed settings i { s with clock := now } r payload decision .rateLimit =
      some (s', r')) : Moved settings i s r s' r' := by
  have quiet : Quiet s { s with clock := now } := Quiet.tick forward
  rw [ToolRun.proceed] at h
  split at h
  · next keyless =>
    cases h
    refine .advances quiet (recordAll_nil _ i) place rfl rfl (fun _ => ⟨?_, fun key waits => ?_⟩)
      (fun _ => List.not_mem_nil) (fun key waits => ?_) ?_
    · simp [GateStage.passed, Tool.tokens, keyless]
    · cases waits
    · cases waits
    · exact Nat.lt_of_lt_of_le (Nat.lt_succ_self 9) (Nat.le_add_left _ _)
  · next key keyed =>
    cases h
    refine .advances (quiet.withBuckets fun k => Buckets.isSome_getOrCreate)
      (recordAll_nil _ i) place rfl rfl (fun _ => ⟨rfl, fun key waits => ?_⟩)
      (fun _ => List.not_mem_nil) (fun key waits => ?_) (Nat.lt_succ_self _)
    · cases waits
      exact keyed
    · cases waits
      exact Buckets.isSome_getOrCreate_self

theorem acquire_moved {key : String}
    {stage : AcquireStage}
    (place : r.phase = .governed payload decision (.acquire key stage)) (forward : s.clock ≤ now)
    (h : ToolRun.proceed settings i { s with clock := now } r payload decision
      (.acquire key stage) = some (s', r')) : Moved settings i s r s' r' := by
  obtain ⟨bucket, found, h⟩ := Option.bind_eq_some_iff.mp h
  obtain ⟨⟨after, move⟩, stepped, h⟩ := Option.map_eq_some_iff.mp h
  have stays : ∀ k, (s.buckets.find? k).isSome → ((s.buckets.put after).find? k).isSome :=
    fun k => Buckets.isSome_put
  have quiet : Quiet s { s with clock := now, buckets := s.buckets.put after } :=
    (Quiet.tick forward).withBuckets stays
  have alive : r.phase.isEnded = false := by
    rw [place]
    rfl
  cases move with
  | next stage =>
    cases h
    refine .advances quiet (recordAll_nil _ i) place rfl rfl
      (fun keyed => ⟨rfl, fun k waits => ?_⟩) (fun _ => List.not_mem_nil) (fun k waits => ?_)
      (Nat.add_lt_add_right (AcquireStage.rank_lt forward stepped) 9)
    · cases waits
      exact keyed key rfl
    · cases waits
      exact stays key (by rw [found]; rfl)
  | granted =>
    cases h
    refine .advances quiet rfl place rfl rfl (fun keyed => ⟨?_, fun k waits => ?_⟩)
      (fun amount paid => ?_) (fun k waits => ?_)
      (Nat.lt_add_of_pos_left (AcquireStage.rank_pos _ _ stage))
    · simp [GateStage.passed, Tool.tokens, keyed key rfl]
    · cases waits
    · simp at paid
    · cases waits
  | invalid e =>
    cases h
    exact .fails quiet _ alive
  | exceeded e =>
    cases h
    exact .fails quiet _ alive

theorem proceed_moved {stage : GateStage ω}
    (place : r.phase = .governed payload decision stage) (forward : s.clock ≤ now)
    (h : ToolRun.proceed settings i { s with clock := now } r payload decision stage =
      some (s', r')) : Moved settings i s r s' r' := by
  have quiet : Quiet s { s with clock := now } := Quiet.tick forward
  have alive : r.phase.isEnded = false := by
    rw [place]
    rfl
  cases stage with
  | rateLimit => exact rateLimit_moved place forward h
  | acquire key stage => exact acquire_moved place forward h
  | charge =>
    rw [ToolRun.proceed] at h
    split at h
    · cases h
      exact .fails quiet _ alive
    · split at h
      · next unheld =>
        cases h
        exact .locks quiet place unheld
      · cases h
  | locked =>
    rw [ToolRun.proceed] at h
    dsimp only at h
    split at h
    · cases h
      exact .fails quiet _ alive
    · next fits =>
      cases h
      exact .checks quiet place (not_lt.mp fits)
  | affordable =>
    cases h
    exact .loads quiet place
  | loaded read =>
    cases h
    exact .stores quiet place
  | stored =>
    cases h
    exact .unlocks quiet place
  | execute =>
    cases h
    refine .advances quiet rfl place rfl rfl (fun _ => ⟨?_, fun k waits => ?_⟩)
      (fun amount paid => ?_) (fun k waits => ?_) (Nat.lt_succ_self 3)
    · simp [GateStage.passed]
    · cases waits
    · simp at paid
    · cases waits
  | executing => cases h
  | output output =>
    cases output with
    | model data =>
      cases h
      refine .advances quiet (recordAll_nil _ i) place rfl rfl
        (fun _ => ⟨(List.append_nil _).symm, fun k waits => ?_⟩)
        (fun _ => List.not_mem_nil) (fun k waits => ?_) (Nat.lt_succ_self 1)
      · cases waits
      · cases waits
    | other typeName =>
      cases h
      exact .fails quiet _ alive
  | finish data =>
    cases h
    refine .passes quiet (recordAll_nil _ i) (by rw [place]; rfl) rfl trivial
      (fun history passed => ?_) (fun _ => List.not_mem_nil) (fun k waits => ?_)
      (by rw [place]; exact Nat.lt_succ_self 0)
    · rw [List.append_nil]
      exact passed.ended _
    · cases waits

theorem authorize_moved {context : String} {approved : Bool}
    (place : r.phase = .authorize payload context)
    (h : ToolRun.move settings i (.authorize approved) s r = some (s', r')) :
    Moved settings i s r s' r' := by
  simp only [ToolRun.move, place] at h
  split at h
  · next decision recorded answered =>
    cases h
    refine .passes (Quiet.refl s) (Tool.recorded_of_enforce answered) (by rw [place]; rfl) rfl
      trivial (fun history passed => ?_) (fun amount => Tool.not_mem_approvals _ (by simp))
      (fun key waits => ?_) (by rw [place]; exact Nat.lt_succ_self _)
    · rw [place] at passed
      refine ⟨?_, fun key waits => ?_⟩
      · rw [show history = _ from passed]
        simp [GateStage.passed]
      · cases waits
    · cases waits
  · next e recorded answered =>
    cases h
    rw [Tool.recorded_of_refusal answered]
    exact .denied place _

theorem move_moved {action : RunAction ω}
    (h : ToolRun.move settings i action s r = some (s', r')) : Moved settings i s r s' r' := by
  have whole := h
  unfold ToolRun.move at h
  split at h
  · cases h
  · next phase e alive =>
    cases h
    refine .fails (Quiet.refl s) e ?_
    cases place : r.phase with
    | ended outcome => exact absurd place (alive outcome)
    | _ => rfl
  · next place =>
    split at h
    · next payload valid =>
      cases h
      refine .passes (Quiet.refl s) rfl (by rw [place]; rfl) rfl trivial (fun history passed => ?_)
        (fun amount paid => ?_) (fun key waits => ?_) (by rw [place]; exact Nat.lt_succ_self _)
      · rw [place] at passed
        rw [show history = [] from passed]
        rfl
      · simp at paid
      · cases waits
    · cases h
      exact .fails (Quiet.refl s) _ (by rw [place]; rfl)
  · next context payload place =>
    cases h
    refine .passes (Quiet.refl s) (recordAll_nil s i) (by rw [place]; rfl) rfl trivial
      (fun history passed => ?_) (fun _ => List.not_mem_nil) (fun key waits => ?_)
      (by rw [place]; exact Nat.lt_succ_self _)
    · rw [List.append_nil]
      rw [place] at passed
      exact passed
    · cases waits
  · next approved payload context place => exact authorize_moved place whole
  · next now payload decision stage place =>
    split at h
    · next forward => exact proceed_moved place forward h
    · cases h
  · next output payload decision place =>
    cases h
    refine .advances (Quiet.refl s) (recordAll_nil s i) place rfl rfl
      (fun _ => ⟨(List.append_nil _).symm, fun key waits => ?_⟩) (fun _ => List.not_mem_nil)
      (fun key waits => ?_) (Nat.lt_succ_self 2)
    · cases waits
    · cases waits
  · cases h

end Moves

end Rankuno
