import Rankuno.Worker.DualGate

/-!
# What the dual gate guarantees

Every start of Screaming Frog is approved: it is bound to one minted preview
that was consumed once and in time for this worker's job, and its seed URL is
the preview's as the worker's own policy rebuilt it. With guardrails enabled no
job id is started twice. The invariant follows an assignment from the log over
the signed claims and the daemon's phase to the start.
-/

namespace Rankuno

open Python ConsumedJobLedger DispatchWire

namespace DualGate

variable (gate : DualGate)

/-- A seed URL as the worker starts it: rebuilt by its policy when the
assignment is prepared and again by the tool. -/
def Revalidated (approved launched : Text) : Prop :=
  ∃ (first second : Resolver) (prepared checked : SafeUrl),
    daemonUrlPolicy.validate gate.unicode first approved = .ok prepared ∧
      daemonUrlPolicy.validate gate.unicode second prepared.url = .ok checked ∧
      launched = checked.url

/-- A consumption that approves a start, when the two seed URLs are related by
`seed`. -/
structure Approves (seed : Text → Text → Prop) (s : DualGateState) (c : Consumption)
    (launch : Launch) : Prop where
  job_id : c.jobId = launch.jobId
  org_id : c.preview.orgId = gate.worker.orgId
  worker_id : c.preview.workerId = gate.worker.workerId
  seed_url : seed c.preview.seedUrl.toList launch.seedUrl
  template_name : c.preview.templateName = launch.templateName
  url_list_sha256 : c.preview.urlListSha256 = launch.urlListSha256
  minted : c.preview ∈ s.log.minted
  in_time : c.consumedAt < c.preview.expiresAt
  consumed_once : (s.log.consumed.map fun d => d.preview.token).count c.preview.token = 1
  job_once : (s.log.consumed.map Consumption.jobId).count launch.jobId = 1

/-- Every start is approved, and with guardrails enabled no job is started
twice. -/
structure Safe (s : DualGateState) : Prop where
  approved : ∀ launch ∈ s.started, ∃ c ∈ s.log.consumed, gate.Approves gate.Revalidated s c launch
  once : gate.worker.guardrailsEnabled = true → (s.started.map Launch.jobId).Nodup

/-- Claims of an assignment to this worker that a consumption stands behind. -/
structure Vouched (s : DualGateState) (claims : DispatchAssignmentClaims) : Prop where
  worker_id : claims.workerId = gate.worker.workerId
  org_id : claims.orgId = gate.worker.orgId
  consumed : ∃ c ∈ s.log.consumed, c.terms = claims.terms

/-- What is put up for approval is what the claims name. -/
structure Follows (claims : DispatchAssignmentClaims) (payload : ScreamingFrogJobInput) : Prop where
  seed_url : ∃ (resolve : Resolver) (safeUrl : SafeUrl),
    daemonUrlPolicy.validate gate.unicode resolve claims.seedUrl.toList = .ok safeUrl ∧
      payload.seedUrl = safeUrl.url
  template_name : payload.templateName = claims.templateName
  url_list_sha256 : payload.urlList.map UrlListInvocation.sha256 = claims.urlListSha256

/-- The claims behind the phase the daemon is in. -/
def PhaseVouched (s : DualGateState) : DaemonPhase → Prop
  | .idle | .stopped => True
  | .admitted _ claims => gate.Vouched s claims
  | .approving _ claims payload => gate.Vouched s claims ∧ gate.Follows claims payload
  | .executing jobId payload =>
    ∃ claims, claims.jobId = jobId ∧ gate.Vouched s claims ∧ gate.Follows claims payload

/-- A start as its claims had it. -/
structure StartedFrom (s : DualGateState) (claims : DispatchAssignmentClaims)
    (launch : Launch) : Prop where
  vouched : gate.Vouched s claims
  job_id : claims.jobId = launch.jobId
  seed_url : gate.Revalidated claims.seedUrl.toList launch.seedUrl
  template_name : claims.templateName = launch.templateName
  url_list_sha256 : claims.urlListSha256 = launch.urlListSha256

/-- Where everything the worker acts on comes from. -/
structure Provenance (s : DualGateState) : Prop where
  traces : s.log.Traces s.cloud
  decodes : ∀ a ∈ s.issued, gate.wire.decodeClaims a.payloadSegment = some a.claims
  issued : ∀ a ∈ s.issued, ∃ c ∈ s.log.consumed, c.terms = a.claims.terms
  phase : gate.PhaseVouched s s.daemon
  started : ∀ launch ∈ s.started, ∃ claims, gate.StartedFrom s claims launch

variable {gate} {s t : DualGateState} {claims : DispatchAssignmentClaims}
variable {payload : ScreamingFrogJobInput} {launch : Launch} {event : DualGateEvent}

section Growth

/-- Nothing that was consumed is forgotten. -/
def Keeps (s t : DualGateState) : Prop := ∀ c ∈ s.log.consumed, c ∈ t.log.consumed

theorem Vouched.mono (h : gate.Vouched s claims) (keeps : Keeps s t) : gate.Vouched t claims where
  worker_id := h.worker_id
  org_id := h.org_id
  consumed := by
    obtain ⟨c, hc, terms⟩ := h.consumed
    exact ⟨c, keeps c hc, terms⟩

theorem PhaseVouched.mono {phase : DaemonPhase} (h : gate.PhaseVouched s phase)
    (keeps : Keeps s t) : gate.PhaseVouched t phase := by
  cases phase with
  | idle => trivial
  | stopped => trivial
  | admitted token claims => exact Vouched.mono h keeps
  | approving token claims payload => exact ⟨h.1.mono keeps, h.2⟩
  | executing jobId payload =>
    obtain ⟨claims, job_id, vouched, follows⟩ := h
    exact ⟨claims, job_id, vouched.mono keeps, follows⟩

theorem StartedFrom.mono (h : gate.StartedFrom s claims launch) (keeps : Keeps s t) :
    gate.StartedFrom t claims launch :=
  { h with vouched := h.vouched.mono keeps }

end Growth

theorem Provenance.cloud {transaction : DispatchEvent} {cloud : DispatchState}
    (h : gate.Provenance s)
    (hstep : DispatchState.machine.step s.cloud transaction = some cloud) :
    gate.Provenance { s with cloud := cloud, log := s.log.record s.cloud transaction } := by
  have keeps : Keeps s { s with cloud := cloud, log := s.log.record s.cloud transaction } :=
    fun c hc => DispatchLog.mem_consumed_record hc
  refine ⟨h.traces.step hstep, h.decodes, ?_, h.phase.mono keeps, ?_⟩
  · intro a ha
    obtain ⟨c, hc, terms⟩ := h.issued a ha
    exact ⟨c, keeps c hc, terms⟩
  · intro launch hl
    obtain ⟨claims, started⟩ := h.started launch hl
    exact ⟨claims, started.mono keeps⟩

theorem record_claim (log : DispatchLog) (cloud : DispatchState) (workerId orgId : String)
    (locked : List String) (now : Timestamp) :
    log.record cloud (.claim workerId orgId locked now) = log := by
  simp [DispatchLog.record, DispatchState.mintedBy, DispatchState.consumedBy]

theorem assignmentFor_eq_some {claimed : Option WorkerJob} {jti : String} {issuedAt : Timestamp}
    {a : SignedDispatchAssignment} (h : gate.assignmentFor claimed jti issuedAt = some a) :
    ∃ job, claimed = some job ∧ a.claims = gate.claimsFor job jti issuedAt ∧
      a.payloadSegment = gate.wire.payloadSegment a.claims := by
  unfold assignmentFor at h
  split at h
  · cases h
  · next job =>
    split at h
    · next issued =>
      cases h
      obtain ⟨same, payload, -⟩ := gate.wire.issueDispatchAssignment_eq_ok issued
      exact ⟨job, rfl, same, same ▸ payload⟩
    · cases h

variable {now : Timestamp} {jobId : String} {resolve : Resolver} {templates : String → TemplateFile}

theorem terms_of_claimed {log : DispatchLog} {cloud : DispatchState} (traces : log.Traces cloud)
    {workerId orgId : String} {locked : List String} {job : WorkerJob}
    (h : (cloud.store.claimNextJob workerId orgId locked now).1 = some job) :
    ∃ c ∈ log.consumed, c.terms = job.terms := by
  rcases cloud.store.claimNextJob_cases workerId orgId locked now with
    ⟨none, -⟩ | ⟨j, next, claimed, -, -⟩
  · rw [none] at h
    cases h
  · rw [claimed] at h
    cases h
    refine traces.jobs j.id j.terms ?_
    rw [DispatchState.jobTerms, DispatchState.job, (DispatchStore.nextJob_spec next).1]
    rfl

theorem Provenance.of_phase (h : gate.Provenance s) (ledger : LedgerFile) {phase : DaemonPhase}
    (vouched : gate.PhaseVouched s phase) :
    gate.Provenance { s with ledger := ledger, daemon := phase } where
  traces := h.traces
  decodes := h.decodes
  issued := h.issued
  phase := vouched.mono fun _ hc => hc
  started := by
    intro launch hl
    obtain ⟨claims, started⟩ := h.started launch hl
    exact ⟨claims, started.mono fun _ hc => hc⟩

theorem Provenance.prepared {token : Text} {inputs : PrepareInputs} {recordedAt : String}
    (h : gate.Provenance s) (vouched : gate.Vouched s claims) :
    gate.Provenance (gate.prepared s token claims inputs recordedAt) := by
  unfold DualGate.prepared
  split
  · next payload ready =>
    obtain ⟨seed_url, template_name, url_list_sha256⟩ := prepareJob_eq_ok ready
    exact h.of_phase s.ledger ⟨vouched, ⟨⟨inputs.resolve, seed_url⟩, template_name,
      url_list_sha256⟩⟩
  · exact h.of_phase _ trivial
  · exact h.of_phase s.ledger trivial

theorem startedFrom_of_launchJob (job_id : claims.jobId = jobId)
    (vouched : gate.Vouched s claims) (follows : gate.Follows claims payload)
    (launched : launchJob gate.unicode daemonUrlPolicy jobId payload resolve templates =
      .ok launch) : gate.StartedFrom s claims launch := by
  obtain ⟨⟨checked, validated, seed_url⟩, started, template_name, url_list_sha256⟩ :=
    launchJob_eq_ok launched
  obtain ⟨first, prepared, hprepared, same⟩ := follows.seed_url
  rw [same] at validated
  exact {
    vouched := vouched
    job_id := job_id.trans started.symm
    seed_url := ⟨first, resolve, prepared, checked, hprepared, validated, seed_url⟩
    template_name := (template_name.trans follows.template_name).symm
    url_list_sha256 := (url_list_sha256.trans follows.url_list_sha256).symm }

theorem Provenance.executed (h : gate.Provenance s)
    (job_id : claims.jobId = jobId) (vouched : gate.Vouched s claims)
    (follows : gate.Follows claims payload) :
    gate.Provenance (gate.executed s jobId payload resolve templates) := by
  unfold DualGate.executed
  split
  · next launch launched =>
    refine ⟨h.traces, h.decodes, h.issued, trivial, ?_⟩
    intro other hother
    rcases List.mem_append.mp hother with old | new
    · obtain ⟨before, started⟩ := h.started other old
      exact ⟨before, started.mono fun _ hc => hc⟩
    · rw [List.mem_singleton] at new
      rw [new]
      exact ⟨claims, (startedFrom_of_launchJob job_id vouched follows launched).mono
        fun _ hc => hc⟩
  · exact h.of_phase s.ledger trivial

theorem Provenance.poll {workerId orgId : String} {locked : List String}
    {claimedAt issuedAt : Timestamp} {jti : String} (h : gate.Provenance s)
    (honest : gate.Honest s (.poll workerId orgId locked claimedAt jti issuedAt))
    (hstep : gate.machine.step s (.poll workerId orgId locked claimedAt jti issuedAt) = some t) :
    gate.Provenance t := by
  cases hstep
  have claimed : DispatchState.machine.step s.cloud (.claim workerId orgId locked claimedAt) =
    some { s.cloud with store := (s.cloud.store.claimNextJob workerId orgId locked claimedAt).2 } :=
    rfl
  have traces := h.traces.step claimed
  rw [record_claim] at traces
  refine ⟨traces, ?_, ?_, h.phase.mono fun _ hc => hc, ?_⟩
  · intro a ha
    rcases List.mem_append.mp ha with old | new
    · exact h.decodes a old
    · obtain ⟨-, -, -, payload⟩ := assignmentFor_eq_some (Option.mem_toList.mp new)
      rw [payload]
      exact gate.wire.decodeClaims_payloadSegment (honest a (Option.mem_toList.mp new))
  · intro a ha
    rcases List.mem_append.mp ha with old | new
    · exact h.issued a old
    · obtain ⟨job, claimed, claims, -⟩ := assignmentFor_eq_some (Option.mem_toList.mp new)
      rw [claims]
      exact terms_of_claimed h.traces claimed
  · intro launch hl
    obtain ⟨claims, started⟩ := h.started launch hl
    exact ⟨claims, started.mono fun _ hc => hc⟩

theorem Provenance.vouched (h : gate.Provenance s) {token : Text}
    (unforged : gate.Unforged s token)
    (verified : verifyAssignment gate.wire gate.worker token now = .ok claims) :
    gate.Vouched s claims := by
  obtain ⟨header, payload, signature, segments, checked, decoded, -, worker_id, org_id⟩ :=
    gate.wire.verifyDispatchAssignment_eq_ok verified
  unfold Unforged at unforged
  rw [segments] at unforged
  obtain ⟨a, ha, rfl⟩ := unforged checked
  have same : a.claims = claims := Option.some.inj ((h.decodes a ha).symm.trans decoded)
  exact ⟨worker_id, org_id, same ▸ h.issued a ha⟩

theorem Provenance.approved {context recordedAt : String} {token : Text}
    (h : gate.Provenance s) (vouched : gate.Vouched s claims)
    (follows : gate.Follows claims payload) :
    gate.Provenance (gate.approved s token claims payload context now recordedAt) := by
  refine h.of_phase _ ?_
  split
  · exact ⟨claims, rfl, vouched, follows⟩
  · trivial

theorem Provenance.step (h : gate.Provenance s) (honest : gate.Honest s event)
    (hstep : gate.machine.step s event = some t) : gate.Provenance t := by
  have phase := h.phase
  cases event with
  | cloud transaction =>
    obtain ⟨cloud, hcloud, rfl⟩ := Option.map_eq_some_iff.mp hstep
    exact h.cloud hcloud
  | poll workerId orgId locked claimedAt jti issuedAt => exact h.poll honest hstep
  | deliver token now =>
    simp only [machine] at hstep
    split at hstep
    · cases hstep
      refine h.of_phase s.ledger ?_
      rcases handleAssignment_cases gate.wire gate.worker s.ledger token now with
        idle | stopped | ⟨claims, verified, admitted⟩
      · rw [idle]
        trivial
      · rw [stopped]
        trivial
      · rw [admitted]
        exact h.vouched honest verified
    · cases hstep
  | prepare inputs recordedAt =>
    simp only [machine] at hstep
    split at hstep
    · next token claims admitted =>
      cases hstep
      rw [admitted] at phase
      exact h.prepared phase
    · cases hstep
  | approve context now recordedAt =>
    simp only [machine] at hstep
    split at hstep
    · next token claims payload approving =>
      cases hstep
      rw [approving] at phase
      exact h.approved phase.1 phase.2
    · cases hstep
  | execute resolve templates =>
    simp only [machine] at hstep
    split at hstep
    · next jobId payload executing =>
      cases hstep
      rw [executing] at phase
      obtain ⟨claims, job_id, vouched, follows⟩ := phase
      exact h.executed job_id vouched follows
    · cases hstep
  | fail =>
    simp only [machine] at hstep
    split at hstep
    · cases hstep
      exact h.of_phase s.ledger trivial
    · cases hstep
  | restart =>
    cases hstep
    exact h.of_phase s.ledger trivial

/-- Every id that was started is on the worker's record, and the id that is
about to be started is there too but has not been started. -/
structure SingleStart (s : DualGateState) : Prop where
  on_record : ∀ launch ∈ s.started, launch.jobId ∈ keys (recorded s.ledger)
  executing : ∀ jobId payload, s.daemon = .executing jobId payload →
    jobId ∈ keys (recorded s.ledger) ∧ ∀ launch ∈ s.started, launch.jobId ≠ jobId
  once : (s.started.map Launch.jobId).Nodup

theorem SingleStart.of_phase (h : SingleStart s) {ledger : LedgerFile} {phase : DaemonPhase}
    (grows : ∀ id ∈ keys (recorded s.ledger), id ∈ keys (recorded ledger))
    (unapproved : ∀ jobId payload, phase ≠ .executing jobId payload) :
    SingleStart { s with ledger := ledger, daemon := phase } where
  on_record := fun launch hl => grows _ (h.on_record launch hl)
  executing := fun jobId payload executing => absurd executing (unapproved jobId payload)
  once := h.once

theorem SingleStart.prepared {token : Text} {inputs : PrepareInputs} {recordedAt : String}
    (h : SingleStart s) : SingleStart (gate.prepared s token claims inputs recordedAt) := by
  unfold DualGate.prepared
  split
  · exact h.of_phase (fun _ hid => hid) fun _ _ => by simp
  · exact h.of_phase (fun _ hid => keys_consumeJob claims.jobId recordedAt hid) fun _ _ => by simp
  · exact h.of_phase (fun _ hid => hid) fun _ _ => by simp

theorem SingleStart.approved {context recordedAt : String} {token : Text}
    (h : SingleStart s) (enabled : gate.worker.guardrailsEnabled = true) :
    SingleStart (gate.approved s token claims payload context now recordedAt) where
  on_record := fun launch hl =>
    keys_approveJob token context now recordedAt (h.on_record launch hl)
  executing := by
    intro jobId other executing
    simp only [DualGate.approved] at executing
    split at executing
    · next granted =>
      cases executing
      obtain ⟨unknown, known⟩ := approveJob_granted enabled granted
      exact ⟨known, fun launch hl same => unknown (same ▸ h.on_record launch hl)⟩
    · cases executing
  once := h.once

theorem SingleStart.executed (h : SingleStart s)
    (executing : s.daemon = .executing jobId payload) :
    SingleStart (gate.executed s jobId payload resolve templates) := by
  obtain ⟨known, unstarted⟩ := h.executing jobId payload executing
  unfold DualGate.executed
  split
  · next launch launched =>
    have same : launch.jobId = jobId := (launchJob_eq_ok launched).2.1
    refine ⟨?_, fun _ _ idle => ?_, ?_⟩
    · intro other hother
      rcases List.mem_append.mp hother with old | new
      · exact h.on_record other old
      · rw [List.mem_singleton.mp new, same]
        exact known
    · cases idle
    · exact nodup_map_append_singleton h.once fun other hother => by
        rw [same]
        exact unstarted other hother
  · exact h.of_phase (fun _ hid => hid) fun _ _ => by simp

theorem SingleStart.step (h : SingleStart s) (enabled : gate.worker.guardrailsEnabled = true)
    (hstep : gate.machine.step s event = some t) : SingleStart t := by
  cases event with
  | cloud transaction =>
    obtain ⟨cloud, -, rfl⟩ := Option.map_eq_some_iff.mp hstep
    exact ⟨h.on_record, h.executing, h.once⟩
  | poll workerId orgId locked claimedAt jti issuedAt =>
    cases hstep
    exact ⟨h.on_record, h.executing, h.once⟩
  | deliver token now =>
    simp only [machine] at hstep
    split at hstep
    · cases hstep
      refine h.of_phase (fun _ hid => hid) fun _ _ executing => ?_
      rcases handleAssignment_cases gate.wire gate.worker s.ledger token now with
        idle | stopped | ⟨claims, -, admitted⟩
      · rw [idle] at executing
        cases executing
      · rw [stopped] at executing
        cases executing
      · rw [admitted] at executing
        cases executing
    · cases hstep
  | prepare inputs recordedAt =>
    simp only [machine] at hstep
    split at hstep
    · cases hstep
      exact h.prepared
    · cases hstep
  | approve context now recordedAt =>
    simp only [machine] at hstep
    split at hstep
    · cases hstep
      exact h.approved enabled
    · cases hstep
  | execute resolve templates =>
    simp only [machine] at hstep
    split at hstep
    · next executing =>
      cases hstep
      exact h.executed executing
    · cases hstep
  | fail =>
    simp only [machine] at hstep
    split at hstep
    · cases hstep
      exact h.of_phase (fun _ hid => hid) fun _ _ => by simp
    · cases hstep
  | restart =>
    cases hstep
    exact h.of_phase (fun _ hid => hid) fun _ _ => by simp

theorem Provenance.start (file : LedgerFile) : gate.Provenance (.start file) where
  traces := .empty
  decodes := by
    intro a ha
    cases ha
  issued := by
    intro a ha
    cases ha
  phase := trivial
  started := by
    intro launch hl
    cases hl

theorem SingleStart.start (file : LedgerFile) : SingleStart (.start file) where
  on_record := by
    intro launch hl
    cases hl
  executing := by
    intro jobId payload executing
    cases executing
  once := List.nodup_nil

theorem Provenance.approves (h : gate.Provenance s) (started : gate.StartedFrom s claims launch) :
    ∃ c ∈ s.log.consumed, gate.Approves gate.Revalidated s c launch := by
  obtain ⟨c, hc, terms⟩ := started.vouched.consumed
  have job_id : c.jobId = launch.jobId :=
    (congrArg DispatchTerms.jobId terms).trans started.job_id
  have seed_url : c.preview.seedUrl = claims.seedUrl := congrArg DispatchTerms.seedUrl terms
  refine ⟨c, hc, {
    job_id := job_id
    org_id := (congrArg DispatchTerms.orgId terms).trans started.vouched.org_id
    worker_id := (congrArg DispatchTerms.workerId terms).trans started.vouched.worker_id
    seed_url := by
      rw [seed_url]
      exact started.seed_url
    template_name := (congrArg DispatchTerms.templateName terms).trans started.template_name
    url_list_sha256 :=
      (congrArg DispatchTerms.urlListSha256 terms).trans started.url_list_sha256
    minted := h.traces.minted c hc
    in_time := h.traces.in_time c hc
    consumed_once := List.count_eq_one_of_mem h.traces.tokens_nodup
      (List.mem_map.mpr ⟨c, hc, rfl⟩)
    job_once := List.count_eq_one_of_mem h.traces.jobs_nodup
      (List.mem_map.mpr ⟨c, hc, job_id⟩) }⟩

theorem Provenance.safe (h : gate.Provenance s)
    (single : gate.worker.guardrailsEnabled = true → SingleStart s) : gate.Safe s where
  approved := by
    intro launch hl
    obtain ⟨claims, started⟩ := h.started launch hl
    exact h.approves started
  once := fun enabled => (single enabled).once

/-- Whatever the parties and the network do, in every state of a run without
forged signatures every start is approved, and with guardrails enabled no job is
started twice. -/
theorem starts_are_approved_once (gate : DualGate) (file : LedgerFile) (events : List DualGateEvent)
    (honest : gate.machine.Meets gate.Honest (.start file) events) :
    gate.machine.Always gate.Safe (.start file) events := by
  refine Machine.always_of_meets
    (I := fun s => gate.Provenance s ∧ (gate.worker.guardrailsEnabled = true → SingleStart s))
    ?_ ⟨.start file, fun _ => .start file⟩ honest fun s h => h.1.safe h.2
  intro s event t h hon hstep
  exact ⟨h.1.step hon hstep, fun enabled => (h.2 enabled).step enabled hstep⟩

section Attempt

variable {token : Text} {launch : Launch}

theorem run_attempt {now later : Timestamp} {inputs : PrepareInputs}
    {recordedAt grantedAt context : String} {resolve : Resolver}
    {templates : String → TemplateFile} (idle : s.daemon = .idle)
    (fresh : claims.jobId ∉ keys (recorded s.ledger))
    (verified : verifyAssignment gate.wire gate.worker token now = .ok claims)
    (prepared : prepareJob gate.wire gate.unicode daemonUrlPolicy claims inputs = .ok payload)
    (verified_later : verifyAssignment gate.wire gate.worker token later = .ok claims)
    (launched : launchJob gate.unicode daemonUrlPolicy claims.jobId payload resolve templates =
      .ok launch) :
    ∃ file, gate.machine.run s [.deliver token now, .prepare inputs recordedAt,
          .approve context later grantedAt, .execute resolve templates] =
        some { s with ledger := file, started := s.started ++ [launch] } ∧
      (gate.worker.guardrailsEnabled = false → file = s.ledger) := by
  obtain ⟨granted, unrecorded⟩ := approveJob_of_verified context grantedAt verified_later fresh
  have deliver : gate.machine.step s (.deliver token now) =
      some { s with daemon := .admitted token claims } := by
    simp only [machine, idle, handleAssignment_of_verified verified fresh]
  have prepare : gate.machine.step { s with daemon := .admitted token claims }
      (.prepare inputs recordedAt) = some { s with daemon := .approving token claims payload } := by
    simp only [machine, DualGate.prepared, prepared]
  have approve : gate.machine.step { s with daemon := .approving token claims payload }
      (.approve context later grantedAt) =
      some { s with
        ledger := (approveJob gate.wire gate.worker s.ledger token claims context later
          grantedAt).2
        daemon := .executing claims.jobId payload } := by
    simp only [machine, DualGate.approved, granted, if_true]
  refine ⟨_, ?_, unrecorded⟩
  rw [Machine.run_cons, deliver, Option.bind_some, Machine.run_cons, prepare, Option.bind_some,
    Machine.run_cons, approve, Option.bind_some, Machine.run_singleton]
  simp only [machine, executed, launched, idle]

theorem unforged_of_issued {a : SignedDispatchAssignment} {secret : Text} (ha : a ∈ s.issued)
    (issued : gate.wire.issueDispatchAssignment claims (some secret) gate.signingKey = .ok a) :
    gate.Unforged s a.token := by
  rw [Unforged, gate.wire.split_of_issued issued]
  exact fun _ => ⟨a, ha, rfl⟩

end Attempt

section Sample

def asciiBytes (text : String) : Bytes := text.toList.map fun c => UInt8.ofNat c.toNat

/-- The one assignment of the runs below. -/
def sampleClaims : DispatchAssignmentClaims where
  jobId := "j"
  workerId := "w"
  orgId := "org"
  kind := .screamingFrogCrawl
  seedUrl := "http://a.io/ "
  templateName := none
  correlationId := "c"
  urlListSha256 := none
  jti := "n"
  issuedAt := 1767225600000000
  expiresAt := 1767225900000000

/-- `model_dump_json` of these claims. -/
def samplePayload : Bytes :=
  asciiBytes ("\x7b\"job_id\":\"j\",\"worker_id\":\"w\",\"org_id\":\"org\"," ++
    "\"kind\":\"screaming_frog_crawl\",\"seed_url\":\"http://a.io/ \"," ++
    "\"template_name\":null,\"correlation_id\":\"c\",\"url_list_sha256\":null," ++
    "\"jti\":\"n\",\"issued_at\":\"2026-01-01T00:00:00Z\"," ++
    "\"expires_at\":\"2026-01-01T00:05:00Z\"\x7d")

/-- The libraries as they answer on this assignment: the JSON of its header and
claims, and the HMAC-SHA256 of their segments under the secret `k`. -/
def sampleWire : DispatchWire where
  jsonDumps _ := asciiBytes "\x7b\"alg\": \"HS256\", \"typ\": \"RANKUNO-DISPATCH\"\x7d"
  jsonLoads _ := none
  claimsDumpJson claims := if claims = sampleClaims then samplePayload else []
  claimsValidateJson bytes := if bytes = samplePayload then some sampleClaims else none
  hmacSha256 _ _ :=
    [0x63, 0x85, 0x25, 0xfa, 0x0e, 0x21, 0x54, 0x68, 0xc2, 0x88, 0x54, 0x4d, 0x5d, 0x4e, 0x99,
      0xab, 0xf3, 0x9e, 0x80, 0x94, 0xd6, 0xc1, 0xbd, 0x44, 0xc3, 0xd9, 0xc9, 0x33, 0x13, 0x8e,
      0x51, 0xdb]
  sha256Hex _ := ""
  decodeUtf8 _ := []

/-- The Unicode database on ASCII text. -/
def asciiUnicode : UnicodeData where
  lower s := s.map Char.toLower
  nfkc s := s
  idna s := .ok s
  repr s := "'".toList ++ s ++ "'".toList

/-- A development deployment that still signs with the shared secret. -/
def sampleGate (guardrailsEnabled : Bool) : DualGate where
  wire := sampleWire
  unicode := asciiUnicode
  worker := ⟨"w", "org", none, "k".toList, .development, guardrailsEnabled⟩
  cloudSecret := some "k".toList
  signingKey := none
  assignmentTtl := 300000000

def sampleResolver : Resolver := fun _ => .ok ["8.8.8.8".toList]

/-- The preview the route mints for `http://a.io/ #x`. -/
def samplePreview : DispatchPreview :=
  ⟨"t", "org", "w", "http://a.io/ ", none, "c", 1767225700000000, none, none⟩

/-- The job is confirmed. -/
def sampleConfirmed : List DualGateEvent :=
  [.cloud (.preview samplePreview),
    .cloud (.beginConfirm ⟨"t", "org", "w", "http://a.io/ ", none, "c", none⟩),
    .cloud (.finishConfirm 0 none "j" 1767225600000000)]

def samplePoll : DualGateEvent := .poll "w" "org" [] 1767225600000000 "n" 1767225600000000

/-- The token that poll returns. -/
def sampleToken : Text :=
  match sampleWire.issueDispatchAssignment sampleClaims (some "k".toList) none with
  | .ok assignment => assignment.token
  | .error _ => []

/-- The daemon is handed a token and goes all the way. -/
def sampleAttempt (token : Text) : List DualGateEvent :=
  [.deliver token 1767225600000000,
    .prepare ⟨sampleResolver, fun _ => .absent, .error [], none⟩ "2026-01-01T00:00:01Z",
    .approve "" 1767225602000000 "2026-01-01T00:00:02Z",
    .execute sampleResolver fun _ => .absent]

def sampleLaunch : Launch := ⟨"j", "http://a.io/".toList, none, none⟩

/-- The token has been returned and its job is not on record. -/
structure AwaitsSample (s : DualGateState) : Prop where
  idle : s.daemon = .idle
  fresh : "j" ∉ keys (recorded s.ledger)
  issued : ∃ a ∈ s.issued,
    sampleWire.issueDispatchAssignment sampleClaims (some "k".toList) none = .ok a

/-- The network hands over nothing but tokens as the cloud returned them. -/
def Replays (gate : DualGate) (s : DualGateState) (event : DualGateEvent) : Prop :=
  gate.Honest s event ∧
    match event with
    | .deliver token _ => ∃ a ∈ s.issued, a.token = token
    | _ => True

variable (guardrailsEnabled : Bool)

theorem sample_json :
    sampleWire.claimsValidateJson (sampleWire.claimsDumpJson sampleClaims) = some sampleClaims := by
  simp only [sampleWire, if_true]

theorem AwaitsSample.token_issued (h : AwaitsSample s) : ∃ a ∈ s.issued, a.token = sampleToken ∧
      sampleWire.issueDispatchAssignment sampleClaims (some "k".toList) none = .ok a := by
  obtain ⟨a, ha, issued⟩ := h.issued
  exact ⟨a, ha, by rw [sampleToken, issued], issued⟩

theorem AwaitsSample.run_attempt (h : AwaitsSample s) :
    ∃ file, (sampleGate guardrailsEnabled).machine.run s (sampleAttempt sampleToken) =
        some { s with ledger := file, started := s.started ++ [sampleLaunch] } ∧
      (guardrailsEnabled = false → file = s.ledger) := by
  obtain ⟨a, -, token, issued⟩ := h.token_issued
  have verified : ∀ now, ¬sampleClaims.expiresAt < now →
      verifyAssignment sampleWire (sampleGate guardrailsEnabled).worker a.token now =
        .ok sampleClaims := fun now unexpired =>
    sampleWire.verifyDispatchAssignment_of_issued issued sample_json unexpired
  have prepared : prepareJob sampleWire asciiUnicode daemonUrlPolicy sampleClaims
      ⟨sampleResolver, fun _ => .absent, .error [], none⟩ =
      .ok ⟨"http://a.io/".toList, none, none⟩ := by decide
  have launched : launchJob asciiUnicode daemonUrlPolicy "j" ⟨"http://a.io/".toList, none, none⟩
      sampleResolver (fun _ => .absent) = .ok sampleLaunch := by decide
  rw [← token]
  exact DualGate.run_attempt h.idle h.fresh (verified _ (by decide)) prepared
    (verified _ (by decide)) launched

theorem AwaitsSample.replays_attempt (h : AwaitsSample s) :
    (sampleGate guardrailsEnabled).machine.Meets (sampleGate guardrailsEnabled).Replays s
      (sampleAttempt sampleToken) := by
  obtain ⟨a, ha, token, issued⟩ := h.token_issued
  have unforged : (sampleGate guardrailsEnabled).Unforged s a.token := unforged_of_issued ha issued
  rw [← token]
  refine ⟨⟨unforged, a, ha, rfl⟩, fun t _ => ?_⟩
  refine ⟨⟨trivial, trivial⟩, fun u _ => ?_⟩
  refine ⟨⟨trivial, trivial⟩, fun v _ => ?_⟩
  exact ⟨⟨trivial, trivial⟩, fun w _ => trivial⟩

/-- The job is confirmed and waits for the poll; the worker has done nothing. -/
def Confirmed (gate : DualGate) (s : DualGateState) : Prop :=
  s.daemon = .idle ∧ s.ledger = .absent ∧ s.started = [] ∧
    s.log.consumed = [⟨samplePreview, "j", 1767225600000000⟩] ∧
    (s.cloud.store.claimNextJob "w" "org" [] 1767225600000000).1.map
      (gate.claimsFor · "n" 1767225600000000) = some sampleClaims

instance (gate : DualGate) : DecidablePred gate.Confirmed := fun s => by
  unfold Confirmed
  infer_instance

theorem sample_confirmed :
    ∃ s, (sampleGate guardrailsEnabled).machine.run (.start .absent) sampleConfirmed = some s ∧
      (sampleGate guardrailsEnabled).Confirmed s := by
  have evaluated : ((sampleGate guardrailsEnabled).machine.run (.start .absent)
      sampleConfirmed).any (fun s => decide ((sampleGate guardrailsEnabled).Confirmed s)) =
      true := by
    cases guardrailsEnabled <;> decide
  obtain ⟨s, hs, confirmed⟩ := (Option.any_eq_true _ _).mp evaluated
  exact ⟨s, hs, of_decide_eq_true confirmed⟩

/-- The job is confirmed and claimed, and its token returned. -/
def sampleQueued : List DualGateEvent := sampleConfirmed ++ [samplePoll]

theorem sample_queued :
    ∃ s, (sampleGate guardrailsEnabled).machine.run (.start .absent) sampleQueued = some s ∧
      AwaitsSample s ∧ s.started = [] ∧
      s.log.consumed = [⟨samplePreview, "j", 1767225600000000⟩] := by
  obtain ⟨s, hs, idle, ledger, started, consumed, claimed⟩ := sample_confirmed guardrailsEnabled
  obtain ⟨job, claimed, claims⟩ := Option.map_eq_some_iff.mp claimed
  obtain ⟨a, minted⟩ := sampleWire.issueDispatchAssignment_of_valid "k".toList none
    (show sampleClaims.Valid by decide)
  have assignment : (sampleGate guardrailsEnabled).assignmentFor (some job) "n" 1767225600000000 =
      some a := by
    have minted : (sampleGate guardrailsEnabled).wire.issueDispatchAssignment
        ((sampleGate guardrailsEnabled).claimsFor job "n" 1767225600000000)
        (sampleGate guardrailsEnabled).cloudSecret (sampleGate guardrailsEnabled).signingKey =
        .ok a := by
      rw [claims]
      exact minted
    simp only [assignmentFor, minted]
  refine ⟨_, Machine.run_append_eq_some.mpr ⟨s, hs, rfl⟩, ⟨idle, ?_, a, ?_, minted⟩, started,
    consumed⟩
  · show "j" ∉ keys (recorded s.ledger)
    rw [ledger]
    exact List.not_mem_nil
  · show a ∈ s.issued ++ _
    rw [claimed, assignment]
    exact List.mem_append_right _ (List.mem_singleton_self a)

theorem sample_queued_replays :
    (sampleGate guardrailsEnabled).machine.Meets (sampleGate guardrailsEnabled).Replays
      (.start .absent) sampleQueued := by
  refine Machine.meets_append.mpr ⟨?_, fun u hu => ⟨⟨?_, trivial⟩, fun _ _ => trivial⟩⟩
  · exact ⟨⟨trivial, trivial⟩, fun _ _ => ⟨⟨trivial, trivial⟩, fun _ _ =>
      ⟨⟨trivial, trivial⟩, fun _ _ => trivial⟩⟩⟩
  · intro a ha
    obtain ⟨s, hs, -, -, -, -, claims⟩ := sample_confirmed guardrailsEnabled
    obtain ⟨job, claimed, same, -⟩ := assignmentFor_eq_some ha
    cases hs.symm.trans hu
    rw [claimed, Option.map_some, ← same] at claims
    rw [Option.some.inj claims]
    exact sample_json

theorem sample_started : ∃ s, (sampleGate guardrailsEnabled).machine.run (.start .absent)
        (sampleQueued ++ sampleAttempt sampleToken) = some s ∧ s.started = [sampleLaunch] ∧
      s.log.consumed = [⟨samplePreview, "j", 1767225600000000⟩] ∧
      (guardrailsEnabled = false → AwaitsSample s) := by
  obtain ⟨s, hs, awaits, started, consumed⟩ := sample_queued guardrailsEnabled
  obtain ⟨file, hrun, kept⟩ := awaits.run_attempt guardrailsEnabled
  refine ⟨_, Machine.run_append_eq_some.mpr ⟨s, hs, hrun⟩, ?_, consumed, ?_⟩
  · show s.started ++ [sampleLaunch] = [sampleLaunch]
    rw [started, List.nil_append]
  · intro disabled
    exact ⟨awaits.idle, (kept disabled).symm ▸ awaits.fresh, awaits.issued⟩

theorem sample_replays :
    (sampleGate guardrailsEnabled).machine.Meets (sampleGate guardrailsEnabled).Replays
      (.start .absent) (sampleQueued ++ sampleAttempt sampleToken) := by
  refine Machine.meets_append.mpr ⟨sample_queued_replays guardrailsEnabled, fun t ht => ?_⟩
  obtain ⟨s, hs, awaits, -⟩ := sample_queued guardrailsEnabled
  cases hs.symm.trans ht
  exact awaits.replays_attempt guardrailsEnabled

/-- One job goes through both gates and is started with the URL its worker
rebuilt. -/
theorem starts_are_approved_once_sample :
    (sampleGate true).machine.Always (sampleGate true).Safe (.start .absent)
        (sampleQueued ++ sampleAttempt sampleToken) ∧
      ∃ s, (sampleGate true).machine.run (.start .absent)
          (sampleQueued ++ sampleAttempt sampleToken) = some s ∧ s.started = [sampleLaunch] := by
  obtain ⟨s, hs, started, -⟩ := sample_started true
  exact ⟨starts_are_approved_once (sampleGate true) .absent
    (sampleQueued ++ sampleAttempt sampleToken) ((sample_replays true).mono fun _ _ h => h.1),
    s, hs, started⟩

/-- The preview's seed URL ends in the blank its own policy left before the
fragment it cut off, the worker's policy strips it, and so the start is not the
preview's to the letter. Without guardrails the token is good for another start. -/
theorem starts_differ_from_previews :
    (daemonUrlPolicy.validate asciiUnicode sampleResolver "http://a.io/ #x".toList).map
        SafeUrl.url = .ok samplePreview.seedUrl.toList ∧
      ((sampleGate true).machine.Meets (sampleGate true).Replays (.start .absent)
          (sampleQueued ++ sampleAttempt sampleToken) ∧
        ¬(sampleGate true).machine.Always (fun s => ∀ launch ∈ s.started,
          ∃ c ∈ s.log.consumed, (sampleGate true).Approves Eq s c launch) (.start .absent)
          (sampleQueued ++ sampleAttempt sampleToken)) ∧
      ((sampleGate false).machine.Meets (sampleGate false).Replays (.start .absent)
          (sampleQueued ++ sampleAttempt sampleToken ++ sampleAttempt sampleToken) ∧
        ¬(sampleGate false).machine.Always (fun s => (s.started.map Launch.jobId).Nodup)
          (.start .absent)
          (sampleQueued ++ sampleAttempt sampleToken ++ sampleAttempt sampleToken)) := by
  refine ⟨by decide, ⟨sample_replays true, ?_⟩, ?_, ?_⟩
  · intro always
    obtain ⟨s, hs, started, consumed, -⟩ := sample_started true
    obtain ⟨c, hc, approves⟩ := always.last hs sampleLaunch
      (started ▸ List.mem_singleton_self sampleLaunch)
    rw [consumed, List.mem_singleton] at hc
    have seed_url := approves.seed_url
    rw [hc] at seed_url
    exact absurd seed_url (by decide)
  · refine Machine.meets_append.mpr ⟨sample_replays false, fun t ht => ?_⟩
    obtain ⟨s, hs, -, -, awaits⟩ := sample_started false
    cases hs.symm.trans ht
    exact (awaits rfl).replays_attempt false
  · intro always
    obtain ⟨s, hs, started, -, awaits⟩ := sample_started false
    obtain ⟨file, hrun, -⟩ := (awaits rfl).run_attempt false
    have once := always.last (Machine.run_append_eq_some.mpr ⟨s, hs, hrun⟩)
    dsimp only at once
    rw [started] at once
    exact absurd once (by decide)

end Sample

end DualGate

end Rankuno
