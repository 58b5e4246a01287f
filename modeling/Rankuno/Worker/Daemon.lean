import Rankuno.Governance.Guardrails
import Rankuno.UrlSafety.Policy
import Rankuno.Worker.ConsumedLedger
import Rankuno.WorkerDispatch.Signing

/-!
# The worker daemon's own gate

One assignment on its way through `worker_daemon.py`: admission, the checks of
its envelope, the approval that consumes the job id, and the launch. Every
clock reading, lookup and download is an argument. The record of consumed job
ids is read and written without faults here; `ConsumedLedger` has the faults.
-/

namespace Rankuno

open Python Python.Text

/-- What the template directory holds under a name. -/
inductive TemplateFile where
  | present
  /-- The path resolves outside the directory. -/
  | escapes
  | absent
  deriving DecidableEq

/-- `TemplateRegistry.resolve`, with the text of its `TemplateNotFoundError`. -/
def resolveTemplate (directory : String → TemplateFile) (name : String) : Except String Unit :=
  if ¬IsSlug 128 name then .error ("invalid Screaming Frog template name '" ++ name ++ "'")
  else
    match directory name with
    | .present => .ok ()
    | .escapes =>
      .error ("Screaming Frog template '" ++ name ++
        "' does not resolve inside the template directory")
    | .absent => .error ("unknown Screaming Frog template '" ++ name ++ "'")

/-- The `--crawl-list` file a run is given, and what it holds. -/
structure UrlListInvocation where
  urlCount : Nat
  sha256 : String
  sourceLabel : Text
  sample : List Text
  deriving DecidableEq

structure ScreamingFrogJobInput where
  seedUrl : Text
  templateName : Option String
  urlList : Option UrlListInvocation
  deriving DecidableEq

/-- Why a job is not put up for approval: a reason that is reported while the
job id is consumed, or an exception nothing in the loop handles. -/
inductive PrepareError where
  | reportAndConsume (error : Text)
  | escaped
  deriving DecidableEq

/-- The worker's own configuration. -/
structure WorkerSettings where
  workerId : String
  orgId : String
  verifyKey : Option DispatchVerifyKey
  signingSecret : Text
  environment : Environment
  guardrailsEnabled : Bool

/-- The secret `_verify_assignment` passes on: none beside a verify key, so that
nothing can fall back to it. -/
def WorkerSettings.usableSecret (settings : WorkerSettings) : Option Text :=
  match settings.verifyKey with
  | some _ => none
  | none => some settings.signingSecret

/-- The looked-up parts of one job's preparation: how its host resolves, the
templates there are, and what the list download gives (its bytes or an error
text) and the error of writing the list, if any. -/
structure PrepareInputs where
  resolve : Resolver
  templates : String → TemplateFile
  download : Except Text Bytes
  writeError : Option Text

/-- One start of Screaming Frog. -/
structure Launch where
  jobId : String
  seedUrl : Text
  templateName : Option String
  urlListSha256 : Option String
  deriving DecidableEq

/-- Where the daemon stands between two messages. -/
inductive DaemonPhase where
  | idle
  | admitted (token : Text) (claims : DispatchAssignmentClaims)
  | approving (token : Text) (claims : DispatchAssignmentClaims) (payload : ScreamingFrogJobInput)
  | executing (jobId : String) (payload : ScreamingFrogJobInput)
  /-- An exception ended the loop; only a restart leaves this. -/
  | stopped
  deriving DecidableEq

/-- `read_url_list_file`. -/
def readUrlListFile (wire : DispatchWire) (body : Bytes) : List Text :=
  ((splitlines (lstrip (fun c => c.toNat = 0xfeff) (wire.decodeUtf8 body))).map
    (strip isSpace)).filter fun line => line ≠ []

/-- `SAMPLE_SIZE`. -/
def sampleSize : Nat := 3

/-- `str` of `UrlListIntegrityError`. -/
def urlListIntegrityError (expected actual : String) (byteCount : Nat) : Text :=
  ("the URL list this worker downloaded does not match the approved fingerprint: expected " ++
      "sha256:" ++ expected ++ ", got sha256:" ++ actual ++ " over ").toList ++
    ofNatGrouped byteCount ++
    (" bytes. Nothing was crawled. This is not a transient failure — the list that was " ++
      "approved and the list that arrived are different files.").toList

/-- `str` of `EmptyApprovedListError`. -/
def emptyApprovedListError (sha256 : String) : Text :=
  ("the approved URL list (sha256:" ++ sha256 ++ ") contains no URLs, so there is nothing to " ++
    "crawl. Its fingerprint is correct, which means the stored list itself is empty — report " ++
    "this rather than retrying.").toList

/-- `prepare_url_list`, for a job whose claims name a list. The checks the
result's model makes raise an exception nobody handles. -/
def prepareUrlList (wire : DispatchWire) (expected : String) (seedUrl : Text)
    (download : Except Text Bytes) (writeError : Option Text) :
    Except PrepareError UrlListInvocation :=
  let notFetched (e : Text) : PrepareError :=
    .reportAndConsume ("could not fetch this job's approved URL list: ".toList ++ e)
  match download with
  | .error e => .error (notFetched e)
  | .ok body =>
    let urls := readUrlListFile wire body
    let sourceLabel := "Crawl: ".toList ++ seedUrl
    if wire.sha256Hex body ≠ expected then
      .error (.reportAndConsume
        (urlListIntegrityError expected (wire.sha256Hex body) (body.length)))
    else if urls = [] then .error (.reportAndConsume (emptyApprovedListError expected))
    else
      match writeError with
      | some e => .error (notFetched e)
      | none =>
        if ¬IsSha256 expected ∨ 400 < sourceLabel.length then .error .escaped
        else .ok ⟨urls.length, expected, sourceLabel, urls.take sampleSize⟩

section Daemon

variable (wire : DispatchWire) (unicode : UnicodeData) (policy : UrlSafetyPolicy)
variable (settings : WorkerSettings)

/-- `url_policy.validate` of a seed URL, as the daemon handles its errors. -/
def validateSeed (resolve : Resolver) (seedUrl : Text) : Except PrepareError SafeUrl :=
  match policy.validate unicode resolve seedUrl with
  | .ok safeUrl => .ok safeUrl
  | .error (.unsafeUrl e) =>
    .error (.reportAndConsume ("unsafe seed_url: ".toList ++ e.message))
  | .error (.escaped _) => .error .escaped

/-- The template check of a job that names one. -/
def checkTemplate (directory : String → TemplateFile) (name : Option String) :
    Except PrepareError Unit :=
  match name with
  | none => .ok ()
  | some name =>
    match resolveTemplate directory name with
    | .ok _ => .ok ()
    | .error e => .error (.reportAndConsume e.toList)

/-- The list of a job that names one. -/
def prepareList (digest : Option String) (seedUrl : Text) (inputs : PrepareInputs) :
    Except PrepareError (Option UrlListInvocation) :=
  match digest with
  | none => .ok none
  | some digest =>
    (prepareUrlList wire digest seedUrl inputs.download inputs.writeError).map some

/-- What `_run_screaming_frog_job` does before it asks for approval. -/
def prepareJob (claims : DispatchAssignmentClaims) (inputs : PrepareInputs) :
    Except PrepareError ScreamingFrogJobInput := do
  let safeUrl ← validateSeed unicode policy inputs.resolve claims.seedUrl.toList
  checkTemplate inputs.templates claims.templateName
  let urlList ← prepareList wire claims.urlListSha256 safeUrl.url inputs
  if 2048 < safeUrl.url.length then .error .escaped
  else
    return {
      seedUrl := safeUrl.url
      templateName := claims.templateName
      urlList := urlList }

/-- `_verify_assignment`. -/
def verifyAssignment (token : Text) (now : Timestamp) :
    Except VerifyError DispatchAssignmentClaims :=
  wire.verifyDispatchAssignment token settings.workerId settings.orgId settings.usableSecret
    settings.verifyKey now

/-- `_handle_assignment`, up to the one kind of job there is. -/
def handleAssignment (file : LedgerFile) (token : Text) (now : Timestamp) : DaemonPhase :=
  match verifyAssignment wire settings token now with
  | .error (.dispatchAssignment _) => .idle
  | .error .unicodeEncode => .stopped
  | .ok claims =>
    match ConsumedJobLedger.hasRun file claims.jobId .none with
    | .error _ => .stopped
    | .ok true => .idle
    | .ok false =>
      match claims.kind with
      | .screamingFrogCrawl => .admitted token claims

/-- `try_consume` without a fault. -/
def consumeJob (file : LedgerFile) (jobId recordedAt : String) : Bool × LedgerFile :=
  match ConsumedJobLedger.tryConsume file jobId recordedAt .none .landed with
  | (.ok granted, file) => (granted, file)
  | (.error _, file) => (false, file)

/-- The callback of `make_approval_callback`. An exception is a denial. -/
def approvalCallback (token : Text) (claims : DispatchAssignmentClaims)
    (now : Timestamp) (recordedAt : String) (_metadata : ToolMetadata) (_context : String)
    (file : LedgerFile) : Bool × LedgerFile :=
  match verifyAssignment wire settings token now with
  | .error _ => (false, file)
  | .ok _ => consumeJob file claims.jobId recordedAt

/-- `ScreamingFrogControlTool.metadata`. -/
def screamingFrogTool : ToolMetadata := ⟨"seo.screaming_frog_control", .write⟩

/-- The guardrail engine one job's tool is built with. -/
def jobGuardrails (token : Text) (claims : DispatchAssignmentClaims)
    (now : Timestamp) (recordedAt : String) : GuardrailEngine LedgerFile where
  environment := settings.environment
  guardrailsEnabled := settings.guardrailsEnabled
  requestApproval := approvalCallback wire settings token claims now recordedAt

/-- The guardrail step of `BaseTool.run`: whether the job may run, and the
record it leaves. -/
def approveJob (file : LedgerFile) (token : Text)
    (claims : DispatchAssignmentClaims) (context : String) (now : Timestamp)
    (recordedAt : String) : Bool × LedgerFile :=
  match (jobGuardrails wire settings token claims now recordedAt).enforce screamingFrogTool
      context file with
  | (.ok _, file) => (true, file)
  | (.error _, file) => (false, file)

/-- `execute`, up to the launch: the tool validates its input again. -/
def launchJob (jobId : String) (payload : ScreamingFrogJobInput) (resolve : Resolver)
    (directory : String → TemplateFile) : Except PrepareError Launch := do
  let safeUrl ← validateSeed unicode policy resolve payload.seedUrl
  checkTemplate directory payload.templateName
  return {
    jobId := jobId
    seedUrl := safeUrl.url
    templateName := payload.templateName
    urlListSha256 := payload.urlList.map UrlListInvocation.sha256 }

section Specifications

open ConsumedJobLedger

variable {wire unicode policy settings} {claims : DispatchAssignmentClaims} {file : LedgerFile}

variable (wire settings) in
theorem handleAssignment_cases (file : LedgerFile) (token : Text) (now : Timestamp) :
    handleAssignment wire settings file token now = .idle ∨
      handleAssignment wire settings file token now = .stopped ∨
      ∃ claims, verifyAssignment wire settings token now = .ok claims ∧
        handleAssignment wire settings file token now = .admitted token claims := by
  unfold handleAssignment
  split
  · exact .inl rfl
  · exact .inr (.inl rfl)
  · next claims verified =>
    split
    · exact .inr (.inl rfl)
    · exact .inl rfl
    · cases claims.kind
      exact .inr (.inr ⟨claims, verified, rfl⟩)

variable {token : Text} {now : Timestamp} {seedUrl : Text}

theorem handleAssignment_of_verified
    (verified : verifyAssignment wire settings token now = .ok claims)
    (fresh : claims.jobId ∉ keys (recorded file)) :
    handleAssignment wire settings file token now = .admitted token claims := by
  have unseen : hasRun file claims.jobId .none = .ok false := by
    rw [hasRun, read_none]
    show Except.ok (decide (claims.jobId ∈ keys (recorded file))) = _
    rw [decide_eq_false fresh]
  rw [handleAssignment, verified]
  simp only [unseen]

theorem consumeJob_eq (file : LedgerFile) (jobId recordedAt : String) :
    consumeJob file jobId recordedAt =
      if jobId ∈ keys (recorded file) then (false, file)
      else (true, .entries (recorded file ++ [(jobId, recordedAt)])) := by
  unfold consumeJob
  rw [tryConsume_clean]
  by_cases known : jobId ∈ keys (recorded file)
  · simp [known]
  · simp [known]

theorem keys_consumeJob (jobId recordedAt : String) {id : String} (h : id ∈ keys (recorded file)) :
    id ∈ keys (recorded (consumeJob file jobId recordedAt).2) := by
  rw [consumeJob_eq]
  split
  · exact h
  · simp only [recorded, keys, List.map_append]
    exact List.mem_append_left _ h

theorem consumeJob_granted {jobId recordedAt : String}
    (h : (consumeJob file jobId recordedAt).1 = true) :
    jobId ∉ keys (recorded file) ∧
      jobId ∈ keys (recorded (consumeJob file jobId recordedAt).2) := by
  rw [consumeJob_eq] at h ⊢
  split at h
  · cases h
  · next unknown =>
    rw [if_neg unknown]
    refine ⟨unknown, ?_⟩
    simp [recorded, keys]

variable (wire settings) in
theorem approvalCallback_cases (token : Text) (claims : DispatchAssignmentClaims)
    (now : Timestamp) (recordedAt : String) (metadata : ToolMetadata) (context : String)
    (file : LedgerFile) :
    approvalCallback wire settings token claims now recordedAt metadata context file =
        (false, file) ∨
      approvalCallback wire settings token claims now recordedAt metadata context file =
        consumeJob file claims.jobId recordedAt := by
  unfold approvalCallback
  split
  · exact .inl rfl
  · exact .inr rfl

theorem approveJob_file (file : LedgerFile) (token : Text)
    (claims : DispatchAssignmentClaims) (context : String) (now : Timestamp)
    (recordedAt : String) :
    (approveJob wire settings file token claims context now recordedAt).2 =
      ((jobGuardrails wire settings token claims now recordedAt).authorize screamingFrogTool
        context file).2 := by
  rw [← GuardrailEngine.enforce_state]
  unfold approveJob
  split
  · next h => rw [h]
  · next h => rw [h]

theorem allowed_of_approveJob {context : String} {recordedAt : String}
    (h : (approveJob wire settings file token claims context now recordedAt).1 = true) :
    ((jobGuardrails wire settings token claims now recordedAt).authorize screamingFrogTool
      context file).1.allowed = true := by
  unfold approveJob at h
  split at h
  · next decision after enforced =>
    exact GuardrailEngine.enforce_eq_ok _ (by rw [enforced])
  · cases h

theorem keys_approveJob (token : Text) (context : String) (now : Timestamp)
    (recordedAt : String) {id : String} (h : id ∈ keys (recorded file)) :
    id ∈ keys (recorded (approveJob wire settings file token claims context now recordedAt).2) := by
  rw [approveJob_file]
  cases enabled : settings.guardrailsEnabled with
  | false =>
    rw [(GuardrailEngine.authorize_disabled _ screamingFrogTool context file enabled).2]
    exact h
  | true =>
    rw [(GuardrailEngine.authorize_mandatory _ context file enabled rfl).2]
    show id ∈ keys (recorded (approvalCallback wire settings token claims now recordedAt
      screamingFrogTool context file).2)
    rcases approvalCallback_cases wire settings token claims now recordedAt screamingFrogTool
      context file with same | consumed
    · rw [same]
      exact h
    · rw [consumed]
      exact keys_consumeJob claims.jobId recordedAt h

theorem approveJob_granted {context : String}
    {recordedAt : String} (enabled : settings.guardrailsEnabled = true)
    (h : (approveJob wire settings file token claims context now recordedAt).1 = true) :
    claims.jobId ∉ keys (recorded file) ∧ claims.jobId ∈ keys (recorded
        (approveJob wire settings file token claims context now recordedAt).2) := by
  have allowed := allowed_of_approveJob h
  rw [(GuardrailEngine.authorize_mandatory _ context file enabled rfl).1] at allowed
  rw [approveJob_file, (GuardrailEngine.authorize_mandatory _ context file enabled rfl).2]
  change (approvalCallback wire settings token claims now recordedAt screamingFrogTool context
    file).1 = true at allowed
  show claims.jobId ∉ keys (recorded file) ∧ claims.jobId ∈ keys (recorded
    (approvalCallback wire settings token claims now recordedAt screamingFrogTool context file).2)
  rcases approvalCallback_cases wire settings token claims now recordedAt screamingFrogTool
    context file with refused | consumed
  · rw [refused] at allowed
    cases allowed
  · rw [consumed] at allowed ⊢
    exact consumeJob_granted allowed

theorem approveJob_of_verified (context recordedAt : String)
    (verified : verifyAssignment wire settings token now = .ok claims)
    (fresh : claims.jobId ∉ keys (recorded file)) :
    (approveJob wire settings file token claims context now recordedAt).1 = true ∧
      (settings.guardrailsEnabled = false →
        (approveJob wire settings file token claims context now recordedAt).2 = file) := by
  let engine := jobGuardrails wire settings token claims now recordedAt
  have allowed : (engine.authorize screamingFrogTool context file).1.allowed = true := by
    cases enabled : settings.guardrailsEnabled with
    | false => exact (engine.authorize_disabled screamingFrogTool context file enabled).1
    | true =>
      rw [(engine.authorize_mandatory context file enabled rfl).1]
      show (approvalCallback wire settings token claims now recordedAt screamingFrogTool context
        file).1 = true
      rw [approvalCallback, verified]
      simp only [consumeJob_eq, if_neg fresh]
  constructor
  · rw [approveJob, engine.enforce_of_allowed allowed]
  · intro disabled
    rw [approveJob_file]
    exact (engine.authorize_disabled screamingFrogTool context file disabled).2

theorem validateSeed_eq_ok {resolve : Resolver} {safeUrl : SafeUrl}
    (h : validateSeed unicode policy resolve seedUrl = .ok safeUrl) :
    policy.validate unicode resolve seedUrl = .ok safeUrl := by
  unfold validateSeed at h
  split at h
  · next checked =>
    cases h
    exact checked
  · cases h
  · cases h

theorem prepareUrlList_eq_ok {expected : String} {download : Except Text Bytes}
    {writeError : Option Text} {urlList : UrlListInvocation}
    (h : prepareUrlList wire expected seedUrl download writeError = .ok urlList) :
    urlList.sha256 = expected := by
  unfold prepareUrlList at h
  split at h
  · cases h
  · simp only at h
    split at h
    · cases h
    · split at h
      · cases h
      · split at h
        · cases h
        · split at h
          · cases h
          · cases h
            rfl

theorem prepareList_eq_ok {digest : Option String} {inputs : PrepareInputs}
    {urlList : Option UrlListInvocation}
    (h : prepareList wire digest seedUrl inputs = .ok urlList) :
    urlList.map UrlListInvocation.sha256 = digest := by
  unfold prepareList at h
  split at h
  · cases h
    rfl
  · next expected =>
    cases prepared : prepareUrlList wire expected seedUrl inputs.download inputs.writeError with
    | error e =>
      rw [prepared] at h
      cases h
    | ok list =>
      rw [prepared] at h
      cases h
      rw [Option.map_some, prepareUrlList_eq_ok prepared]

theorem prepareJob_eq_ok {inputs : PrepareInputs} {payload : ScreamingFrogJobInput}
    (h : prepareJob wire unicode policy claims inputs = .ok payload) :
    (∃ safeUrl, policy.validate unicode inputs.resolve claims.seedUrl.toList = .ok safeUrl ∧
      payload.seedUrl = safeUrl.url) ∧
      payload.templateName = claims.templateName ∧
      payload.urlList.map UrlListInvocation.sha256 = claims.urlListSha256 := by
  obtain ⟨safeUrl, validated, h⟩ := bind_eq_ok.mp h
  obtain ⟨-, -, h⟩ := bind_eq_ok.mp h
  obtain ⟨urlList, listed, h⟩ := bind_eq_ok.mp h
  split at h
  · cases h
  · cases h
    exact ⟨⟨safeUrl, validateSeed_eq_ok validated, rfl⟩, rfl, prepareList_eq_ok listed⟩

theorem launchJob_eq_ok {jobId : String} {payload : ScreamingFrogJobInput} {resolve : Resolver}
    {directory : String → TemplateFile} {launch : Launch}
    (h : launchJob unicode policy jobId payload resolve directory = .ok launch) :
    (∃ safeUrl, policy.validate unicode resolve payload.seedUrl = .ok safeUrl ∧
      launch.seedUrl = safeUrl.url) ∧
      launch.jobId = jobId ∧ launch.templateName = payload.templateName ∧
      launch.urlListSha256 = payload.urlList.map UrlListInvocation.sha256 := by
  obtain ⟨safeUrl, validated, h⟩ := bind_eq_ok.mp h
  obtain ⟨-, -, h⟩ := bind_eq_ok.mp h
  cases h
  exact ⟨⟨safeUrl, validateSeed_eq_ok validated, rfl⟩, rfl, rfl, rfl⟩

end Specifications

end Daemon

end Rankuno
