import Rankuno.Worker.Daemon
import Rankuno.WorkerDispatch.Provenance

/-!
# The dual gate

The whole path of a job: an operator previews and confirms in the cloud, a
poll claims the job and signs its assignment, and one worker's daemon verifies
what the network hands it, consumes the job id and starts Screaming Frog. The
network may hand over any text at any time, other workers may poll, and the
daemon may be restarted at any point; its record of consumed ids survives.
-/

namespace Rankuno

open Python Python.Text

/-- What is fixed over a run: the wire format, the keys of both sides and the
worker's configuration. -/
structure DualGate where
  wire : DispatchWire
  unicode : UnicodeData
  worker : WorkerSettings
  cloudSecret : Option Text
  signingKey : Option DispatchSigningKey
  /-- `worker_dispatch_assignment_ttl_s`. -/
  assignmentTtl : Int

/-- The state of all parties. The log, the assignments the cloud has signed and
the starts of Screaming Frog are only added to. -/
structure DualGateState where
  cloud : DispatchState
  log : DispatchLog
  issued : List SignedDispatchAssignment
  ledger : LedgerFile
  daemon : DaemonPhase
  started : List Launch

/-- One step of a party. -/
inductive DualGateEvent where
  /-- A transaction of a route: a preview, a part of a confirmation, a sweep, a
  report, or a poll whose answer is never signed. -/
  | cloud (event : DispatchEvent)
  | poll (workerId orgId : String) (locked : List String) (claimedAt : Timestamp)
      (jti : String) (issuedAt : Timestamp)
  /-- The daemon's poll is answered with this text. -/
  | deliver (token : Text) (now : Timestamp)
  | prepare (inputs : PrepareInputs) (recordedAt : String)
  | approve (context : String) (now : Timestamp) (recordedAt : String)
  | execute (resolve : Resolver) (templates : String → TemplateFile)
  /-- The tool gives up between its approval and the launch. -/
  | fail
  | restart

namespace DualGateState

/-- Nothing has happened yet but what the worker's record holds. -/
def start (file : LedgerFile) : DualGateState :=
  ⟨.empty, .empty, [], file, .idle, []⟩

end DualGateState

def DispatchAssignmentClaims.terms (c : DispatchAssignmentClaims) : DispatchTerms :=
  ⟨c.jobId, c.orgId, c.workerId, c.seedUrl, c.templateName, c.urlListSha256⟩

/-- The policy `run_worker_daemon` builds. -/
def daemonUrlPolicy : UrlSafetyPolicy := {}

namespace DualGate

variable (gate : DualGate)

/-- The claims `poll_for_job` signs for a job. -/
def claimsFor (job : WorkerJob) (jti : String) (issuedAt : Timestamp) :
    DispatchAssignmentClaims where
  jobId := job.id
  workerId := job.workerId
  orgId := job.orgId
  kind := job.kind
  seedUrl := job.envelope.seedUrl
  templateName := job.envelope.templateName
  correlationId := job.envelope.correlationId
  urlListSha256 := job.envelope.urlListSha256
  jti := jti
  issuedAt := issuedAt
  expiresAt := issuedAt + gate.assignmentTtl

/-- The assignment a poll returns, if it claimed a job and one can be minted. -/
def assignmentFor (claimed : Option WorkerJob) (jti : String) (issuedAt : Timestamp) :
    Option SignedDispatchAssignment :=
  match claimed with
  | none => none
  | some job =>
    match gate.wire.issueDispatchAssignment (gate.claimsFor job jti issuedAt) gate.cloudSecret
        gate.signingKey with
    | .ok assignment => some assignment
    | .error _ => none

/-- The end of a preparation: put up for approval, or reported and consumed. -/
def prepared (s : DualGateState) (token : Text) (claims : DispatchAssignmentClaims)
    (inputs : PrepareInputs) (recordedAt : String) : DualGateState :=
  match prepareJob gate.wire gate.unicode daemonUrlPolicy claims inputs with
  | .ok payload => { s with daemon := .approving token claims payload }
  | .error (.reportAndConsume _) =>
    { s with daemon := .idle, ledger := (consumeJob s.ledger claims.jobId recordedAt).2 }
  | .error .escaped => { s with daemon := .stopped }

/-- The end of an approval. -/
def approved (s : DualGateState) (token : Text) (claims : DispatchAssignmentClaims)
    (payload : ScreamingFrogJobInput) (context : String) (now : Timestamp)
    (recordedAt : String) : DualGateState :=
  let answer := approveJob gate.wire gate.worker s.ledger token claims context now recordedAt
  { s with
    ledger := answer.2
    daemon := if answer.1 then .executing claims.jobId payload else .idle }

/-- The end of an execution. -/
def executed (s : DualGateState) (jobId : String) (payload : ScreamingFrogJobInput)
    (resolve : Resolver) (templates : String → TemplateFile) : DualGateState :=
  match launchJob gate.unicode daemonUrlPolicy jobId payload resolve templates with
  | .ok launch => { s with daemon := .idle, started := s.started ++ [launch] }
  | .error _ => { s with daemon := .idle }

def machine : Machine DualGateState DualGateEvent where
  step s
    | .cloud event =>
      (DispatchState.machine.step s.cloud event).map fun cloud =>
        { s with cloud := cloud, log := s.log.record s.cloud event }
    | .poll workerId orgId locked claimedAt jti issuedAt =>
      let claim := s.cloud.store.claimNextJob workerId orgId locked claimedAt
      some { s with
        cloud := { s.cloud with store := claim.2 }
        issued := s.issued ++ (gate.assignmentFor claim.1 jti issuedAt).toList }
    | .deliver token now =>
      match s.daemon with
      | .idle =>
        some { s with daemon := handleAssignment gate.wire gate.worker s.ledger token now }
      | _ => none
    | .prepare inputs recordedAt =>
      match s.daemon with
      | .admitted token claims => some (gate.prepared s token claims inputs recordedAt)
      | _ => none
    | .approve context now recordedAt =>
      match s.daemon with
      | .approving token claims payload =>
        some (gate.approved s token claims payload context now recordedAt)
      | _ => none
    | .execute resolve templates =>
      match s.daemon with
      | .executing jobId payload => some (gate.executed s jobId payload resolve templates)
      | _ => none
    | .fail =>
      match s.daemon with
      | .executing _ _ => some { s with daemon := .idle }
      | _ => none
    | .restart => some { s with daemon := .idle }

/-- The signature check the worker makes of a token's first two segments. -/
def ChecksSignature (header payload signature : Text) : Prop :=
  gate.wire.verifySignature header payload signature gate.worker.usableSecret
    gate.worker.verifyKey = .ok ()

instance (header payload signature : Text) :
    Decidable (gate.ChecksSignature header payload signature) := by
  unfold ChecksSignature
  infer_instance

/-- A token whose signature checks carries a payload the cloud signed. Nothing
is asked of its header, which an Ed25519 signature does not cover. -/
def Unforged (s : DualGateState) (token : Text) : Prop :=
  match split '.' token with
  | [header, payload, signature] =>
    gate.ChecksSignature header payload signature → ∃ a ∈ s.issued, a.payloadSegment = payload
  | _ => True

instance (s : DualGateState) (token : Text) : Decidable (gate.Unforged s token) := by
  unfold Unforged
  split <;> infer_instance

/-- What the environment of a run is assumed to do: nobody forges a signature,
and the JSON of signed claims is read back as these claims. -/
def Honest (s : DualGateState) : DualGateEvent → Prop
  | .deliver token _ => gate.Unforged s token
  | .poll workerId orgId locked claimedAt jti issuedAt =>
    ∀ a ∈ gate.assignmentFor (s.cloud.store.claimNextJob workerId orgId locked claimedAt).1
      jti issuedAt, gate.wire.claimsValidateJson (gate.wire.claimsDumpJson a.claims) = some a.claims
  | .cloud _ | .prepare _ _ | .approve _ _ _ | .execute _ _ | .fail | .restart => True

instance (s : DualGateState) : ∀ event, Decidable (gate.Honest s event)
  | .deliver token _ => inferInstanceAs (Decidable (gate.Unforged s token))
  | .poll workerId orgId locked claimedAt jti issuedAt =>
    inferInstanceAs (Decidable (∀ a ∈ gate.assignmentFor
      (s.cloud.store.claimNextJob workerId orgId locked claimedAt).1 jti issuedAt,
      gate.wire.claimsValidateJson (gate.wire.claimsDumpJson a.claims) = some a.claims))
  | .cloud _ | .prepare _ _ | .approve _ _ _ | .execute _ _ | .fail | .restart => isTrue trivial

end DualGate

end Rankuno
