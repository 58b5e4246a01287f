import Rankuno.Python.Base64
import Rankuno.WorkerDispatch.Schemas

/-!
# Signed dispatch assignments

`core/worker_dispatch_signing.py`: the token a claimed job travels in, and the
check a worker makes of it. Base64, JSON and the two signature schemes come
from libraries, so they are parameters here; which of their answers refuses a
token, in which order and with which text, is the source's.
-/

namespace Rankuno

open Python Python.Text

/-- What the signature of an assignment covers. -/
structure DispatchAssignmentClaims where
  jobId : String
  workerId : String
  orgId : String
  kind : WorkerJobKind
  seedUrl : String
  templateName : Option String
  correlationId : String
  urlListSha256 : Option String
  jti : String
  issuedAt : Timestamp
  expiresAt : Timestamp
  deriving DecidableEq

/-- A text of 1 to `bound` slug characters. -/
def IsSlug (bound : Nat) (s : String) : Prop :=
  1 ≤ s.length ∧ s.length ≤ bound ∧ s.toList.all isSlugChar

instance (bound : Nat) : DecidablePred (IsSlug bound) := fun s => by
  unfold IsSlug
  infer_instance

/-- `_SHA256_PATTERN`. -/
def IsSha256 (s : String) : Prop :=
  s.length = 64 ∧ s.toList.all fun c => isAsciiDigit c || (97 ≤ c.toNat && c.toNat ≤ 102)

instance : DecidablePred IsSha256 := fun s => by
  unfold IsSha256
  infer_instance

namespace DispatchAssignmentClaims

/-- The field constraints the model checks when it is built. -/
structure Valid (c : DispatchAssignmentClaims) : Prop where
  job_id : 1 ≤ c.jobId.length ∧ c.jobId.length ≤ 64
  worker_id : IsSlug 64 c.workerId
  org_id : IsSlug 64 c.orgId
  seed_url : 1 ≤ c.seedUrl.length ∧ c.seedUrl.length ≤ 2048
  template_name : ∀ name ∈ c.templateName, 1 ≤ name.length ∧ name.length ≤ 128
  correlation_id : 1 ≤ c.correlationId.length ∧ c.correlationId.length ≤ 128
  url_list_sha256 : ∀ digest ∈ c.urlListSha256, IsSha256 digest
  jti : 1 ≤ c.jti.length

instance : DecidablePred Valid := fun c =>
  decidable_of_iff
    ((1 ≤ c.jobId.length ∧ c.jobId.length ≤ 64) ∧ IsSlug 64 c.workerId ∧ IsSlug 64 c.orgId ∧
      (1 ≤ c.seedUrl.length ∧ c.seedUrl.length ≤ 2048) ∧
      (∀ name ∈ c.templateName, 1 ≤ name.length ∧ name.length ≤ 128) ∧
      (1 ≤ c.correlationId.length ∧ c.correlationId.length ≤ 128) ∧
      (∀ digest ∈ c.urlListSha256, IsSha256 digest) ∧ 1 ≤ c.jti.length)
    ⟨fun ⟨h₁, h₂, h₃, h₄, h₅, h₆, h₇, h₈⟩ => ⟨h₁, h₂, h₃, h₄, h₅, h₆, h₇, h₈⟩,
      fun ⟨h₁, h₂, h₃, h₄, h₅, h₆, h₇, h₈⟩ => ⟨h₁, h₂, h₃, h₄, h₅, h₆, h₇, h₈⟩⟩

end DispatchAssignmentClaims

/-- A JSON value, as far as the signing code tells values apart. -/
inductive JsonValue where
  | str (s : Text)
  | obj (fields : List (Text × JsonValue))
  | other

namespace JsonValue

/-- `dict.get`. -/
def get? (fields : List (Text × JsonValue)) (key : String) : Option JsonValue :=
  (fields.find? fun field => field.1 = key.toList).map Prod.snd

/-- The text a dictionary holds under a key, if it holds one. -/
def text? (fields : List (Text × JsonValue)) (key : String) : Option Text :=
  match get? fields key with
  | some (.str s) => some s
  | _ => none

def entry (key : String) (text : Text) : Text × JsonValue := (key.toList, .str text)

end JsonValue

/-- What the wire format is built from, beside base64. -/
structure DispatchWire where
  /-- `json.dumps(_).encode()`. -/
  jsonDumps : JsonValue → Bytes
  /-- `json.loads`, or nothing when it raises. -/
  jsonLoads : Bytes → Option JsonValue
  /-- `model_dump_json().encode()` of the claims. -/
  claimsDumpJson : DispatchAssignmentClaims → Bytes
  /-- `model_validate_json`, or nothing when it raises. -/
  claimsValidateJson : Bytes → Option DispatchAssignmentClaims
  /-- HMAC-SHA256 of an ASCII text under a secret. -/
  hmacSha256 : Text → Text → Bytes
  /-- `hashlib.sha256(_).hexdigest()`. -/
  sha256Hex : Bytes → String
  /-- `_.decode("utf-8", errors="replace")`. -/
  decodeUtf8 : Bytes → Text

/-- A worker's Ed25519 public key. -/
structure DispatchVerifyKey where
  kid : Text
  verify : Bytes → Text → Bool

/-- The cloud's Ed25519 private key. -/
structure DispatchSigningKey where
  kid : Text
  sign : Text → Bytes

/-- `DispatchAssignmentError`, or another exception on the way to it. -/
inductive VerifyError where
  | dispatchAssignment (message : String)
  | unicodeEncode
  deriving DecidableEq

/-- Why no assignment is minted: no key, or claims the model refuses. -/
inductive IssueError where
  | configuration (message : String)
  | validation
  deriving DecidableEq

/-- A minted assignment: the token and expiry the source returns, with the
parts of the token beside them. -/
structure SignedDispatchAssignment where
  token : Text
  expiresAt : Timestamp
  headerSegment : Text
  payloadSegment : Text
  claims : DispatchAssignmentClaims
  deriving DecidableEq

namespace DispatchWire

/-- `_ALG`. -/
def hs256 : Text := "HS256".toList

/-- `_ED_ALG`. -/
def edDsa : Text := "EdDSA".toList

/-- `_TYP`. -/
def dispatchTyp : Text := "RANKUNO-DISPATCH".toList

/-- `_b64url_encode`. -/
def b64urlEncode (payload : Bytes) : Text := rstrip (· = '=') (Base64.encode payload)

/-- `_b64url_decode`: the length is padded to a multiple of four. -/
def b64urlDecode (value : Text) : Option Bytes :=
  Base64.decode (value ++ List.replicate ((4 - value.length % 4) % 4) '=')

theorem b64urlDecode_b64urlEncode (payload : Bytes) :
    b64urlDecode (b64urlEncode payload) = some payload := by
  unfold b64urlDecode b64urlEncode
  rw [← Base64.rstrip_encode payload]
  exact Base64.decode_encode payload

theorem dot_notMem_b64urlEncode (payload : Bytes) : '.' ∉ b64urlEncode payload := by
  intro mem
  obtain ⟨v, hv, same⟩ := Base64.digits_rstrip_encode payload _ mem
  exact Base64.digit_ne_dot v hv same.symm

theorem isAscii_b64urlEncode (payload : Bytes) : isAscii (b64urlEncode payload) = true := by
  rw [isAscii, List.all_eq_true]
  intro c hc
  obtain ⟨v, hv, rfl⟩ := Base64.digits_rstrip_encode payload c hc
  exact decide_eq_true (Base64.digit_ascii v hv)

variable (wire : DispatchWire)

/-- `_hmac_segment`, which can only sign ASCII. -/
def hmacSegment (signingInput secret : Text) : Except VerifyError Bytes :=
  if isAscii signingInput then .ok (wire.hmacSha256 secret signingInput) else .error .unicodeEncode

def encodeHeader (fields : List (Text × JsonValue)) : Text :=
  b64urlEncode (wire.jsonDumps (.obj fields))

/-- `_header_segment`: the Ed25519 signature rides inside the outer header. -/
def headerSegment (payloadSegment : Text) (signingKey : Option DispatchSigningKey)
    (hmacOn : Bool) : Text :=
  match signingKey with
  | none => wire.encodeHeader [JsonValue.entry "alg" hs256, JsonValue.entry "typ" dispatchTyp]
  | some key =>
    let protectedHeader := wire.encodeHeader
      [JsonValue.entry "alg" edDsa, JsonValue.entry "typ" dispatchTyp,
        JsonValue.entry "kid" key.kid]
    let signature := b64urlEncode (key.sign (protectedHeader ++ '.' :: payloadSegment))
    wire.encodeHeader
      [JsonValue.entry "alg" (if hmacOn then hs256 else edDsa), JsonValue.entry "typ" dispatchTyp,
        ("ed25519".toList, .obj
          [JsonValue.entry "protected" protectedHeader, JsonValue.entry "signature" signature])]

/-- The refusal to mint an unsigned artifact. -/
def noSigningMethod : String :=
  "No dispatch signing method is configured: set WORKER_DISPATCH_SIGNING_PRIVATE_KEY " ++
    "(ADR 0028). Refusing to mint an unsigned dispatch assignment."

def payloadSegment (claims : DispatchAssignmentClaims) : Text :=
  b64urlEncode (wire.claimsDumpJson claims)

/-- `issue_dispatch_assignment`. -/
def issueDispatchAssignment (claims : DispatchAssignmentClaims) (secret : Option Text)
    (signingKey : Option DispatchSigningKey) :
    Except IssueError SignedDispatchAssignment :=
  if secret = none ∧ signingKey.isNone then .error (.configuration noSigningMethod)
  else if ¬claims.Valid then .error .validation
  else
    let payload := wire.payloadSegment claims
    let header := wire.headerSegment payload signingKey secret.isSome
    let signingInput := header ++ '.' :: payload
    let hmac :=
      match secret with
      | none => []
      | some secret => b64urlEncode (wire.hmacSha256 secret signingInput)
    .ok {
      token := signingInput ++ '.' :: hmac
      expiresAt := claims.expiresAt
      headerSegment := header
      payloadSegment := payload
      claims := claims }

def refuse {α : Type} (message : String) : Except VerifyError α :=
  .error (.dispatchAssignment message)

/-- `_verify_hmac`. -/
def verifyHmac (header payload signature secret : Text) : Except VerifyError Unit := do
  let expected ← wire.hmacSegment (header ++ '.' :: payload) secret
  match b64urlDecode signature with
  | none => refuse "malformed dispatch assignment signature"
  | some actual =>
    if expected = actual then return ()
    else refuse "dispatch assignment signature does not match"

/-- `_decode_json_object`. -/
def decodeJsonObject (segment : Text) : Except VerifyError (List (Text × JsonValue)) :=
  match (b64urlDecode segment).bind wire.jsonLoads with
  | some (.obj fields) => .ok fields
  | _ => refuse "malformed dispatch assignment header"

/-- The end of `_verify_ed25519`: the signature over the protected header and
the payload. -/
def verifyDetached (protectedSegment payload signatureB64 : Text) (key : DispatchVerifyKey) :
    Except VerifyError Unit := do
  let fields ← wire.decodeJsonObject protectedSegment
  if JsonValue.text? fields "alg" ≠ some edDsa ∨
      JsonValue.text? fields "typ" ≠ some dispatchTyp then
    refuse "dispatch assignment has an unexpected protected header"
  else if JsonValue.text? fields "kid" ≠ some key.kid then
    refuse "dispatch assignment is signed by an unknown key id"
  else
    match b64urlDecode signatureB64 with
    | none => refuse "malformed dispatch assignment signature"
    | some signature =>
      let signingInput := protectedSegment ++ '.' :: payload
      if ¬isAscii signingInput then refuse "malformed dispatch assignment signature"
      else if key.verify signature signingInput then return ()
      else refuse "dispatch assignment signature does not match"

/-- `_verify_ed25519`, which reads no HMAC segment. -/
def verifyEd25519 (header payload : Text) (key : DispatchVerifyKey) : Except VerifyError Unit := do
  let outer ← wire.decodeJsonObject header
  match JsonValue.get? outer "ed25519" with
  | some (.obj embedded) =>
    match JsonValue.text? embedded "protected", JsonValue.text? embedded "signature" with
    | some protectedSegment, some signatureB64 =>
      wire.verifyDetached protectedSegment payload signatureB64 key
    | _, _ => refuse "dispatch assignment carries no Ed25519 signature"
  | _ => refuse "dispatch assignment carries no Ed25519 signature"

/-- The signature check of `verify_dispatch_assignment`: a verify key excludes
the secret. -/
def verifySignature (header payload signature : Text) (secret : Option Text)
    (verifyKey : Option DispatchVerifyKey) : Except VerifyError Unit :=
  match verifyKey, secret with
  | some key, _ => wire.verifyEd25519 header payload key
  | none, some secret => wire.verifyHmac header payload signature secret
  | none, none => refuse "no dispatch verification key is configured"

/-- What `verify_dispatch_assignment` checks of the claims a payload holds. -/
def verifyClaims (payload : Text) (workerId orgId : String) (now : Timestamp) :
    Except VerifyError DispatchAssignmentClaims :=
  match b64urlDecode payload with
  | none => refuse "malformed dispatch assignment payload"
  | some bytes =>
    match wire.claimsValidateJson bytes with
    | none => refuse "dispatch assignment claims are invalid"
    | some claims =>
      if claims.expiresAt < now then refuse "dispatch assignment expired"
      else if claims.workerId ≠ workerId ∨ claims.orgId ≠ orgId then
        refuse "dispatch assignment is bound to a different worker or organization"
      else .ok claims

/-- `verify_dispatch_assignment`. -/
def verifyDispatchAssignment (token : Text) (workerId orgId : String)
    (secret : Option Text) (verifyKey : Option DispatchVerifyKey) (now : Timestamp) :
    Except VerifyError DispatchAssignmentClaims :=
  match split '.' token with
  | [header, payload, signature] => do
      wire.verifySignature header payload signature secret verifyKey
      wire.verifyClaims payload workerId orgId now
  | _ => refuse "malformed dispatch assignment token"

def decodeClaims (payload : Text) : Option DispatchAssignmentClaims :=
  (b64urlDecode payload).bind wire.claimsValidateJson

theorem decodeClaims_payloadSegment {claims : DispatchAssignmentClaims}
    (h : wire.claimsValidateJson (wire.claimsDumpJson claims) = some claims) :
    wire.decodeClaims (wire.payloadSegment claims) = some claims := by
  rw [decodeClaims, payloadSegment, b64urlDecode_b64urlEncode, Option.bind_some, h]

theorem verifyClaims_eq_ok {payload : Text} {workerId orgId : String} {now : Timestamp}
    {claims : DispatchAssignmentClaims}
    (h : wire.verifyClaims payload workerId orgId now = .ok claims) :
    wire.decodeClaims payload = some claims ∧ ¬claims.expiresAt < now ∧
      claims.workerId = workerId ∧ claims.orgId = orgId := by
  unfold verifyClaims at h
  split at h
  · cases h
  · next bytes hbytes =>
    split at h
    · cases h
    · next decoded hdecoded =>
      split at h
      · cases h
      · next fresh =>
        split at h
        · cases h
        · next bound =>
          cases h
          simp only [ne_eq, not_or, Decidable.not_not] at bound
          exact ⟨by rw [decodeClaims, hbytes, Option.bind_some, hdecoded], fresh, bound⟩

theorem verifyDispatchAssignment_eq_ok {token : Text} {workerId orgId : String}
    {secret : Option Text} {verifyKey : Option DispatchVerifyKey} {now : Timestamp}
    {claims : DispatchAssignmentClaims}
    (h : wire.verifyDispatchAssignment token workerId orgId secret verifyKey now = .ok claims) :
    ∃ header payload signature, split '.' token = [header, payload, signature] ∧
      wire.verifySignature header payload signature secret verifyKey = .ok () ∧
      wire.decodeClaims payload = some claims ∧ ¬claims.expiresAt < now ∧
      claims.workerId = workerId ∧ claims.orgId = orgId := by
  unfold verifyDispatchAssignment at h
  split at h
  · next header payload signature segments =>
    obtain ⟨⟨⟩, checked, h⟩ := bind_eq_ok.mp h
    exact ⟨header, payload, signature, segments, checked, wire.verifyClaims_eq_ok h⟩
  · cases h

theorem issueDispatchAssignment_eq_ok {claims : DispatchAssignmentClaims}
    {secret : Option Text} {signingKey : Option DispatchSigningKey}
    {assignment : SignedDispatchAssignment}
    (h : wire.issueDispatchAssignment claims secret signingKey = .ok assignment) :
    assignment.claims = claims ∧ assignment.payloadSegment = wire.payloadSegment claims ∧
      claims.Valid := by
  unfold issueDispatchAssignment at h
  split at h
  · cases h
  · split at h
    · cases h
    · next valid =>
      cases h
      exact ⟨rfl, rfl, Decidable.not_not.mp valid⟩

section RoundTrip

variable {wire} {claims : DispatchAssignmentClaims} {signingKey : Option DispatchSigningKey}
variable {assignment : SignedDispatchAssignment} {secret : Text}

theorem headerSegment_eq_encode (payload : Text) (signingKey : Option DispatchSigningKey)
    (hmacOn : Bool) :
    ∃ bytes, wire.headerSegment payload signingKey hmacOn = b64urlEncode bytes := by
  cases signingKey with
  | none => exact ⟨_, rfl⟩
  | some key => exact ⟨_, rfl⟩

theorem token_of_issued
    (h : wire.issueDispatchAssignment claims (some secret) signingKey = .ok assignment) :
    (∃ header, assignment.headerSegment = b64urlEncode header) ∧
      assignment.payloadSegment = wire.payloadSegment claims ∧
      assignment.token = (assignment.headerSegment ++ '.' :: assignment.payloadSegment) ++
        '.' :: b64urlEncode (wire.hmacSha256 secret
          (assignment.headerSegment ++ '.' :: assignment.payloadSegment)) := by
  unfold issueDispatchAssignment at h
  split at h
  · cases h
  · split at h
    · cases h
    · cases h
      exact ⟨headerSegment_eq_encode _ _ _, rfl, rfl⟩

theorem split_token (header payload signature : Bytes) :
    split '.' ((b64urlEncode header ++ '.' :: b64urlEncode payload) ++
        '.' :: b64urlEncode signature) =
      [b64urlEncode header, b64urlEncode payload, b64urlEncode signature] := by
  rw [List.append_assoc, List.cons_append, split_append_cons (dot_notMem_b64urlEncode header),
    split_append_cons (dot_notMem_b64urlEncode payload),
    split_of_notMem (dot_notMem_b64urlEncode signature)]

theorem isAscii_signingInput (header payload : Bytes) :
    isAscii (b64urlEncode header ++ '.' :: b64urlEncode payload) = true := by
  have hheader := isAscii_b64urlEncode header
  have hpayload := isAscii_b64urlEncode payload
  rw [isAscii] at hheader hpayload ⊢
  rw [List.all_append, List.all_cons, hheader, hpayload]
  rfl

theorem split_of_issued
    (h : wire.issueDispatchAssignment claims (some secret) signingKey = .ok assignment) :
    split '.' assignment.token = [assignment.headerSegment, assignment.payloadSegment,
      b64urlEncode (wire.hmacSha256 secret
        (assignment.headerSegment ++ '.' :: assignment.payloadSegment))] := by
  obtain ⟨⟨header, encoded⟩, payload, token⟩ := token_of_issued h
  rw [token, payload, encoded]
  exact split_token _ _ _

theorem issueDispatchAssignment_of_valid (secret : Text) (signingKey : Option DispatchSigningKey)
    (valid : claims.Valid) :
    ∃ assignment,
      wire.issueDispatchAssignment claims (some secret) signingKey = .ok assignment := by
  rw [issueDispatchAssignment, if_neg (by simp), if_neg (not_not_intro valid)]
  exact ⟨_, rfl⟩

theorem verifyDispatchAssignment_of_issued {now : Timestamp}
    (h : wire.issueDispatchAssignment claims (some secret) signingKey = .ok assignment)
    (json : wire.claimsValidateJson (wire.claimsDumpJson claims) = some claims)
    (fresh : ¬claims.expiresAt < now) :
    wire.verifyDispatchAssignment assignment.token claims.workerId claims.orgId (some secret) none
      now = .ok claims := by
  obtain ⟨⟨header, encoded⟩, payload, -⟩ := token_of_issued h
  have signed : wire.verifySignature assignment.headerSegment assignment.payloadSegment
      (b64urlEncode (wire.hmacSha256 secret
        (assignment.headerSegment ++ '.' :: assignment.payloadSegment))) (some secret) none =
      .ok () := by
    have ascii := isAscii_signingInput header (wire.claimsDumpJson claims)
    rw [payload, encoded]
    show wire.verifyHmac _ _ _ secret = .ok ()
    rw [verifyHmac, hmacSegment, payloadSegment, if_pos ascii, b64urlDecode_b64urlEncode]
    exact if_pos rfl
  have verified : wire.verifyClaims assignment.payloadSegment claims.workerId claims.orgId now =
      .ok claims := by
    rw [payload, verifyClaims, payloadSegment, b64urlDecode_b64urlEncode]
    simp only [json]
    rw [if_neg fresh, if_neg (by simp)]
  rw [verifyDispatchAssignment, split_of_issued h]
  simp only [signed, verified]
  rfl

end RoundTrip

end DispatchWire

end Rankuno
