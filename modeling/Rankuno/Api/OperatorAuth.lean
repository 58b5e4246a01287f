import Mathlib.Data.Rat.Floor
import Rankuno.JsonStream.FieldStream
import Rankuno.PageClassifier.StructuredData
import Rankuno.Python.Digests
import Rankuno.Python.JsonLoads
import Rankuno.WorkerDispatch.Signing

/-!
# Passwords and session tokens of operators

`core/auth.py`. A stored hash names the digest and the iterations it was made with, and a session
token carries the operator and a whole second it expires at, signed. What is malformed is refused;
a hash that can be taken apart is computed whatever it asks for, and a token is signed again before
it is known to be ASCII.

The digests are functions, times are rational seconds.
-/

namespace Rankuno.OperatorAuth

open Python Python.Text DispatchWire JsonStream PageClassifier

/-! ## Passwords -/

/-- `hashlib.pbkdf2_hmac` where it does not raise, and the digests it knows. -/
structure Pbkdf2 where
  known : Text → Bool
  derive : Text → Bytes → Bytes → Nat → Bytes
  sha256 : known "sha256".toList = true

inductive HashingError where
  | valueError
  | overflowError
  deriving DecidableEq

def pbkdf2Iterations : Nat := 210000

/-- `hashlib.pbkdf2_hmac`. -/
def pbkdf2Hmac (pbkdf2 : Pbkdf2) (algorithm : Text) (password salt : Bytes) (iterations : Int) :
    Except HashingError Bytes :=
  if iterations < -2 ^ 63 ∨ 2 ^ 63 ≤ iterations then .error .overflowError
  else if pbkdf2.known algorithm = false then .error .valueError
  else if iterations < 1 then .error .valueError
  else if 2 ^ 31 ≤ iterations then .error .overflowError
  else .ok (pbkdf2.derive algorithm password salt iterations.toNat)

/-- The parts of a stored hash. -/
structure StoredHash where
  algorithm : Text
  iterations : Int
  salt : Bytes
  digest : Bytes

/-- `str.removeprefix`. -/
def removePrefix (start s : Text) : Text := if start.isPrefixOf s then s.drop start.length else s

/-- What `verify_password` reads of a stored hash. -/
def readHash (digits : DecimalDigits) (stored : Text) : Option StoredHash :=
  match split '$' stored with
  | [algorithm, iterations, salt, digest] =>
    match digits.readInt? iterations, fromHex? salt, fromHex? digest with
    | some iterations, some salt, some digest =>
      some ⟨removePrefix "pbkdf2_".toList algorithm, iterations, salt, digest⟩
    | _, _, _ => none
  | _ => none

/-- `verify_password`. -/
def verifyPassword (pbkdf2 : Pbkdf2) (digits : DecimalDigits) (password stored : Text) :
    Except HashingError Bool :=
  match readHash digits stored with
  | none => .ok false
  | some hash =>
    match pbkdf2Hmac pbkdf2 hash.algorithm (Utf8.encode password) hash.salt hash.iterations with
    | .error error => .error error
    | .ok candidate => .ok (candidate = hash.digest)

/-- `hash_password`, with the salt that `token_bytes` gives. -/
def hashPassword (pbkdf2 : Pbkdf2) (password : Text) (salt : Sized 16) : Text :=
  let digest := pbkdf2.derive "sha256".toList (Utf8.encode password) salt pbkdf2Iterations
  "pbkdf2_sha256".toList ++
    '$' :: (ofNat pbkdf2Iterations ++ '$' :: (hex salt ++ '$' :: hex digest))

/-! ## Session tokens -/

/-- `_IDENTIFIER_PATTERN`. -/
def isIdentifier (s : Text) : Bool := 1 ≤ s.length && s.length ≤ 64 && s.all isSlugChar

abbrev Identifier := {s : Text // isIdentifier s = true}

structure Principal where
  operatorId : Identifier
  orgId : Identifier
  deriving DecidableEq

/-- What a session keeps of an `Operator`. -/
structure Operator where
  operatorId : Identifier
  orgId : Identifier

structure SessionToken where
  token : Text
  expiresAt : ℚ

inductive TokenError where
  | authentication (message : Text)
  | unicodeEncode
  deriving DecidableEq

/-- An `int` or a `float`. -/
inductive PyNumber where
  | finite (value : ℚ)
  | infinity
  | negativeInfinity
  | nan
  deriving DecidableEq

namespace PyNumber

/-- `number < now`. -/
def isBefore (now : ℚ) : PyNumber → Bool
  | finite value => value < now
  | infinity | nan => false
  | negativeInfinity => true

/-- `now < number`. -/
def isAfter (now : ℚ) : PyNumber → Bool
  | finite value => now < value
  | infinity => true
  | negativeInfinity | nan => false

end PyNumber

/-- The standard library as far as reading a payload goes. -/
structure Codecs where
  digits : DecimalDigits
  /-- Bytes in an encoding that is not UTF-8, decoded. -/
  wide : Bytes → Option Text
  /-- `float` of a literal with a point or an exponent. -/
  float : NumberLiteral → PyNumber
  /-- `str` of a value that is not a string. -/
  repr : Json → Text

/-- `int` of a `float`. -/
def truncate (value : ℚ) : ℤ := if 0 ≤ value then ⌊value⌋ else ⌈value⌉

/-- `datetime.fromtimestamp`, where it can name the year. -/
def fromTimestamp (time : ℚ) : Option ℚ :=
  if -62135596800 ≤ time ∧ time < 253402300800 then some time else none

section Tokens

variable (hmac : Hmac) (codecs : Codecs)

/-- The header of every token. -/
def header : Json :=
  .object [("alg".toList, .string "HS256".toList), ("typ".toList, .string "RANKUNO-SESSION".toList)]

def payload (operator : Operator) (issuedAt expiresAt : ℚ) : Json :=
  .object [("sub".toList, .string operator.operatorId), ("org_id".toList, .string operator.orgId),
    ("iat".toList, .number (intLiteral (truncate issuedAt))),
    ("exp".toList, .number (intLiteral (truncate expiresAt)))]

/-- `_b64url_encode(json.dumps(_).encode())`. -/
def segment (value : Json) : Text := b64urlEncode (Utf8.encode (plainStyle.dumps 0 value))

/-- The signature of the first two segments. -/
def signature (secret signingInput : Text) : Bytes :=
  hmac (Utf8.encode secret) (Utf8.encode signingInput)

/-- `issue_session_token`, at a reading of the clock. -/
def issueSessionToken (operator : Operator) (secret : Text) (ttlS : ℤ) (issuedAt : ℚ) :
    Option SessionToken :=
  let expiresAt := issuedAt + ttlS
  let signingInput := segment header ++ '.' :: segment (payload operator issuedAt expiresAt)
  let token := signingInput ++ '.' :: b64urlEncode (signature hmac secret signingInput)
  (fromTimestamp expiresAt).map fun expiresAt => ⟨token, expiresAt⟩

/-- `str(claims.get(key, ""))`. -/
def claimText (claims : Dict Text Json) (key : Text) : Text :=
  match claims.get key with
  | none => []
  | some (.string text) => text
  | some value => codecs.repr value

/-- The number of a claim, where it is an `int` or a `float`. -/
def claimNumber : Option Json → Option PyNumber
  | some (.constant .true) => some (.finite 1)
  | some (.constant .false) => some (.finite 0)
  | some (.constant .nan) => some .nan
  | some (.constant .infinity) => some .infinity
  | some (.constant .negativeInfinity) => some .negativeInfinity
  | some (.number literal) =>
    match literal.int? codecs.digits with
    | some value => some (.finite value)
    | none => some (codecs.float literal)
  | _ => none

def refuse {α : Type} (message : String) : Except TokenError α :=
  .error (.authentication message.toList)

/-- `Principal(...)` of the claims. -/
def principalOf (claims : Dict Text Json) : Option Principal :=
  if valid : isIdentifier (claimText codecs claims "sub".toList) = true ∧
      isIdentifier (claimText codecs claims "org_id".toList) = true then
    some ⟨⟨_, valid.1⟩, ⟨_, valid.2⟩⟩
  else none

/-- What is checked of the claims of a token that was signed. -/
def verifyClaims (payload : Text) (now : ℚ) : Except TokenError Principal :=
  match (b64urlDecode payload).bind (loadsBytes codecs.wide) with
  | some (.object members) =>
    match claimNumber codecs ((dictOf members).get "exp".toList) with
    | none => refuse "session token expired"
    | some expiry =>
      if expiry.isBefore now then refuse "session token expired"
      else
        match principalOf codecs (dictOf members) with
        | some principal => .ok principal
        | none => refuse "session token claims are invalid"
  | _ => refuse "malformed session token payload"

/-- `verify_session_token`, at a reading of the clock. -/
def verifySessionToken (token secret : Text) (now : ℚ) : Except TokenError Principal :=
  match split '.' token with
  | [header, payload, given] =>
    let signingInput := header ++ '.' :: payload
    if isAscii signingInput then
      match b64urlDecode given with
      | none => refuse "malformed session token signature"
      | some actual =>
        if signature hmac secret signingInput = actual then verifyClaims codecs payload now
        else refuse "session token signature does not match"
    else .error .unicodeEncode
  | _ => refuse "malformed session token"

end Tokens

/-! ## Failing closed -/

section Promise

variable (pbkdf2 : Pbkdf2) (hmac : Hmac) (codecs : Codecs)

/-- The third segment is the signature of the other two. -/
def Signed (secret token : Text) : Prop := ∃ header payload given,
  split '.' token = [header, payload, given] ∧
    b64urlDecode given = some (signature hmac secret (header ++ '.' :: payload))

/-- The claims that a token carries. -/
def claimsOf (token : Text) : Option (Dict Text Json) :=
  match split '.' token with
  | [_, payload, _] =>
    match (b64urlDecode payload).bind (loadsBytes codecs.wide) with
    | some (.object members) => some (dictOf members)
    | _ => none
  | _ => none

/-- The `exp` that a token carries. -/
def expiryOf (token : Text) : Option PyNumber :=
  (claimsOf codecs token).bind fun claims => claimNumber codecs (claims.get "exp".toList)

/-- No check raises but for a token that is refused, a principal was signed and has not expired,
and what is made here is accepted. -/
structure FailsClosed (password stored secret token : Text) (operator : Operator) (ttlS : ℤ)
    (issuedAt now : ℚ) : Prop where
  checks : ∃ right, verifyPassword pbkdf2 codecs.digits password stored = .ok right
  hashes : ∀ salt, verifyPassword pbkdf2 codecs.digits password
    (hashPassword pbkdf2 password salt) = .ok true
  refuses : ∀ error, verifySessionToken hmac codecs token secret now = .error error →
    ∃ message, error = .authentication message
  signed : ∀ principal, verifySessionToken hmac codecs token secret now = .ok principal →
    Signed hmac secret token ∧ ∃ expiry, expiryOf codecs token = some expiry ∧
      expiry.isAfter now = true
  minted : ∀ session, issueSessionToken hmac operator secret ttlS issuedAt = some session →
    now < session.expiresAt → verifySessionToken hmac codecs session.token secret now =
      .ok ⟨operator.operatorId, operator.orgId⟩

/-- The hash asks for a digest that is known and iterations in range, the first two segments are
ASCII, a signed token with a principal neither expires now nor never compares, and the clock does
not stand between the whole second and the expiry of what is minted. -/
structure WithinReach (stored secret token : Text) (operator : Operator) (ttlS : ℤ)
    (issuedAt now : ℚ) : Prop where
  hash : ∀ hash, readHash codecs.digits stored = some hash →
    pbkdf2.known hash.algorithm = true ∧ 1 ≤ hash.iterations ∧ hash.iterations < 2 ^ 31
  ascii : ∀ header payload given, split '.' token = [header, payload, given] →
    isAscii (header ++ '.' :: payload) = true
  expiry : ∀ claims principal, Signed hmac secret token → claimsOf codecs token = some claims →
    principalOf codecs claims = some principal →
      expiryOf codecs token ≠ some .nan ∧ expiryOf codecs token ≠ some (.finite now)
  second : ∀ session, issueSessionToken hmac operator secret ttlS issuedAt = some session →
    now < session.expiresAt → now ≤ truncate session.expiresAt

end Promise

section Passwords

variable {pbkdf2 : Pbkdf2} {digits : DecimalDigits} {password stored algorithm : Text}
  {salt : Bytes} {iterations : ℤ}

theorem exists_pbkdf2Hmac (pbkdf2 : Pbkdf2) (algorithm : Text) (password salt : Bytes)
    (iterations : ℤ) : (∃ key, pbkdf2Hmac pbkdf2 algorithm password salt iterations = .ok key) ↔
      pbkdf2.known algorithm = true ∧ 1 ≤ iterations ∧ iterations < 2 ^ 31 := by
  unfold pbkdf2Hmac
  split
  · next far =>
    refine iff_of_false ?_ ?_
    · rintro ⟨key, ⟨⟩⟩
    · rintro ⟨_, positive, small⟩
      omega
  · split
    · next unknown =>
      refine iff_of_false ?_ ?_
      · rintro ⟨key, ⟨⟩⟩
      · rintro ⟨known, _⟩
        rw [unknown] at known
        cases known
    · next known =>
      split
      · next zero =>
        refine iff_of_false ?_ ?_
        · rintro ⟨key, ⟨⟩⟩
        · rintro ⟨_, positive, _⟩
          omega
      · split
        · next large =>
          refine iff_of_false ?_ ?_
          · rintro ⟨key, ⟨⟩⟩
          · rintro ⟨_, _, small⟩
            omega
        · next small =>
          refine iff_of_true ⟨_, rfl⟩ ⟨?_, by omega, by omega⟩
          rwa [Bool.not_eq_false] at known

theorem exists_verifyPassword :
    (∃ right, verifyPassword pbkdf2 digits password stored = .ok right) ↔
    ∀ hash, readHash digits stored = some hash →
      pbkdf2.known hash.algorithm = true ∧ 1 ≤ hash.iterations ∧ hash.iterations < 2 ^ 31 := by
  unfold verifyPassword
  cases read : readHash digits stored with
  | none =>
    refine iff_of_true ⟨_, rfl⟩ ?_
    rintro hash ⟨⟩
  | some hash =>
    have derives := exists_pbkdf2Hmac pbkdf2 hash.algorithm (Utf8.encode password) hash.salt
      hash.iterations
    dsimp only
    constructor
    · rintro ⟨right, checked⟩ _ ⟨⟩
      cases derived : pbkdf2Hmac pbkdf2 hash.algorithm (Utf8.encode password) hash.salt
          hash.iterations with
      | error error =>
        rw [derived] at checked
        cases checked
      | ok key => exact derives.mp ⟨key, derived⟩
    · intro within
      obtain ⟨key, derived⟩ := derives.mpr (within hash rfl)
      rw [derived]
      exact ⟨_, rfl⟩

theorem notMem_dollar_hex (bytes : Bytes) : '$' ∉ hex bytes := fun mem =>
  absurd (isHexDigit_of_mem_hex mem) (by decide)

theorem notMem_dollar_ofNat (n : Nat) : '$' ∉ ofNat n := fun mem =>
  absurd (DecimalDigits.isAsciiDigit_of_mem_ofNat mem) (by decide)

theorem notMem_dollar_algorithm : '$' ∉ "pbkdf2_sha256".toList := by decide

theorem split_dollars {a b c d : Text} (ha : '$' ∉ a) (hb : '$' ∉ b) (hc : '$' ∉ c)
    (hd : '$' ∉ d) : split '$' (a ++ '$' :: (b ++ '$' :: (c ++ '$' :: d))) = [a, b, c, d] := by
  rw [split_append_cons ha, split_append_cons hb, split_append_cons hc, split_of_notMem hd]

theorem readInt?_pbkdf2Iterations (digits : DecimalDigits) :
    digits.readInt? (ofNat pbkdf2Iterations) = some (pbkdf2Iterations : ℤ) := by
  have short : (ofNat pbkdf2Iterations).length ≤ DecimalDigits.maxStrDigits := by
    rw [DecimalDigits.ofNat_eq]
    exact (Nat.length_toDigits_le_iff (by decide) (by decide)).mpr
      (Nat.lt_of_lt_of_le (by decide : pbkdf2Iterations < 10 ^ 6)
        (Nat.pow_le_pow_right (by decide) (by decide)))
  rw [DecimalDigits.readInt?_of_digits (DecimalDigits.ofNat_ne_nil _)
    fun _ mem => DecimalDigits.isAsciiDigit_of_mem_ofNat mem, if_pos short,
    DecimalDigits.number_ofNat]

theorem removePrefix_algorithm :
    removePrefix "pbkdf2_".toList "pbkdf2_sha256".toList = "sha256".toList := by
  decide

theorem readHash_hashPassword (salt : Sized 16) :
    readHash digits (hashPassword pbkdf2 password salt) =
      some ⟨"sha256".toList, pbkdf2Iterations, salt,
        pbkdf2.derive "sha256".toList (Utf8.encode password) salt pbkdf2Iterations⟩ := by
  have parts : split '$' (hashPassword pbkdf2 password salt) =
      ["pbkdf2_sha256".toList, ofNat pbkdf2Iterations, hex salt,
        hex (pbkdf2.derive "sha256".toList (Utf8.encode password) salt pbkdf2Iterations)] := by
    exact split_dollars notMem_dollar_algorithm (notMem_dollar_ofNat _) (notMem_dollar_hex _)
      (notMem_dollar_hex _)
  unfold readHash
  rw [parts]
  dsimp only
  rw [readInt?_pbkdf2Iterations, fromHex?_hex, fromHex?_hex]
  dsimp only
  rw [removePrefix_algorithm]

/-- **A hash that is made here is right for its password.** -/
theorem verifyPassword_hashPassword (salt : Sized 16) :
    verifyPassword pbkdf2 digits password (hashPassword pbkdf2 password salt) = .ok true := by
  have known : ¬ pbkdf2.known "sha256".toList = false := by
    rw [pbkdf2.sha256]
    decide
  have derives : pbkdf2Hmac pbkdf2 "sha256".toList (Utf8.encode password) salt pbkdf2Iterations =
      .ok (pbkdf2.derive "sha256".toList (Utf8.encode password) salt pbkdf2Iterations) := by
    rw [pbkdf2Hmac, if_neg (by decide), if_neg known, if_neg (by decide), if_neg (by decide),
      Int.toNat_natCast]
  rw [verifyPassword, readHash_hashPassword]
  dsimp only
  rw [derives]
  simp

end Passwords

section Tokens

variable {hmac : Hmac} {codecs : Codecs} {secret token payload : Text} {now : ℚ}
  {principal : Principal} {operator : Operator} {ttlS : ℤ} {issuedAt : ℚ}

theorem verifyClaims_eq_ok : verifyClaims codecs payload now = .ok principal ↔
    ∃ members, (b64urlDecode payload).bind (loadsBytes codecs.wide) = some (.object members) ∧
      principalOf codecs (dictOf members) = some principal ∧
      ∃ expiry, claimNumber codecs ((dictOf members).get "exp".toList) = some expiry ∧
        expiry.isBefore now = false := by
  unfold verifyClaims
  constructor
  · intro accepted
    split at accepted
    · next members read =>
      split at accepted
      · cases accepted
      · next expiry number =>
        split at accepted
        · cases accepted
        · next stands =>
          split at accepted
          · next found =>
            cases accepted
            exact ⟨members, read, found, expiry, number, eq_false_of_ne_true stands⟩
          · cases accepted
    · cases accepted
  · rintro ⟨members, read, found, expiry, number, stands⟩
    rw [read]
    dsimp only
    rw [number]
    dsimp only
    rw [stands, if_neg Bool.false_ne_true, found]

theorem verifyClaims_eq_error {error : TokenError}
    (refused : verifyClaims codecs payload now = .error error) :
    ∃ message, error = .authentication message := by
  unfold verifyClaims at refused
  split at refused
  · split at refused
    · cases refused
      exact ⟨_, rfl⟩
    · split at refused
      · cases refused
        exact ⟨_, rfl⟩
      · split at refused
        · cases refused
        · cases refused
          exact ⟨_, rfl⟩
  · cases refused
    exact ⟨_, rfl⟩

theorem verifySessionToken_of_split {header given : Text}
    (parts : split '.' token = [header, payload, given])
    (ascii : isAscii (header ++ '.' :: payload) = true) :
    verifySessionToken hmac codecs token secret now =
      match b64urlDecode given with
      | none => refuse "malformed session token signature"
      | some actual =>
        if signature hmac secret (header ++ '.' :: payload) = actual then
          verifyClaims codecs payload now
        else refuse "session token signature does not match" := by
  rw [verifySessionToken, parts]
  dsimp only
  rw [if_pos ascii]

theorem verifySessionToken_eq_ok : verifySessionToken hmac codecs token secret now = .ok principal ↔
    ∃ header payload given, split '.' token = [header, payload, given] ∧
      isAscii (header ++ '.' :: payload) = true ∧
      b64urlDecode given = some (signature hmac secret (header ++ '.' :: payload)) ∧
      verifyClaims codecs payload now = .ok principal := by
  constructor
  · intro accepted
    unfold verifySessionToken at accepted
    split at accepted
    · next header payload given parts =>
      dsimp only at accepted
      split at accepted
      · next ascii =>
        split at accepted
        · cases accepted
        · next actual decoded =>
          split at accepted
          · next same => exact ⟨header, payload, given, parts, ascii, same ▸ decoded, accepted⟩
          · cases accepted
      · cases accepted
    · cases accepted
  · rintro ⟨header, payload, given, parts, ascii, decoded, accepted⟩
    rw [verifySessionToken_of_split parts ascii, decoded]
    dsimp only
    rw [if_pos rfl, accepted]

theorem refuses_iff : (∀ error, verifySessionToken hmac codecs token secret now = .error error →
      ∃ message, error = .authentication message) ↔
    ∀ header payload given, split '.' token = [header, payload, given] →
      isAscii (header ++ '.' :: payload) = true := by
  constructor
  · intro refuses header payload given parts
    by_contra wide
    have raises : verifySessionToken hmac codecs token secret now = .error .unicodeEncode := by
      rw [verifySessionToken, parts]
      dsimp only
      rw [if_neg wide]
    obtain ⟨message, never⟩ := refuses _ raises
    cases never
  · intro ascii error refused
    unfold verifySessionToken at refused
    split at refused
    · next header payload given parts =>
      dsimp only at refused
      rw [if_pos (ascii header payload given parts)] at refused
      split at refused
      · cases refused
        exact ⟨_, rfl⟩
      · split at refused
        · exact verifyClaims_eq_error refused
        · cases refused
          exact ⟨_, rfl⟩
    · cases refused
      exact ⟨_, rfl⟩

/-- The claims of a token that is minted. -/
def mintedClaims (operator : Operator) (issuedAt expiresAt : ℚ) : List (Text × Json) :=
  [("sub".toList, .string operator.operatorId), ("org_id".toList, .string operator.orgId),
    ("iat".toList, .number (intLiteral (truncate issuedAt))),
    ("exp".toList, .number (intLiteral (truncate expiresAt)))]

theorem read_payload (operator : Operator) (issuedAt expiresAt : ℚ) :
    (b64urlDecode (segment (OperatorAuth.payload operator issuedAt expiresAt))).bind
      (loadsBytes codecs.wide) = some (.object (mintedClaims operator issuedAt expiresAt)) := by
  have starts : ∃ text, plainStyle.dumps 0 (OperatorAuth.payload operator issuedAt expiresAt) =
      '{' :: '"' :: text := ⟨_, rfl⟩
  obtain ⟨text, starts⟩ := starts
  rw [segment, b64urlDecode_b64urlEncode, Option.bind_some, starts, loadsBytes_encode, ← starts]
  exact loads_dumps plainStyle rfl

theorem get_mintedClaims (operator : Operator) (issuedAt expiresAt : ℚ) :
    let claims := dictOf (mintedClaims operator issuedAt expiresAt)
    claims.get "sub".toList = some (.string operator.operatorId) ∧
      claims.get "org_id".toList = some (.string operator.orgId) ∧
      claims.get "exp".toList = some (.number (intLiteral (truncate expiresAt))) :=
  ⟨rfl, rfl, rfl⟩

theorem verifyClaims_payload (operator : Operator) (issuedAt expiresAt : ℚ) :
    verifyClaims codecs (segment (OperatorAuth.payload operator issuedAt expiresAt)) now =
        .ok ⟨operator.operatorId, operator.orgId⟩ ↔
      now ≤ truncate expiresAt := by
  obtain ⟨sub, orgId, exp⟩ := get_mintedClaims operator issuedAt expiresAt
  have number : claimNumber codecs
      ((dictOf (mintedClaims operator issuedAt expiresAt)).get "exp".toList) =
        some (.finite (truncate expiresAt)) := by
    rw [exp, claimNumber, int?_intLiteral]
  have principal : principalOf codecs (dictOf (mintedClaims operator issuedAt expiresAt)) =
      some ⟨operator.operatorId, operator.orgId⟩ := by
    have subText : claimText codecs (dictOf (mintedClaims operator issuedAt expiresAt))
        "sub".toList = operator.operatorId := by
      rw [claimText, sub]
    have orgText : claimText codecs (dictOf (mintedClaims operator issuedAt expiresAt))
        "org_id".toList = operator.orgId := by
      rw [claimText, orgId]
    rw [principalOf, dif_pos (by
      rw [subText, orgText]
      exact ⟨operator.operatorId.2, operator.orgId.2⟩)]
    congr
  rw [verifyClaims_eq_ok]
  constructor
  · rintro ⟨members, read, _, expiry, found, stands⟩
    rw [read_payload] at read
    cases read
    rw [number] at found
    cases found
    exact le_of_not_gt (of_decide_eq_false stands)
  · intro within
    exact ⟨_, read_payload operator issuedAt expiresAt, principal, _, number,
      decide_eq_false (not_lt_of_ge within)⟩

theorem minted_iff {session : SessionToken}
    (minted : issueSessionToken hmac operator secret ttlS issuedAt = some session) :
    verifySessionToken hmac codecs session.token secret now =
        .ok ⟨operator.operatorId, operator.orgId⟩ ↔
      now ≤ truncate session.expiresAt := by
  rw [issueSessionToken, Option.map_eq_some_iff] at minted
  obtain ⟨expiresAt, dated, rfl⟩ := minted
  have same : issuedAt + ttlS = expiresAt := by
    rw [fromTimestamp] at dated
    split at dated
    · exact Option.some.inj dated
    · cases dated
  rw [same]
  dsimp only
  have parts := split_token (Utf8.encode (plainStyle.dumps 0 header))
    (Utf8.encode (plainStyle.dumps 0 (OperatorAuth.payload operator issuedAt expiresAt)))
    (signature hmac secret (segment header ++ '.' ::
      segment (OperatorAuth.payload operator issuedAt expiresAt)))
  have ascii := isAscii_signingInput (Utf8.encode (plainStyle.dumps 0 header))
    (Utf8.encode (plainStyle.dumps 0 (OperatorAuth.payload operator issuedAt expiresAt)))
  rw [← verifyClaims_payload operator issuedAt expiresAt]
  rw [segment, segment] at parts ⊢
  rw [verifySessionToken_of_split parts ascii, b64urlDecode_b64urlEncode]
  dsimp only
  rw [if_pos rfl]

/-! ## Expiry -/

theorem PyNumber.isAfter_iff {number : PyNumber} : number.isAfter now = true ↔
    number.isBefore now = false ∧ number ≠ .nan ∧ number ≠ .finite now := by
  cases number with
  | finite value =>
    simp only [isAfter, isBefore, decide_eq_true_eq, decide_eq_false_iff_not, not_lt, ne_eq,
      reduceCtorEq, not_false_eq_true, true_and, finite.injEq]
    constructor
    · intro after
      exact ⟨le_of_lt after, fun same => absurd after (same ▸ lt_irrefl _)⟩
    · rintro ⟨within, other⟩
      exact lt_of_le_of_ne within (Ne.symm other)
  | infinity => simp [isAfter, isBefore]
  | negativeInfinity => simp [isAfter, isBefore]
  | nan => simp [isAfter]

theorem claimsOf_eq_some {claims : Dict Text Json} : claimsOf codecs token = some claims ↔
    ∃ header payload given members, split '.' token = [header, payload, given] ∧
      (b64urlDecode payload).bind (loadsBytes codecs.wide) = some (.object members) ∧
      dictOf members = claims := by
  unfold claimsOf
  constructor
  · intro found
    split at found
    · next header payload given parts =>
      split at found
      · next members read =>
        exact ⟨header, payload, given, members, parts, read, Option.some.inj found⟩
      · cases found
    · cases found
  · rintro ⟨header, payload, given, members, parts, read, rfl⟩
    rw [parts]
    dsimp only
    rw [read]

theorem signed_iff (ascii : ∀ header payload given, split '.' token = [header, payload, given] →
      isAscii (header ++ '.' :: payload) = true) :
    (∀ principal, verifySessionToken hmac codecs token secret now = .ok principal →
      Signed hmac secret token ∧ ∃ expiry, expiryOf codecs token = some expiry ∧
        expiry.isAfter now = true) ↔
    ∀ claims principal, Signed hmac secret token → claimsOf codecs token = some claims →
      principalOf codecs claims = some principal →
        expiryOf codecs token ≠ some .nan ∧ expiryOf codecs token ≠ some (.finite now) := by
  constructor
  · rintro right claims principal ⟨header, payload, given, parts, decoded⟩ found named
    obtain ⟨_, payload', _, members, parts', read, rfl⟩ := claimsOf_eq_some.mp found
    rw [parts'] at parts
    cases parts
    -- an expiry that is not before now is accepted, so it is after now
    have accepted {expiry : PyNumber} (expires : expiryOf codecs token = some expiry)
        (stands : expiry.isBefore now = false) : expiry.isAfter now = true := by
      have number := expires
      rw [expiryOf, found, Option.bind_some] at number
      have claims := verifyClaims_eq_ok.mpr ⟨members, read, named, expiry, number, stands⟩
      obtain ⟨_, expiry', expires', after⟩ := right principal
        (verifySessionToken_eq_ok.mpr ⟨_, _, _, parts', ascii _ _ _ parts', decoded, claims⟩)
      rw [expires] at expires'
      exact Option.some.inj expires' ▸ after
    constructor
    · intro expires
      exact absurd (accepted expires rfl) Bool.false_ne_true
    · intro expires
      have never := accepted expires (decide_eq_false (lt_irrefl _))
      exact absurd (of_decide_eq_true never) (lt_irrefl _)
  · intro within principal accepted
    obtain ⟨header, payload, given, parts, _, decoded, claims⟩ :=
      verifySessionToken_eq_ok.mp accepted
    obtain ⟨members, read, named, expiry, number, stands⟩ := verifyClaims_eq_ok.mp claims
    have found := claimsOf_eq_some.mpr ⟨header, payload, given, members, parts, read, rfl⟩
    have signed : Signed hmac secret token := ⟨header, payload, given, parts, decoded⟩
    have expires : expiryOf codecs token = some expiry := by
      rw [expiryOf, found, Option.bind_some, number]
    obtain ⟨compares, other⟩ := within _ _ signed found named
    rw [expires] at compares other
    refine ⟨signed, expiry, expires, PyNumber.isAfter_iff.mpr ⟨stands, ?_, ?_⟩⟩
    · rintro rfl
      exact compares rfl
    · rintro rfl
      exact other rfl

end Tokens

/-- **The checks fail closed exactly within their reach.** -/
theorem failsClosed_iff (pbkdf2 : Pbkdf2) (hmac : Hmac) (codecs : Codecs)
    (password stored secret token : Text) (operator : Operator) (ttlS : ℤ) (issuedAt now : ℚ) :
    FailsClosed pbkdf2 hmac codecs password stored secret token operator ttlS issuedAt now ↔
      WithinReach pbkdf2 hmac codecs stored secret token operator ttlS issuedAt now := by
  constructor
  · intro closed
    have ascii := refuses_iff.mp closed.refuses
    refine ⟨exists_verifyPassword.mp closed.checks, ascii, (signed_iff ascii).mp closed.signed, ?_⟩
    intro session minted before
    exact (minted_iff minted).mp (closed.minted session minted before)
  · intro within
    refine ⟨exists_verifyPassword.mpr within.hash, verifyPassword_hashPassword,
      refuses_iff.mpr within.ascii, (signed_iff within.ascii).mpr within.expiry, ?_⟩
    intro session minted before
    exact (minted_iff minted).mpr (within.second session minted before)

/-- Digests that are constant, of which only the default is known. -/
def samplePbkdf2 : Pbkdf2 where
  known algorithm := algorithm = "sha256".toList
  derive _ _ _ _ := []
  sha256 := decide_eq_true rfl

def sampleCodecs : Codecs where
  digits := .asciiOnly
  wide _ := none
  float _ := .nan
  repr _ := []

def sampleOperator : Operator := ⟨⟨['a'], by decide⟩, ⟨['o'], by decide⟩⟩

def sampleHmac : Hmac := fun _ _ => ⟨List.replicate 32 0, List.length_replicate⟩

/-- The hash `pbkdf2_sha256$0$00$00` raises. -/
theorem not_failsClosed_zeroIterations : ¬ FailsClosed samplePbkdf2 sampleHmac sampleCodecs
    ['p'] "pbkdf2_sha256$0$00$00".toList ['s'] [] sampleOperator 1 0 0 := by
  intro closed
  obtain ⟨right, checked⟩ := closed.checks
  cases checked

end Rankuno.OperatorAuth
