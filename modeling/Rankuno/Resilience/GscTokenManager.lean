import Rankuno.PageClassifier.StructuredData
import Rankuno.Python.Digits
import Rankuno.Resilience.CircuitBreaker

/-!
# Access tokens for Search Console

`GscTokenManager` of `gsc_token_manager.py`: a token is kept until five minutes before it expires
and then asked for again, through a breaker that falls back on the token while it lasts.

Times are microseconds since the first day that a `datetime` can name.
-/

namespace Rankuno.GscToken

open Python Python.Text PageClassifier

/-- What `int` and `str` make of a JSON value, where that is not modelled further. -/
structure Conversions where
  digits : DecimalDigits
  number : NumberLiteral → Except String Int
  repr : Json → Text

namespace Conversions

variable (conversions : Conversions)

/-- `str` of a value. -/
def str : Json → Text
  | .string text => text
  | value => conversions.repr value

/-- `int` of a value, or the name of what it raises. -/
def int : Json → Except String Int
  | .constant .true => .ok 1
  | .constant .false => .ok 0
  | .constant .nan => .error "ValueError"
  | .constant .infinity | .constant .negativeInfinity => .error "OverflowError"
  | .constant .null | .array _ | .object _ => .error "TypeError"
  | .number literal => conversions.number literal
  | .string text =>
    match conversions.digits.readInt? text with
    | none => .error "ValueError"
    | some n => .ok n

end Conversions

def second : Int := 1000000

/-- `datetime.max`, and what lies outside of the years it can name. -/
def inCalendar (time : Int) : Bool := 0 ≤ time && time < 3652059 * 86400 * second

def refreshWindowSeconds : Int := 300

/-- How a request for a token ends. -/
inductive EndpointAnswer where
  | transportError (type : Text)
  /-- With the response, if there is one: its status, and its body if that is JSON. -/
  | httpError (response : Option (Nat × Option Json))
  | unparsed (type : Text)
  | json (value : Json)

/-- A call, with the time the endpoint takes to answer and the answer, if it is asked. -/
structure TokenCall where
  begins : Int
  waits : Nat
  answer : EndpointAnswer

def TokenCall.ends (call : TokenCall) : Int := call.begins + call.waits

inductive TokenError where
  | gscAuthentication (message : Text)
  | overflow
  deriving DecidableEq

/-- A token until it expires. -/
structure Lease where
  token : Text
  expiry : Int
  filled : token ≠ []

structure GscTokenManager where
  accessToken : Option Text
  tokenExpiry : Option Int
  circuitBreaker : CircuitBreaker Int

/-- `_OAUTH_ERROR_CODE_RE`. -/
def isOauthErrorCode (code : Text) : Bool :=
  1 ≤ code.length && code.length ≤ 40 && code.all fun c =>
    (97 ≤ c.toNat && c.toNat ≤ 122) || c = '_'

/-- `_describe_http_failure`. -/
def describeHttpFailure : Option (Nat × Option Json) → Text
  | none => "HTTP no response".toList
  | some (status, body) =>
    let http := "HTTP ".toList ++ ofNat status
    match body with
    | some (.object members) =>
      match (dictOf members).get "error".toList with
      | some (.string code) =>
        if isOauthErrorCode code then http ++ ", ".toList ++ code else http
      | _ => http
    | _ => http

/-- The `access_token` of a response, as text. -/
def accessTokenOf (conversions : Conversions) (data : Dict Text Json) : Text :=
  conversions.str ((data.get "access_token".toList).getD (.string []))

/-- The `expires_in` of a response, one hour if it has none. -/
def expiresInOf (conversions : Conversions) (data : Dict Text Json) : Except String Int :=
  match data.get "expires_in".toList with
  | none => .ok 3600
  | some value => conversions.int value

namespace GscTokenManager

/-- `__init__`. -/
def new : GscTokenManager := ⟨none, none, .new 5 (30 * second)⟩

variable (m : GscTokenManager)

/-- The token, where there is one with an expiry. -/
def held : Option Lease :=
  match m.accessToken, m.tokenExpiry with
  | some token, some expiry => if filled : token ≠ [] then some ⟨token, expiry, filled⟩ else none
  | _, _ => none

/-- The token, if it lasts for more than some seconds. -/
def lasting (now seconds : Int) : Option Text :=
  (m.held.filter fun lease => seconds * second < lease.expiry - now).map Lease.token

/-- A refresh that fails. -/
def failed (now : Int) (message : Text) : Except TokenError Text × GscTokenManager :=
  (.error (.gscAuthentication message),
    { m with circuitBreaker := m.circuitBreaker.recordFailure now })

variable (conversions : Conversions)

/-- The response of an endpoint that answers with an object. -/
def accept (now : Int) (data : Dict Text Json) : Except TokenError Text × GscTokenManager :=
  let token := accessTokenOf conversions data
  let m := { m with accessToken := some token }
  match expiresInOf conversions data with
  | .error type => m.failed now ("Failed to parse token response: ".toList ++ type.toList)
  | .ok expiresIn =>
    if token = [] then
      m.failed now "Token refresh succeeded but no access token was returned".toList
    else if inCalendar (now + expiresIn * second) then
      (.ok token, { m with
        tokenExpiry := some (now + expiresIn * second)
        circuitBreaker := m.circuitBreaker.recordSuccess })
    else (.error .overflow, m)

/-- The request for a token. -/
def refresh (now : Int) : EndpointAnswer → Except TokenError Text × GscTokenManager
  | .transportError type => m.failed now ("Token refresh failed: ".toList ++ type)
  | .httpError response => m.failed now
      ("Token refresh failed (".toList ++ describeHttpFailure response ++ ")".toList)
  | .unparsed type => m.failed now ("Failed to parse token response: ".toList ++ type)
  | .json (.object members) => m.accept conversions now (dictOf members)
  | .json _ => m.failed now "Failed to parse token response: AttributeError".toList

/-- `get_or_refresh_token`. -/
def getOrRefreshToken (call : TokenCall) : Except TokenError Text × GscTokenManager :=
  match m.lasting call.begins refreshWindowSeconds with
  | some token => (.ok token, m)
  | none =>
    let query := m.circuitBreaker.isOpen call.begins
    let m := { m with circuitBreaker := query.2 }
    if query.1 then
      match m.lasting call.begins 0 with
      | some token => (.ok token, m)
      | none => (.error (.gscAuthentication
          "Token endpoint unreachable and stale token expired".toList), m)
    else m.refresh conversions call.ends call.answer

/-- Whether a call asks the endpoint. -/
def asks (now : Int) : Bool :=
  (m.lasting now refreshWindowSeconds).isNone && !(m.circuitBreaker.isOpen now).1

end GscTokenManager

/-! ## Runs -/

/-- The token that an answer issues: a text that is not empty, for the seconds it says. -/
def issueOf (conversions : Conversions) (now : Int) : EndpointAnswer → Option Lease
  | .json (.object members) =>
    match (dictOf members).get "access_token".toList, expiresInOf conversions (dictOf members) with
    | some (.string token), .ok expiresIn =>
      if filled : token ≠ [] then some ⟨token, now + expiresIn * second, filled⟩ else none
    | _, _ => none
  | _ => none

/-- A manager with the time and what the endpoint has issued. -/
structure Session where
  manager : GscTokenManager
  clock : Int
  issued : List Lease

namespace Session

def init (start : Int) : Session := ⟨.new, start, []⟩

variable (conversions : Conversions) (s : Session) (call : TokenCall)

def returnsAt : Int := if s.manager.asks call.begins then call.ends else call.begins

/-- What the endpoint issues in a call. -/
def issues : Option Lease :=
  if s.manager.asks call.begins then issueOf conversions call.ends call.answer else none

end Session

/-- Calls one after another. -/
def machine (conversions : Conversions) : Machine Session TokenCall where
  step s call :=
    if s.clock ≤ call.begins then
      some ⟨(s.manager.getOrRefreshToken conversions call).2, s.returnsAt call,
        s.issued ++ (s.issues conversions call).toList⟩
    else none

/-- Only tokens that were issued and last are handed out, and the last one is while the breaker is
open. -/
structure OnlyLive (conversions : Conversions) (start : Int) (calls : List TokenCall) : Prop where
  issued : ∀ pre call post s t token, calls = pre ++ call :: post →
    (machine conversions).run (.init start) pre = some s →
    (machine conversions).step s call = some t →
    (s.manager.getOrRefreshToken conversions call).1 = .ok token →
      token ≠ [] ∧ ∃ lease ∈ t.issued, lease.token = token ∧ t.clock < lease.expiry
  fallback : ∀ pre call post s t lease, calls = pre ++ call :: post →
    (machine conversions).run (.init start) pre = some s →
    (machine conversions).step s call = some t →
    (s.manager.circuitBreaker.isOpen call.begins).1 = true →
    s.issued.getLast? = some lease → call.begins < lease.expiry →
      (s.manager.getOrRefreshToken conversions call).1 = .ok lease.token

/-- Whether a response is accepted. -/
def accepts (conversions : Conversions) (now : Int) (data : Dict Text Json) : Bool :=
  match expiresInOf conversions data with
  | .error _ => false
  | .ok expiresIn =>
    accessTokenOf conversions data ≠ [] && inCalendar (now + expiresIn * second)

/-- A response that is accepted issues a token that lasts. Another issues none that lasts, and
comes when no expiry lies ahead. -/
def RegularResponse (conversions : Conversions) (now : Int) (tokenExpiry : Option Int)
    (members : List (Text × Json)) : Prop :=
  let issued := issueOf conversions now (.json (.object members))
  if accepts conversions now (dictOf members) = true then ∃ lease ∈ issued, now < lease.expiry
  else (∀ lease ∈ issued, lease.expiry ≤ now) ∧ ∀ expiry ∈ tokenExpiry, expiry ≤ now

/-- An object that the endpoint answers with is a regular response. -/
def Regular (conversions : Conversions) (s : Session) (call : TokenCall) : Prop :=
  s.manager.asks call.begins = true →
    match call.answer with
    | .json (.object members) =>
      RegularResponse conversions call.ends s.manager.tokenExpiry members
    | _ => True

instance (conversions : Conversions) (now : Int) (tokenExpiry : Option Int)
    (members : List (Text × Json)) :
    Decidable (RegularResponse conversions now tokenExpiry members) :=
  inferInstanceAs (Decidable (if accepts conversions now (dictOf members) = true then
    ∃ lease ∈ issueOf conversions now (.json (.object members)), now < lease.expiry
  else (∀ lease ∈ issueOf conversions now (.json (.object members)), lease.expiry ≤ now) ∧
    ∀ expiry ∈ tokenExpiry, expiry ≤ now))

instance (conversions : Conversions) (s : Session) : ∀ call, Decidable (Regular conversions s call)
  | ⟨begins, waits, .json (.object members)⟩ =>
    inferInstanceAs (Decidable (s.manager.asks begins = true →
      RegularResponse conversions (begins + waits) s.manager.tokenExpiry members))
  | ⟨_, _, .json (.constant _)⟩ | ⟨_, _, .json (.number _)⟩ | ⟨_, _, .json (.string _)⟩
  | ⟨_, _, .json (.array _)⟩ | ⟨_, _, .transportError _⟩ | ⟨_, _, .httpError _⟩
  | ⟨_, _, .unparsed _⟩ => isTrue fun _ => trivial

/-! ## What lasts -/

def live (now : Int) (lease : Option Lease) : Option Lease :=
  lease.filter fun lease => now < lease.expiry

section Live

variable {now later : Int} {lease : Option Lease} {l : Lease}

theorem live_eq_some : live now lease = some l ↔ lease = some l ∧ now < l.expiry := by
  rw [live, Option.filter_eq_some_iff, decide_eq_true_eq]

theorem live_eq_none : live now lease = none ↔ ∀ l, lease = some l → l.expiry ≤ now := by
  rw [live, Option.filter_eq_none_iff]
  simp only [decide_eq_true_eq, Int.not_lt]

theorem live_of_le (le : now ≤ later) : live later (live now lease) = live later lease := by
  cases lease with
  | none => rfl
  | some l =>
    by_cases lasts : later < l.expiry
    · rw [live_eq_some.mpr ⟨rfl, by omega⟩]
    · rw [live_eq_none.mpr, live_eq_none.mpr]
      · rintro l' ⟨⟩
        omega
      · intro l' found
        obtain ⟨⟨⟩, _⟩ := live_eq_some.mp found
        omega

end Live

namespace GscTokenManager

variable {m : GscTokenManager} {conversions : Conversions} {call : TokenCall} {now seconds : Int}
  {token : Text} {data : Dict Text Json}

theorem lasting_eq_some : m.lasting now seconds = some token ↔
    ∃ lease, m.held = some lease ∧ lease.token = token ∧ seconds * second < lease.expiry - now := by
  rw [lasting, Option.map_eq_some_iff]
  simp only [Option.filter_eq_some_iff, decide_eq_true_eq]
  constructor
  · rintro ⟨lease, ⟨held, lasts⟩, rfl⟩
    exact ⟨lease, held, rfl, lasts⟩
  · rintro ⟨lease, held, rfl, lasts⟩
    exact ⟨lease, ⟨held, lasts⟩, rfl⟩

theorem live_of_lasting (lasting : m.lasting now seconds = some token) (positive : 0 ≤ seconds) :
    ∃ lease, live now m.held = some lease ∧ lease.token = token := by
  obtain ⟨lease, held, same, lasts⟩ := lasting_eq_some.mp lasting
  refine ⟨lease, live_eq_some.mpr ⟨held, ?_⟩, same⟩
  have window : 0 ≤ seconds * second := Int.mul_nonneg positive (by decide)
  omega

theorem held_eq_some {lease : Lease} : m.held = some lease ↔
    m.accessToken = some lease.token ∧ m.tokenExpiry = some lease.expiry := by
  rw [held]
  cases m.accessToken with
  | none => simp
  | some token =>
    cases m.tokenExpiry with
    | none => simp
    | some expiry =>
      dsimp only
      split
      · next filled =>
        constructor
        · rintro ⟨⟩
          exact ⟨rfl, rfl⟩
        · rintro ⟨tokens, expiries⟩
          cases lease
          cases tokens
          cases expiries
          rfl
      · next empty =>
        constructor
        · rintro ⟨⟩
        · rintro ⟨tokens, _⟩
          exact absurd (Option.some.inj tokens ▸ lease.filled) empty

theorem getOrRefreshToken_of_not_asks (conversions : Conversions)
    (unasked : m.asks call.begins = false) :
    (m.getOrRefreshToken conversions call).2.accessToken = m.accessToken ∧
      (m.getOrRefreshToken conversions call).2.tokenExpiry = m.tokenExpiry ∧
      ((∃ lease, live call.begins m.held = some lease ∧
          (m.getOrRefreshToken conversions call).1 = .ok lease.token) ∨
        live call.begins m.held = none ∧ ∃ message, (m.getOrRefreshToken conversions call).1 =
            .error (.gscAuthentication message)) := by
  unfold getOrRefreshToken
  rw [asks] at unasked
  cases cached : m.lasting call.begins refreshWindowSeconds with
  | some token =>
    obtain ⟨lease, held, rfl⟩ := live_of_lasting cached (by decide)
    exact ⟨rfl, rfl, .inl ⟨lease, held, rfl⟩⟩
  | none =>
    rw [cached] at unasked
    have opened : (m.circuitBreaker.isOpen call.begins).1 = true := by simpa using unasked
    dsimp only
    rw [if_pos opened]
    have same : GscTokenManager.lasting ⟨m.accessToken, m.tokenExpiry,
        (m.circuitBreaker.isOpen call.begins).2⟩ call.begins 0 = m.lasting call.begins 0 := rfl
    rw [same]
    cases stale : m.lasting call.begins 0 with
    | some token =>
      obtain ⟨lease, held, rfl⟩ := live_of_lasting stale (by decide)
      exact ⟨rfl, rfl, .inl ⟨lease, held, rfl⟩⟩
    | none =>
      refine ⟨rfl, rfl, .inr ⟨live_eq_none.mpr ?_, _, rfl⟩⟩
      intro lease held
      by_contra lasts
      have some_ := lasting_eq_some.mpr
        ⟨lease, held, rfl, (by omega : 0 * second < lease.expiry - call.begins)⟩
      rw [stale] at some_
      cases some_

theorem getOrRefreshToken_of_asks (conversions : Conversions) (asked : m.asks call.begins = true) :
    ∃ m' : GscTokenManager, m'.accessToken = m.accessToken ∧ m'.tokenExpiry = m.tokenExpiry ∧
      m.getOrRefreshToken conversions call = m'.refresh conversions call.ends call.answer := by
  rw [asks, Bool.and_eq_true, Option.isNone_iff_eq_none, Bool.not_eq_true'] at asked
  refine ⟨⟨m.accessToken, m.tokenExpiry, (m.circuitBreaker.isOpen call.begins).2⟩, rfl, rfl, ?_⟩
  rw [getOrRefreshToken, asked.1]
  dsimp only
  rw [if_neg (by rw [asked.2]; exact Bool.false_ne_true)]

theorem accept_of_accepts (accepted : accepts conversions now data = true) :
    ∃ expiresIn, expiresInOf conversions data = .ok expiresIn ∧
      (m.accept conversions now data).1 = .ok (accessTokenOf conversions data) ∧
      (m.accept conversions now data).2.accessToken = some (accessTokenOf conversions data) ∧
      (m.accept conversions now data).2.tokenExpiry = some (now + expiresIn * second) := by
  rw [accepts] at accepted
  cases read : expiresInOf conversions data with
  | error type =>
    rw [read] at accepted
    cases accepted
  | ok expiresIn =>
    rw [read] at accepted
    dsimp only at accepted
    rw [Bool.and_eq_true, decide_eq_true_eq] at accepted
    have whole : m.accept conversions now data =
        (.ok (accessTokenOf conversions data), { m with
          accessToken := some (accessTokenOf conversions data)
          tokenExpiry := some (now + expiresIn * second)
          circuitBreaker := m.circuitBreaker.recordSuccess }) := by
      rw [accept, read]
      dsimp only
      rw [if_neg accepted.1, if_pos accepted.2]
    rw [whole]
    exact ⟨expiresIn, rfl, rfl, rfl, rfl⟩

theorem accept_of_not_accepts (refused : accepts conversions now data = false) :
    (∃ error, (m.accept conversions now data).1 = .error error) ∧
      (m.accept conversions now data).2.tokenExpiry = m.tokenExpiry := by
  rw [accepts] at refused
  unfold accept
  cases read : expiresInOf conversions data with
  | error type => exact ⟨⟨_, rfl⟩, rfl⟩
  | ok expiresIn =>
    rw [read] at refused
    dsimp only at refused ⊢
    split
    · exact ⟨⟨_, rfl⟩, rfl⟩
    · next filled =>
      split
      · next within =>
        rw [Bool.and_eq_false_iff, within, decide_eq_false_iff_not] at refused
        exact absurd filled (refused.resolve_right Bool.true_eq_false.mp)
      · exact ⟨⟨_, rfl⟩, rfl⟩

theorem refresh_cases (m : GscTokenManager) (conversions : Conversions) (now : Int)
    (answer : EndpointAnswer) :
    (∃ members, answer = .json (.object members) ∧
        m.refresh conversions now answer = m.accept conversions now (dictOf members)) ∨
      (∃ error, (m.refresh conversions now answer).1 = .error error) ∧
        (m.refresh conversions now answer).2.accessToken = m.accessToken ∧
        (m.refresh conversions now answer).2.tokenExpiry = m.tokenExpiry ∧
        issueOf conversions now answer = none := by
  cases answer with
  | transportError type => exact .inr ⟨⟨_, rfl⟩, rfl, rfl, rfl⟩
  | httpError response => exact .inr ⟨⟨_, rfl⟩, rfl, rfl, rfl⟩
  | unparsed type => exact .inr ⟨⟨_, rfl⟩, rfl, rfl, rfl⟩
  | json value =>
    cases value with
    | object members => exact .inl ⟨members, rfl, rfl⟩
    | _ => exact .inr ⟨⟨_, rfl⟩, rfl, rfl, rfl⟩

theorem held_congr {m m' : GscTokenManager} (tokens : m'.accessToken = m.accessToken)
    (expiries : m'.tokenExpiry = m.tokenExpiry) : m'.held = m.held := by
  rw [held, held, tokens, expiries]

end GscTokenManager

theorem issueOf_eq_some {conversions : Conversions} {now : Int} {members : List (Text × Json)}
    {lease : Lease} (issued : issueOf conversions now (.json (.object members)) = some lease) :
    accessTokenOf conversions (dictOf members) = lease.token ∧
      ∃ expiresIn, expiresInOf conversions (dictOf members) = .ok expiresIn ∧
        lease.expiry = now + expiresIn * second := by
  rw [issueOf] at issued
  split at issued
  · next token expiresIn tokens seconds =>
    split at issued
    · cases issued
      refine ⟨?_, expiresIn, seconds, rfl⟩
      rw [accessTokenOf, tokens]
      rfl
    · cases issued
  · cases issued

/-! ## Sessions -/

/-- The manager and the endpoint agree on the token that lasts. -/
def Session.Agrees (s : Session) : Prop :=
  live s.clock s.manager.held = live s.clock s.issued.getLast?

section Sessions

variable {conversions : Conversions} {s t : Session} {call : TokenCall} {token : Text}

theorem step_eq_some (moves : (machine conversions).step s call = some t) :
    s.clock ≤ call.begins ∧ t.manager = (s.manager.getOrRefreshToken conversions call).2 ∧
      t.clock = s.returnsAt call ∧ t.issued = s.issued ++ (s.issues conversions call).toList := by
  change (if s.clock ≤ call.begins then _ else none) = some t at moves
  split at moves
  · next after =>
    cases moves
    exact ⟨after, rfl, rfl, rfl⟩
  · cases moves

theorem Session.Agrees.unasked (agrees : s.Agrees)
    (moves : (machine conversions).step s call = some t)
    (unasked : s.manager.asks call.begins = false) :
    t.Agrees ∧ t.clock = call.begins ∧ t.issued = s.issued ∧
      live t.clock s.manager.held = live t.clock s.issued.getLast? := by
  obtain ⟨after, manager, clock, issued⟩ := step_eq_some moves
  have kept := GscTokenManager.getOrRefreshToken_of_not_asks conversions unasked
  rw [Session.returnsAt, unasked, if_neg Bool.false_ne_true] at clock
  rw [Session.issues, unasked, if_neg Bool.false_ne_true, Option.toList_none,
    List.append_nil] at issued
  have same : live t.clock s.manager.held = live t.clock s.issued.getLast? := by
    rw [clock, ← live_of_le after, agrees, live_of_le after]
  refine ⟨?_, clock, issued, same⟩
  rw [Session.Agrees, issued, manager, GscTokenManager.held_congr kept.1 kept.2.1, same]

theorem step_asked (moves : (machine conversions).step s call = some t)
    (asked : s.manager.asks call.begins = true) :
    s.clock ≤ t.clock ∧ t.clock = call.ends ∧
      t.issued = s.issued ++ (issueOf conversions call.ends call.answer).toList := by
  obtain ⟨after, _, clock, issued⟩ := step_eq_some moves
  rw [Session.returnsAt, if_pos asked] at clock
  rw [Session.issues, if_pos asked] at issued
  refine ⟨?_, clock, issued⟩
  rw [clock, TokenCall.ends]
  omega

theorem live_concat {issues : Option Lease} {now : Int} {issued : List Lease}
    (ended : ∀ lease, issues = some lease → lease.expiry ≤ now)
    (before : issues ≠ none → live now issued.getLast? = none) :
    live now (issued ++ issues.toList).getLast? = live now issued.getLast? := by
  cases issues with
  | none => rw [Option.toList_none, List.append_nil]
  | some lease =>
    rw [Option.toList_some, List.getLast?_concat, before (Option.some_ne_none _)]
    apply live_eq_none.mpr
    rintro _ ⟨⟩
    exact ended lease rfl

section Asked

variable {m : GscTokenManager} {members : List (Text × Json)} {lease : Lease} {now : Int}

theorem accept_of_issued (accepted : accepts conversions now (dictOf members) = true)
    (issued : issueOf conversions now (.json (.object members)) = some lease) :
    (m.accept conversions now (dictOf members)).1 = .ok lease.token ∧
      (m.accept conversions now (dictOf members)).2.held = some lease := by
  obtain ⟨token, expiresIn, read, expiry⟩ := issueOf_eq_some issued
  obtain ⟨expiresIn', read', gives, tokens, expiries⟩ :=
    GscTokenManager.accept_of_accepts (m := m) accepted
  rw [read'] at read
  cases read
  refine ⟨by rw [gives, token], GscTokenManager.held_eq_some.mpr ⟨?_, ?_⟩⟩
  · rw [tokens, token]
  · rw [expiries, expiry]

theorem live_held_eq_none (ended : ∀ expiry, m.tokenExpiry = some expiry → expiry ≤ now) :
    live now m.held = none := by
  apply live_eq_none.mpr
  intro lease held
  exact ended _ (GscTokenManager.held_eq_some.mp held).2

end Asked

theorem Session.Agrees.asked (agrees : s.Agrees) (regular : Regular conversions s call)
    (moves : (machine conversions).step s call = some t)
    (asked : s.manager.asks call.begins = true) :
    t.Agrees ∧ ∀ token, (s.manager.getOrRefreshToken conversions call).1 = .ok token →
      ∃ lease ∈ t.issued, lease.token = token ∧ t.clock < lease.expiry := by
  obtain ⟨_, manager, _⟩ := step_eq_some moves
  obtain ⟨later, clock, issued⟩ := step_asked moves asked
  obtain ⟨m, tokens, expiries, refreshes⟩ :=
    GscTokenManager.getOrRefreshToken_of_asks conversions asked
  have before : live t.clock s.manager.held = live t.clock s.issued.getLast? := by
    rw [← live_of_le later, agrees, live_of_le later]
  rw [refreshes] at manager ⊢
  rw [Session.Agrees, manager, issued]
  obtain ⟨members, answer, accepting⟩ | ⟨⟨error, fails⟩, tokens', expiries', nothing⟩ :=
    m.refresh_cases conversions call.ends call.answer
  · have shaped := regular asked
    rw [answer] at shaped
    rw [accepting, answer]
    unfold RegularResponse at shaped
    dsimp only at shaped
    split at shaped
    · next accepted =>
      obtain ⟨lease, issues, lasts⟩ := shaped
      obtain ⟨gives, held⟩ := accept_of_issued (m := m) accepted issues
      rw [issues, gives, held, Option.toList_some, List.getLast?_concat]
      refine ⟨rfl, ?_⟩
      rintro token ⟨⟩
      exact ⟨lease, List.mem_concat_self, rfl, clock ▸ lasts⟩
    · next refused =>
      obtain ⟨⟨error, fails⟩, kept⟩ :=
        GscTokenManager.accept_of_not_accepts (m := m) (eq_false_of_ne_true refused)
      rw [fails]
      -- the token may be another one now, but its expiry has passed
      have ended := shaped.2
      rw [← clock, ← expiries] at ended
      have none_before : live t.clock s.issued.getLast? = none := by
        rw [← before]
        exact live_held_eq_none (expiries ▸ ended)
      refine ⟨?_, fun token never => by cases never⟩
      rw [live_held_eq_none (kept.symm ▸ ended),
        live_concat (clock.symm ▸ shaped.1) fun _ => none_before, none_before]
  · rw [fails, nothing, Option.toList_none, List.append_nil,
      GscTokenManager.held_congr (tokens'.trans tokens) (expiries'.trans expiries)]
    exact ⟨before, fun token never => by cases never⟩

/-- **What a regular call keeps.** -/
theorem Session.Agrees.step (agrees : s.Agrees) (regular : Regular conversions s call)
    (moves : (machine conversions).step s call = some t) :
    t.Agrees ∧ ∀ token, (s.manager.getOrRefreshToken conversions call).1 = .ok token →
      ∃ lease ∈ t.issued, lease.token = token ∧ t.clock < lease.expiry := by
  cases asked : s.manager.asks call.begins with
  | true => exact agrees.asked regular moves asked
  | false =>
    obtain ⟨kept, clock, issued, same⟩ := agrees.unasked moves asked
    refine ⟨kept, ?_⟩
    intro token gives
    obtain ⟨_, _, ⟨lease, held, returned⟩ | ⟨_, message, fails⟩⟩ :=
      GscTokenManager.getOrRefreshToken_of_not_asks conversions asked
    · rw [returned] at gives
      cases gives
      rw [← clock, same] at held
      obtain ⟨last, lasts⟩ := live_eq_some.mp held
      exact ⟨lease, issued ▸ List.mem_of_getLast? last, rfl, lasts⟩
    · rw [fails] at gives
      cases gives

theorem Session.Agrees.fallback (agrees : s.Agrees)
    (moves : (machine conversions).step s call = some t) {lease : Lease}
    (opened : (s.manager.circuitBreaker.isOpen call.begins).1 = true)
    (last : s.issued.getLast? = some lease) (lasts : call.begins < lease.expiry) :
    (s.manager.getOrRefreshToken conversions call).1 = .ok lease.token := by
  have unasked : s.manager.asks call.begins = false := by
    rw [GscTokenManager.asks, opened, Bool.not_true, Bool.and_false]
  obtain ⟨_, clock, _, same⟩ := agrees.unasked moves unasked
  have held : live call.begins s.manager.held = some lease := by
    rw [← clock, same]
    exact live_eq_some.mpr ⟨last, clock ▸ lasts⟩
  obtain ⟨_, _, ⟨lease', held', returned⟩ | ⟨nothing, _⟩⟩ :=
    GscTokenManager.getOrRefreshToken_of_not_asks conversions unasked
  · rw [held] at held'
    cases held'
    exact returned
  · rw [held] at nothing
    cases nothing

end Sessions

/-- **In a regular run only live tokens are handed out.** -/
theorem onlyLive_of_regular (conversions : Conversions) (start : Int) (calls : List TokenCall)
    (regular : (machine conversions).Meets (Regular conversions) (.init start) calls) :
    OnlyLive conversions start calls := by
  have agrees {pre post : List TokenCall} {s : Session} (split : calls = pre ++ post)
      (run : (machine conversions).run (.init start) pre = some s) : s.Agrees := by
    rw [split] at regular
    refine Machine.invariant_of_meets ?_ ?_ (Machine.meets_append.mp regular).1 run
    · intro s call t agrees regular moves
      exact (agrees.step regular moves).1
    · rfl
  constructor
  · intro pre call post s t token split run moves gives
    have now : Regular conversions s call := Machine.meets_iff.mp regular pre call post s split run
    obtain ⟨lease, issued, rfl, lasts⟩ := ((agrees split run).step now moves).2 token gives
    exact ⟨lease.filled, lease, issued, rfl, lasts⟩
  · intro pre call post s t lease split run moves opened last lasts
    exact (agrees split run).fallback moves opened last lasts

/-- One refresh, five that fail, and the token from before. -/
def outageCalls : List TokenCall :=
  [⟨0, 1, .json (.object [("access_token".toList, .string "t".toList),
    ("expires_in".toList, .string "200".toList)])⟩,
    ⟨2 * second, 1, .transportError "Timeout".toList⟩,
    ⟨3 * second, 1, .transportError "Timeout".toList⟩,
    ⟨4 * second, 1, .transportError "Timeout".toList⟩,
    ⟨5 * second, 1, .httpError (some (503, none))⟩,
    ⟨6 * second, 1, .unparsed "JSONDecodeError".toList⟩,
    ⟨7 * second, 1, .transportError "Timeout".toList⟩]

/-- `None` is the text of `null`. -/
def sampleConversions : Conversions where
  digits := .asciiOnly
  number _ := .ok 3600
  repr _ := "None".toList

theorem onlyLive_outageCalls : OnlyLive sampleConversions 0 outageCalls :=
  onlyLive_of_regular sampleConversions 0 outageCalls (by decide)

/-- An endpoint that answers `null` for the token has the text of it handed out. -/
theorem not_onlyLive_null : ¬ OnlyLive sampleConversions 0
    [⟨0, 1, .json (.object [("access_token".toList, .constant .null)])⟩] := by
  intro live
  obtain ⟨_, lease, issued, _⟩ := live.issued [] _ [] _ _ "None".toList rfl rfl rfl rfl
  cases issued

end Rankuno.GscToken
