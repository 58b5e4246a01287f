import Rankuno.Foundation.Retries
import Rankuno.Performance.Aggregator

/-!
# Paged fetches from Search Console

`gsc_client.py` and `gsc_requests.py`, with `BaseAPIClient.call` around each page. The cursor is
the number of rows received. A page that fails ends the fetch and keeps the rows before it, unless
it was refused.
-/

namespace Rankuno.PagedFetch

open Python Python.Text

/-- `MAX_PAGES`. -/
def maxPages : Nat := 40

/-- `ROW_LIMIT_MAX`. -/
def rowLimitMax : Nat := 25000

/-- A row as the API answers it. -/
structure ApiRow where
  keys : List Text
  clicks : Nat
  impressions : Nat
  position : ℚ
  first_le : 1 ≤ position

/-- The rows that the API serves for a number of dimensions, each with its keys. -/
structure Report (dimensions : Nat) where
  rows : List ApiRow
  keyed : ∀ row ∈ rows, row.keys.length = dimensions

/-- An `HttpError`: the status, the reason and the `retry-after` that can be read. -/
structure HttpFailure where
  status : Nat
  reason : Text
  retryAfterS : Option ℚ := none
  deriving DecidableEq

/-- How an attempt fails, before its error is mapped. -/
inductive AttemptFailure where
  | rateLimitExceeded
  | http (failure : HttpFailure)
  | timeout
  | connection
  | guardrailViolation
  | other
  deriving DecidableEq

/-- What a request raises. -/
inductive ApiError where
  | propertyNotFound (propertyUrl : Text)
  | authorization (reason : Text)
  | quotaExceeded (retryAfterS : Option ℚ)
  | apiDeprecated (status : Nat) (detail : Text)
  | http (failure : HttpFailure)
  | rateLimitExceeded
  | timeout
  | connection
  | guardrailViolation
  | other
  deriving DecidableEq

/-- `raise_mapped_http_error`. -/
def raiseMappedHttpError (failure : HttpFailure) (propertyUrl : Text) : ApiError :=
  let reason := if failure.reason = [] then "Unknown".toList else failure.reason
  if failure.status = 404 then .propertyNotFound propertyUrl
  else if failure.status = 403 then
    .authorization ("Property not accessible or verification pending: ".toList ++ reason)
  else if failure.status = 429 then .quotaExceeded failure.retryAfterS
  else if failure.status = 410 then
    .apiDeprecated 410 ("Endpoint deprecated: ".toList ++ reason)
  else if failure.status = 501 then
    .apiDeprecated 501 ("Endpoint not implemented: ".toList ++ reason)
  else .http failure

namespace ApiError

/-- Whether it is an `IntegrationError`. -/
def isIntegration : ApiError → Bool
  | propertyNotFound _ | authorization _ | quotaExceeded _ | apiDeprecated _ _ => true
  | http _ | rateLimitExceeded | timeout | connection | guardrailViolation | other => false

/-- `TRANSIENT_ERRORS`. -/
def isTransient (error : ApiError) : Bool :=
  error.isIntegration ||
    match error with
    | rateLimitExceeded | timeout | connection => true
    | _ => false

end ApiError

/-- What `call` raises: an error as it is, or an `IntegrationError` around it. -/
inductive CallError where
  | raised (error : ApiError)
  | integration (cause : ApiError)
  deriving DecidableEq

inductive FailureClass where
  | timeout
  | connection
  | serverError
  | quota
  | unexpected
  deriving DecidableEq

namespace CallError

/-- The errors that `_page_through` raises again. -/
def propagates : CallError → Bool
  | raised (.propertyNotFound _) | raised (.authorization _) | raised .guardrailViolation => true
  | _ => false

/-- What `_failure_class` reads of the cause. -/
def statusClass (status : Nat) : FailureClass :=
  if 500 ≤ status ∧ status ≤ 599 then .serverError else .unexpected

/-- `_failure_class`. The cause of a deprecation is the `HttpError` it was mapped from. -/
def failureClass : CallError → FailureClass
  | raised (.quotaExceeded _) => .quota
  | raised (.apiDeprecated status _) => statusClass status
  | integration (.http failure) => statusClass failure.status
  | integration .timeout => .timeout
  | integration .connection => .connection
  | _ => .unexpected

end CallError

/-- `call` of `BaseAPIClient`, with so many retries. -/
def call {α : Type} (maxRetries : Nat) (attempt : Nat → Except ApiError α) : Except CallError α :=
  match Retries.retry ApiError.isTransient attempt maxRetries 0 with
  | .ok result => .ok result
  | .error error =>
    if error.isIntegration || error = .guardrailViolation then .error (.raised error)
    else .error (.integration error)

inductive StopReason where
  | exhausted
  | rowCap
  | fetchFailed
  deriving DecidableEq

/-- What `_page_through` returns. -/
structure RawRows where
  rows : List ApiRow
  stopReason : StopReason
  failureClass : Option FailureClass

/-- `_page_through`, with the places it asks for pages at. -/
def pageThrough (page : Nat → Nat → Except CallError (List ApiRow)) (rowLimit : Nat) :
    Nat → Nat → List ApiRow → List Nat × Except CallError RawRows
  | 0, _, collected => ([], .ok ⟨collected, .rowCap, none⟩)
  | left + 1, number, collected =>
    match page number collected.length with
    | .error error =>
      ([collected.length],
        if error.propagates then .error error
        else .ok ⟨collected, .fetchFailed, some error.failureClass⟩)
    | .ok rows =>
      if rows.length < rowLimit then
        ([collected.length], .ok ⟨collected ++ rows, .exhausted, none⟩)
      else
        let rest := pageThrough page rowLimit left (number + 1) (collected ++ rows)
        (collected.length :: rest.1, rest.2)

section Client

/-- What happens to the attempts at each page; `none` is an answer. -/
abbrev Failures := Nat → Nat → Option AttemptFailure

variable (unicode : UnicodeData) {dimensions : Nat} (report : Report dimensions)
  (maxRetries : Nat) (failures : Failures)

/-- `api_property_url`. -/
def apiPropertyUrl (propertyUrl : Text) : Text :=
  if "sc-domain:".toList.isPrefixOf (unicode.lower propertyUrl) then
    unicode.lower (rstrip (fun c => c = '/') propertyUrl)
  else if propertyUrl.getLast? = some '/' then propertyUrl
  else propertyUrl ++ ['/']

/-- The error of an attempt that fails. -/
def AttemptFailure.error (apiUrl : Text) : AttemptFailure → ApiError
  | http failure => raiseMappedHttpError failure apiUrl
  | rateLimitExceeded => .rateLimitExceeded
  | timeout => .timeout
  | connection => .connection
  | guardrailViolation => .guardrailViolation
  | other => .other

/-- An attempt of `_query_page`, with the rate limiter before it. -/
def queryPage (apiUrl : Text) (rowLimit startRow : Nat) :
    Option AttemptFailure → Except ApiError (List ApiRow)
  | some failure => .error (failure.error apiUrl)
  | none => .ok ((report.rows.drop startRow).take rowLimit)

/-- The pages of a fetch. -/
def fetchPages (apiUrl : Text) (rowLimit : Nat) : List Nat × Except CallError RawRows :=
  pageThrough (fun number startRow =>
    call maxRetries fun attempt =>
      queryPage report apiUrl rowLimit startRow (failures number attempt))
    rowLimit maxPages 0 []

/-- How a fetch fails. -/
inductive FetchError where
  | valueError (message : Text)
  | call (error : CallError)
  deriving DecidableEq

/-- `check_row_limit`. -/
def checkRowLimit (rowLimit : Nat) : Except FetchError Unit :=
  if 1 ≤ rowLimit ∧ rowLimit ≤ rowLimitMax then .ok ()
  else .error (.valueError ("row_limit must be between 1 and 25000, got ".toList ++ ofNat rowLimit))

/-- `GscPageMetrics` of a row. -/
structure PageMetrics where
  url : Text
  impressions : Nat
  clicks : Nat
  avgPosition : ℚ
  ctr : ℚ
  deriving DecidableEq

/-- `GscQueryRow`. -/
structure QueryRow where
  page : Text
  query : Text
  clicks : Nat
  impressions : Nat
  avgPosition : ℚ
  deriving DecidableEq

/-- A row of `page_metrics`; one without a key has none. -/
def pageMetric (row : ApiRow) : Option PageMetrics :=
  row.keys.head?.map fun url =>
    { url
      impressions := row.impressions
      clicks := row.clicks
      avgPosition := row.position
      ctr := min 1 (max 0 (if 0 < row.impressions then row.clicks / row.impressions else 0)) }

/-- `page_metrics`. -/
def pageMetrics (rows : List ApiRow) : List PageMetrics := rows.filterMap pageMetric

/-- A row of `query_rows`; one without both keys has none. -/
def queryRow (row : ApiRow) : Option QueryRow :=
  match row.keys with
  | page :: query :: _ =>
    some ⟨page, query, row.clicks, row.impressions, row.position⟩
  | _ => none

/-- `query_rows`. -/
def queryRows (rows : List ApiRow) : List QueryRow := rows.filterMap queryRow

/-- The two responses, but for the time: `GscAnalyticsResponse` counts its rows, and
`GscPageQueries` names the failure. -/
structure AnalyticsResponse where
  propertyUrl : Text
  startDate : Text
  endDate : Text
  rows : List PageMetrics
  rowsAvailable : Nat
  complete : Bool
  stopReason : StopReason

structure PageQueries where
  propertyUrl : Text
  startDate : Text
  endDate : Text
  rows : List QueryRow
  complete : Bool
  stopReason : StopReason
  failureClass : Option FailureClass

/-- What the two fetches have in common: the check, the pages, and a response made of them. -/
def fetch {ρ : Type} (propertyUrl : Text) (rowLimit : Nat) (respond : Text → RawRows → ρ) :
    List Nat × Except FetchError ρ :=
  match checkRowLimit rowLimit with
  | .error error => ([], .error error)
  | .ok () =>
    let apiUrl := apiPropertyUrl unicode propertyUrl
    let pages := fetchPages report maxRetries failures apiUrl rowLimit
    (pages.1,
      match pages.2 with
      | .error error => .error (.call error)
      | .ok raw => .ok (respond apiUrl raw))

/-- `fetch_analytics`, with the places it asks for pages at. -/
def fetchAnalytics (report : Report 1) (propertyUrl startDate endDate : Text) (rowLimit : Nat) :
    List Nat × Except FetchError AnalyticsResponse :=
  fetch unicode report maxRetries failures propertyUrl rowLimit fun propertyUrl raw =>
    let rows := pageMetrics raw.rows
    { propertyUrl, startDate, endDate, rows
      rowsAvailable := rows.length
      complete := raw.stopReason = .exhausted
      stopReason := raw.stopReason }

/-- `fetch_top_queries`. -/
def fetchTopQueries (report : Report 2) (propertyUrl startDate endDate : Text) (rowLimit : Nat) :
    List Nat × Except FetchError PageQueries :=
  fetch unicode report maxRetries failures propertyUrl rowLimit fun propertyUrl raw =>
    { propertyUrl, startDate, endDate
      rows := queryRows raw.rows
      complete := raw.stopReason = .exhausted
      stopReason := raw.stopReason
      failureClass := raw.failureClass }

end Client

/-! ## What a fetch promises -/

/-- A response without what is not about its rows. -/
structure Paged (ρ : Type) where
  rows : List ρ
  complete : Bool
  stopReason : StopReason

def AnalyticsResponse.paged (response : AnalyticsResponse) : Paged PageMetrics :=
  ⟨response.rows, response.complete, response.stopReason⟩

def PageQueries.paged (queries : PageQueries) : Paged QueryRow :=
  ⟨queries.rows, queries.complete, queries.stopReason⟩

/-- What was asked for, and a view of what was answered. -/
def viewed {σ ρ : Type} (view : σ → Paged ρ) (fetched : List Nat × Except FetchError σ) :
    List Nat × Except FetchError (Paged ρ) :=
  (fetched.1, fetched.2.map view)

/-- A 403 or a 404. -/
def AttemptFailure.isRefusal : AttemptFailure → Bool
  | http failure => failure.status = 403 || failure.status = 404
  | _ => false

section Promise

variable (maxRetries : Nat) (failures : Failures)

/-- An attempt whose failure is worth another. -/
def Retried (page number : Nat) : Prop :=
  ∃ failure, failures page number = some failure ∧ (failure.error []).isTransient = true

/-- The attempts made at a page, and the last of them. -/
def Made (page : Nat) : Nat → Prop := Retries.Made (Retried failures page) maxRetries

def Last (page : Nat) : Nat → Prop := Retries.Last (Retried failures page) maxRetries

/-- The page is answered, or fails after its retries. -/
def Answered (page : Nat) : Prop := ∃ number, Last maxRetries failures page number ∧
  failures page number = none

def FailsWith (page : Nat) (failure : AttemptFailure) : Prop :=
  ∃ number, Last maxRetries failures page number ∧ failures page number = some failure

/-- Some attempt at the page is refused. -/
def Refused (page : Nat) : Prop := ∃ number failure, Made maxRetries failures page number ∧
  failures page number = some failure ∧ failure.isRefusal = true

variable (rowLimit available : Nat)

/-- Every page before is answered and full. -/
def Reaches (page : Nat) : Prop :=
  ∀ earlier < page, Answered maxRetries failures earlier ∧ (earlier + 1) * rowLimit ≤ available

/-- The rows are the first of those that are served, once each and in order, the response says
whether that is all of them and why there are no more, and a refusal is no response. -/
structure PagesRight {ρ : Type} (served : List ApiRow) (parse : ApiRow → Option ρ)
    (fetched : List Nat × Except FetchError (Paged ρ)) : Prop where
  inOrder : ∀ response, fetched.2 = .ok response → ∃ count ≤ served.length,
    response.rows.map some = (served.take count).map parse
  complete : ∀ response, fetched.2 = .ok response → response.complete = true →
    response.rows.map some = served.map parse
  exhausted : ∀ response, fetched.2 = .ok response →
    (response.stopReason = .exhausted ↔ ∃ page < maxPages,
      Reaches maxRetries failures rowLimit served.length page ∧
        Answered maxRetries failures page ∧ served.length < (page + 1) * rowLimit)
  rowCap : ∀ response, fetched.2 = .ok response → (response.stopReason = .rowCap ↔
      Reaches maxRetries failures rowLimit served.length maxPages)
  fetchFailed : ∀ response, fetched.2 = .ok response →
    (response.stopReason = .fetchFailed ↔ ∃ page < maxPages,
      Reaches maxRetries failures rowLimit served.length page ∧
        ∃ failure, FailsWith maxRetries failures page failure)
  refused : ∀ page < maxPages, Reaches maxRetries failures rowLimit served.length page →
    Refused maxRetries failures page → ∃ error, fetched.2 = .error error
  bounded : fetched.1.length ≤ maxPages

/-- Where an attempt at a page that is reached is refused, the last attempt at a page that is
reached is, or violates a guardrail. -/
def RefusalsStand : Prop :=
  (∃ page < maxPages, Reaches maxRetries failures rowLimit available page ∧
      Refused maxRetries failures page) →
    ∃ page < maxPages, Reaches maxRetries failures rowLimit available page ∧
      ∃ failure, FailsWith maxRetries failures page failure ∧
        (failure.isRefusal = true ∨ failure = .guardrailViolation)

end Promise

/-! ## Pages -/

section Calls

variable {dimensions : Nat} {report : Report dimensions} {maxRetries : Nat} {failures : Failures}
  {apiUrl : Text} {rowLimit startRow page number : Nat} {failure : AttemptFailure}

theorem isTransient_error (failure : AttemptFailure) (apiUrl : Text) :
    (failure.error apiUrl).isTransient = (failure.error []).isTransient := by
  cases failure with
  | http failure =>
    rw [AttemptFailure.error, AttemptFailure.error, raiseMappedHttpError, raiseMappedHttpError]
    split
    · rfl
    · rfl
  | _ => rfl

theorem failsAgain_queryPage (report : Report dimensions) (failures : Failures) (apiUrl : Text)
    (rowLimit startRow page : Nat) :
    Retries.FailsAgain ApiError.isTransient
      (fun attempt => queryPage report apiUrl rowLimit startRow (failures page attempt)) =
    Retried failures page := by
  funext number
  apply propext
  rw [Retries.FailsAgain, Retried]
  cases happens : failures page number with
  | none =>
    constructor
    · rintro ⟨error, ⟨⟩, _⟩
    · rintro ⟨failure, ⟨⟩, _⟩
  | some failure =>
    constructor
    · rintro ⟨error, ⟨⟩, worth⟩
      exact ⟨failure, rfl, isTransient_error failure apiUrl ▸ worth⟩
    · rintro ⟨failure', ⟨⟩, worth⟩
      exact ⟨_, rfl, (isTransient_error failure apiUrl).symm ▸ worth⟩

/-- What `call` makes of the error of the last attempt. -/
def escaping (error : ApiError) : CallError :=
  if error.isIntegration || error = .guardrailViolation then .raised error else .integration error

theorem call_of_answered (answered : Answered maxRetries failures page) :
    (call maxRetries fun attempt =>
      queryPage report apiUrl rowLimit startRow (failures page attempt)) =
        .ok ((report.rows.drop startRow).take rowLimit) := by
  obtain ⟨number, last, happens⟩ := answered
  rw [Last, ← failsAgain_queryPage report failures apiUrl rowLimit startRow page] at last
  rw [call, Retries.retry_of_last last, happens]
  rfl

theorem call_of_failsWith (fails : FailsWith maxRetries failures page failure) :
    (call maxRetries fun attempt =>
      queryPage report apiUrl rowLimit startRow (failures page attempt)) =
        .error (escaping (failure.error apiUrl)) := by
  obtain ⟨number, last, happens⟩ := fails
  rw [Last, ← failsAgain_queryPage report failures apiUrl rowLimit startRow page] at last
  rw [call, Retries.retry_of_last last, happens, queryPage, escaping]
  dsimp only
  split
  · rfl
  · rfl

theorem answered_or_failsWith (maxRetries : Nat) (failures : Failures) (page : Nat) :
    Answered maxRetries failures page ∨ ∃ failure, FailsWith maxRetries failures page failure := by
  obtain ⟨number, last, _⟩ := Retries.exists_last ApiError.isTransient
    (fun attempt => queryPage (⟨[], by simp⟩ : Report 0) [] 0 0 (failures page attempt)) maxRetries
  rw [failsAgain_queryPage] at last
  cases happens : failures page number with
  | none => exact .inl ⟨number, last, happens⟩
  | some failure => exact .inr ⟨failure, number, last, happens⟩

theorem Answered.not_failsWith (answered : Answered maxRetries failures page) :
    ¬ FailsWith maxRetries failures page failure := by
  rintro ⟨number', last', happens'⟩
  obtain ⟨number, last, happens⟩ := answered
  rw [last'.unique last, happens] at happens'
  cases happens'

theorem FailsWith.unique {failure' : AttemptFailure}
    (fails : FailsWith maxRetries failures page failure)
    (fails' : FailsWith maxRetries failures page failure') : failure = failure' := by
  obtain ⟨number, last, happens⟩ := fails
  obtain ⟨number', last', happens'⟩ := fails'
  rw [last'.unique last, happens] at happens'
  exact Option.some.inj happens'

theorem propagates_escaping : (escaping (failure.error apiUrl)).propagates = true ↔
    failure.isRefusal = true ∨ failure = .guardrailViolation := by
  cases failure with
  | http failure =>
    rw [AttemptFailure.error, raiseMappedHttpError, AttemptFailure.isRefusal,
      Bool.or_eq_true, decide_eq_true_eq, decide_eq_true_eq]
    split_ifs <;> simp_all [escaping, ApiError.isIntegration, CallError.propagates]
  | _ => simp [escaping, AttemptFailure.error, AttemptFailure.isRefusal, ApiError.isIntegration,
      CallError.propagates]

end Calls

section Pages

variable {dimensions : Nat} {report : Report dimensions} {maxRetries : Nat} {failures : Failures}
  {apiUrl : Text} {rowLimit left number available : Nat}

theorem Reaches.zero : Reaches maxRetries failures rowLimit available 0 :=
  fun _ less => absurd less (Nat.not_lt_zero _)

theorem Reaches.succ (reaches : Reaches maxRetries failures rowLimit available number)
    (answered : Answered maxRetries failures number) (full : (number + 1) * rowLimit ≤ available) :
    Reaches maxRetries failures rowLimit available (number + 1) := by
  intro earlier less
  rcases Nat.lt_succ_iff_lt_or_eq.mp less with less | rfl
  · exact reaches earlier less
  · exact ⟨answered, full⟩

theorem Reaches.le (reaches : Reaches maxRetries failures rowLimit available number) :
    number * rowLimit ≤ available := by
  cases number with
  | zero =>
    rw [Nat.zero_mul]
    exact Nat.zero_le _
  | succ earlier => exact (reaches earlier (Nat.lt_succ_self _)).2

/-- Where the pages end, and with what. -/
inductive Ends (served : List ApiRow) (maxRetries : Nat) (failures : Failures) (apiUrl : Text)
    (rowLimit cap : Nat) : Except CallError RawRows → Prop
  | capped (reaches : Reaches maxRetries failures rowLimit served.length cap) :
      Ends served maxRetries failures apiUrl rowLimit cap
        (.ok ⟨served.take (cap * rowLimit), .rowCap, none⟩)
  | short (page : Nat) (less : page < cap)
      (reaches : Reaches maxRetries failures rowLimit served.length page)
      (answered : Answered maxRetries failures page)
      (few : served.length < (page + 1) * rowLimit) :
      Ends served maxRetries failures apiUrl rowLimit cap (.ok ⟨served, .exhausted, none⟩)
  | failed (page : Nat) (failure : AttemptFailure) (less : page < cap)
      (reaches : Reaches maxRetries failures rowLimit served.length page)
      (fails : FailsWith maxRetries failures page failure)
      (kept : ¬ (failure.isRefusal = true ∨ failure = .guardrailViolation)) :
      Ends served maxRetries failures apiUrl rowLimit cap
        (.ok ⟨served.take (page * rowLimit), .fetchFailed,
          some (escaping (failure.error apiUrl)).failureClass⟩)
  | raised (page : Nat) (failure : AttemptFailure) (less : page < cap)
      (reaches : Reaches maxRetries failures rowLimit served.length page)
      (fails : FailsWith maxRetries failures page failure)
      (stands : failure.isRefusal = true ∨ failure = .guardrailViolation) :
      Ends served maxRetries failures apiUrl rowLimit cap
        (.error (escaping (failure.error apiUrl)))

theorem pageThrough_spec (report : Report dimensions) (apiUrl : Text) (left : Nat)
    (reaches : Reaches maxRetries failures rowLimit report.rows.length number) :
    let pages := pageThrough (fun number startRow => call maxRetries fun attempt =>
        queryPage report apiUrl rowLimit startRow (failures number attempt)) rowLimit left number
      (report.rows.take (number * rowLimit))
    Ends report.rows maxRetries failures apiUrl rowLimit (number + left) pages.2 ∧
      pages.1.length ≤ left := by
  induction left generalizing number with
  | zero => exact ⟨.capped reaches, Nat.le_refl 0⟩
  | succ left ih =>
    have read : (report.rows.take (number * rowLimit)).length = number * rowLimit := by
      rw [List.length_take, Nat.min_eq_left reaches.le]
    have within : number < number + (left + 1) := by omega
    dsimp only
    unfold pageThrough
    obtain answered | ⟨failure, fails⟩ := answered_or_failsWith maxRetries failures number
    · rw [call_of_answered answered, read]
      dsimp only
      have more : report.rows.take (number * rowLimit) ++
          (report.rows.drop (number * rowLimit)).take rowLimit =
            report.rows.take ((number + 1) * rowLimit) := by
        rw [Nat.succ_mul, List.take_add]
      rw [more]
      split
      · next few =>
        rw [List.length_take, List.length_drop] at few
        have few : report.rows.length < (number + 1) * rowLimit := by
          rw [Nat.succ_mul]
          omega
        rw [List.take_of_length_le (Nat.le_of_lt few)]
        exact ⟨.short number within reaches answered few, Nat.succ_le_succ (Nat.zero_le _)⟩
      · next full =>
        rw [List.length_take, List.length_drop] at full
        have full : (number + 1) * rowLimit ≤ report.rows.length := by
          have before := reaches.le
          rw [Nat.succ_mul]
          omega
        obtain ⟨ends, bound⟩ := ih (reaches.succ answered full)
        rw [Nat.add_right_comm] at ends
        exact ⟨ends, Nat.succ_le_succ bound⟩
    · rw [call_of_failsWith fails]
      dsimp only
      refine ⟨?_, Nat.succ_le_succ (Nat.zero_le _)⟩
      split
      · next stands =>
        have stands := propagates_escaping.mp stands
        exact .raised number failure within reaches fails stands
      · next kept =>
        rw [propagates_escaping] at kept
        exact .failed number failure within reaches fails kept

theorem Reaches.le_of_few {page page' : Nat}
    (reaches : Reaches maxRetries failures rowLimit available page')
    (few : available < (page + 1) * rowLimit) : page' ≤ page := by
  by_contra more
  have full := (reaches page (Nat.lt_of_not_le more)).2
  omega

theorem Reaches.le_of_failsWith {page page' : Nat} {failure : AttemptFailure}
    (reaches : Reaches maxRetries failures rowLimit available page')
    (fails : FailsWith maxRetries failures page failure) : page' ≤ page := by
  by_contra more
  exact (reaches page (Nat.lt_of_not_le more)).1.not_failsWith fails

end Pages

/-! ## Fetches -/

section Fetches

variable {dimensions : Nat} {report : Report dimensions} {maxRetries : Nat} {failures : Failures}
  {apiUrl : Text} {rowLimit : Nat} {ρ : Type} {parse : ApiRow → Option ρ}
  {result : Except CallError RawRows} {requests : List Nat}

def pagedOf (parse : ApiRow → Option ρ) (raw : RawRows) : Paged ρ :=
  ⟨raw.rows.filterMap parse, raw.stopReason = .exhausted, raw.stopReason⟩

def answerOf (parse : ApiRow → Option ρ) : Except CallError RawRows → Except FetchError (Paged ρ)
  | .error error => .error (.call error)
  | .ok raw => .ok (pagedOf parse raw)

theorem map_some_filterMap {rows : List ApiRow} (parsed : ∀ row ∈ rows, (parse row).isSome) :
    (rows.filterMap parse).map some = rows.map parse := by
  induction rows with
  | nil => rfl
  | cons row rows ih =>
    obtain ⟨value, same⟩ := Option.isSome_iff_exists.mp (parsed row List.mem_cons_self)
    rw [List.filterMap_cons_some same, List.map_cons, List.map_cons, same,
      ih fun row mem => parsed row (List.mem_cons_of_mem _ mem)]

theorem pagesRight_of_ends
    (ends : Ends report.rows maxRetries failures apiUrl rowLimit maxPages result)
    (bounded : requests.length ≤ maxPages)
    (parsed : ∀ row ∈ report.rows, (parse row).isSome)
    (refused : ∀ page < maxPages, Reaches maxRetries failures rowLimit report.rows.length page →
      Refused maxRetries failures page → ∃ error, answerOf parse result = .error error) :
    PagesRight maxRetries failures rowLimit report.rows parse
      (requests, answerOf parse result) := by
  have taken (count : Nat) : ((report.rows.take count).filterMap parse).map some =
      (report.rows.take count).map parse :=
    map_some_filterMap fun row mem => parsed row (List.mem_of_mem_take mem)
  cases ends with
  | capped reaches =>
    refine ⟨?_, ?_, ?_, ?_, ?_, refused, bounded⟩
    · rintro _ ⟨⟩
      exact ⟨_, reaches.le, taken _⟩
    · rintro _ ⟨⟩ never
      cases never
    · rintro _ ⟨⟩
      constructor
      · intro never
        cases never
      · rintro ⟨page, less, _, _, few⟩
        exact absurd (reaches.le_of_few few) (Nat.not_le_of_lt less)
    · rintro _ ⟨⟩
      exact ⟨fun _ => reaches, fun _ => rfl⟩
    · rintro _ ⟨⟩
      constructor
      · intro never
        cases never
      · rintro ⟨page, less, _, failure, fails⟩
        exact absurd (reaches.le_of_failsWith fails) (Nat.not_le_of_lt less)
  | short page less reaches answered few =>
    refine ⟨?_, ?_, ?_, ?_, ?_, refused, bounded⟩
    · rintro _ ⟨⟩
      refine ⟨report.rows.length, Nat.le_refl _, ?_⟩
      rw [List.take_length]
      exact map_some_filterMap parsed
    · rintro _ ⟨⟩ _
      exact map_some_filterMap parsed
    · rintro _ ⟨⟩
      exact ⟨fun _ => ⟨page, less, reaches, answered, few⟩, fun _ => rfl⟩
    · rintro _ ⟨⟩
      constructor
      · intro never
        cases never
      · intro capped
        exact absurd (capped.le_of_few few) (Nat.not_le_of_lt less)
    · rintro _ ⟨⟩
      constructor
      · intro never
        cases never
      · rintro ⟨page', _, reaches', failure, fails⟩
        obtain rfl := Nat.le_antisymm (reaches'.le_of_few few) (reaches.le_of_failsWith fails)
        exact absurd fails answered.not_failsWith
  | failed page failure less reaches fails kept =>
    refine ⟨?_, ?_, ?_, ?_, ?_, refused, bounded⟩
    · rintro _ ⟨⟩
      exact ⟨_, reaches.le, taken _⟩
    · rintro _ ⟨⟩ never
      cases never
    · rintro _ ⟨⟩
      constructor
      · intro never
        cases never
      · rintro ⟨page', _, reaches', answered, few⟩
        obtain rfl := Nat.le_antisymm (reaches'.le_of_failsWith fails) (reaches.le_of_few few)
        exact absurd fails answered.not_failsWith
    · rintro _ ⟨⟩
      constructor
      · intro never
        cases never
      · intro capped
        exact absurd (capped.le_of_failsWith fails) (Nat.not_le_of_lt less)
    · rintro _ ⟨⟩
      exact ⟨fun _ => ⟨page, less, reaches, failure, fails⟩, fun _ => rfl⟩
  | raised page failure less reaches fails stands =>
    constructor
    case refused => exact refused
    case bounded => exact bounded
    all_goals
      rintro _ ⟨⟩

theorem answerOf_eq_error
    (ends : Ends report.rows maxRetries failures apiUrl rowLimit maxPages result) :
    (∃ error, answerOf parse result = .error error) ↔
      ∃ page < maxPages, Reaches maxRetries failures rowLimit report.rows.length page ∧
        ∃ failure, FailsWith maxRetries failures page failure ∧
          (failure.isRefusal = true ∨ failure = .guardrailViolation) := by
  have never {raw : RawRows} : ¬ ∃ error, answerOf parse (.ok raw) = .error error := by
    rintro ⟨error, ⟨⟩⟩
  cases ends with
  | capped reaches =>
    refine iff_of_false never ?_
    rintro ⟨page, less, _, failure, fails, _⟩
    exact absurd (reaches.le_of_failsWith fails) (Nat.not_le_of_lt less)
  | short page less reaches answered few =>
    refine iff_of_false never ?_
    rintro ⟨page', _, reaches', failure, fails, _⟩
    obtain rfl := Nat.le_antisymm (reaches'.le_of_few few) (reaches.le_of_failsWith fails)
    exact answered.not_failsWith fails
  | failed page failure less reaches fails kept =>
    refine iff_of_false never ?_
    rintro ⟨page', _, reaches', failure', fails', stands⟩
    obtain rfl :=
      Nat.le_antisymm (reaches'.le_of_failsWith fails) (reaches.le_of_failsWith fails')
    exact kept (fails'.unique fails ▸ stands)
  | raised page failure less reaches fails stands =>
    exact iff_of_true ⟨_, rfl⟩ ⟨page, less, reaches, failure, fails, stands⟩

theorem pagesRight_iff_of_ends
    (ends : Ends report.rows maxRetries failures apiUrl rowLimit maxPages result)
    (bounded : requests.length ≤ maxPages)
    (parsed : ∀ row ∈ report.rows, (parse row).isSome) :
    PagesRight maxRetries failures rowLimit report.rows parse (requests, answerOf parse result) ↔
      RefusalsStand maxRetries failures rowLimit report.rows.length := by
  constructor
  · rintro right ⟨page, less, reaches, refused⟩
    exact (answerOf_eq_error ends).mp (right.refused page less reaches refused)
  · intro stands
    refine pagesRight_of_ends ends bounded parsed ?_
    intro page less reaches refused
    exact (answerOf_eq_error ends).mpr (stands ⟨page, less, reaches, refused⟩)

/-- A page size that the API takes. -/
abbrev RowLimit := {rowLimit : Nat // 1 ≤ rowLimit ∧ rowLimit ≤ rowLimitMax}

theorem viewed_fetch {σ : Type} (unicode : UnicodeData) (report : Report dimensions)
    (maxRetries : Nat) (failures : Failures) (propertyUrl : Text) (rowLimit : RowLimit)
    {respond : Text → RawRows → σ} {view : σ → Paged ρ}
    (views : ∀ url raw, view (respond url raw) = pagedOf parse raw) :
    let pages := fetchPages report maxRetries failures (apiPropertyUrl unicode propertyUrl) rowLimit
    viewed view (fetch unicode report maxRetries failures propertyUrl rowLimit respond) =
      (pages.1, answerOf parse pages.2) := by
  dsimp only
  rw [viewed, fetch, checkRowLimit, if_pos rowLimit.2]
  dsimp only
  cases (fetchPages report maxRetries failures (apiPropertyUrl unicode propertyUrl) rowLimit).2 with
  | error error => rfl
  | ok raw => rw [Except.map, views, answerOf]

theorem pagesRight_iff {σ : Type} (unicode : UnicodeData) (report : Report dimensions)
    (maxRetries : Nat) (failures : Failures) (propertyUrl : Text) (rowLimit : RowLimit)
    {respond : Text → RawRows → σ} {view : σ → Paged ρ}
    (views : ∀ url raw, view (respond url raw) = pagedOf parse raw)
    (parsed : ∀ row ∈ report.rows, (parse row).isSome) :
    PagesRight maxRetries failures rowLimit report.rows parse
        (viewed view (fetch unicode report maxRetries failures propertyUrl rowLimit respond)) ↔
      RefusalsStand maxRetries failures rowLimit report.rows.length := by
  have start : Reaches maxRetries failures rowLimit report.rows.length 0 := Reaches.zero
  obtain ⟨ends, bounded⟩ :=
    pageThrough_spec report (apiPropertyUrl unicode propertyUrl) maxPages start
  rw [Nat.zero_mul, List.take_zero, Nat.zero_add] at ends
  rw [Nat.zero_mul, List.take_zero] at bounded
  rw [viewed_fetch unicode report maxRetries failures propertyUrl rowLimit views]
  exact pagesRight_iff_of_ends ends bounded parsed

end Fetches

/-- **The two fetches lose and repeat nothing exactly when refusals stand.** -/
theorem fetches_pagesRight_iff (unicode : UnicodeData) (maxRetries : Nat) (failures : Failures)
    (propertyUrl startDate endDate : Text) (rowLimit : RowLimit) :
    (∀ report : Report 1,
      PagesRight maxRetries failures rowLimit report.rows pageMetric (viewed AnalyticsResponse.paged
          (fetchAnalytics unicode maxRetries failures report propertyUrl startDate endDate
            rowLimit)) ↔
        RefusalsStand maxRetries failures rowLimit report.rows.length) ∧
      ∀ report : Report 2,
        PagesRight maxRetries failures rowLimit report.rows queryRow (viewed PageQueries.paged
            (fetchTopQueries unicode maxRetries failures report propertyUrl startDate endDate
              rowLimit)) ↔
          RefusalsStand maxRetries failures rowLimit report.rows.length := by
  constructor
  · intro report
    apply pagesRight_iff
    · intro url raw
      rfl
    · intro row mem
      have one := report.keyed row mem
      obtain ⟨url, keys⟩ := List.length_eq_one_iff.mp one
      rw [pageMetric, keys]
      rfl
  · intro report
    apply pagesRight_iff
    · intro url raw
      rfl
    · intro row mem
      have two := report.keyed row mem
      obtain ⟨page, query, keys⟩ := List.length_eq_two.mp two
      rw [queryRow, keys]
      rfl

/-- One row, which is answered at the second attempt. -/
def oneRow : Report 1 := ⟨[⟨["https://a.test/".toList], 1, 2, 1, by decide⟩], by decide⟩

def refusedOnce : Failures := fun _ attempt =>
  if attempt = 0 then some (.http ⟨403, "Forbidden".toList, none⟩) else none

theorem not_pagesRight_refusedOnce : ¬ PagesRight 3 refusedOnce 10 oneRow.rows pageMetric
    (viewed AnalyticsResponse.paged
      (fetchAnalytics .ascii 3 refusedOnce oneRow "https://a.test/".toList "2026-01-01".toList
        "2026-01-31".toList 10)) := by
  intro right
  have made : Made 3 refusedOnce 0 0 := ⟨Nat.zero_le _, fun _ less => absurd less (by omega)⟩
  obtain ⟨error, fails⟩ := right.refused 0 (by decide) Reaches.zero ⟨0, _, made, rfl, rfl⟩
  cases fails

end Rankuno.PagedFetch
