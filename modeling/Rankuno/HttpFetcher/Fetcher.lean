import Rankuno.Foundation.Effects
import Rankuno.HttpFetcher.Robots
import Rankuno.Python.Quote
import Rankuno.RateLimiter.TokenBucket
import Rankuno.UrlKeys.Hosts
import Rankuno.UrlSafety.Policy

/-!
# Fetching a page

`HttpFetcher` of `integrations/http_fetcher.py`: a chain of redirects in which every
hop is validated, asked of the robots rules and paced before it is requested, on a
synchronous and on an asynchronous path.

What is outside answers anew at every step: name resolution, the server, the rate
limiter. `httpx` reads and joins URLs, and decodes bodies.
-/

namespace Rankuno

open Python Python.Text
open scoped UrlKeys

def maxFetchUrlLength : Nat := 8192

/-- The exceptions of a fetch. -/
inductive FetchError where
  | unsafeUrl (e : UnsafeUrlError)
  /-- One that the policy's callers do not expect. -/
  | escaped (message : Text)
  | robotsDisallowed (url userAgent : Text)
  | integration (message : Text)
  /-- `httpx.HTTPError`. -/
  | http (message : Text)
  /-- `httpx.InvalidURL`. -/
  | invalidUrl (message : Text)
  | rateLimited (e : RateLimitExceededError)
  /-- A codec that knows no replacement. -/
  | undecodable (message : Text)
  /-- The result's own validation. -/
  | invalidStatus (status : Nat)
  deriving DecidableEq

/-- `httpx.Response`, with the names of its headers in lower case. -/
structure HttpResponse where
  status : Nat
  headers : List (Text × Text) := []
  content : List UInt8 := []
  encoding : Option Text := none
  /-- `_peer_address`. -/
  peer : Option Text := none
  deriving DecidableEq

def HttpResponse.header (response : HttpResponse) (name : Text) : Option Text :=
  (response.headers.find? fun header => header.1 = name).map Prod.snd

/-- How decoding a body ends: in a text, in an exception that is expected, or in
another one. -/
inductive Decoded where
  | text (body : Text)
  | expected
  | escaped (message : Text)

structure FetchResult where
  requestedUrl : Text
  finalUrl : Text
  statusCode : Nat
  contentType : Text
  body : Text
  headers : List (Text × Text)
  redirectChain : List Text
  redirectStatuses : List Nat
  peerAddress : Option Text
  truncated : Bool
  deriving DecidableEq

/-- `ok`. -/
def FetchResult.ok (result : FetchResult) : Bool :=
  200 ≤ result.statusCode && result.statusCode < 300

/-- What is outside of a fetcher. The answers at a step may depend on the step. -/
structure HttpWorld where
  unicode : UnicodeData
  readFloat : Text → Option ℚ
  resolve : Nat → Resolver
  /-- The response to a request, or the exception it raises. -/
  serve : Nat → Text → Except FetchError HttpResponse
  /-- `acquire` of the bucket of a host with a rate and a burst. -/
  acquire : Nat → Text → Nat → Nat → Except FetchError Unit
  /-- `httpx.URL(_).raw_path.decode()`. -/
  rawPath : Text → Except FetchError Text
  /-- `str(httpx.URL(_).join(_))`. -/
  join : Text → Text → Except FetchError Text
  /-- `bytes.decode(_, errors="replace")`. -/
  decode : Text → List UInt8 → Decoded

structure HttpFetcher where
  policy : UrlSafetyPolicy := {}
  userAgent : Text
  rateLimitRps : Option ℚ := none
  defaultRequestsPerMinute : Nat
  default_pos : 0 < defaultRequestsPerMinute
  respectRobots : Bool := true
  maxRedirects : Int := 5
  maxBodyBytes : Nat := 5 * 1024 * 1024
  serviceName : Text := "web.fetch".toList

/-- A request that was sent: the text its URL comes from, and what the fetcher's
cache held for the host when it was. -/
structure SentGet where
  source : Text
  safe : SafeUrl
  isRobots : Bool
  rules : Option RobotsTxt
  answer : Except FetchError HttpResponse
  deriving DecidableEq

def SentGet.url (get : SentGet) : Text := get.safe.url

/-- `_robots`, how often anything outside was asked, and the requests sent. -/
structure FetcherState where
  robots : Dict Text RobotsTxt := .empty
  asked : Nat := 0
  sent : List SentGet := []

abbrev Fetch (α : Type) := Effect FetcherState FetchError α

namespace HttpFetcher

variable (world : HttpWorld) (fetcher : HttpFetcher)

section Pacing

/-- `round` of a number that is not negative. -/
def roundHalfEven (q : ℚ) : Nat :=
  let rest := q - ⌊q⌋₊
  if rest < 1 / 2 ∨ rest = 1 / 2 ∧ ⌊q⌋₊ % 2 = 0 then ⌊q⌋₊ else ⌊q⌋₊ + 1

/-- `_host_burst`. -/
def hostBurst (rpm : Nat) : Nat := max 1 (roundHalfEven (rpm / 60))

/-- The rate a host is paced at that declares no delay. -/
def configuredRpm : Nat :=
  match fetcher.rateLimitRps with
  | none => fetcher.defaultRequestsPerMinute
  | some rps => if rps = 0 then fetcher.defaultRequestsPerMinute else max 1 ⌊rps * 60⌋₊

/-- `_host_rpm`, with the delay the rules declare. -/
def hostRpm (delay : Option ℚ) : Nat :=
  match delay with
  | none => fetcher.configuredRpm
  | some delay =>
    if delay = 0 then fetcher.configuredRpm
    else min fetcher.configuredRpm (max 1 ⌊60 / delay⌋₊)

end Pacing

section Steps

/-- Something outside is asked once more. -/
def ask : Fetch Nat := do
  let asked ← Effect.read FetcherState.asked
  Effect.update fun s => { s with asked := s.asked + 1 }
  return asked

/-- `self._policy.validate`. -/
def validate (url : Text) : Fetch SafeUrl := do
  let asked ← ask
  match fetcher.policy.validate world.unicode (world.resolve asked) url with
  | .ok safe => return safe
  | .error (.unsafeUrl e) => Effect.raise (.unsafeUrl e)
  | .error (.escaped message) => Effect.raise (.escaped message)

/-- `_refuse_overlong`. -/
def refuseOverlong (requested current : Text) : Fetch Unit :=
  if maxFetchUrlLength < current.length then
    Effect.raise (.unsafeUrl ⟨current.take 200,
      "longer than ".toList ++ ofNat maxFetchUrlLength ++ " characters (reached from '".toList ++
        requested.take 200 ++ "')".toList⟩)
  else return ()

/-- `_throttle_sync` and `_throttle_async`. -/
def throttle (safe : SafeUrl) (robots : Option RobotsTxt) : Fetch Unit := do
  let delay := robots.bind fun robots => robots.crawlDelay world.unicode fetcher.userAgent
  let rpm := fetcher.hostRpm delay
  let asked ← ask
  Effect.lift (world.acquire asked safe.host rpm (hostBurst rpm))

/-- A `get` of the client. -/
def send (current : Text) (safe : SafeUrl) (isRobots : Bool) : Fetch HttpResponse := do
  let asked ← ask
  let answer := world.serve asked safe.url
  Effect.update fun s =>
    { s with sent := s.sent ++ [⟨current, safe, isRobots, s.robots.get safe.host, answer⟩] }
  Effect.lift answer

/-- The peer is none that the response is refused from. -/
def peerAllowed (unicode : UnicodeData) (safe : SafeUrl) (response : HttpResponse) : Bool :=
  response.peer.all fun peer =>
    peer ∈ safe.resolvedIps || describeIpBlock unicode peer = none

/-- `_verify_peer`. -/
def verifyPeer (response : HttpResponse) (safe : SafeUrl) : Fetch Unit :=
  if peerAllowed world.unicode safe response then return ()
  else
    let peer := response.peer.getD []
    Effect.raise (.unsafeUrl ⟨safe.url, "connected to unvalidated address ".toList ++ peer ++
      " — ".toList ++ (describeIpBlock world.unicode peer).getD []⟩)

/-- `_redirect_target`. -/
def redirectTarget (response : HttpResponse) (safe : SafeUrl) : Fetch (Option Text) :=
  if 300 ≤ response.status ∧ response.status < 400 then
    match response.header "location".toList with
    | none => return none
    | some location =>
      if location = [] then return none
      else do
        let target ← Effect.lift (world.join safe.url location)
        return some target
  else return none

/-- The body of a response as text. -/
def decodeBody (raw : List UInt8) (encoding : Option Text) : Fetch Text :=
  let encoding := if encoding.getD [] = [] then "utf-8".toList else encoding.getD []
  match world.decode encoding raw with
  | .text body => return body
  | .expected => return Utf8.decodeReplacing raw
  | .escaped message => Effect.raise (.undecodable message)

/-- `_build_result`, without the time it took. -/
def buildResult (requested : Text) (safe : SafeUrl) (response : HttpResponse)
    (chain : List Text) (statuses : List Nat) : Fetch FetchResult := do
  let body ← decodeBody world (response.content.take fetcher.maxBodyBytes) response.encoding
  if response.status < 100 ∨ 599 < response.status then
    Effect.raise (.invalidStatus response.status)
  else
    return {
      requestedUrl := requested
      finalUrl := safe.url
      statusCode := response.status
      contentType := world.unicode.lower (strip isSpace
        (partition ';' ((response.header "content-type".toList).getD [])).1)
      body := body
      headers := response.headers
      redirectChain := chain
      redirectStatuses := statuses
      peerAddress := response.peer
      truncated := fetcher.maxBodyBytes < response.content.length }

/-- `_enforce_robots`. -/
def enforceRobots (safe : SafeUrl) (robots : RobotsTxt) : Fetch Unit := do
  let rawPath ← Effect.lift (world.rawPath safe.url)
  let path := if rawPath = [] then ['/'] else rawPath
  if robots.canFetch world.unicode path fetcher.userAgent then return ()
  else Effect.raise (.robotsDisallowed safe.url fetcher.userAgent)

/-- Where the robots rules of a host are. -/
def robotsUrl (safe : SafeUrl) : Text :=
  safe.scheme ++ "://".toList ++ safe.host ++ [':'] ++ ofNat safe.port ++ "/robots.txt".toList

/-- What an unreachable file comes to: the rules there are none of. -/
def unreachable : FetchError → Option RobotsTxt
  | .unsafeUrl _ | .integration _ | .http _ => some {}
  | _ => none

/-- `_robots_for_sync` and `_robots_for_async`, given the chain that fetches the file. -/
def robotsFrom (chain : Text → Fetch FetchResult) (safe : SafeUrl) : Fetch RobotsTxt := do
  match ← Effect.read fun s => s.robots.get safe.host with
  | some cached => return cached
  | none =>
    let parsed ← Effect.catching (do
        let result ← chain (robotsUrl safe)
        return if result.ok then parseRobotsTxt world.unicode world.readFloat result.body else {})
      unreachable
    Effect.update fun s =>
      { s with robots := s.robots.alter safe.host parsed fun _ => parsed }
    return parsed

def tooManyRedirects (url : Text) : FetchError :=
  .integration ("too many redirects from '".toList ++ url ++ ['\''])

end Steps

section Sync

/-- The loop of `_fetch_chain`, given `_prepare`, with the hops that are left. -/
def fetchHops (prepare : Text → Fetch (SafeUrl × Option RobotsTxt)) (isRobots : Bool)
    (url : Text) : Nat → List Text → List Nat → Text → Fetch FetchResult
  | 0, _, _, _ => Effect.raise (tooManyRedirects url)
  | hops + 1, chain, statuses, current => do
      refuseOverlong url current
      let (safe, robots) ← prepare current
      throttle world fetcher safe robots
      let response ← send world current safe isRobots
      verifyPeer world response safe
      match ← redirectTarget world response safe with
      | none => buildResult world fetcher url safe response chain statuses
      | some location =>
        fetchHops prepare isRobots url hops (chain ++ [safe.url])
          (statuses ++ [response.status]) location

/-- `_prepare` of a request for a robots.txt. -/
def prepareRobots (url : Text) : Fetch (SafeUrl × Option RobotsTxt) := do
  let safe ← validate world fetcher url
  return (safe, none)

/-- `_robots_for_sync`. -/
def robotsForSync : SafeUrl → Fetch RobotsTxt :=
  robotsFrom world fun url =>
    fetchHops world fetcher (prepareRobots world fetcher) true url
      (fetcher.maxRedirects + 1).toNat [] [] url

/-- `_prepare`. -/
def prepare (isRobots : Bool) (url : Text) : Fetch (SafeUrl × Option RobotsTxt) := do
  let safe ← validate world fetcher url
  if isRobots || !fetcher.respectRobots then return (safe, none)
  else
    let robots ← robotsForSync world fetcher safe
    enforceRobots world fetcher safe robots
    return (safe, some robots)

/-- `_fetch_chain`. -/
def fetchChain (isRobots : Bool) (url : Text) : Fetch FetchResult :=
  fetchHops world fetcher (prepare world fetcher isRobots) isRobots url
    (fetcher.maxRedirects + 1).toNat [] [] url

end Sync

section Async

/-- The loop of `_afetch_chain`, given `_robots_for_async`, with the hops that are
left. -/
def afetchHops (robotsFor : SafeUrl → Fetch RobotsTxt) (isRobots : Bool) (url : Text) :
    Nat → List Text → List Nat → Text → Fetch FetchResult
  | 0, _, _, _ => Effect.raise (tooManyRedirects url)
  | hops + 1, chain, statuses, current => do
      refuseOverlong url current
      let safe ← validate world fetcher current
      let robots ←
        if !isRobots && fetcher.respectRobots then do
          let robots ← robotsFor safe
          enforceRobots world fetcher safe robots
          pure (some robots)
        else pure none
      throttle world fetcher safe robots
      let response ← send world current safe isRobots
      verifyPeer world response safe
      match ← redirectTarget world response safe with
      | none => buildResult world fetcher url safe response chain statuses
      | some location =>
        afetchHops robotsFor isRobots url hops (chain ++ [safe.url])
          (statuses ++ [response.status]) location

/-- `_robots_for_async`. Its own chain asks for no rules. -/
def robotsForAsync : SafeUrl → Fetch RobotsTxt :=
  robotsFrom world fun url =>
    afetchHops world fetcher (fun _ => pure {}) true url
      (fetcher.maxRedirects + 1).toNat [] [] url

/-- `_afetch_chain`. -/
def afetchChain (isRobots : Bool) (url : Text) : Fetch FetchResult :=
  afetchHops world fetcher (robotsForAsync world fetcher) isRobots url
    (fetcher.maxRedirects + 1).toNat [] [] url

end Async

end HttpFetcher

end Rankuno
