import Rankuno.HttpFetcher.Fetcher

/-!
# Every hop is guarded

Each request of a chain is for a URL that was validated for it, and, but for those of
a robots.txt, one that the rules in the cache permit. A redirect or a result is taken
only from a peer that may be one. The synchronous and the asynchronous path are the
same program.
-/

namespace Rankuno

open Python Python.Text

namespace HttpFetcher

variable (world : HttpWorld) (fetcher : HttpFetcher)

theorem afetchHops_eq (robotsFor : SafeUrl → Fetch RobotsTxt) (isRobots : Bool) (url : Text)
    (hops : Nat) (chain : List Text) (statuses : List Nat) (current : Text) :
    afetchHops world fetcher robotsFor isRobots url hops chain statuses current =
      fetchHops world fetcher (fun current => do
        let safe ← validate world fetcher current
        if isRobots || !fetcher.respectRobots then return (safe, none)
        else
          let robots ← robotsFor safe
          enforceRobots world fetcher safe robots
          return (safe, some robots)) isRobots url hops chain statuses current := by
  induction hops generalizing chain statuses current with
  | zero => rfl
  | succ hops ih =>
    rw [afetchHops, fetchHops]
    congr 1
    funext _
    rw [Effect.bind_assoc]
    congr 1
    funext safe
    simp only [ih]
    cases isRobots <;> cases fetcher.respectRobots
    · rfl
    · simp only [Bool.not_false, Bool.and_self, if_true, Bool.not_true, Bool.or_self,
        Bool.false_eq_true, if_false, Effect.bind_assoc]
      rfl
    · rfl
    · rfl

theorem robotsForAsync_eq : robotsForAsync world fetcher = robotsForSync world fetcher := by
  funext safe
  rw [robotsForAsync, robotsForSync]
  congr 1
  funext url
  rw [afetchHops_eq]
  rfl

theorem afetchChain_eq : afetchChain world fetcher = fetchChain world fetcher := by
  funext isRobots url
  rw [afetchChain, fetchChain, afetchHops_eq, robotsForAsync_eq]
  rfl

/-- What a request is sent for. -/
structure Guarded (get : SentGet) : Prop where
  validated : ∃ asked,
    fetcher.policy.validate world.unicode (world.resolve asked) get.source = .ok get.safe
  short : get.source.length ≤ maxFetchUrlLength
  permitted : get.isRobots = false → fetcher.respectRobots = true →
    ∃ rules path, get.rules = some rules ∧ world.rawPath get.url = .ok path ∧
      rules.canFetch world.unicode (if path = [] then ['/'] else path) fetcher.userAgent = true

/-- The response to a request is one that may be used: its peer, if it reports one, is
among the addresses resolved for the hop, or public. -/
def Accepted (get : SentGet) (response : HttpResponse) : Prop :=
  get.answer = .ok response ∧ ∀ peer, response.peer = some peer →
    peer ∈ get.safe.resolvedIps ∨ describeIpBlock world.unicode peer = none

def statusOf (get : SentGet) : Option Nat := get.answer.toOption.map HttpResponse.status

/-- The requests of a chain, with the hops that were left and those before it. -/
structure HopsTaken (left : Nat) (chain : List Text) (statuses : List Nat) (own : List SentGet)
    (outcome : Except FetchError FetchResult) : Prop where
  bounded : own.length ≤ left
  followed : ∀ get ∈ own.dropLast, ∃ response, Accepted world get response ∧
    300 ≤ response.status ∧ response.status < 400
  returned : ∀ result, outcome = .ok result → ∃ hops last response,
    own = hops ++ [last] ∧ Accepted world last response ∧
      result.redirectChain = chain ++ hops.map SentGet.url ∧
        result.redirectStatuses.map some = statuses.map some ++ hops.map statusOf ∧
          result.finalUrl = last.url ∧ result.statusCode = response.status

/-- A chain, from the state before it to the state after it. -/
def ChainGuarded (isRobots : Bool) (s : FetcherState) (outcome : Except FetchError FetchResult)
    (t : FetcherState) : Prop :=
  ∃ sent, t.sent = s.sent ++ sent ∧ (∀ get ∈ sent, Guarded world fetcher get) ∧
    HopsTaken world (fetcher.maxRedirects + 1).toNat [] []
      (sent.filter fun get => get.isRobots = isRobots) outcome

/-- What `_prepare` does before a hop: its own requests are of the other kind, and the
URL it gives is one the hop may be for. -/
def Prepares (isRobots : Bool) (nestedIs : SentGet → Prop)
    (prepare : Text → Fetch (SafeUrl × Option RobotsTxt)) : Prop :=
  ∀ current s, (prepare current).Ensures s fun r t => ∃ nested, t.sent = s.sent ++ nested ∧
    (∀ get ∈ nested, Guarded world fetcher get ∧ nestedIs get ∧ get.isRobots ≠ isRobots) ∧
      ∀ prepared, r = .ok prepared →
        (∃ asked, fetcher.policy.validate world.unicode (world.resolve asked) current =
          .ok prepared.1) ∧
        (isRobots = false → fetcher.respectRobots = true →
          ∃ rules path, t.robots.get prepared.1.host = some rules ∧
            world.rawPath prepared.1.url = .ok path ∧
              rules.canFetch world.unicode (if path = [] then ['/'] else path)
                fetcher.userAgent = true)

/-- What the loop sends from a state on, and how it ends. -/
def LoopEnds (isRobots : Bool) (nestedIs : SentGet → Prop) (left : Nat) (chain : List Text)
    (statuses : List Nat) (s : FetcherState) (outcome : Except FetchError FetchResult)
    (t : FetcherState) : Prop :=
  ∃ sent, t.sent = s.sent ++ sent ∧
    (∀ get ∈ sent, Guarded world fetcher get ∧ (get.isRobots = isRobots ∨ nestedIs get)) ∧
      HopsTaken world left chain statuses (sent.filter fun get => get.isRobots = isRobots) outcome

section Steps

variable {world fetcher} {s : FetcherState}

/-- The step sends nothing, and leaves the cache. -/
def Quiet (s t : FetcherState) : Prop := t.sent = s.sent ∧ t.robots = s.robots

theorem ensures_ask : ask.Ensures s fun _ t => Quiet s t := ⟨rfl, rfl⟩

theorem ensures_validate {url : Text} : (validate world fetcher url).Ensures s fun r t =>
    Quiet s t ∧ ∀ safe, r = .ok safe → ∃ asked,
      fetcher.policy.validate world.unicode (world.resolve asked) url = .ok safe := by
  rw [validate]
  refine Effect.ensures_bind ensures_ask (fun asked t quiet => ?_) fun e t quiet =>
    ⟨quiet, fun safe ok => by cases ok⟩
  cases valid : fetcher.policy.validate world.unicode (world.resolve asked) url with
  | ok safe =>
    refine ⟨quiet, fun other same => ⟨asked, ?_⟩⟩
    cases same
    exact valid
  | error e =>
    cases e with
    | unsafeUrl e => exact ⟨quiet, fun other same => by cases same⟩
    | escaped message => exact ⟨quiet, fun other same => by cases same⟩

theorem ensures_refuseOverlong {url current : Text} :
    (refuseOverlong url current).Ensures s fun r t =>
      t = s ∧ (r = .ok () → current.length ≤ maxFetchUrlLength) := by
  rw [refuseOverlong]
  split
  · exact ⟨rfl, fun ok => by cases ok⟩
  · next short => exact ⟨rfl, fun _ => Nat.not_lt.mp short⟩

variable {safe : SafeUrl}

theorem ensures_throttle {robots : Option RobotsTxt} :
    (throttle world fetcher safe robots).Ensures s fun _ t => Quiet s t := by
  rw [throttle]
  exact Effect.ensures_bind ensures_ask (fun asked t quiet => quiet) fun e t quiet => quiet

theorem ensures_send {current : Text} {isRobots : Bool} :
    (send world current safe isRobots).Ensures s fun r t =>
      t.robots = s.robots ∧
        t.sent = s.sent ++ [⟨current, safe, isRobots, s.robots.get safe.host, r⟩] :=
  ⟨rfl, rfl⟩

theorem ensures_verifyPeer {response : HttpResponse} :
    (verifyPeer world response safe).Ensures s fun r t =>
      t = s ∧ (r = .ok () → ∀ peer, response.peer = some peer →
        peer ∈ safe.resolvedIps ∨ describeIpBlock world.unicode peer = none) := by
  rw [verifyPeer]
  split
  · next allowed =>
    refine ⟨rfl, fun _ peer reported => ?_⟩
    rw [peerAllowed, reported, Option.all_some, Bool.or_eq_true] at allowed
    exact allowed.imp of_decide_eq_true of_decide_eq_true
  · exact ⟨rfl, fun ok => by cases ok⟩

theorem ensures_redirectTarget {response : HttpResponse} :
    (redirectTarget world response safe).Ensures s fun r t =>
      t = s ∧ ∀ location, r = .ok (some location) →
        300 ≤ response.status ∧ response.status < 400 := by
  rw [redirectTarget]
  split
  · next redirects =>
    cases response.header "location".toList with
    | none => exact ⟨rfl, fun location ok => by cases ok⟩
    | some location =>
      simp only
      split
      · exact ⟨rfl, fun location ok => by cases ok⟩
      · have joins : (Effect.lift (world.join safe.url location)).Ensures s
            fun _ t => t = s := rfl
        exact Effect.ensures_bind joins (fun target t same => ⟨same, fun _ _ => redirects⟩)
          fun e t same => ⟨same, fun _ ok => by cases ok⟩
  · exact ⟨rfl, fun location ok => by cases ok⟩

theorem ensures_buildResult {url : Text} {response : HttpResponse}
    {chain : List Text} {statuses : List Nat} :
    (buildResult world fetcher url safe response chain statuses).Ensures s fun r t =>
      t = s ∧ ∀ result, r = .ok result → result.redirectChain = chain ∧
        result.redirectStatuses = statuses ∧ result.finalUrl = safe.url ∧
          result.statusCode = response.status := by
  rw [buildResult]
  have decodes : (decodeBody world (response.content.take fetcher.maxBodyBytes)
      response.encoding).Ensures s fun _ t => t = s := by
    rw [decodeBody]
    cases world.decode _ _ with
    | text body => exact rfl
    | expected => exact rfl
    | escaped message => exact rfl
  refine Effect.ensures_bind decodes (fun body t same => ?_) fun e t same => ?_
  · subst same
    split
    · exact ⟨rfl, fun result ok => by cases ok⟩
    · refine ⟨rfl, fun result ok => ?_⟩
      cases ok
      exact ⟨rfl, rfl, rfl, rfl⟩
  · exact ⟨same, fun result ok => by cases ok⟩

theorem ensures_enforceRobots {robots : RobotsTxt} :
    (enforceRobots world fetcher safe robots).Ensures s fun r t =>
      t = s ∧ (r = .ok () → ∃ path, world.rawPath safe.url = .ok path ∧
        robots.canFetch world.unicode (if path = [] then ['/'] else path)
          fetcher.userAgent = true) := by
  have reads : (Effect.lift (world.rawPath safe.url)).Ensures s fun r t =>
      r = world.rawPath safe.url ∧ t = s := ⟨rfl, rfl⟩
  rw [enforceRobots]
  refine Effect.ensures_bind reads (fun path t ends => ?_) fun e t ends =>
    ⟨ends.2, fun ok => by cases ok⟩
  obtain ⟨found, rfl⟩ := ends
  by_cases permits : robots.canFetch world.unicode (if path = [] then ['/'] else path)
      fetcher.userAgent = true
  · simp only [if_pos permits]
    exact ⟨rfl, fun _ => ⟨path, found.symm, permits⟩⟩
  · simp only [if_neg permits]
    exact ⟨rfl, fun ok => by cases ok⟩

end Steps

section Hops

variable {world fetcher} {left : Nat} {chain : List Text} {statuses : List Nat}
  {own : List SentGet} {get : SentGet} {response : HttpResponse}
  {outcome : Except FetchError FetchResult}

theorem HopsTaken.of_error (e : FetchError) :
    HopsTaken world left chain statuses [] (.error e) where
  bounded := Nat.zero_le _
  followed := fun _ mem => absurd mem List.not_mem_nil
  returned := fun _ ok => by cases ok

theorem HopsTaken.of_last_error (e : FetchError) :
    HopsTaken world (left + 1) chain statuses [get] (.error e) where
  bounded := Nat.succ_le_succ (Nat.zero_le _)
  followed := fun _ mem => absurd mem List.not_mem_nil
  returned := fun _ ok => by cases ok

theorem HopsTaken.of_last (accepted : Accepted world get response)
    (built : ∀ result, outcome = .ok result → result.redirectChain = chain ∧
      result.redirectStatuses = statuses ∧ result.finalUrl = get.url ∧
        result.statusCode = response.status) :
    HopsTaken world (left + 1) chain statuses [get] outcome where
  bounded := Nat.succ_le_succ (Nat.zero_le _)
  followed := fun _ mem => absurd mem List.not_mem_nil
  returned := by
    intro result ok
    obtain ⟨sameChain, sameStatuses, final, status⟩ := built result ok
    refine ⟨[], get, response, rfl, accepted, ?_, ?_, final, status⟩
    · rw [sameChain, List.map_nil, List.append_nil]
    · rw [sameStatuses, List.map_nil, List.append_nil]

theorem HopsTaken.cons (accepted : Accepted world get response)
    (redirects : 300 ≤ response.status ∧ response.status < 400)
    (rest : HopsTaken world left (chain ++ [get.url]) (statuses ++ [response.status]) own outcome) :
    HopsTaken world (left + 1) chain statuses (get :: own) outcome where
  bounded := Nat.succ_le_succ rest.bounded
  followed := by
    intro other mem
    cases own with
    | nil => cases mem
    | cons next own =>
      rcases List.mem_cons.mp mem with rfl | later
      · exact ⟨response, accepted, redirects⟩
      · exact rest.followed other later
  returned := by
    intro result ok
    obtain ⟨hops, last, final, rfl, taken, sameChain, sameStatuses, url, status⟩ :=
      rest.returned result ok
    have answered : statusOf get = some response.status := by
      rw [statusOf, accepted.1]
      rfl
    refine ⟨get :: hops, last, final, rfl, taken, ?_, ?_, url, status⟩
    · rw [sameChain, List.map_cons, List.append_assoc]
      rfl
    · rw [sameStatuses, List.map_append, List.map_cons, List.append_assoc, List.map_cons, answered]
      rfl

theorem filter_nested {isRobots : Bool} {nested : List SentGet}
    (other : ∀ get ∈ nested, get.isRobots ≠ isRobots) :
    (nested.filter fun get => get.isRobots = isRobots) = [] := by
  refine List.filter_eq_nil_iff.mpr fun get mem => ?_
  rw [decide_eq_true_eq]
  exact other get mem

variable {isRobots : Bool} {nestedIs : SentGet → Prop} {s t u : FetcherState}

theorem LoopEnds.after_nested {nested : List SentGet} (sent : t.sent = s.sent ++ nested)
    (each : ∀ get ∈ nested, Guarded world fetcher get ∧ nestedIs get ∧ get.isRobots ≠ isRobots)
    (rest : LoopEnds world fetcher isRobots nestedIs left chain statuses t outcome u) :
    LoopEnds world fetcher isRobots nestedIs left chain statuses s outcome u := by
  obtain ⟨later, sentLater, eachLater, taken⟩ := rest
  refine ⟨nested ++ later, by rw [sentLater, sent, List.append_assoc], ?_, ?_⟩
  · intro get mem
    rcases List.mem_append.mp mem with before | after
    · exact ⟨(each get before).1, .inr (each get before).2.1⟩
    · exact eachLater get after
  · rw [List.filter_append, filter_nested fun get mem => (each get mem).2.2, List.nil_append]
    exact taken

theorem LoopEnds.of_error (e : FetchError) (sent : t.sent = s.sent) :
    LoopEnds world fetcher isRobots nestedIs left chain statuses s (.error e) t :=
  ⟨[], by rw [sent, List.append_nil], fun _ mem => absurd mem List.not_mem_nil,
    HopsTaken.of_error e⟩

theorem LoopEnds.of_get (sent : t.sent = s.sent ++ [get]) (guarded : Guarded world fetcher get)
    (kind : get.isRobots = isRobots)
    (taken : HopsTaken world left chain statuses [get] outcome) :
    LoopEnds world fetcher isRobots nestedIs left chain statuses s outcome t := by
  refine ⟨[get], sent, ?_, ?_⟩
  · intro other mem
    rw [List.mem_singleton.mp mem]
    exact ⟨guarded, .inl kind⟩
  · rw [List.filter_cons_of_pos (by simpa using kind), List.filter_nil]
    exact taken

theorem LoopEnds.cons (sent : t.sent = s.sent ++ [get]) (guarded : Guarded world fetcher get)
    (kind : get.isRobots = isRobots) (accepted : Accepted world get response)
    (redirects : 300 ≤ response.status ∧ response.status < 400)
    (rest : LoopEnds world fetcher isRobots nestedIs left (chain ++ [get.url])
      (statuses ++ [response.status]) t outcome u) :
    LoopEnds world fetcher isRobots nestedIs (left + 1) chain statuses s outcome u := by
  obtain ⟨later, sentLater, eachLater, taken⟩ := rest
  refine ⟨get :: later, by rw [sentLater, sent, List.append_assoc]; rfl, ?_, ?_⟩
  · intro other mem
    rcases List.mem_cons.mp mem with rfl | after
    · exact ⟨guarded, .inl kind⟩
    · exact eachLater other after
  · rw [List.filter_cons_of_pos (by simpa using kind)]
    exact HopsTaken.cons accepted redirects taken

theorem ensures_fetchHops {prepare : Text → Fetch (SafeUrl × Option RobotsTxt)}
    (prepares : Prepares world fetcher isRobots nestedIs prepare)
    (url current : Text) (s : FetcherState) :
    (fetchHops world fetcher prepare isRobots url left chain statuses current).Ensures s
      (LoopEnds world fetcher isRobots nestedIs left chain statuses s) := by
  induction left generalizing chain statuses current s with
  | zero =>
    refine ⟨[], (List.append_nil _).symm, fun _ mem => absurd mem List.not_mem_nil, ?_⟩
    exact HopsTaken.of_error _
  | succ left ih =>
    rw [fetchHops]
    refine Effect.ensures_bind ensures_refuseOverlong (fun _ t ends => ?_) fun e t ends =>
      .of_error e (by rw [ends.1])
    obtain ⟨rfl, short⟩ := ends
    refine Effect.ensures_bind (prepares current t) (fun prepared u ends => ?_) fun e u ends => ?_
    swap
    · obtain ⟨nested, sent, each, -⟩ := ends
      exact .after_nested sent each (.of_error e rfl)
    obtain ⟨nested, sent, each, ready⟩ := ends
    obtain ⟨validated, permitted⟩ := ready prepared rfl
    refine Effect.Ensures.mono ?_ fun r v ends => LoopEnds.after_nested sent each ends
    obtain ⟨safe, robots⟩ := prepared
    refine Effect.ensures_bind ensures_throttle (fun _ v quiet => ?_) fun e v quiet =>
      .of_error e quiet.1
    obtain ⟨sameSent, sameRobots⟩ := quiet
    have guarded : ∀ answer, Guarded world fetcher
        ⟨current, safe, isRobots, v.robots.get safe.host, answer⟩ := fun answer =>
      ⟨validated, short rfl, fun page respects => by
        obtain ⟨rules, path, cached, raw, permits⟩ := permitted page respects
        exact ⟨rules, path, sameRobots ▸ cached, raw, permits⟩⟩
    refine Effect.ensures_bind ensures_send (fun response w ends => ?_) fun e w ends =>
      .of_get (by rw [ends.2, sameSent]) (guarded _) rfl (.of_last_error e)
    obtain ⟨-, logged⟩ := ends
    rw [sameSent] at logged
    refine Effect.ensures_bind ensures_verifyPeer (fun _ x ends => ?_) fun e x ends =>
      .of_get ((congrArg FetcherState.sent ends.1).trans logged) (guarded _) rfl
        (.of_last_error e)
    obtain ⟨rfl, peers⟩ := ends
    have accepted : Accepted world
        ⟨current, safe, isRobots, v.robots.get safe.host, .ok response⟩ response :=
      ⟨rfl, peers rfl⟩
    refine Effect.ensures_bind ensures_redirectTarget (fun target y ends => ?_) fun e y ends =>
      .of_get ((congrArg FetcherState.sent ends.1).trans logged) (guarded _) rfl
        (.of_last_error e)
    obtain ⟨rfl, redirects⟩ := ends
    cases target with
    | none =>
      refine Effect.Ensures.mono ensures_buildResult fun r z ends => ?_
      exact .of_get ((congrArg FetcherState.sent ends.1).trans logged) (guarded _) rfl
        (.of_last accepted ends.2)
    | some location =>
      exact Effect.Ensures.mono (ih _ y) fun r z ends =>
        .cons logged (guarded _) rfl accepted (redirects location rfl) ends

theorem prepares_prepareRobots :
    Prepares world fetcher true (fun _ => False) (prepareRobots world fetcher) := by
  intro current s
  refine Effect.ensures_bind ensures_validate (fun safe t ends => ?_) fun e t ends => ?_
  · refine ⟨[], ends.1.1.trans (List.append_nil _).symm,
      fun _ mem => absurd mem List.not_mem_nil, ?_⟩
    intro prepared ok
    cases ok
    exact ⟨ends.2 safe rfl, fun page => by cases page⟩
  · exact ⟨[], ends.1.1.trans (List.append_nil _).symm,
      fun _ mem => absurd mem List.not_mem_nil, fun prepared ok => by cases ok⟩

theorem ensures_robotsForSync {safe : SafeUrl} :
    (robotsForSync world fetcher safe).Ensures s fun r t => ∃ nested, t.sent = s.sent ++ nested ∧
      (∀ get ∈ nested, Guarded world fetcher get ∧ get.isRobots = true) ∧
        ∀ rules, r = .ok rules → t.robots.get safe.host = some rules := by
  have reads : (Effect.read fun s : FetcherState => s.robots.get safe.host).Ensures s fun r t =>
      r = (.ok (s.robots.get safe.host) : Except FetchError _) ∧ t = s := ⟨rfl, rfl⟩
  rw [robotsForSync, robotsFrom]
  refine Effect.ensures_bind reads (fun cached t ends => ?_) fun e t ends => by cases ends.1
  obtain ⟨found, rfl⟩ := ends
  cases cached with
  | some cached =>
    refine ⟨[], (List.append_nil _).symm, fun _ mem => absurd mem List.not_mem_nil, ?_⟩
    intro rules ok
    cases ok
    exact (Except.ok.inj found).symm
  | none =>
    have fetches : (Effect.catching (do
        let result ← fetchHops world fetcher (prepareRobots world fetcher) true (robotsUrl safe)
          (fetcher.maxRedirects + 1).toNat [] [] (robotsUrl safe)
        return if result.ok then
            parseRobotsTxt world.unicode world.readFloat result.body
          else {}) unreachable).Ensures t fun _ u => ∃ nested, u.sent = t.sent ++ nested ∧
            ∀ get ∈ nested, Guarded world fetcher get ∧ get.isRobots = true := by
      have robotsOnly : ∀ r u, LoopEnds world fetcher true (fun _ => False)
          (fetcher.maxRedirects + 1).toNat [] [] t r u → ∃ nested, u.sent = t.sent ++ nested ∧
              ∀ get ∈ nested, Guarded world fetcher get ∧ get.isRobots = true := by
        rintro r u ⟨nested, sent, each, -⟩
        exact ⟨nested, sent, fun get mem =>
          ⟨(each get mem).1, (each get mem).2.resolve_right id⟩⟩
      refine Effect.ensures_catching ?_
      refine Effect.ensures_bind (ensures_fetchHops prepares_prepareRobots _ _ _)
        (fun result u ends => robotsOnly _ u ends) fun e u ends => ?_
      exact ⟨fun rules caught => robotsOnly _ u ends, fun uncaught => robotsOnly _ u ends⟩
    refine Effect.ensures_bind fetches (fun parsed u ends => ?_) fun e u ends => ?_
    · obtain ⟨nested, sent, each⟩ := ends
      refine ⟨nested, sent, each, fun rules ok => ?_⟩
      cases ok
      refine (Dict.get_alter (d := u.robots)).trans ?_
      rw [if_pos rfl]
    · obtain ⟨nested, sent, each⟩ := ends
      exact ⟨nested, sent, each, fun rules ok => by cases ok⟩

theorem prepares_prepare (isRobots : Bool) :
    Prepares world fetcher isRobots (fun get => get.isRobots = true)
      (prepare world fetcher isRobots) := by
  intro current s
  refine Effect.ensures_bind ensures_validate (fun safe t ends => ?_) fun e t ends => ?_
  swap
  · exact ⟨[], ends.1.1.trans (List.append_nil _).symm,
      fun _ mem => absurd mem List.not_mem_nil, fun prepared ok => by cases ok⟩
  obtain ⟨⟨sameSent, sameRobots⟩, validates⟩ := ends
  split
  · next exempt =>
    refine ⟨[], sameSent.trans (List.append_nil _).symm,
      fun _ mem => absurd mem List.not_mem_nil, ?_⟩
    intro prepared ok
    cases ok
    refine ⟨validates safe rfl, fun page respects => ?_⟩
    rw [page, respects] at exempt
    cases exempt
  · next asks =>
    have page : isRobots = false := by
      cases isRobots with
      | true => exact absurd rfl asks
      | false => rfl
    refine Effect.ensures_bind ensures_robotsForSync (fun robots u ends => ?_) fun e u ends => ?_
    · obtain ⟨nested, sent, each, cached⟩ := ends
      rw [sameSent] at sent
      have others : ∀ get ∈ nested, Guarded world fetcher get ∧ get.isRobots = true ∧
          get.isRobots ≠ isRobots := by
        intro get mem
        refine ⟨(each get mem).1, (each get mem).2, ?_⟩
        rw [(each get mem).2, page]
        decide
      refine Effect.ensures_bind ensures_enforceRobots (fun _ v ends => ?_) fun e v ends => ?_
      · obtain ⟨rfl, permits⟩ := ends
        refine ⟨nested, sent, others, fun prepared ok => ?_⟩
        cases ok
        obtain ⟨path, raw, permits⟩ := permits rfl
        exact ⟨validates safe rfl, fun _ _ => ⟨robots, path, cached robots rfl, raw, permits⟩⟩
      · obtain ⟨rfl, -⟩ := ends
        exact ⟨nested, sent, others, fun prepared ok => by cases ok⟩
    · obtain ⟨nested, sent, each, -⟩ := ends
      rw [sameSent] at sent
      refine ⟨nested, sent, fun get mem => ⟨(each get mem).1, (each get mem).2, ?_⟩,
        fun prepared ok => by cases ok⟩
      rw [(each get mem).2, page]
      decide

end Hops

end HttpFetcher

end Rankuno
