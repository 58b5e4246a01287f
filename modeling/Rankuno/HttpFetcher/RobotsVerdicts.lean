import Rankuno.Foundation.LongestMatch
import Rankuno.HttpFetcher.RobotsLines
import Rankuno.HttpFetcher.RobotsPatterns
import Rankuno.Python.Lines
import Rankuno.UrlKeys.Hosts

/-!
# The verdict of a robots.txt

`can_fetch` on a file of records against what RFC 9309 says of them: the rules of all
records that carry the most specific token decide together. The parser reads the
records back one by one, and `group_for` takes the first that carries the token. The
rules of the later ones are not looked at, which shows exactly where they overrule the
first.
-/

namespace Rankuno

open Python Python.Text
open scoped UrlKeys

/-- `str.lower` of ASCII text. -/
def LowersAscii (unicode : UnicodeData) : Prop :=
  ∀ s, isAscii s = true → unicode.lower s = s.map Char.toLower

/-- A text that is read back from behind a field name. -/
def ReadBack (value : Text) : Prop := '#' ∉ value ∧ OneLine value ∧ strip isSpace value = value

/-- Agents and the rules for them. A `Disallow` without a pattern restricts nothing. -/
structure RobotsRecord where
  agents : List Text
  rules : List RobotsRule
  somebody : agents ≠ []
  something : rules ≠ []
  agents_read : ∀ token ∈ agents, token ≠ [] ∧ ReadBack token
  patterns_read : ∀ rule ∈ rules, ReadBack rule.pattern ∧ rule.pattern.length ≤ maxPatternLength

namespace RobotsRecord

def agentLine (token : Text) : Text := "User-agent".toList ++ ": ".toList ++ token

def ruleLine (rule : RobotsRule) : Text :=
  (if rule.allow then "Allow".toList else "Disallow".toList) ++ ": ".toList ++ rule.pattern

def lines (record : RobotsRecord) : List Text :=
  record.agents.map agentLine ++ record.rules.map ruleLine

/-- The tokens, without regard to case. -/
def tokens (unicode : UnicodeData) (record : RobotsRecord) : List Text :=
  record.agents.map unicode.lower

end RobotsRecord

/-- A file that the parser reads to its end. -/
structure RobotsFile where
  records : List RobotsRecord
  short : (records.flatMap RobotsRecord.lines).length ≤ maxRobotsLines

def RobotsFile.text (file : RobotsFile) : Text :=
  (file.records.flatMap RobotsRecord.lines).flatMap fun line => line ++ ['\n']

/-! ## What the standard says -/

/-- A token that one of the lists has and the crawler's name begins with. -/
def NamedBy (tokens : List (List Text)) (name token : Text) : Prop :=
  token ≠ ['*'] ∧ token.isPrefixOf name = true ∧ ∃ own ∈ tokens, token ∈ own

/-- The most specific token that the name begins with, or `*` if there is none. -/
def Governs (tokens : List (List Text)) (name token : Text) : Prop :=
  NamedBy tokens name token ∧ (∀ other, NamedBy tokens name other → other.length ≤ token.length) ∨
    token = ['*'] ∧ (∃ own ∈ tokens, token ∈ own) ∧ ∀ other, ¬NamedBy tokens name other

namespace RobotsRule

/-- The rule says something about the path. -/
def Restricts (path : Text) (rule : RobotsRule) : Prop :=
  rule.pattern ≠ [] ∧ rule.applies path = true

/-- The longest of the rules that match decides, and an `Allow` before a `Disallow`. -/
def Permit (rules : List RobotsRule) (path : Text) : Prop :=
  LongestMatch.Permits (Restricts path) specificity allow rules

/-- The further rules would change what the first say of the path. -/
def Overruled (rules more : List RobotsRule) (path : Text) : Prop :=
  LongestMatch.Overrules (Restricts path) specificity allow rules more

end RobotsRule

section Standard

variable (unicode : UnicodeData)

def rulesFor (records : List RobotsRecord) (token : Text) : List RobotsRule :=
  (records.filter fun record => token ∈ record.tokens unicode).flatMap RobotsRecord.rules

/-- The verdict of RFC 9309. -/
def RfcPermits (records : List RobotsRecord) (path userAgent : Text) : Prop :=
  ∀ token, Governs (records.map (RobotsRecord.tokens unicode)) (unicode.lower userAgent) token →
    RobotsRule.Permit (rulesFor unicode records token) path

/-- The first record with the token that governs the crawler is overruled by the later
ones with it. -/
def LaterGroupOverrules (records : List RobotsRecord) (path userAgent : Text) : Prop :=
  ∃ token record after,
    Governs (records.map (RobotsRecord.tokens unicode)) (unicode.lower userAgent) token ∧
      records.dropWhile (fun record => token ∉ record.tokens unicode) = record :: after ∧
      RobotsRule.Overruled record.rules (rulesFor unicode after token) path

end Standard

/-! ## Reading a file back -/

section Reading

variable {unicode : UnicodeData} {readFloat : Text → Option ℚ} {name value : Text}

theorem strip_value (read : ReadBack value) :
    strip isSpace (rstrip isSpace (' ' :: value)) = value := by
  have stripped := read.2.2
  cases value with
  | nil => rfl
  | cons c value =>
    have kept : rstrip isSpace (' ' :: c :: value) = ' ' :: c :: value := by
      refine rstrip_eq_self fun d last => ?_
      rw [List.getLast?_cons_cons] at last
      exact last_strip (p := isSpace) (s := c :: value) (stripped.symm ▸ last)
    rw [kept]
    exact Eq.trans rfl stripped

theorem readDirective_field (plain : '#' ∉ name ∧ ':' ∉ name ∧ strip isSpace name = name)
    (filled : name ≠ []) (read : ReadBack value) :
    readDirective unicode readFloat (name ++ ": ".toList ++ value) =
      directiveOf readFloat (unicode.lower name) value := by
  have uncommented : '#' ∉ name ++ ": ".toList ++ value := by
    simp [plain.1, read.1]
  have shape : name ++ ": ".toList ++ value = name ++ ':' :: ' ' :: value := by simp
  have first : lstrip isSpace (name ++ ':' :: ' ' :: value) = name ++ ':' :: ' ' :: value := by
    obtain ⟨c, rest, rfl⟩ := List.exists_cons_of_ne_nil filled
    have stays := (first_strip (p := isSpace) plain.2.2).1
    exact List.dropWhile_cons_of_neg (Bool.eq_false_iff.mp stays)
  have stays : isSpace ':' = false := by decide
  rw [readDirective, partition_of_notMem uncommented, shape]
  dsimp only
  rw [strip, first, rstrip_append_cons stays, partition_append_cons plain.2.1]
  dsimp only
  rw [plain.2.2, strip_value read]

theorem readDirective_agentLine (lowers : LowersAscii unicode) (read : ReadBack value) :
    readDirective unicode readFloat (RobotsRecord.agentLine value) = some (.agent value) := by
  have plain : '#' ∉ "User-agent".toList ∧ ':' ∉ "User-agent".toList ∧
      strip isSpace "User-agent".toList = "User-agent".toList := by decide
  have lowered : unicode.lower "User-agent".toList = "user-agent".toList :=
    lowers _ (by decide)
  have filled : "User-agent".toList ≠ [] := by decide
  refine (readDirective_field plain filled read).trans ?_
  rw [lowered]
  exact if_pos rfl

theorem directiveOf_rule {rule : RobotsRule} (short : rule.pattern.length ≤ maxPatternLength) :
    directiveOf readFloat (if rule.allow then "allow".toList else "disallow".toList) rule.pattern =
      if rule.pattern = [] then some .noted else some (.rule rule) := by
  obtain ⟨allow, pattern⟩ := rule
  have agents : ∀ allow : Bool, (if allow then "allow".toList else "disallow".toList) ≠
      "user-agent".toList := by decide
  have sitemaps : ∀ allow : Bool, (if allow then "allow".toList else "disallow".toList) ≠
      "sitemap".toList := by decide
  have rules : ∀ allow : Bool, (if allow then "allow".toList else "disallow".toList) =
      "allow".toList ∨ (if allow then "allow".toList else "disallow".toList) =
        "disallow".toList := by decide
  have kind : ∀ allow : Bool, decide ((if allow then "allow".toList else "disallow".toList) =
      "allow".toList) = allow := by decide
  have long : ¬maxPatternLength < pattern.length := Nat.not_lt.mpr short
  rw [directiveOf, if_neg (agents allow), if_neg (sitemaps allow), if_pos (rules allow), kind allow]
  simp only [long, or_false]

theorem readDirective_ruleLine (lowers : LowersAscii unicode) {rule : RobotsRule}
    (read : ReadBack rule.pattern) (short : rule.pattern.length ≤ maxPatternLength) :
    readDirective unicode readFloat (RobotsRecord.ruleLine rule) =
      if rule.pattern = [] then some .noted else some (.rule rule) := by
  have plain : ∀ allow : Bool, '#' ∉ (if allow then "Allow".toList else "Disallow".toList) ∧
        ':' ∉ (if allow then "Allow".toList else "Disallow".toList) ∧
        strip isSpace (if allow then "Allow".toList else "Disallow".toList) =
          if allow then "Allow".toList else "Disallow".toList := by decide
  have filled : ∀ allow : Bool, (if allow then "Allow".toList else "Disallow".toList) ≠ [] := by
    decide
  have lowered : unicode.lower (if rule.allow then "Allow".toList else "Disallow".toList) =
      if rule.allow then "allow".toList else "disallow".toList := by
    have ascii : ∀ allow : Bool, isAscii (if allow then "Allow".toList else "Disallow".toList) =
        true := by decide
    have cases : ∀ allow : Bool, (if allow then "Allow".toList else "Disallow".toList).map
        Char.toLower = if allow then "allow".toList else "disallow".toList := by decide
    rw [lowers _ (ascii rule.allow), cases]
  rw [RobotsRecord.ruleLine, readDirective_field (plain rule.allow) (filled rule.allow) read,
    lowered, directiveOf_rule short]

theorem splitlines_flatMap {lines : List Text} (whole : ∀ line ∈ lines, OneLine line) :
    splitlines (lines.flatMap fun line => line ++ ['\n']) = lines := by
  induction lines with
  | nil => rfl
  | cons line lines ih =>
    rw [List.forall_mem_cons] at whole
    have cut : (line :: lines).flatMap (fun line => line ++ ['\n']) =
        line ++ '\n' :: lines.flatMap fun line => line ++ ['\n'] := by simp
    rw [cut, splitlines_append_lineEnd whole.1 (by decide)]
    exact congrArg (line :: ·) (ih whole.2)

namespace RobotsRecord

/-- What the lines of a record ask of the parser. -/
def directives (record : RobotsRecord) : List RobotsDirective :=
  record.agents.map .agent ++
    record.rules.map fun rule => if rule.pattern = [] then .noted else .rule rule

/-- The group a record is read as. -/
def group (unicode : UnicodeData) (record : RobotsRecord) : RobotsGroup where
  userAgents := record.tokens unicode
  rules := record.rules.filter fun rule => rule.pattern ≠ []

theorem oneLine_of_mem {record : RobotsRecord} {line : Text} (mem : line ∈ record.lines) :
    OneLine line := by
  have name : ∀ head : Text, OneLine head → ∀ value, OneLine value →
      OneLine (head ++ ": ".toList ++ value) := by
    intro head whole value read c listed
    simp only [List.mem_append] at listed
    rcases listed with (listed | listed) | listed
    · exact whole c listed
    · exact (show OneLine ": ".toList by decide) c listed
    · exact read c listed
  rcases List.mem_append.mp mem with mem | mem
  · obtain ⟨token, listed, rfl⟩ := List.mem_map.mp mem
    exact name _ (by decide) token (record.agents_read token listed).2.2.1
  · obtain ⟨rule, listed, rfl⟩ := List.mem_map.mp mem
    have heads : ∀ allow : Bool,
        OneLine (if allow then "Allow".toList else "Disallow".toList) := by decide
    exact name _ (heads rule.allow) rule.pattern (record.patterns_read rule listed).1.2.1

theorem filterMap_lines (lowers : LowersAscii unicode) (record : RobotsRecord) :
    record.lines.filterMap (readDirective unicode readFloat) = record.directives := by
  rw [lines, directives, List.filterMap_append]
  congr 1
  · rw [List.filterMap_map, ← List.filterMap_eq_map]
    refine List.filterMap_congr fun token listed => ?_
    exact readDirective_agentLine lowers (record.agents_read token listed).2
  · rw [List.filterMap_map, ← List.filterMap_eq_map]
    refine List.filterMap_congr fun rule listed => ?_
    obtain ⟨read, short⟩ := record.patterns_read rule listed
    refine (readDirective_ruleLine lowers read short).trans ?_
    rw [Function.comp_apply]
    split
    · rfl
    · rfl

end RobotsRecord

namespace RobotsParse

variable {s : RobotsParse}

theorem obeyAll_agents (accepting : s.acceptingAgents = true) {agents : List Text}
    (filled : ∀ token ∈ agents, token ≠ []) :
    s.obeyAll unicode (agents.map .agent) =
      { s with pendingAgents := s.pendingAgents ++ agents.map unicode.lower } := by
  induction agents generalizing s with
  | nil =>
    rw [List.map_nil, List.map_nil, List.append_nil]
    rfl
  | cons token agents ih =>
    rw [List.forall_mem_cons] at filled
    have one : s.obey unicode (.agent token) =
        { s with pendingAgents := s.pendingAgents ++ [unicode.lower token] } := by
      rw [obey, if_pos accepting, if_neg filled.1]
    have rest := @ih { s with pendingAgents := s.pendingAgents ++ [unicode.lower token] }
      accepting filled.2
    rw [List.map_cons, obeyAll_cons, one, rest]
    simp only [List.map_cons, List.append_assoc, List.singleton_append]

theorem obeyAll_rules (s : RobotsParse) (rules : List RobotsRule) (something : rules ≠ []) :
    s.obeyAll unicode (rules.map fun rule => if rule.pattern = [] then .noted else .rule rule) =
      { s with
        acceptingAgents := false
        rules := s.rules ++ rules.filter fun rule => rule.pattern ≠ [] } := by
  induction rules generalizing s with
  | nil => exact absurd rfl something
  | cons rule rules ih =>
    have one : s.obey unicode (if rule.pattern = [] then .noted else .rule rule) =
        { s with
          acceptingAgents := false
          rules := s.rules ++ [rule].filter fun rule => rule.pattern ≠ [] } := by
      split
      · next blank => simp [obey, blank]
      · next filled => simp [obey, filled]
    rw [List.map_cons, obeyAll_cons, one]
    cases rules with
    | nil => rfl
    | cons next rules =>
      have split : (rule :: next :: rules).filter (fun rule => rule.pattern ≠ []) =
          [rule].filter (fun rule => rule.pattern ≠ []) ++
            (next :: rules).filter fun rule => rule.pattern ≠ [] :=
        List.filter_append [rule] (next :: rules)
      rw [ih _ (List.cons_ne_nil next rules), split, List.append_assoc]

variable (unicode) in
theorem obeyAll_record (closed : s.acceptingAgents = false) (record : RobotsRecord) :
    (s.obeyAll unicode record.directives).acceptingAgents = false ∧
      (s.obeyAll unicode record.directives).flush.groups =
        s.flush.groups ++ [record.group unicode] := by
  have read := record.agents_read
  have named : record.tokens unicode ≠ [] := by simp [RobotsRecord.tokens, record.somebody]
  have agents : s.obeyAll unicode (record.agents.map .agent) =
      { s.flush with acceptingAgents := true, pendingAgents := record.tokens unicode } := by
    rw [RobotsRecord.tokens]
    cases shape : record.agents with
    | nil => exact absurd shape record.somebody
    | cons token agents =>
      rw [shape, List.forall_mem_cons] at read
      have begun : s.obey unicode (.agent token) =
          { s.flush with acceptingAgents := true, pendingAgents := [unicode.lower token] } := by
        rw [obey, closed, if_neg Bool.false_ne_true, if_neg read.1.1]
        rfl
      have rest := @obeyAll_agents unicode
        { s.flush with acceptingAgents := true, pendingAgents := [unicode.lower token] } rfl
        agents fun token listed => (read.2 token listed).1
      rw [List.map_cons, obeyAll_cons, begun, rest]
      rfl
  rw [RobotsRecord.directives, obeyAll_append, agents, obeyAll_rules _ _ record.something]
  refine ⟨rfl, ?_⟩
  rw [groups_flush_of_pending named]
  rfl

theorem groups_records (closed : s.acceptingAgents = false) (records : List RobotsRecord) :
    (s.obeyAll unicode (records.flatMap RobotsRecord.directives)).finish.groups =
      s.flush.groups ++ records.map (RobotsRecord.group unicode) := by
  induction records generalizing s with
  | nil => exact (List.append_nil _).symm
  | cons record records ih =>
    obtain ⟨after, groups⟩ := obeyAll_record unicode closed record
    rw [List.flatMap_cons, obeyAll_append, ih after, groups, List.map_cons, List.append_assoc,
      List.singleton_append]

end RobotsParse

variable (readFloat) in
theorem groups_of_file (lowers : LowersAscii unicode) (file : RobotsFile) :
    (parseRobotsTxt unicode readFloat file.text).groups =
      file.records.map (RobotsRecord.group unicode) := by
  have whole : ∀ line ∈ file.records.flatMap RobotsRecord.lines, OneLine line := by
    intro line mem
    obtain ⟨record, -, mem⟩ := List.mem_flatMap.mp mem
    exact RobotsRecord.oneLine_of_mem mem
  have unmarked : lstrip (fun c => c = '\ufeff') file.text = file.text := by
    obtain ⟨records, short⟩ := file
    cases records with
    | nil => rfl
    | cons record records =>
      have first : ∃ line more, record.lines = ('U' :: line) :: more := by
        rw [RobotsRecord.lines]
        cases shape : record.agents with
        | nil => exact absurd shape record.somebody
        | cons token agents => exact ⟨_, _, rfl⟩
      obtain ⟨line, more, lines⟩ := first
      rw [RobotsFile.text, List.flatMap_cons, lines]
      rfl
  have asked : ((file.records.flatMap RobotsRecord.lines).take maxRobotsLines).filterMap
      (readDirective unicode readFloat) = file.records.flatMap RobotsRecord.directives := by
    rw [List.take_of_length_le file.short, List.filterMap_flatMap]
    exact List.flatMap_congr fun record _ => record.filterMap_lines lowers
  rw [parseRobotsTxt_eq, robotsLines, unmarked, RobotsFile.text, splitlines_flatMap whole, asked,
    RobotsParse.groups_records rfl]
  rfl

end Reading

/-! ## The group that is taken -/

section Choice

variable {unicode : UnicodeData} {tokens : List (List Text)} {name t t' : Text}
variable {groups : List RobotsGroup}

theorem governs_unique (h : Governs tokens name t) (h' : Governs tokens name t') : t = t' := by
  rcases h with ⟨named, longest⟩ | ⟨rfl, -, unnamed⟩
  · rcases h' with ⟨named', longest'⟩ | ⟨-, -, unnamed'⟩
    · have same : t.length = t'.length := Nat.le_antisymm (longest' t named) (longest t' named')
      have first := List.isPrefixOf_iff_prefix.mp named.2.1
      have second := List.isPrefixOf_iff_prefix.mp named'.2.1
      exact (List.prefix_of_prefix_length_le first second same.le).eq_of_length same
    · exact absurd named (unnamed' t)
  · rcases h' with ⟨named', -⟩ | ⟨rfl, -, -⟩
    · exact absurd named' (unnamed t')
    · rfl

/-- The tokens with their groups, in the order in which the loop meets them. -/
def candidates (groups : List RobotsGroup) : List (RobotsGroup × Text) :=
  groups.flatMap fun group => group.userAgents.map fun token => (group, token)

theorem mem_candidates {candidate : RobotsGroup × Text} : candidate ∈ candidates groups ↔
    candidate.1 ∈ groups ∧ candidate.2 ∈ candidate.1.userAgents := by
  obtain ⟨group, token⟩ := candidate
  simp only [candidates, List.mem_flatMap, List.mem_map, Prod.mk.injEq]
  constructor
  · rintro ⟨_, listed, _, mem, rfl, rfl⟩
    exact ⟨listed, mem⟩
  · rintro ⟨listed, mem⟩
    exact ⟨group, listed, token, mem, rfl, rfl⟩

theorem find?_candidates (groups : List RobotsGroup) (token : Text) :
    (candidates groups).find? (fun candidate => candidate.2 = token) =
      (groups.find? fun group => token ∈ group.userAgents).map fun group => (group, token) := by
  have one (group : RobotsGroup) (tokens : List Text) :
      (tokens.map fun token => (group, token)).find? (fun candidate => candidate.2 = token) =
        if token ∈ tokens then some (group, token) else none := by
    induction tokens with
    | nil => rfl
    | cons first tokens ih =>
      by_cases same : first = token
      · subst same
        simp
      · have other : ¬token = first := fun equal => same equal.symm
        simp [ih, same, other]
  induction groups with
  | nil => rfl
  | cons group groups ih =>
    have cut : candidates (group :: groups) =
        (group.userAgents.map fun token => (group, token)) ++ candidates groups := rfl
    rw [cut, List.find?_append, one, ih, List.find?_cons]
    by_cases mem : token ∈ group.userAgents
    · simp [mem]
    · simp [mem]

/-- What the loop has chosen of the candidates so far. -/
structure Chosen (name : Text) (seen : List (RobotsGroup × Text))
    (choice : RobotsTxt.GroupChoice) : Prop where
  best : ∀ group length, choice.best = some (group, length) → ∃ token, token ≠ ['*'] ∧
    token.isPrefixOf name = true ∧ token.length = length ∧
    seen.find? (fun candidate => candidate.2 = token) = some (group, token) ∧
    ∀ candidate ∈ seen, candidate.2 ≠ ['*'] → candidate.2.isPrefixOf name = true →
      candidate.2.length ≤ length
  unnamed : choice.best = none → ∀ candidate ∈ seen, candidate.2 ≠ ['*'] →
    candidate.2.isPrefixOf name = false
  fallback : choice.fallback = (seen.find? fun candidate => candidate.2 = ['*']).map Prod.fst

variable {choice : RobotsTxt.GroupChoice}

theorem Chosen.step {seen : List (RobotsGroup × Text)}
    (h : Chosen name seen choice) (candidate : RobotsGroup × Text) :
    Chosen name (seen ++ [candidate]) (choice.consider name candidate) := by
  have listed {other : RobotsGroup × Text} (mem : other ∈ seen ++ [candidate]) :
      other ∈ seen ∨ other = candidate := by simpa using mem
  rw [RobotsTxt.GroupChoice.consider]
  split
  · next star =>
    refine ⟨fun group length best => ?_, fun unnamed other mem => ?_, ?_⟩
    · obtain ⟨token, plain, starts, long, first, longest⟩ := h.best group length best
      refine ⟨token, plain, starts, long, ?_, fun other mem plain starts => ?_⟩
      · rw [List.find?_append, first, Option.some_or]
      · rcases listed mem with mem | rfl
        · exact longest other mem plain starts
        · exact absurd star plain
    · rcases listed mem with mem | rfl
      · exact h.unnamed unnamed other mem
      · exact fun plain => absurd star plain
    · rw [List.find?_append, h.fallback]
      cases seen.find? fun candidate => candidate.2 = ['*'] with
      | none => simp [star]
      | some first => rfl
  · next plain =>
    have fallback : choice.fallback =
        ((seen ++ [candidate]).find? fun candidate => candidate.2 = ['*']).map Prod.fst := by
      rw [List.find?_append, h.fallback]
      simp [plain]
    split
    · next better =>
      rw [Bool.and_eq_true] at better
      refine ⟨fun group length best => ?_, fun unnamed => ?_, fallback⟩
      swap
      · cases unnamed
      cases best
      have shorter : ∀ other ∈ seen, other.2 ≠ ['*'] → other.2.isPrefixOf name = true →
          other.2.length < candidate.2.length := by
        intro other mem plain starts
        cases best : choice.best with
        | none => rw [h.unnamed best other mem plain] at starts; cases starts
        | some leader =>
          obtain ⟨-, -, -, -, -, longest⟩ := h.best leader.1 leader.2 best
          have behind := better.2
          rw [best, Option.all_some, decide_eq_true_iff] at behind
          exact Nat.lt_of_le_of_lt (longest other mem plain starts) behind
      have fresh : seen.find? (fun other => other.2 = candidate.2) = none := by
        rw [List.find?_eq_none]
        intro other mem same
        have same : other.2 = candidate.2 := of_decide_eq_true same
        have := shorter other mem (same ▸ plain) (same ▸ better.1)
        rw [same] at this
        exact Nat.lt_irrefl _ this
      refine ⟨candidate.2, plain, better.1, rfl, ?_, fun other mem plain starts => ?_⟩
      · rw [List.find?_append, fresh]
        simp
      · rcases listed mem with mem | rfl
        · exact (shorter other mem plain starts).le
        · exact Nat.le_refl _
    · next worse =>
      rw [Bool.and_eq_true, not_and] at worse
      refine ⟨fun group length best => ?_, fun unnamed other mem => ?_, fallback⟩
      · obtain ⟨token, plain, starts, long, first, longest⟩ := h.best group length best
        refine ⟨token, plain, starts, long, ?_, fun other mem plain starts => ?_⟩
        · rw [List.find?_append, first, Option.some_or]
        · rcases listed mem with mem | rfl
          · exact longest other mem plain starts
          · have behind := worse starts
            rw [best, Option.all_some, decide_eq_true_iff] at behind
            exact Nat.not_lt.mp behind
      · rcases listed mem with mem | rfl
        · exact h.unnamed unnamed other mem
        · intro plain
          by_contra starts
          rw [Bool.not_eq_false] at starts
          exact worse starts (by rw [unnamed]; rfl)

theorem chosen_foldl (name : Text) (seen : List (RobotsGroup × Text)) :
    Chosen name seen (seen.foldl (RobotsTxt.GroupChoice.consider name) {}) := by
  induction seen using List.reverseRecOn with
  | nil =>
    refine ⟨fun group length best => ?_, fun _ candidate mem => ?_, rfl⟩
    · cases best
    · cases mem
  | append_singleton seen candidate ih =>
    rw [List.foldl_append]
    exact ih.step candidate

theorem namedBy_groups : NamedBy (groups.map RobotsGroup.userAgents) name t ↔
    t ≠ ['*'] ∧ t.isPrefixOf name = true ∧ ∃ group ∈ groups, t ∈ group.userAgents := by
  simp [NamedBy]

theorem Chosen.exists_token {group : RobotsGroup} {length : Nat}
    (h : Chosen name (candidates groups) choice) (best : choice.best = some (group, length)) :
    ∃ token, Governs (groups.map RobotsGroup.userAgents) name token ∧
      groups.find? (fun group => token ∈ group.userAgents) = some group := by
  obtain ⟨token, plain, starts, long, first, longest⟩ := h.best group length best
  rw [find?_candidates, Option.map_eq_some_iff] at first
  obtain ⟨found, first, same⟩ := first
  cases same
  have mem : token ∈ group.userAgents := by simpa using List.find?_some first
  refine ⟨token, Or.inl ⟨?_, fun other named => ?_⟩, first⟩
  · exact namedBy_groups.mpr ⟨plain, starts, group, List.mem_of_find?_eq_some first, mem⟩
  · obtain ⟨plain, starts, group, listed, mem⟩ := namedBy_groups.mp named
    rw [long]
    exact longest (group, other) (mem_candidates.mpr ⟨listed, mem⟩) plain starts

theorem Chosen.unnamed_groups
    (h : Chosen name (candidates groups) choice) (unchosen : choice.best = none) (token : Text) :
    ¬NamedBy (groups.map RobotsGroup.userAgents) name token := by
  intro named
  obtain ⟨plain, starts, group, listed, mem⟩ := namedBy_groups.mp named
  rw [h.unnamed unchosen (group, token) (mem_candidates.mpr ⟨listed, mem⟩) plain] at starts
  cases starts

theorem Chosen.fallback_groups
    (h : Chosen name (candidates groups) choice) :
    choice.fallback = groups.find? fun group => ['*'] ∈ group.userAgents := by
  rw [h.fallback, find?_candidates, Option.map_map]
  exact Option.map_id'

/-- **`group_for`.** It takes the first group with the token that governs the name, if
there is such a token. -/
theorem groupFor_of_governs {robots : RobotsTxt} {userAgent : Text}
    (governs : Governs (robots.groups.map RobotsGroup.userAgents) (unicode.lower userAgent) t) :
    robots.groupFor unicode userAgent = robots.groups.find? fun group => t ∈ group.userAgents := by
  have chosen := chosen_foldl (unicode.lower userAgent) (candidates robots.groups)
  rw [RobotsTxt.groupFor, ← candidates]
  generalize (candidates robots.groups).foldl
    (RobotsTxt.GroupChoice.consider (unicode.lower userAgent)) {} = choice at chosen ⊢
  cases best : choice.best with
  | some leader =>
    obtain ⟨token, governing, first⟩ := chosen.exists_token best
    rw [governs_unique governs governing, first]
    rfl
  | none =>
    have unnamed := chosen.unnamed_groups best
    rcases governs with ⟨named, -⟩ | ⟨rfl, -⟩
    · exact absurd named (unnamed t)
    · exact chosen.fallback_groups

theorem groupFor_of_ungoverned {robots : RobotsTxt} {userAgent : Text}
    (free : ∀ t, ¬Governs (robots.groups.map RobotsGroup.userAgents) (unicode.lower userAgent) t) :
    robots.groupFor unicode userAgent = none := by
  have chosen := chosen_foldl (unicode.lower userAgent) (candidates robots.groups)
  rw [RobotsTxt.groupFor, ← candidates]
  generalize (candidates robots.groups).foldl
    (RobotsTxt.GroupChoice.consider (unicode.lower userAgent)) {} = choice at chosen ⊢
  cases best : choice.best with
  | some leader =>
    obtain ⟨token, governing, -⟩ := chosen.exists_token best
    exact absurd governing (free token)
  | none =>
    refine chosen.fallback_groups.trans (List.find?_eq_none.mpr fun group listed mem => ?_)
    have star : ['*'] ∈ group.userAgents := of_decide_eq_true mem
    exact free ['*'] (Or.inr ⟨rfl, ⟨group.userAgents, List.mem_map_of_mem listed, star⟩,
      chosen.unnamed_groups best⟩)

end Choice

section Verdict

variable {unicode : UnicodeData} {readFloat : Text → Option ℚ} {records : List RobotsRecord}
variable {path userAgent token : Text}

theorem betterRule_eq :
    RobotsTxt.betterRule = LongestMatch.better RobotsRule.specificity RobotsRule.allow := by
  funext winner rule
  cases winner with
  | none => rfl
  | some best => rfl

variable {record : RobotsRecord} {after : List RobotsRecord}

theorem canFetch_of_group {robots : RobotsTxt}
    (found : robots.groupFor unicode userAgent = some (record.group unicode)) :
    robots.canFetch unicode path userAgent = true ↔ RobotsRule.Permit record.rules path := by
  have winner : robots.canFetch unicode path userAgent =
      ((record.rules.filter fun rule => rule.applies path && decide (rule.pattern ≠ [])).foldl
        (LongestMatch.better RobotsRule.specificity RobotsRule.allow) none).all
          RobotsRule.allow := by
    rw [RobotsTxt.canFetch, found, ← betterRule_eq, ← List.filter_filter]
    dsimp only [RobotsRecord.group]
    cases ((record.rules.filter fun rule => rule.pattern ≠ []).filter fun rule =>
      rule.applies path).foldl RobotsTxt.betterRule none with
    | none => rfl
    | some winner => rfl
  have restricts : (fun rule : RobotsRule =>
      (rule.applies path && decide (rule.pattern ≠ [])) = true) = RobotsRule.Restricts path := by
    funext rule
    rw [Bool.and_eq_true, decide_eq_true_iff, and_comm, RobotsRule.Restricts]
  rw [winner, LongestMatch.permits_iff_winner, restricts, RobotsRule.Permit]

theorem rulesFor_of_dropWhile
    (first : records.dropWhile (fun record => token ∉ record.tokens unicode) = record :: after) :
    token ∈ record.tokens unicode ∧
      rulesFor unicode records token = record.rules ++ rulesFor unicode after token ∧
      (records.map (RobotsRecord.group unicode)).find? (fun group => token ∈ group.userAgents) =
        some (record.group unicode) := by
  induction records with
  | nil => cases first
  | cons head records ih =>
    by_cases carries : token ∈ head.tokens unicode
    · rw [List.dropWhile_cons_of_neg (by simpa using carries)] at first
      cases first
      refine ⟨carries, ?_, ?_⟩
      · rw [rulesFor, List.filter_cons_of_pos (by simpa using carries), List.flatMap_cons]
        rfl
      · rw [List.map_cons, List.find?_cons_of_pos]
        exact decide_eq_true (show token ∈ (record.group unicode).userAgents from carries)
    · rw [List.dropWhile_cons_of_pos (by simpa using carries)] at first
      obtain ⟨own, rules, found⟩ := ih first
      refine ⟨own, ?_, ?_⟩
      · rw [← rules, rulesFor, List.filter_cons_of_neg (by simpa using carries), rulesFor]
      · have other : token ∉ (head.group unicode).userAgents := carries
        rw [List.map_cons, List.find?_cons_of_neg (by simpa using other), found]

theorem exists_first_of_governs
    (governs : Governs (records.map (RobotsRecord.tokens unicode)) userAgent token) :
    ∃ record after,
      records.dropWhile (fun record => token ∉ record.tokens unicode) = record :: after := by
  have carried : ∃ own ∈ records.map (RobotsRecord.tokens unicode), token ∈ own := by
    rcases governs with ⟨named, -⟩ | ⟨-, carried, -⟩
    · exact named.2.2
    · exact carried
  obtain ⟨own, mapped, mem⟩ := carried
  obtain ⟨record, listed, rfl⟩ := List.mem_map.mp mapped
  refine List.exists_cons_of_ne_nil fun empty => ?_
  rw [List.dropWhile_eq_nil_iff] at empty
  exact of_decide_eq_true (empty record listed) mem

variable (readFloat) in
theorem headers_of_file (lowers : LowersAscii unicode) (file : RobotsFile) :
    (parseRobotsTxt unicode readFloat file.text).groups.map RobotsGroup.userAgents =
      file.records.map (RobotsRecord.tokens unicode) := by
  rw [groups_of_file readFloat lowers, List.map_map]
  rfl

theorem canFetch_of_first (lowers : LowersAscii unicode) {file : RobotsFile}
    (governs : Governs (file.records.map (RobotsRecord.tokens unicode)) (unicode.lower userAgent)
      token)
    (first : file.records.dropWhile (fun record => token ∉ record.tokens unicode) =
      record :: after) :
    (parseRobotsTxt unicode readFloat file.text).canFetch unicode path userAgent = true ↔
      RobotsRule.Permit record.rules path := by
  refine canFetch_of_group ?_
  rw [← headers_of_file readFloat lowers] at governs
  rw [groupFor_of_governs governs, groups_of_file readFloat lowers]
  exact (rulesFor_of_dropWhile first).2.2

theorem canFetch_of_ungoverned (lowers : LowersAscii unicode) {file : RobotsFile}
    (free : ∀ token, ¬Governs (file.records.map (RobotsRecord.tokens unicode))
      (unicode.lower userAgent) token) :
    (parseRobotsTxt unicode readFloat file.text).canFetch unicode path userAgent = true := by
  rw [← headers_of_file readFloat lowers] at free
  rw [RobotsTxt.canFetch, groupFor_of_ungoverned free]

theorem rfcPermits_of_first
    (governs : Governs (records.map (RobotsRecord.tokens unicode)) (unicode.lower userAgent) token)
    (first : records.dropWhile (fun record => token ∉ record.tokens unicode) = record :: after) :
    RfcPermits unicode records path userAgent ↔
      RobotsRule.Permit (record.rules ++ rulesFor unicode after token) path := by
  rw [← (rulesFor_of_dropWhile first).2.1]
  exact ⟨fun permits => permits token governs, fun permit other governs' =>
    governs_unique governs governs' ▸ permit⟩

/-- **The verdict follows RFC 9309 exactly where no later group overrules the first.**
For every file of records that the parser reads to its end, every path and every
crawler, `can_fetch` permits the path as the union of the rules of all records with the
governing token does, if and only if the later records with that token do not overrule
the first one. -/
theorem verdict_follows_iff (lowers : LowersAscii unicode) (file : RobotsFile)
    (path userAgent : Text) :
    ((parseRobotsTxt unicode readFloat file.text).canFetch unicode path userAgent = true ↔
        RfcPermits unicode file.records path userAgent) ↔
      ¬LaterGroupOverrules unicode file.records path userAgent := by
  by_cases governed : ∃ token,
      Governs (file.records.map (RobotsRecord.tokens unicode)) (unicode.lower userAgent) token
  · obtain ⟨token, governs⟩ := governed
    obtain ⟨record, after, first⟩ := exists_first_of_governs governs
    have overruled : LaterGroupOverrules unicode file.records path userAgent ↔
        RobotsRule.Overruled record.rules (rulesFor unicode after token) path := by
      constructor
      · rintro ⟨other, record', after', governs', first', overruled⟩
        obtain rfl := governs_unique governs governs'
        cases first.symm.trans first'
        exact overruled
      · exact fun overruled => ⟨token, record, after, governs, first, overruled⟩
    rw [canFetch_of_first lowers governs first, rfcPermits_of_first governs first, overruled]
    exact LongestMatch.permits_append_iff
  · have free := not_exists.mp governed
    refine iff_of_true (iff_of_true (canFetch_of_ungoverned lowers free) fun token governs => ?_) ?_
    · exact absurd governs (free token)
    · rintro ⟨token, -, -, governs, -⟩
      exact free token governs

section Sample

theorem readBack_bot : "bot".toList ≠ [] ∧ ReadBack "bot".toList := by
  refine ⟨by decide, by decide, by decide, by decide⟩

theorem readBack_x : ReadBack "/x".toList ∧ "/x".toList.length ≤ maxPatternLength := by
  refine ⟨⟨by decide, by decide, by decide⟩, by decide⟩

theorem readBack_y : ReadBack "/y".toList ∧ "/y".toList.length ≤ maxPatternLength := by
  refine ⟨⟨by decide, by decide, by decide⟩, by decide⟩

/-- A record of one agent that forbids one pattern. -/
def forbids (pattern : Text) (read : ReadBack pattern ∧ pattern.length ≤ maxPatternLength) :
    RobotsRecord where
  agents := ["bot".toList]
  rules := [⟨false, pattern⟩]
  somebody := List.cons_ne_nil _ _
  something := List.cons_ne_nil _ _
  agents_read := List.forall_mem_singleton.mpr readBack_bot
  patterns_read := List.forall_mem_singleton.mpr read

theorem short_splitFile : ([forbids "/x".toList readBack_x,
    forbids "/y".toList readBack_y].flatMap RobotsRecord.lines).length ≤ maxRobotsLines := by
  decide

/-- The same agent heads two groups. -/
def splitFile : RobotsFile where
  records := [forbids "/x".toList readBack_x, forbids "/y".toList readBack_y]
  short := short_splitFile

theorem governs_bot : Governs (splitFile.records.map (RobotsRecord.tokens .ascii))
    (UnicodeData.ascii.lower "bot".toList) "bot".toList := by
  refine Or.inl ⟨⟨by decide, by decide, by decide⟩, fun other named => ?_⟩
  exact (List.isPrefixOf_iff_prefix.mp named.2.1).length_le

theorem first_bot : splitFile.records.dropWhile
    (fun record => "bot".toList ∉ record.tokens .ascii) =
      forbids "/x".toList readBack_x :: [forbids "/y".toList readBack_y] := by
  refine List.dropWhile_cons_of_neg ?_
  decide

theorem rules_second : rulesFor .ascii [forbids "/y".toList readBack_y] "bot".toList =
    [⟨false, "/y".toList⟩] := by
  decide

/-- What the first group forbids is forbidden. -/
theorem verdict_follows_first_group :
    (parseRobotsTxt .ascii (fun _ => none) splitFile.text).canFetch .ascii "/x".toList
        "bot".toList = true ↔
      RfcPermits .ascii splitFile.records "/x".toList "bot".toList := by
  refine (verdict_follows_iff (fun _ _ => rfl) splitFile "/x".toList "bot".toList).mpr ?_
  rintro ⟨token, record, after, governs, first, rule, listed, hit, -⟩
  obtain rfl := governs_unique governs_bot governs
  cases first_bot.symm.trans first
  rw [rules_second, List.mem_singleton] at listed
  rw [listed] at hit
  have unmatched : matchesPattern "/y".toList "/x".toList = false := by
    simp [matchesPattern, globLoop]
  exact Bool.false_ne_true (unmatched.symm.trans hit.2)

/-- The second group is not looked at. -/
theorem second_group_ignored :
    ¬((parseRobotsTxt .ascii (fun _ => none) splitFile.text).canFetch .ascii "/y".toList
        "bot".toList = true ↔
      RfcPermits .ascii splitFile.records "/y".toList "bot".toList) := by
  rw [canFetch_of_first (fun _ _ => rfl) governs_bot first_bot,
    rfcPermits_of_first governs_bot first_bot]
  have unmatched : matchesPattern "/x".toList "/y".toList = false := by
    simp [matchesPattern, globLoop]
  have matched : matchesPattern "/y".toList "/y".toList = true := by
    simp [matchesPattern, globLoop]
  intro same
  have alone : RobotsRule.Permit (forbids "/x".toList readBack_x).rules "/y".toList := by
    refine Or.inl (List.forall_mem_singleton.mpr fun hit => ?_)
    exact Bool.false_ne_true (unmatched.symm.trans hit.2)
  rw [rules_second] at same
  obtain ⟨other, listed, -, allows, -⟩ := LongestMatch.permits_iff.mp (same.mp alone)
    ⟨false, "/y".toList⟩ (List.mem_append_right _ (List.mem_singleton_self _))
    ⟨by decide, matched⟩ rfl
  rcases List.mem_append.mp listed with listed | listed
  · rw [List.mem_singleton.mp listed] at allows
    cases allows
  · rw [List.mem_singleton.mp listed] at allows
    cases allows

end Sample

end Verdict

end Rankuno
