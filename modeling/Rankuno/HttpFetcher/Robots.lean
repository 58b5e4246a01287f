import Mathlib.Algebra.Order.Field.Rat
import Rankuno.Python.Text

/-!
# robots.txt

`core/robots.py`: the file as groups of rules, the group that governs a crawler, and
whether it may fetch a path. Competing rules are ranked by the length of their
pattern. `float` is a parameter; delays are rational numbers.
-/

namespace Rankuno

open Python Python.Text

/-- `_glob_full_match` from where its loop stands: at `p` of the pattern and `t` of
the text, with the last `*` it passed and where the text stood then. -/
def globLoop (pattern text : Text) (p t : Nat) (starP : Option Nat) (starT : Nat)
    (behind : starT ≤ t) : Bool :=
  if _ : t < text.length then
    if _ : p < pattern.length ∧ pattern[p]? = text[t]? then
      globLoop pattern text (p + 1) (t + 1) starP starT (Nat.le_succ_of_le behind)
    else if _ : p < pattern.length ∧ pattern[p]? = some '*' then
      globLoop pattern text (p + 1) t (some p) t (Nat.le_refl t)
    else
      match starP with
      | some starP =>
        globLoop pattern text (starP + 1) (starT + 1) (some starP) (starT + 1) (Nat.le_refl _)
      | none => false
  else (pattern.drop p).all fun c => c = '*'
termination_by (text.length - starT, text.length - t, pattern.length - p)
decreasing_by
  · exact Prod.Lex.right _ (Prod.Lex.left _ _ (by omega))
  · rcases Nat.lt_or_eq_of_le behind with moved | rfl
    · exact Prod.Lex.left _ _ (by omega)
    · exact Prod.Lex.right _ (Prod.Lex.right _ (by omega))
  · exact Prod.Lex.left _ _ (by omega)

/-- `_matches_pattern`. -/
def matchesPattern (pattern path : Text) : Bool :=
  let path := if path.head? = some '/' then path else '/' :: path
  let pattern := if pattern.getLast? = some '$' then pattern.dropLast else pattern ++ ['*']
  globLoop pattern path 0 0 none 0 (Nat.le_refl 0)

structure RobotsRule where
  allow : Bool
  pattern : Text
  deriving DecidableEq

namespace RobotsRule

def specificity (rule : RobotsRule) : Nat := rule.pattern.length

def applies (rule : RobotsRule) (path : Text) : Bool := matchesPattern rule.pattern path

end RobotsRule

structure RobotsGroup where
  userAgents : List Text
  rules : List RobotsRule := []
  crawlDelayS : Option ℚ := none
  deriving DecidableEq

structure RobotsTxt where
  groups : List RobotsGroup := []
  sitemaps : List Text := []
  deriving DecidableEq

namespace RobotsTxt

variable (unicode : UnicodeData) (robots : RobotsTxt)

/-- What the loop of `group_for` keeps: the best named group with the length of its
token, and the first group for `*`. -/
structure GroupChoice where
  best : Option (RobotsGroup × Nat) := none
  fallback : Option RobotsGroup := none

/-- One token of one group. -/
def GroupChoice.consider (name : Text) (choice : GroupChoice) (candidate : RobotsGroup × Text) :
    GroupChoice :=
  if candidate.2 = ['*'] then
    { choice with fallback := choice.fallback <|> some candidate.1 }
  else if candidate.2.isPrefixOf name && choice.best.all fun best => best.2 < candidate.2.length then
    { choice with best := some (candidate.1, candidate.2.length) }
  else choice

/-- `group_for`. -/
def groupFor (userAgent : Text) : Option RobotsGroup :=
  let candidates := robots.groups.flatMap fun group =>
    group.userAgents.map fun token => (group, token)
  let choice := candidates.foldl (GroupChoice.consider (unicode.lower userAgent)) {}
  (choice.best.map Prod.fst) <|> choice.fallback

/-- One matching rule against the winner so far. -/
def betterRule (winner : Option RobotsRule) (rule : RobotsRule) : Option RobotsRule :=
  match winner with
  | none => some rule
  | some best =>
    if best.specificity < rule.specificity then some rule
    else if rule.specificity = best.specificity && rule.allow then some rule
    else some best

/-- `can_fetch`. -/
def canFetch (path userAgent : Text) : Bool :=
  match robots.groupFor unicode userAgent with
  | none => true
  | some group =>
    match (group.rules.filter fun rule => rule.applies path).foldl betterRule none with
    | none => true
    | some winner => winner.allow

/-- `crawl_delay`. -/
def crawlDelay (userAgent : Text) : Option ℚ :=
  (robots.groupFor unicode userAgent).bind RobotsGroup.crawlDelayS

end RobotsTxt

section Parse

/-- `_MAX_LINES`. -/
def maxRobotsLines : Nat := 10000

def maxPatternLength : Nat := 2000

/-- What `parse_robots_txt` holds between two lines. -/
structure RobotsParse where
  groups : List RobotsGroup := []
  sitemaps : List Text := []
  pendingAgents : List Text := []
  rules : List RobotsRule := []
  crawlDelay : Option ℚ := none
  acceptingAgents : Bool := false

namespace RobotsParse

/-- `flush`. -/
def flush (s : RobotsParse) : RobotsParse :=
  { s with
    groups :=
      if s.pendingAgents = [] then s.groups
      else s.groups ++ [⟨s.pendingAgents, s.rules, s.crawlDelay⟩]
    pendingAgents := []
    rules := []
    crawlDelay := none }

variable (unicode : UnicodeData) (readFloat : Text → Option ℚ)

/-- One directive. -/
def directive (s : RobotsParse) (field value : Text) : RobotsParse :=
  if field = "user-agent".toList then
    let s := if s.acceptingAgents then s else { s.flush with acceptingAgents := true }
    if value = [] then s
    else { s with pendingAgents := s.pendingAgents ++ [unicode.lower value] }
  else if field = "sitemap".toList then
    if value = [] then s else { s with sitemaps := s.sitemaps ++ [value] }
  else
    let s := { s with acceptingAgents := false }
    if field = "allow".toList ∨ field = "disallow".toList then
      if value = [] ∨ maxPatternLength < value.length then s
      else { s with rules := s.rules ++ [⟨field = "allow".toList, value⟩] }
    else if field = "crawl-delay".toList then
      match readFloat value with
      | none => s
      | some parsed => if 0 ≤ parsed then { s with crawlDelay := some parsed } else s
    else s

/-- One line. -/
def line (s : RobotsParse) (rawLine : Text) : RobotsParse :=
  match partition ':' (strip isSpace (partition '#' rawLine).1) with
  | (_, none) => s
  | (field, some value) =>
    s.directive unicode readFloat (unicode.lower (strip isSpace field)) (strip isSpace value)

end RobotsParse

/-- `parse_robots_txt`. -/
def parseRobotsTxt (unicode : UnicodeData) (readFloat : Text → Option ℚ) (text : Text) :
    RobotsTxt :=
  let lines := (splitlines (lstrip (fun c => c = '\ufeff') text)).take maxRobotsLines
  let s := (lines.foldl (RobotsParse.line unicode readFloat) {}).flush
  ⟨s.groups, s.sitemaps⟩

end Parse

end Rankuno
