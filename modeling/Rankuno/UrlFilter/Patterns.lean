import Rankuno.Foundation.TokenPatterns
import Rankuno.ScreamingFrog.Reconciler

/-!
# Patterns that include and exclude URLs

`URLFilter` of `url_filter.py`. A pattern is a regular expression if it looks like one, and a
wildcard pattern otherwise, which is made into a regular expression by replacing its stars.

Of `re` the fragment is read here that a wildcard pattern without special characters becomes,
and a dot. On every other expression it is a parameter.
-/

namespace Rankuno.UrlFilters

open Python Python.Text TokenPattern

/-- `re` with `IGNORECASE`, and `str.lower`. -/
structure Regexes where
  lower : Text → Text
  /-- The first character, in an expression, matches the second. -/
  same : Char → Char → Bool
  /-- `re.compile(_).match`, none where the expression is invalid. -/
  other : Text → Option (Text → Bool)
  /-- `re.compile(_).search`. -/
  search : Text → Option (Text → Bool)

/-- `s.replace(old, new)`. The first characters of the text are part of what was replaced. -/
def replaceFrom (old new : Text) : Nat → Text → Text
  | _, [] => []
  | n + 1, _ :: s => replaceFrom old new n s
  | 0, c :: s =>
    if old.isPrefixOf (c :: s) then new ++ replaceFrom old new (old.length - 1) s
    else c :: replaceFrom old new 0 s

def replace (old new s : Text) : Text := replaceFrom old new 0 s

/-! ### Regular expressions -/

/-- The parts of an expression. -/
inductive Piece where
  | char (c : Char)
  /-- `.` -/
  | any
  /-- `[^/]*` -/
  | segment
  /-- `.*` -/
  | line
  deriving DecidableEq

/-- What a part stands for. A dot does not match the end of a line. -/
def Piece.token (same : Char → Char → Bool) : Piece → Token Char
  | char c => .one (same c)
  | any => .one fun c => c ≠ '\n'
  | segment => .many fun c => c ≠ '/'
  | line => .many fun c => c ≠ '\n'

def segmentText : Text := "[^/]*".toList
def lineText : Text := ".*".toList

/-- The characters that do not stand for themselves. -/
def specials : Text := ".^$+?*[\\|()".toList

/-- `{` is the beginning of a number of repetitions. -/
def opensRepeat (rest : Text) : Bool :=
  match rest.dropWhile isAsciiDigit with
  | [] => false
  | c :: more =>
    if c = '}' then rest.head?.any isAsciiDigit
    else if c = ',' then (more.dropWhile isAsciiDigit).head?.any fun c => c = '}'
    else false

/-- A character stands for itself in front of the rest of an expression. -/
def isLiteral (c : Char) (rest : Text) : Bool :=
  !specials.any (fun special => special = c) && !(c = '{' && opensRepeat rest)

/-- The parts of an expression after `^`, and whether `$` ends it, in the fragment. -/
def readPieces : Nat → Text → Option (List Piece × Bool)
  | _, [] => some ([], false)
  | n + 1, _ :: rest => readPieces n rest
  | 0, c :: rest =>
    if segmentText.isPrefixOf (c :: rest) then
      (readPieces (segmentText.length - 1) rest).map fun read => (.segment :: read.1, read.2)
    else if lineText.isPrefixOf (c :: rest) then
      (readPieces (lineText.length - 1) rest).map fun read => (.line :: read.1, read.2)
    else if c = '.' then (readPieces 0 rest).map fun read => (.any :: read.1, read.2)
    else if c = '$' ∧ rest = [] then some ([], true)
    else if isLiteral c rest then (readPieces 0 rest).map fun read => (.char c :: read.1, read.2)
    else none

/-- `$` without `MULTILINE`. -/
def atEnd (rest : Text) : Bool := rest = [] ∨ rest = ['\n']

/-- `re.compile(expression, re.IGNORECASE).match`. -/
def compileMatch (regexes : Regexes) (expression : Text) : Option (Text → Bool) :=
  match expression with
  | [] => regexes.other []
  | c :: body =>
    match if c = '^' then readPieces 0 body else none with
    | some (pieces, ended) =>
      some (accepts (if ended then atEnd else fun _ => true)
        (pieces.map (Piece.token regexes.same)))
    | none => regexes.other (c :: body)

/-! ### The filter -/

def doubleStar : Text := "**".toList
def placeholder : Text := '\x00' :: "DOUBLE_STAR".toList ++ ['\x00']

/-- `compiled.match(path)`, where the expression is valid. -/
def matchesExpression (regexes : Regexes) (expression path : Text) : Bool :=
  (compileMatch regexes expression).any fun matches_ => matches_ path

/-- The expression of a pattern with `**`. -/
def recursiveExpression (pattern : Text) : Text :=
  '^' :: replace placeholder lineText
    (replace ['*'] segmentText (replace doubleStar placeholder pattern))

/-- The expression of a pattern with `*`. -/
def segmentExpression (pattern : Text) : Text :=
  '^' :: (replace ['*'] segmentText pattern ++ ['$'])

/-- `_wildcard_match`. -/
def wildcardMatch (regexes : Regexes) (path pattern : Text) : Bool :=
  if containsText doubleStar pattern then
    matchesExpression regexes (recursiveExpression pattern) path
  else if pattern.any fun c => c = '*' then
    matchesExpression regexes (segmentExpression pattern) path
  else
    let pathLower := regexes.lower path
    let patternLower := regexes.lower pattern
    if pathLower = patternLower then true
    else if patternLower = ['/'] then true
    else (patternLower ++ ['/']).isPrefixOf pathLower

/-- A compiled pattern. -/
inductive Compiled where
  | regex (search : Text → Bool)
  | wildcard (pattern : Text)

def looksLikeRegex (pattern : Text) : Bool :=
  pattern.head? = some '^' ∨ pattern.getLast? = some '$' ∨ pattern.any fun c => c = '['

/-- `_compile_pattern`, none where it raises `re.error`. -/
def compilePattern (regexes : Regexes) (pattern : Text) : Option Compiled :=
  if looksLikeRegex pattern then (regexes.search pattern).map .regex
  else some (.wildcard pattern)

/-- `_match_single`. -/
def matchSingle (regexes : Regexes) (path : Text) : Compiled → Bool
  | .regex search => search path
  | .wildcard pattern => wildcardMatch regexes path pattern

/-- A `URLFilter` that could be created. -/
structure UrlFilter where
  includePatterns : List Text := []
  excludePatterns : List Text := []
  compiledInclude : List Compiled := []
  compiledExclude : List Compiled := []

/-- `URLFilter(include_patterns, exclude_patterns)`. -/
def UrlFilter.create (regexes : Regexes) (includePatterns excludePatterns : List Text) :
    Option UrlFilter :=
  (includePatterns.mapM (compilePattern regexes)).bind fun compiledInclude =>
    (excludePatterns.mapM (compilePattern regexes)).map fun compiledExclude =>
      { includePatterns, excludePatterns, compiledInclude, compiledExclude }

/-- `matches`, of the path of a URL. -/
def UrlFilter.matchesPath (filter : UrlFilter) (regexes : Regexes) (path : Text) : Bool :=
  if filter.includePatterns ≠ [] ∧
      filter.compiledInclude.any (matchSingle regexes path) = false then false
  else if filter.excludePatterns ≠ [] then
    !filter.compiledExclude.any (matchSingle regexes path)
  else true

end Rankuno.UrlFilters
