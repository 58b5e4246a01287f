import Rankuno.UrlKeys.Normalize

/-!
# Locale prefixes

`strip_locale_prefix`, and `normalize_url` with the option to fold the locale variants of
a page onto one key.
-/

namespace Rankuno.UrlKeys

open Python Python.Text Python.Urllib

/-- `_ISO_639_1`. -/
def iso6391 : List Text :=
  ["ar", "bg", "bn", "cs", "da", "de", "el", "en", "es", "et", "fa", "fi", "fr", "he", "hi", "hu",
    "id", "is", "ja", "ko", "lt", "lv", "ms", "nl", "no", "pl", "pt", "ro", "ru", "sk", "sl", "sr",
    "sv", "th", "tr", "uk", "ur", "vi", "zh"].map String.toList

def regionalLanguages : List Text := iso6391 ++ ["it".toList, "hr".toList]

/-- `[a-z]` of a pattern that ignores case, which also takes the letters whose other case
is one of these. -/
def isPatternLetter (c : Char) : Bool :=
  isAsciiAlpha c || c = '\u0130' || c = '\u0131' || c = '\u017f' || c = '\u212a'

/-- The separators of a regional locale. -/
def isRegionMark (c : Char) : Bool := c = '-' || c = '_'

/-- `_REGIONAL_LOCALE_RE`: `$` also stands before a last line feed. -/
def isRegionalShape (segment : Text) : Bool :=
  let body := if segment.getLast? = some '\n' then segment.dropLast else segment
  match body with
  | a :: b :: mark :: region =>
    isPatternLetter a && isPatternLetter b && isRegionMark mark &&
      region.all isPatternLetter && 2 ≤ region.length && region.length ≤ 4
  | _ => false

/-- `_is_regional_locale`. -/
def isRegionalLocale (segment : Text) : Bool :=
  isRegionalShape segment && (segment.takeWhile (fun c => !isRegionMark c) ∈ regionalLanguages ||
      (segment.dropWhile fun c => !isRegionMark c).tail ∈ regionalLanguages)

/-- `is_locale_segment`. -/
def isLocaleSegment (unicode : UnicodeData) (knownLocales : Option (List Text))
    (segment : Text) : Bool :=
  let candidate := unicode.lower segment
  match knownLocales with
  | some locales => candidate ∈ locales.map unicode.lower
  | none => isRegionalLocale candidate || candidate ∈ iso6391

def filledParts (path : Text) : List Text := (split '/' path).filter fun part => part ≠ []

/-- `strip_locale_prefix`. -/
def stripLocalePrefix (unicode : UnicodeData) (knownLocales : Option (List Text)) (path : Text) :
    Text × Option Text :=
  match filledParts path with
  | [] => (orRoot path, none)
  | first :: remainder =>
    if isLocaleSegment unicode knownLocales first then
      if remainder = [] then (['/'], some (unicode.lower first))
      else
        ('/' :: join ['/'] remainder ++ (if path.getLast? = some '/' then ['/'] else []),
          some (unicode.lower first))
    else (orRoot path, none)

/-- The options of `normalize_url`. -/
structure LocaleFolding where
  stripLocale : Bool := false
  knownLocales : Option (List Text) := none

/-- The path that is normalised. -/
def LocaleFolding.path (folding : LocaleFolding) (unicode : UnicodeData) (path : Text) : Text :=
  if folding.stripLocale then (stripLocalePrefix unicode folding.knownLocales path).1 else path

/-- The parts `normalize_url` puts together. -/
def LocaleFolding.keyParts (folding : LocaleFolding) (unicode : UnicodeData)
    (parts : SplitResult) : SplitResult :=
  { UrlKeys.keyParts unicode parts with
    path := normalizePath (folding.path unicode (orRoot parts.path)) }

/-- `normalize_url` with its options. -/
def LocaleFolding.normalizeUrl (folding : LocaleFolding) (unicode : UnicodeData) (url : Text) :
    Text :=
  match safeSplit unicode url with
  | none => strip isSpace url
  | some parts => urlunsplit (folding.keyParts unicode parts)

example : ({ stripLocale := true } : LocaleFolding).path
    ⟨fun s => s.map Char.toLower, fun s => s, .ok, fun s => s⟩ "/en-GB/a/".toList =
      "/a/".toList := by decide

section Parts

variable {segments : List Text}

def rootedText (segments : List Text) : Text :=
  if segments = [] then ['/'] else '/' :: (join ['/'] segments ++ ['/'])

/-- The segments of a decoded path, without the whitespace around them. -/
def pathSegments (path : Text) : List Text :=
  ((split '/' (decodePercentEscapes path)).map (strip isSpace)).filter (· ≠ [])

theorem normalizePath_eq (path : Text) : normalizePath path = rootedText (pathSegments path) := rfl

end Parts

end Rankuno.UrlKeys
