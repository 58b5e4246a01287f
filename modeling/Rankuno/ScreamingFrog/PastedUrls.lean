import Rankuno.Python.Lines
import Rankuno.Python.Lower
import Rankuno.Python.UrlRebuild
import Rankuno.UrlKeys.Hosts

/-!
# Addresses read from pasted text

`pasted_url_list.py`: each line of a paste is read as an address, first as a whole and then
cell by cell. A line without a scheme is given `https://`, if what stands in front of its
path looks like a host; whether it has a scheme is asked first.
-/

namespace Rankuno

open Python Python.Text Python.Urllib
open UrlKeys (safeSplit)
open scoped UrlKeys

/-- `MALFORMED_EXAMPLES`. -/
def malformedExampleLimit : Nat := 5

/-- `_HEADER_WORDS`. -/
def headerWords : List Text :=
  ["address", "addresses", "domain", "domains", "href", "link", "links", "uri", "url",
    "urls"].map String.toList

/-- `_SCHEME_RE`. -/
def declaresScheme (text : Text) : Bool :=
  match partition ':' text with
  | (_, none) => false
  | (scheme, some _) => scheme.head?.any isAsciiAlpha && scheme.all isSchemeChar

/-- `[A-Za-z0-9_]`. -/
def isWordChar (c : Char) : Bool := isAsciiAlpha c || isAsciiDigit c || c = '_'

/-- `[A-Za-z0-9_](?:[A-Za-z0-9_-]{0,61}[A-Za-z0-9_])?`. -/
def isHostLabel (label : Text) : Bool :=
  label.length ≤ 63 && label.head?.any isWordChar && label.getLast?.any isWordChar &&
    label.all fun c => isWordChar c || c = '-'

/-- `[A-Za-z]{2,63}|[0-9]{1,3}`. -/
def isFinalLabel (label : Text) : Bool :=
  (2 ≤ label.length && label.length ≤ 63 && label.all isAsciiAlpha) ||
    (1 ≤ label.length && label.length ≤ 3 && label.all isAsciiDigit)

/-- What `_HOST_RE` describes: labels with a dot after each, and a final one. -/
def isHostName (host : Text) : Bool :=
  let labels := split '.' host
  labels.dropLast ≠ [] && labels.dropLast.all isHostLabel && labels.getLast?.any isFinalLabel

/-- `_HOST_RE`, whose `$` also stands in front of a line feed at the end. -/
def matchesHost (host : Text) : Bool :=
  isHostName host || (host.getLast? = some '\n' && isHostName host.dropLast)

/-- `_CELL_SEPARATORS`. -/
def cellSeparators : List Char := ['\t', ',', ';']

/-- `_.replace(quote * 2, quote)`. -/
def undouble (quote : Char) : Text → Text
  | a :: b :: s =>
    if a = quote ∧ b = quote then quote :: undouble quote s else a :: undouble quote (b :: s)
  | s => s

/-- `_unquote`. -/
def unquoteCell (cell : Text) : Text :=
  let text := strip isSpace cell
  let quoted := ['"', '\''].find? fun quote =>
    2 ≤ text.length && text.head? = some quote && text.getLast? = some quote
  match quoted with
  | none => strip isSpace text
  | some quote => strip isSpace (undouble quote text.tail.dropLast)

/-- What `_coerce` takes for the host of a text without a scheme. -/
def pastedHost (text : Text) : Text :=
  let first := text.takeWhile isNetlocChar
  (rpartition ':' first).1.getD first

section Read

variable (unicode : UnicodeData)

/-- `_coerce`: the URL, and whether it was given a scheme. -/
def coerce (cell : Text) : Option (Text × Bool) :=
  let text := unquoteCell cell
  if text = [] ∨ text.any isSpace then none
  else
    let text := if text.take 2 = ['/', '/'] then text.drop 2 else text
    if declaresScheme text then
      match safeSplit unicode text with
      | none => none
      | some parts =>
        if (unicode.lower parts.scheme = "http".toList ∨
            unicode.lower parts.scheme = "https".toList) ∧ parts.netloc ≠ [] then
          some (text, false)
        else none
    else if matchesHost (pastedHost text) then some ("https://".toList ++ text, true)
    else none

/-- What `_read_line` finds: the URL, whether it was given a scheme, and whether it is one
cell of a row. -/
structure PastedUrl where
  url : Text
  schemeAdded : Bool
  fromRow : Bool
  deriving DecidableEq

/-- `_read_line`. -/
def readLine (text : Text) : Option PastedUrl :=
  match coerce unicode text with
  | some (url, added) => some ⟨url, added, false⟩
  | none =>
    cellSeparators.findSome? fun separator =>
      if separator ∈ text then
        ((split separator text).findSome? (coerce unicode)).map fun found =>
          ⟨found.1, found.2, true⟩
      else none

end Read

structure PasteCounts where
  lines : Nat
  blankDropped : Nat := 0
  headerDropped : Nat := 0
  malformedDropped : Nat := 0
  accepted : Nat := 0
  spreadsheetRows : Nat := 0
  schemeAdded : Nat := 0
  malformedExamples : List Text := []
  deriving DecidableEq

structure ParsedPaste where
  urls : List Text := []
  counts : PasteCounts
  deriving DecidableEq

/-- What the loop of `parse_pasted_urls` holds between two lines. -/
structure PasteReading where
  urls : List Text := []
  examples : List Text := []
  blank : Nat := 0
  header : Nat := 0
  malformed : Nat := 0
  rows : Nat := 0
  schemed : Nat := 0
  seenContent : Bool := false

namespace PasteReading

variable (unicode : UnicodeData)

/-- One line with its number. -/
def line (s : PasteReading) (numbered : Text × Nat) : PasteReading :=
  let stripped := strip isSpace numbered.1
  if stripped = [] then { s with blank := s.blank + 1 }
  else if !s.seenContent ∧ unicode.lower (unquoteCell stripped) ∈ headerWords then
    { s with seenContent := true, header := s.header + 1 }
  else
    match readLine unicode stripped with
    | none =>
      { s with
        seenContent := true
        malformed := s.malformed + 1
        examples :=
          if s.examples.length < malformedExampleLimit then
            s.examples ++ ["line ".toList ++ ofNat numbered.2 ++ ": ".toList ++ stripped.take 80]
          else s.examples }
    | some found =>
      { s with
        seenContent := true
        urls := s.urls ++ [found.url]
        schemed := s.schemed + found.schemeAdded.toNat
        rows := s.rows + found.fromRow.toNat }

end PasteReading

/-- `parse_pasted_urls`. -/
def parsePastedUrls (unicode : UnicodeData) (text : Text) : ParsedPaste :=
  let lines := splitlines (lstrip (fun c => c = '\ufeff') text)
  let s := (lines.zipIdx 1).foldl (PasteReading.line unicode) {}
  { urls := s.urls
    counts :=
      { lines := lines.length
        blankDropped := s.blank
        headerDropped := s.header
        malformedDropped := s.malformed
        accepted := s.urls.length
        spreadsheetRows := s.rows
        schemeAdded := s.schemed
        malformedExamples := s.examples } }

section Plain

variable {unicode : UnicodeData} {text host : Text} {c : Char}

theorem wordChar_toNat (h : isWordChar c = true) :
    (48 ≤ c.toNat ∧ c.toNat ≤ 57) ∨ (65 ≤ c.toNat ∧ c.toNat ≤ 90) ∨
      (97 ≤ c.toNat ∧ c.toNat ≤ 122) ∨ c = '_' := by
  rw [isWordChar, isAsciiAlpha, isAsciiDigit] at h
  simp only [Bool.or_eq_true, Bool.and_eq_true, decide_eq_true_eq] at h
  tauto

def isHostChar (c : Char) : Bool := isWordChar c || c = '-' || c = '.'

theorem hostChar_toNat (h : isHostChar c = true) : c.toNat < 128 ∧ 45 ≤ c.toNat := by
  rw [isHostChar] at h
  simp only [Bool.or_eq_true, decide_eq_true_eq] at h
  obtain (word | rfl) | rfl := h
  · obtain digit | capital | small | rfl := wordChar_toNat word
    · omega
    · omega
    · omega
    · decide
  · decide
  · decide

theorem isSpace_of_hostChar (h : isHostChar c = true) : isSpace c = false := by
  obtain ⟨ascii, printable⟩ := hostChar_toNat h
  rw [Bool.eq_false_iff]
  intro space
  simp only [isSpace, Bool.or_eq_true, Bool.and_eq_true, decide_eq_true_eq] at space
  omega

/-- A line without whitespace that begins with a letter, a digit or `_`. -/
structure PlainLine (text : Text) : Prop where
  first : ∃ c rest, text = c :: rest ∧ isWordChar c = true
  spaceless : ∀ c ∈ text, isSpace c = false

theorem isWordChar_hostChar (h : isWordChar c = true) : isHostChar c = true := by
  rw [isHostChar, h]
  rfl

namespace PlainLine

theorem ne_nil (h : PlainLine text) : text ≠ [] := by
  obtain ⟨c, rest, rfl, -⟩ := h.first
  exact List.cons_ne_nil c rest

theorem head?_ne (h : PlainLine text) (other : isWordChar c = false) : text.head? ≠ some c := by
  obtain ⟨d, rest, rfl, word⟩ := h.first
  intro same
  obtain rfl := Option.some.inj same
  rw [other] at word
  cases word

theorem strip_eq (h : PlainLine text) : strip isSpace text = text :=
  strip_eq_self (fun c first => h.spaceless c (List.mem_of_mem_head? first))
    fun c last => h.spaceless c (List.mem_of_getLast? last)

theorem unquoteCell_eq (h : PlainLine text) : unquoteCell text = text := by
  have unquoted : ['"', '\''].find? (fun quote =>
      2 ≤ text.length && text.head? = some quote && text.getLast? = some quote) = none := by
    refine List.find?_eq_none.mpr fun quote mem accepted => ?_
    rw [Bool.and_eq_true, Bool.and_eq_true, decide_eq_true_eq, decide_eq_true_eq] at accepted
    refine h.head?_ne ?_ accepted.1.2
    simp only [List.mem_cons, List.not_mem_nil, or_false] at mem
    obtain rfl | rfl := mem
    · decide
    · decide
  rw [unquoteCell, h.strip_eq]
  rw [unquoted]
  exact h.strip_eq

theorem splitlines_eq (h : PlainLine text) :
    splitlines (lstrip (fun c => c = '\ufeff') text) = [text] := by
  have unmarked : lstrip (fun c => c = '\ufeff') text = text := by
    obtain ⟨c, rest, rfl, word⟩ := h.first
    have other : ¬decide (c = '\ufeff') = true := by
      rw [decide_eq_true_eq]
      rintro rfl
      cases word
    exact List.dropWhile_cons_of_neg other
  rw [unmarked]
  exact splitlines_of_oneLine (fun c mem => Bool.eq_false_iff.mpr fun ends => by
    have stays := h.spaceless c mem
    rw [isSpace_of_isLineEnd ends] at stays
    cases stays) h.ne_nil

theorem parsePastedUrls_eq (h : PlainLine text) (content : unicode.lower text ∉ headerWords) :
    parsePastedUrls unicode text =
      match readLine unicode text with
      | none =>
        { counts :=
            { lines := 1
              malformedDropped := 1
              malformedExamples := ["line ".toList ++ ofNat 1 ++ ": ".toList ++ text.take 80] } }
      | some found =>
        { urls := [found.url]
          counts :=
            { lines := 1
              accepted := 1
              spreadsheetRows := found.fromRow.toNat
              schemeAdded := found.schemeAdded.toNat } } := by
  rw [parsePastedUrls, h.splitlines_eq]
  simp only [List.zipIdx_cons, List.zipIdx_nil, List.foldl_cons, List.foldl_nil]
  rw [PasteReading.line, h.strip_eq, if_neg h.ne_nil, h.unquoteCell_eq, if_neg fun header => content header.2]
  cases readLine unicode text with
  | none => rfl
  | some found =>
    simp only [Nat.zero_add]
    rfl

theorem coerce_eq (h : PlainLine text) : coerce unicode text =
    if declaresScheme text then
      match safeSplit unicode text with
      | none => none
      | some parts =>
        if (unicode.lower parts.scheme = "http".toList ∨
            unicode.lower parts.scheme = "https".toList) ∧ parts.netloc ≠ [] then
          some (text, false)
        else none
    else if matchesHost (pastedHost text) then some ("https://".toList ++ text, true)
    else none := by
  have spaceless : ¬text.any isSpace = true := by
    rw [List.any_eq_true]
    rintro ⟨c, mem, space⟩
    rw [h.spaceless c mem] at space
    cases space
  have relative : ¬text.take 2 = ['/', '/'] := by
    obtain ⟨c, rest, rfl, word⟩ := h.first
    intro same
    obtain rfl := (List.cons_eq_cons.mp same).1
    cases word
  rw [coerce, h.unquoteCell_eq, if_neg (not_or.mpr ⟨h.ne_nil, spaceless⟩), if_neg relative]

end PlainLine

section Host

theorem mem_of_mem_split_or (sep : Char) {c : Char} {s : Text} (mem : c ∈ s) :
    c = sep ∨ ∃ part ∈ split sep s, c ∈ part := by
  induction s with
  | nil => cases mem
  | cons d s ih =>
    rw [split]
    cases parted : split sep s with
    | nil => exact absurd parted (split_ne_nil sep s)
    | cons part parts =>
      rw [parted] at ih
      dsimp only
      obtain rfl | later := List.mem_cons.mp mem
      · split
        · next same => exact Or.inl same
        · exact Or.inr ⟨_, List.mem_cons_self, List.mem_cons_self⟩
      · obtain same | ⟨found, inParts, inside⟩ := ih later
        · exact Or.inl same
        · right
          split
          · exact ⟨found, List.mem_cons_of_mem _ inParts, inside⟩
          · obtain rfl | inRest := List.mem_cons.mp inParts
            · exact ⟨_, List.mem_cons_self, List.mem_cons_of_mem d inside⟩
            · exact ⟨found, List.mem_cons_of_mem _ inRest, inside⟩

theorem head?_of_split {sep c : Char} {s part : Text} (h : (split sep s).head? = some part)
    (first : part.head? = some c) : s.head? = some c := by
  cases s with
  | nil =>
    cases h
    cases first
  | cons d s =>
    rw [split] at h
    cases parted : split sep s with
    | nil => exact absurd parted (split_ne_nil sep s)
    | cons other parts =>
      rw [parted] at h
      dsimp only at h
      split at h
      · cases h
        cases first
      · cases h
        exact first

theorem of_isHostName (h : isHostName host = true) :
    (∃ c rest, host = c :: rest ∧ isWordChar c = true) ∧
      (∀ c ∈ host, isHostChar c = true) ∧ '.' ∈ host := by
  rw [isHostName] at h
  simp only [Bool.and_eq_true, decide_eq_true_eq] at h
  obtain ⟨⟨more, labels⟩, final⟩ := h
  have dotted : '.' ∈ host := by
    refine Classical.not_not.mp fun free => more ?_
    rw [split_of_notMem free]
    rfl
  refine ⟨?_, fun c mem => ?_, dotted⟩
  · cases parts : split '.' host with
    | nil => exact absurd parts (split_ne_nil '.' host)
    | cons part rest =>
      have inside : part ∈ (split '.' host).dropLast := by
        rw [parts] at more ⊢
        cases rest with
        | nil => exact absurd rfl more
        | cons other rest => exact List.mem_cons_self
      have label := List.all_eq_true.mp labels part inside
      rw [isHostLabel] at label
      simp only [Bool.and_eq_true] at label
      obtain ⟨c, first, word⟩ := (Option.any_eq_true _ _).mp label.1.1.2
      have begins : host.head? = some c := head?_of_split (by rw [parts]; rfl) first
      obtain ⟨rest, whole⟩ := List.head?_eq_some_iff.mp begins
      exact ⟨c, rest, whole, word⟩
  · obtain rfl | ⟨part, inParts, inside⟩ := mem_of_mem_split_or '.' mem
    · decide
    · rw [← List.dropLast_append_getLast (split_ne_nil '.' host), List.mem_append,
        List.mem_singleton] at inParts
      rw [isHostChar, Bool.or_eq_true, Bool.or_eq_true]
      obtain label | rfl := inParts
      · have allowed := List.all_eq_true.mp labels part label
        rw [isHostLabel, Bool.and_eq_true] at allowed
        have kind := List.all_eq_true.mp allowed.2 c inside
        rw [Bool.or_eq_true] at kind
        exact Or.inl kind
      · rw [List.getLast?_eq_some_getLast (split_ne_nil '.' host)] at final
        have kind : isFinalLabel ((split '.' host).getLast (split_ne_nil '.' host)) = true := final
        rw [isFinalLabel] at kind
        simp only [Bool.or_eq_true, Bool.and_eq_true] at kind
        refine Or.inl (Or.inl ?_)
        rw [isWordChar, Bool.or_eq_true, Bool.or_eq_true]
        obtain ⟨-, letters⟩ | ⟨-, digits⟩ := kind
        · exact Or.inl (Or.inl (List.all_eq_true.mp letters c inside))
        · exact Or.inl (Or.inr (List.all_eq_true.mp digits c inside))

end Host

end Plain

section Schemeless

variable {unicode : UnicodeData} {host suffix : Text} {port : Option Text} {c : Char}

def portText : Option Text → Text
  | none => []
  | some port => ':' :: port

/-- A host with a port and a path, query or fragment after it. -/
def schemelessLine (host : Text) (port : Option Text) (suffix : Text) : Text :=
  host ++ (portText port ++ suffix)

structure Schemeless (host : Text) (port : Option Text) (suffix : Text) : Prop where
  named : matchesHost host = true
  unbroken : '\n' ∉ host
  digits : ∀ n, port = some n → n ≠ [] ∧ ∀ c ∈ n, isAsciiDigit c = true
  rooted : ∀ c, suffix.head? = some c → c = '/' ∨ c = '?' ∨ c = '#'
  plain : ∀ c ∈ suffix, isSpace c = false ∧ c ≠ '"' ∧ c ≠ '\'' ∧ c ≠ ',' ∧ c ≠ ';'

theorem netloc_of_relative {url : Text} {parts : SplitResult} (h : urlsplit unicode url = .ok parts)
    (relative : ¬(splitScheme (withoutUnsafe (lstrip isC0ControlOrSpace url))).2.take 2 =
      ['/', '/']) : parts.netloc = [] := by
  rw [withoutUnsafe] at relative
  rw [urlsplit] at h
  dsimp only at h
  rw [if_neg relative] at h
  obtain ⟨found, located, h⟩ := bind_eq_ok.mp h
  cases located
  obtain ⟨-, -, h⟩ := bind_eq_ok.mp h
  cases h
  rfl

namespace Schemeless

variable (h : Schemeless host port suffix)
include h

theorem isHostName : isHostName host = true := by
  have matched := h.named
  rw [matchesHost, Bool.or_eq_true, Bool.and_eq_true, decide_eq_true_eq] at matched
  refine matched.resolve_right fun ended => h.unbroken (List.mem_of_getLast? ended.1)

theorem hostChar (mem : c ∈ host) : isHostChar c = true := (of_isHostName h.isHostName).2.1 c mem

theorem portChar (mem : c ∈ portText port) : c = ':' ∨ isAsciiDigit c = true := by
  cases port with
  | none => cases mem
  | some n =>
    obtain rfl | digit := List.mem_cons.mp mem
    · exact Or.inl rfl
    · exact Or.inr ((h.digits n rfl).2 c digit)

theorem plainLine : PlainLine (schemelessLine host port suffix) where
  first := by
    obtain ⟨c, rest, rfl, word⟩ := (of_isHostName h.isHostName).1
    exact ⟨c, _, rfl, word⟩
  spaceless c mem := by
    rw [schemelessLine, List.mem_append, List.mem_append] at mem
    obtain inHost | inPort | inSuffix := mem
    · exact isSpace_of_hostChar (h.hostChar inHost)
    · obtain rfl | digit := h.portChar inPort
      · decide
      · refine isSpace_of_hostChar (isWordChar_hostChar ?_)
        rw [isWordChar, digit, Bool.or_true]
        rfl
    · exact (h.plain c inSuffix).1

theorem dot_mem : '.' ∈ schemelessLine host port suffix :=
  List.mem_append_left _ (of_isHostName h.isHostName).2.2

theorem takeWhile_eq : (schemelessLine host port suffix).takeWhile isNetlocChar =
    host ++ portText port := by
  have inside : ∀ c ∈ host ++ portText port, isNetlocChar c = true := by
    intro c mem
    rw [isNetlocChar, decide_eq_true_eq]
    obtain inHost | inPort := List.mem_append.mp mem
    · have kind := h.hostChar inHost
      refine ⟨?_, ?_, ?_⟩
      all_goals rintro rfl; cases kind
    · obtain rfl | digit := h.portChar inPort
      · decide
      · refine ⟨?_, ?_, ?_⟩
        all_goals rintro rfl; cases digit
  have stops : suffix.takeWhile isNetlocChar = [] := by
    cases suffix with
    | nil => rfl
    | cons c suffix =>
      refine List.takeWhile_cons_of_neg ?_
      obtain rfl | rfl | rfl := h.rooted c rfl
      all_goals decide
  rw [schemelessLine, ← List.append_assoc, List.takeWhile_append_of_pos inside, stops,
    List.append_nil]

theorem colon_notMem_host : ':' ∉ host := by
  intro mem
  have kind := h.hostChar mem
  cases kind

theorem pastedHost_eq : pastedHost (schemelessLine host port suffix) = host := by
  rw [pastedHost, h.takeWhile_eq]
  cases port with
  | none =>
    rw [portText, List.append_nil, rpartition_of_notMem h.colon_notMem_host]
    rfl
  | some n =>
    have apart : ':' ∉ n := fun mem => by cases (h.digits n rfl).2 ':' mem
    rw [portText, rpartition_append_cons apart]
    rfl

theorem declaresScheme_eq : declaresScheme (schemelessLine host port suffix) =
    (port.isSome && host.head?.any isAsciiAlpha && host.all isSchemeChar) := by
  cases port with
  | none =>
    rw [schemelessLine, portText, List.nil_append, declaresScheme]
    by_cases colon : ':' ∈ suffix
    · obtain ⟨a, b, apart, rfl, -⟩ := exists_partition colon
      have before : ':' ∉ host ++ a := by
        rw [List.mem_append, not_or]
        exact ⟨h.colon_notMem_host, apart⟩
      have stopped : (host ++ a).all isSchemeChar = false := by
        cases a with
        | nil => obtain same | same | same := h.rooted ':' rfl <;> cases same
        | cons c a =>
          have other : isSchemeChar c = false := by
            obtain rfl | rfl | rfl := h.rooted c rfl
            all_goals decide
          rw [List.all_append, List.all_cons, other, Bool.false_and, Bool.and_false]
      rw [← List.append_assoc, partition_append_cons before]
      dsimp only
      rw [stopped, Bool.and_false]
      rfl
    · have nowhere : ':' ∉ host ++ suffix := by
        rw [List.mem_append, not_or]
        exact ⟨h.colon_notMem_host, colon⟩
      rw [partition_of_notMem nowhere]
      rfl
  | some n =>
    rw [schemelessLine, portText, List.cons_append, declaresScheme,
      partition_append_cons h.colon_notMem_host]
    rfl

theorem allSchemeChar_iff : host.all isSchemeChar = true ↔ '_' ∉ host := by
  rw [List.all_eq_true]
  constructor
  · intro all mem
    cases all '_' mem
  · intro free c mem
    have kind := h.hostChar mem
    rw [isHostChar, isWordChar] at kind
    rw [isSchemeChar]
    simp only [Bool.or_eq_true, decide_eq_true_eq] at kind ⊢
    have other : c ≠ '_' := fun same => free (same ▸ mem)
    tauto

theorem coerce_of_undeclared
    (undeclared : declaresScheme (schemelessLine host port suffix) = false) :
    coerce unicode (schemelessLine host port suffix) =
      some ("https://".toList ++ schemelessLine host port suffix, true) := by
  rw [h.plainLine.coerce_eq, undeclared, h.pastedHost_eq, if_pos h.named]
  rfl

theorem unsafe_notMem (mem : c ∈ schemelessLine host port suffix) : isUnsafeUrlByte c = false := by
  have stays := h.plainLine.spaceless c mem
  refine Bool.eq_false_iff.mpr fun removed => ?_
  rw [isUnsafeUrlByte] at removed
  simp only [Bool.or_eq_true, decide_eq_true_eq] at removed
  obtain (rfl | rfl) | rfl := removed
  all_goals cases stays

theorem coerce_of_declared (declared : declaresScheme (schemelessLine host port suffix) = true) :
    coerce unicode (schemelessLine host port suffix) = none := by
  rw [h.declaresScheme_eq, Bool.and_eq_true, Bool.and_eq_true] at declared
  obtain ⟨⟨ported, letter⟩, chars⟩ := declared
  obtain ⟨n, rfl⟩ := Option.isSome_iff_exists.mp ported
  obtain ⟨filled, digits⟩ := h.digits n rfl
  obtain ⟨d, n, rfl⟩ := List.exists_cons_of_ne_nil filled
  have cleaned : withoutUnsafe (lstrip isC0ControlOrSpace (schemelessLine host (some (d :: n)) suffix)) =
      schemelessLine host (some (d :: n)) suffix := by
    obtain ⟨c, rest, whole, word⟩ := h.plainLine.first
    have printable : ¬isC0ControlOrSpace c = true := by
      rw [isC0ControlOrSpace, decide_eq_true_eq]
      obtain digit | capital | small | rfl := wordChar_toNat word
      · omega
      · omega
      · omega
      · decide
    rw [whole, lstrip, List.dropWhile_cons_of_neg printable, ← whole]
    exact withoutUnsafe_eq_self fun c mem => h.unsafe_notMem mem
  have scheme : splitScheme (schemelessLine host (some (d :: n)) suffix) =
      (lowerAscii host, d :: n ++ suffix) := by
    rw [schemelessLine, portText, List.cons_append, splitScheme,
      partition_append_cons h.colon_notMem_host]
    dsimp only
    rw [letter, chars]
    rfl
  have relative : ¬(d :: n ++ suffix).take 2 = ['/', '/'] := by
    intro same
    obtain rfl := (List.cons_eq_cons.mp same).1
    cases digits '/' List.mem_cons_self
  have undeclared : declaresScheme (schemelessLine host (some (d :: n)) suffix) = true := by
    rw [h.declaresScheme_eq, letter, chars]
    rfl
  rw [h.plainLine.coerce_eq, if_pos undeclared, safeSplit, h.plainLine.strip_eq]
  cases split : urlsplit unicode (schemelessLine host (some (d :: n)) suffix) with
  | error e => rfl
  | ok parts =>
    have nowhere : parts.netloc = [] :=
      netloc_of_relative split (by rw [cleaned, scheme]; exact relative)
    exact if_neg fun web => web.2 nowhere

theorem separators_notMem {separator : Char} (mem : separator ∈ cellSeparators) :
    separator ∉ schemelessLine host port suffix := by
  intro inside
  rw [schemelessLine, List.mem_append, List.mem_append] at inside
  simp only [cellSeparators, List.mem_cons, List.not_mem_nil, or_false] at mem
  obtain inHost | inPort | inSuffix := inside
  · have kind := h.hostChar inHost
    obtain rfl | rfl | rfl := mem
    all_goals cases kind
  · obtain rfl | rfl | rfl := mem
    all_goals obtain same | digit := h.portChar inPort
    all_goals first | cases same | cases digit
  · obtain ⟨stays, -, -, comma, semicolon⟩ := h.plain _ inSuffix
    obtain rfl | rfl | rfl := mem
    · cases stays
    · exact comma rfl
    · exact semicolon rfl

theorem readLine_of_declared (declared : declaresScheme (schemelessLine host port suffix) = true) :
    readLine unicode (schemelessLine host port suffix) = none := by
  rw [readLine, h.coerce_of_declared declared]
  refine List.findSome?_eq_none_iff.mpr fun separator mem => ?_
  exact if_neg (h.separators_notMem mem)

end Schemeless

/-- What the documentation promises of `str.lower`: it lowers ASCII text letter by letter,
and does not touch a dot. -/
structure KeepsDots (unicode : UnicodeData) : Prop where
  lower_ascii : ∀ s, isAscii s = true → unicode.lower s = s.map Char.toLower
  dot : ∀ s, '.' ∈ s → '.' ∈ unicode.lower s

theorem notMem_headerWords (dots : KeepsDots unicode) {text : Text} (dotted : '.' ∈ text) :
    unicode.lower text ∉ headerWords := by
  have plain : headerWords.all fun word => '.' ∉ word := by decide
  intro header
  have free := List.all_eq_true.mp plain _ header
  rw [decide_eq_true_eq] at free
  exact free (dots.dot text dotted)

namespace Schemeless

variable (h : Schemeless host port suffix)
include h

theorem plainLine_https : PlainLine ("https://".toList ++ schemelessLine host port suffix) where
  first := ⟨'h', _, rfl, by decide⟩
  spaceless c mem := by
    obtain inScheme | inLine := List.mem_append.mp mem
    · have free : ("https://".toList).all fun c => !isSpace c := by decide
      exact Bool.not_eq_true' _ |>.mp (List.all_eq_true.mp free c inScheme)
    · exact h.plainLine.spaceless c inLine

theorem mem_netloc (mem : c ∈ host ++ portText port) : c.toNat < 128 ∧ c ≠ '[' ∧ c ≠ ']' := by
  obtain inHost | inPort := List.mem_append.mp mem
  · have kind := h.hostChar inHost
    refine ⟨(hostChar_toNat kind).1, ?_, ?_⟩
    all_goals rintro rfl; cases kind
  · obtain rfl | digit := h.portChar inPort
    · decide
    · refine ⟨?_, ?_, ?_⟩
      · rw [isAsciiDigit, Bool.and_eq_true, decide_eq_true_eq, decide_eq_true_eq] at digit
        omega
      all_goals rintro rfl; cases digit

variable (unicode) in
theorem safeSplit_https : ∃ parts,
    safeSplit unicode ("https://".toList ++ schemelessLine host port suffix) = some parts ∧
      parts.scheme = "https".toList ∧ parts.netloc ≠ [] := by
  have whole : "https://".toList ++ schemelessLine host port suffix =
      "https".toList ++ ':' :: '/' :: '/' :: schemelessLine host port suffix := rfl
  have brackets : checkBrackets unicode (host ++ portText port) = .ok () := by
    have left : '[' ∉ host ++ portText port := fun mem => (h.mem_netloc mem).2.1 rfl
    have right : ']' ∉ host ++ portText port := fun mem => (h.mem_netloc mem).2.2 rfl
    rw [checkBrackets, if_neg (by tauto), partition_of_notMem left]
  have ascii : isAscii (host ++ portText port) = true :=
    List.all_eq_true.mpr fun c mem => decide_eq_true (h.mem_netloc mem).1
  have netloc : checkNetloc unicode (host ++ portText port) = .ok () := by
    rw [checkNetloc]
    exact if_pos (Or.inl ascii)
  rw [safeSplit, h.plainLine_https.strip_eq, whole, urlsplit_web (Or.inr rfl),
    withoutUnsafe_eq_self fun c mem => h.unsafe_notMem mem, splitRest, h.takeWhile_eq, brackets,
    netloc]
  refine ⟨_, rfl, rfl, ?_⟩
  obtain ⟨c, rest, rfl, -⟩ := (of_isHostName h.isHostName).1
  exact List.cons_ne_nil c _

theorem readLine_https (dots : KeepsDots unicode) :
    readLine unicode ("https://".toList ++ schemelessLine host port suffix) =
      some ⟨"https://".toList ++ schemelessLine host port suffix, false, false⟩ := by
  have declared : declaresScheme ("https://".toList ++ schemelessLine host port suffix) = true := rfl
  obtain ⟨parts, split, scheme, located⟩ := h.safeSplit_https unicode
  have lowered : unicode.lower parts.scheme = "https".toList := by
    rw [scheme, dots.lower_ascii _ (by decide)]
    decide
  rw [readLine, h.plainLine_https.coerce_eq, if_pos declared, split]
  dsimp only
  rw [if_pos ⟨Or.inr lowered, located⟩]

end Schemeless

/-- A schemeless line is read like its `https` form, counted once as such, exactly when it
has no port or its host cannot be taken for a scheme. -/
theorem parsePastedUrls_schemeless_iff (dots : KeepsDots unicode)
    (h : Schemeless host port suffix) :
    (parsePastedUrls unicode (schemelessLine host port suffix) =
          { urls := ["https://".toList ++ schemelessLine host port suffix]
            counts := { lines := 1, accepted := 1, schemeAdded := 1 } } ∧
        (parsePastedUrls unicode (schemelessLine host port suffix)).urls = (parsePastedUrls unicode
            ("https://".toList ++ schemelessLine host port suffix)).urls) ↔
      port = none ∨ ¬host.head?.any isAsciiAlpha = true ∨ '_' ∈ host := by
  have content := notMem_headerWords dots h.dot_mem
  have content' := notMem_headerWords dots (List.mem_append_right "https://".toList h.dot_mem)
  rw [h.plainLine.parsePastedUrls_eq content, h.plainLine_https.parsePastedUrls_eq content',
    h.readLine_https dots]
  cases declared : declaresScheme (schemelessLine host port suffix) with
  | true =>
    rw [h.readLine_of_declared declared]
    refine iff_of_false (fun same => ?_) fun safe => ?_
    · cases (ParsedPaste.mk.inj same.1).1
    · rw [h.declaresScheme_eq, Bool.and_eq_true, Bool.and_eq_true, h.allSchemeChar_iff] at declared
      obtain rfl | other | underscore := safe
      · cases declared.1.1
      · exact other declared.1.2
      · exact declared.2 underscore
  | false =>
    rw [readLine, h.coerce_of_undeclared declared]
    refine iff_of_true ⟨rfl, rfl⟩ ?_
    rw [h.declaresScheme_eq, Bool.and_eq_false_iff, Bool.and_eq_false_iff] at declared
    obtain (portless | other) | chars := declared
    · exact Or.inl (Option.isSome_eq_false_iff.mp portless |> Option.isNone_iff_eq_none.mp)
    · exact Or.inr (Or.inl (Bool.eq_false_iff.mp other))
    · refine Or.inr (Or.inr (Classical.not_not.mp fun free => ?_))
      rw [h.allSchemeChar_iff.mpr free] at chars
      cases chars

end Schemeless

section Sample

theorem keepsDots_ascii : KeepsDots .ascii where
  lower_ascii _ _ := rfl
  dot _ mem := List.mem_map.mpr ⟨'.', mem, rfl⟩

/-- A page named by its host and path. -/
theorem page_read : parsePastedUrls .ascii "a.io/x".toList =
      { urls := ["https://a.io/x".toList]
        counts := { lines := 1, accepted := 1, schemeAdded := 1 } } ∧
    (parsePastedUrls .ascii "a.io/x".toList).urls =
      (parsePastedUrls .ascii "https://a.io/x".toList).urls := by
  have shape : Schemeless "a.io".toList none "/x".toList := by
    refine ⟨by decide, by decide, ?_, ?_, ?_⟩
    · exact fun n ported => by cases ported
    · intro c first
      obtain rfl := Option.some.inj first
      exact Or.inl rfl
    · intro c mem
      obtain rfl | rfl := List.mem_pair.mp mem
      · decide
      · decide
  exact (parsePastedUrls_schemeless_iff keepsDots_ascii shape).mpr (Or.inl rfl)

/-- A host with a port is taken for a scheme. -/
theorem port_refused : ¬∀ host port suffix, Schemeless host port suffix →
    parsePastedUrls .ascii (schemelessLine host port suffix) =
        { urls := ["https://".toList ++ schemelessLine host port suffix]
          counts := { lines := 1, accepted := 1, schemeAdded := 1 } } ∧
      (parsePastedUrls .ascii (schemelessLine host port suffix)).urls =
        (parsePastedUrls .ascii ("https://".toList ++ schemelessLine host port suffix)).urls := by
  intro always
  have shape : Schemeless "a.io".toList (some "80".toList) [] := by
    refine ⟨by decide, by decide, ?_, ?_, ?_⟩
    · intro n ported
      obtain rfl := Option.some.inj ported
      refine ⟨List.cons_ne_nil _ _, fun c mem => ?_⟩
      obtain rfl | rfl := List.mem_pair.mp mem
      · decide
      · decide
    · intro c first
      cases first
    · intro c mem
      cases mem
  have refused : (parsePastedUrls .ascii
      (schemelessLine "a.io".toList (some "80".toList) [])).urls = [] := by decide
  rw [(always _ _ _ shape).1] at refused
  cases refused

end Sample

end Rankuno
