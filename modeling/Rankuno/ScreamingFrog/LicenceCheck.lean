import Rankuno.Python.Digits
import Rankuno.Python.Lower
import Rankuno.Python.Utf8RoundTrip

/-!
# The licence verdict of a finished run

`license_check.py`: two lines of the log of Screaming Frog, read from where the run began,
say whether the licence was active and how many pages were crawled. The second line is read
without the thousands separators that the sibling parser knows of, and a file beside the log
can take the place of the first.
-/

namespace Rankuno.LicenceCheck

open Python Python.Text

section Code

def freeTierUrlCeiling : Nat := 500

structure LicenceStatus where
  active : Bool
  rawLine : Option Text := none
  pagesCrawled : Option Nat := none
  freeTierCapped : Bool := false
  expectedUrlCount : Option Nat := none
  deriving DecidableEq

/-- The bytes of the log, none where reading them raises an `OSError`, and the sizes of the
files beside it. -/
structure Files where
  log : Option (List UInt8)
  size : Text → Option Nat

def licenceText : Text := "Licence Status:".toList
def completedText : Text := "Completed the spider of ".toList
def crawledText : Text := " crawled".toList
def unitTexts : List Text := [" url".toList, " urls".toList]
def activeText : Text := "active".toList
def licenceFileName : Text := "licence.txt".toList
def licenceFileText : Text := "Licence file present: ".toList

/-- What stands after the first `needle`. -/
def afterText? (needle : Text) : Text → Option Text
  | [] => none
  | c :: s =>
    if needle.isPrefixOf (c :: s) then some ((c :: s).drop needle.length)
    else afterText? needle s

/-- The `body` of `_LICENCE_LINE.search`: if only whitespace follows the colon, then the last
character of it is left to `.+`. -/
def licenceBody? (line : Text) : Option Text :=
  match afterText? licenceText line with
  | none => none
  | some [] => none
  | some (c :: rest) =>
    match lstrip isSpace (c :: rest) with
    | [] => some [(c :: rest).getLast (List.cons_ne_nil c rest)]
    | d :: body => some (d :: body)

/-- `body.strip().lower().startswith("active")`. -/
def saysActive (unicode : UnicodeData) (body : Text) : Bool :=
  activeText.isPrefixOf (unicode.lower (strip isSpace body))

/-- What stands before the word at the end of a completion line. -/
def beforeUnit? (line : Text) : Option Text :=
  (unitTexts.find? fun unit => unit.isSuffixOf line).map fun unit =>
    line.take (line.length - unit.length)

/-- `Completed the spider of .+ crawled`, at the end of a text. -/
def endsSpidered (lead : Text) : Bool :=
  crawledText.isSuffixOf lead &&
    (afterText? completedText (lead.take (lead.length - crawledText.length))).any
      fun spidered => !spidered.isEmpty

/-- The `count` of a completion line; which texts are counts is left open. -/
def completed? (isCount : Text → Bool) (line : Text) : Option Text :=
  match beforeUnit? line with
  | none => none
  | some body =>
    match rpartition ' ' body with
    | (none, _) => none
    | (some lead, count) => if isCount count && endsSpidered lead then some count else none

def appendedLines (bytes : List UInt8) (sinceOffset : Nat) : List Text :=
  splitlines (Utf8.decodeReplacing (bytes.drop sinceOffset))

/-- Whether there is a licence file with something in it. -/
def Files.licensed (files : Files) : Bool :=
  match files.size licenceFileName with
  | none => false
  | some size => 0 < size

variable (digits : DecimalDigits) (unicode : UnicodeData)

/-- `raw_line` and `active` after the first loop. -/
def readLicence (lines : List Text) : Option Text × Bool :=
  let found := lines.findSome? fun line =>
    (licenceBody? line).map fun body => (strip isSpace line, saysActive unicode body)
  (found.map Prod.fst, found.any Prod.snd)

/-- `pages_crawled` after the second loop, or the `ValueError` of `int`. -/
def readPages (lines : List Text) : Option (Option Nat) :=
  match lines.findSome? (completed? digits.isPlain) with
  | none => some none
  | some count => (digits.int? count).map fun n => some n

def isCapped (pagesCrawled expectedUrlCount : Option Nat) : Bool :=
  pagesCrawled = some freeTierUrlCeiling &&
    match expectedUrlCount with
    | none => true
    | some expected => freeTierUrlCeiling < expected

/-- `read_licence_status`; a `ValueError` is `none`. -/
def readLicenceStatus (files : Files) (sinceOffset : Nat) (expectedUrlCount : Option Nat) :
    Option LicenceStatus :=
  match files.log with
  | none => some { active := false }
  | some bytes =>
    let lines := appendedLines bytes sinceOffset
    let (rawLine, active) := readLicence unicode lines
    let (rawLine, active) :=
      if !active && files.licensed then (some (licenceFileText ++ licenceFileName), true)
      else (rawLine, active)
    (readPages digits lines).map fun pagesCrawled =>
      { active, rawLine, pagesCrawled,
        freeTierCapped := isCapped pagesCrawled expectedUrlCount, expectedUrlCount }

end Code

section Meaning

/-- The lines that the run appended, none of a log that cannot be read. -/
def Files.lines (files : Files) (sinceOffset : Nat) : List Text :=
  match files.log with
  | none => []
  | some bytes => appendedLines bytes sinceOffset

variable (digits : DecimalDigits) (unicode : UnicodeData)

/-- The first line with `Licence Status:` says that the licence is active. -/
def firstSaysActive (lines : List Text) : Bool :=
  (lines.findSome? (afterText? licenceText)).any (saysActive unicode)

/-- The count of the first completion line, with or without thousands separators. -/
def firstCount (lines : List Text) : Option Text := lines.findSome? (completed? digits.isCount)

/-- A status that says of the licence no more than the lines do, and of the pages the same. -/
structure TellsTheRun (lines : List Text) (expectedUrlCount : Option Nat)
    (status : LicenceStatus) : Prop where
  active : status.active = true → firstSaysActive unicode lines = true
  pages : ∀ count, firstCount digits lines = some count →
    status.pagesCrawled = some (digits.number count)
  capped : status.freeTierCapped = true ↔
    (firstCount digits lines).map digits.number = some freeTierUrlCeiling ∧
      ∀ expected, expectedUrlCount = some expected → freeTierUrlCeiling < expected

/-- The first line with `Licence Status:` says that the licence is active, or neither the file
beside the log nor the first such line with something after the colon says so. -/
def LicenceLegible (files : Files) (lines : List Text) : Prop :=
  firstSaysActive unicode lines = true ∨
    files.licensed = false ∧ (lines.findSome? licenceBody?).any (saysActive unicode) = false

/-- The first completion line has no comma in its count, or the first one without a comma has
the same number; and that one is not longer than `int` reads. -/
def CountLegible (lines : List Text) : Prop :=
  (∀ count, firstCount digits lines = some count → ',' ∉ count ∨
    ∃ plain, lines.findSome? (completed? digits.isPlain) = some plain ∧
      digits.number plain = digits.number count) ∧
  ∀ plain, lines.findSome? (completed? digits.isPlain) = some plain →
    plain.length ≤ DecimalDigits.maxStrDigits

end Meaning

section Texts

variable {needle lead spidered line body count unit : Text}

theorem afterText?_cons {c : Char} {s : Text} (away : ¬needle <+: c :: s) :
    afterText? needle (c :: s) = afterText? needle s := by
  rw [afterText?, if_neg fun here => away (List.isPrefixOf_iff_prefix.mp here)]

theorem afterText?_eq_some (found : afterText? needle line = some body) :
    ∃ before, line = before ++ needle ++ body := by
  induction line with
  | nil => cases found
  | cons c s ih =>
    rw [afterText?] at found
    split at found
    · next here =>
      obtain ⟨rest, whole⟩ := List.isPrefixOf_iff_prefix.mp here
      cases found
      exact ⟨[], by rw [← whole, List.nil_append, List.drop_left]⟩
    · obtain ⟨before, rfl⟩ := ih found
      exact ⟨c :: before, rfl⟩

theorem exists_afterText? (filled : needle ≠ []) (before body : Text) :
    ∃ rest, afterText? needle (before ++ needle ++ body) = some rest ∧ body <:+ rest := by
  induction before with
  | nil =>
    refine ⟨body, ?_, List.suffix_rfl⟩
    rw [List.nil_append]
    obtain ⟨c, s, rfl⟩ := List.exists_cons_of_ne_nil filled
    rw [List.cons_append, afterText?, if_pos, ← List.cons_append, List.drop_left]
    exact List.isPrefixOf_iff_prefix.mpr (List.prefix_append (c :: s) body)
  | cons c before ih =>
    by_cases here : needle <+: c :: (before ++ needle ++ body)
    · refine ⟨(c :: (before ++ needle ++ body)).drop needle.length, ?_, ?_⟩
      · rw [List.cons_append, List.cons_append, afterText?,
          if_pos (List.isPrefixOf_iff_prefix.mpr here)]
      · have parts : c :: (before ++ needle ++ body) = (c :: before ++ needle) ++ body := rfl
        have short : needle.length ≤ (c :: before ++ needle).length := by
          rw [List.length_append]
          exact Nat.le_add_left _ _
        rw [parts, List.drop_append_of_le_length short]
        exact List.suffix_append _ body
    · rw [List.cons_append, List.cons_append, afterText?_cons here]
      exact ih

theorem take_sub_suffix (ends : unit <:+ line) :
    line.take (line.length - unit.length) ++ unit = line := by
  obtain ⟨body, rfl⟩ := ends
  rw [List.length_append, Nat.add_sub_cancel, List.take_left]

theorem unit_unique {other : Text} (own : unit ∈ unitTexts) (own' : other ∈ unitTexts)
    (ends : unit <:+ line) (ends' : other <:+ line) : unit = other := by
  have apart (one : " url".toList <:+ line) (two : " urls".toList <:+ line) : False := by
    obtain ⟨body, rfl⟩ := one
    obtain ⟨rest, same⟩ := two
    have last := congrArg List.getLast? same
    rw [List.getLast?_append, List.getLast?_append] at last
    exact absurd last (by simp)
  simp only [unitTexts, List.mem_cons, List.not_mem_nil, or_false] at own own'
  obtain rfl | rfl := own <;> obtain rfl | rfl := own'
  · rfl
  · exact (apart ends ends').elim
  · exact (apart ends' ends).elim
  · rfl

theorem beforeUnit?_eq_some_iff : beforeUnit? line = some body ↔
    ∃ unit ∈ unitTexts, line = body ++ unit := by
  rw [beforeUnit?, Option.map_eq_some_iff]
  constructor
  · rintro ⟨unit, found, rfl⟩
    have ends : unit.isSuffixOf line = true :=
      List.find?_some (p := fun unit : Text => unit.isSuffixOf line) found
    rw [List.isSuffixOf_iff_suffix] at ends
    exact ⟨unit, List.mem_of_find?_eq_some found, (take_sub_suffix ends).symm⟩
  · rintro ⟨unit, own, rfl⟩
    have ends : unit <:+ body ++ unit := List.suffix_append body unit
    cases found : unitTexts.find? fun other => other.isSuffixOf (body ++ unit) with
    | none =>
      have missing := List.find?_eq_none.mp found unit own
      exact absurd (List.isSuffixOf_iff_suffix.mpr ends) missing
    | some other =>
      have ends' : other.isSuffixOf (body ++ unit) = true :=
        List.find?_some (p := fun other : Text => other.isSuffixOf (body ++ unit)) found
      rw [List.isSuffixOf_iff_suffix] at ends'
      obtain rfl := unit_unique own (List.mem_of_find?_eq_some found) ends ends'
      refine ⟨unit, rfl, ?_⟩
      rw [List.length_append, Nat.add_sub_cancel, List.take_left]

theorem endsSpidered_iff : endsSpidered lead = true ↔
    ∃ before spidered, lead = before ++ completedText ++ spidered ++ crawledText ∧
      spidered ≠ [] := by
  rw [endsSpidered, Bool.and_eq_true, List.isSuffixOf_iff_suffix, Option.any_eq_true]
  constructor
  · rintro ⟨ends, spidered, found, filled⟩
    obtain ⟨before, parts⟩ := afterText?_eq_some found
    refine ⟨before, spidered, ?_, List.isEmpty_eq_false_iff.mp (Bool.not_eq_true' _ ▸ filled)⟩
    rw [← parts, take_sub_suffix ends]
  · rintro ⟨before, spidered, rfl, filled⟩
    refine ⟨List.suffix_append _ crawledText, ?_⟩
    rw [List.length_append, Nat.add_sub_cancel, List.take_left]
    obtain ⟨rest, found, shorter⟩ :=
      exists_afterText? (by decide : completedText ≠ []) before spidered
    refine ⟨rest, found, ?_⟩
    rw [Bool.not_eq_true', List.isEmpty_eq_false_iff]
    rintro rfl
    exact filled (List.suffix_nil.mp shorter)

theorem completed?_eq_some_iff {isCount : Text → Bool}
    (spaceless : ∀ count, isCount count = true → ' ' ∉ count) :
    completed? isCount line = some count ↔ isCount count = true ∧
      ∃ before spidered, ∃ unit ∈ unitTexts, spidered ≠ [] ∧
        line = before ++ completedText ++ spidered ++ crawledText ++ ' ' :: count ++ unit := by
  constructor
  · intro found
    rw [completed?] at found
    split at found
    · cases found
    · next body cut =>
      obtain ⟨unit, own, rfl⟩ := beforeUnit?_eq_some_iff.mp cut
      split at found
      · cases found
      · next lead last parts =>
        split at found
        · next both =>
          cases found
          obtain ⟨counts, ends⟩ := Bool.and_eq_true_iff.mp both
          obtain ⟨before, spidered, rfl, filled⟩ := endsSpidered_iff.mp ends
          refine ⟨counts, before, spidered, unit, own, filled, ?_⟩
          rw [← eq_of_rpartition parts]
        · cases found
  · rintro ⟨counts, before, spidered, unit, own, filled, rfl⟩
    rw [completed?, beforeUnit?_eq_some_iff.mpr ⟨unit, own, rfl⟩]
    dsimp only
    rw [rpartition_append_cons (spaceless count counts)]
    dsimp only
    rw [if_pos]
    rw [counts, endsSpidered_iff.mpr ⟨before, spidered, rfl, filled⟩]
    rfl

end Texts

section Verdicts

variable {digits : DecimalDigits} {unicode : UnicodeData} {files : Files} {lines : List Text}
  {count plain line : Text} {expectedUrlCount : Option Nat}

theorem completed?_isPlain : completed? digits.isPlain line =
    (completed? digits.isCount line).filter digits.isPlain := by
  rw [completed?, completed?]
  cases beforeUnit? line with
  | none => rfl
  | some body =>
    dsimp only
    split
    · rfl
    · next lead count parts =>
      cases plain : digits.isPlain count with
      | true =>
        rw [DecimalDigits.isCount, plain, Bool.true_or]
        split
        · rw [Option.filter_some, plain, if_pos rfl]
        · rfl
      | false =>
        rw [Bool.false_and, if_neg Bool.false_ne_true]
        split
        · rw [Option.filter_some, plain, if_neg Bool.false_ne_true]
        · rfl

theorem isCount_of_firstCount (found : firstCount digits lines = some count) :
    digits.isCount count = true := by
  obtain ⟨line, -, completed⟩ := List.exists_of_findSome?_eq_some found
  exact ((completed?_eq_some_iff fun _ => DecimalDigits.notMem_space_of_isCount).mp completed).1

theorem isPlain_of_findSome? (found : lines.findSome? (completed? digits.isPlain) = some plain) :
    digits.isPlain plain = true := by
  obtain ⟨line, -, completed⟩ := List.exists_of_findSome?_eq_some found
  rw [completed?_isPlain, Option.filter_eq_some_iff] at completed
  exact completed.2

theorem findSome?_isPlain (found : firstCount digits lines = some count) (plain : ',' ∉ count) :
    lines.findSome? (completed? digits.isPlain) = some count := by
  have own := DecimalDigits.isPlain_of_isCount (isCount_of_firstCount found) plain
  obtain ⟨before, line, after, rfl, completed, none_⟩ := List.findSome?_eq_some_iff.mp found
  refine List.findSome?_eq_some_iff.mpr ⟨before, line, after, rfl, ?_, fun other mem => ?_⟩
  · rw [completed?_isPlain, completed, Option.filter_some, own, if_pos rfl]
  · rw [completed?_isPlain, none_ other mem, Option.filter_none]

theorem findSome?_isPlain_of_none (found : firstCount digits lines = none) :
    lines.findSome? (completed? digits.isPlain) = none := by
  rw [List.findSome?_eq_none_iff]
  intro line mem
  rw [completed?_isPlain, List.findSome?_eq_none_iff.mp found line mem, Option.filter_none]

theorem readPages_of_legible (legible : CountLegible digits lines) :
    readPages digits lines = some ((firstCount digits lines).map digits.number) := by
  rw [readPages]
  cases first : firstCount digits lines with
  | none => rw [findSome?_isPlain_of_none first, Option.map_none]
  | some count =>
    have read : ∃ plain, lines.findSome? (completed? digits.isPlain) = some plain ∧
        digits.number plain = digits.number count := by
      obtain plainly | later := legible.1 count first
      · exact ⟨count, findSome?_isPlain first plainly, rfl⟩
      · exact later
    obtain ⟨plain, found, same⟩ := read
    have filled := DecimalDigits.ne_nil_of_isPlain (isPlain_of_findSome? found)
    rw [found]
    dsimp only
    rw [DecimalDigits.int?_of_length filled (legible.2 plain found), same]
    rfl

theorem legible_of_readPages {pages : Option Nat} (read : readPages digits lines = some pages)
    (exact_ : ∀ count, firstCount digits lines = some count →
      pages = some (digits.number count)) : CountLegible digits lines := by
  rw [readPages] at read
  cases found : lines.findSome? (completed? digits.isPlain) with
  | none =>
    rw [found] at read
    cases read
    refine ⟨fun count first => ?_, fun plain found' => ?_⟩
    · exact absurd (exact_ count first) (Option.some_ne_none _).symm
    · rw [found] at found'
      cases found'
  | some plain =>
    rw [found] at read
    dsimp only at read
    obtain ⟨n, number, rfl⟩ := Option.map_eq_some_iff.mp read
    obtain ⟨short, rfl⟩ := DecimalDigits.length_of_int? number
    refine ⟨fun count first => Or.inr ⟨plain, found, ?_⟩, fun plain' found' => ?_⟩
    · exact Option.some.inj (exact_ count first)
    · rw [found] at found'
      cases found'
      exact short

theorem isCapped_iff {pages : Option Nat} : isCapped pages expectedUrlCount = true ↔
    pages = some freeTierUrlCeiling ∧
      ∀ expected, expectedUrlCount = some expected → freeTierUrlCeiling < expected := by
  cases expectedUrlCount with
  | none => simp [isCapped]
  | some expected => simp [isCapped]

theorem readLicence_snd : (readLicence unicode lines).2 =
    (lines.findSome? licenceBody?).any (saysActive unicode) := by
  rw [readLicence]
  dsimp only
  induction lines with
  | nil => rfl
  | cons line lines ih =>
    rw [List.findSome?_cons, List.findSome?_cons]
    cases licenceBody? line with
    | none => exact ih
    | some body => rfl

theorem readLicenceStatus_parts {bytes : List UInt8} {sinceOffset : Nat} {status : LicenceStatus}
    (log : files.log = some bytes)
    (read : readLicenceStatus digits unicode files sinceOffset expectedUrlCount = some status) :
    (status.active = true ↔ files.licensed = true ∨
      ((appendedLines bytes sinceOffset).findSome? licenceBody?).any (saysActive unicode) = true) ∧
    readPages digits (appendedLines bytes sinceOffset) = some status.pagesCrawled ∧
      status.freeTierCapped = isCapped status.pagesCrawled expectedUrlCount := by
  rw [readLicenceStatus, log] at read
  dsimp only at read
  obtain ⟨pages, pages_, rfl⟩ := Option.map_eq_some_iff.mp read
  refine ⟨?_, pages_, rfl⟩
  rw [← readLicence_snd]
  dsimp only
  cases (readLicence unicode (appendedLines bytes sinceOffset)).2 <;> cases files.licensed <;> simp

end Verdicts

/-- A status comes back and tells the run, exactly where the log cannot be read or its lines
are legible. -/
theorem tellsTheRun_iff (digits : DecimalDigits) (unicode : UnicodeData) (files : Files)
    (sinceOffset : Nat) (expectedUrlCount : Option Nat) :
    (∃ status, readLicenceStatus digits unicode files sinceOffset expectedUrlCount = some status ∧
      TellsTheRun digits unicode (files.lines sinceOffset) expectedUrlCount status) ↔
      files.log = none ∨ LicenceLegible unicode files (files.lines sinceOffset) ∧
        CountLegible digits (files.lines sinceOffset) := by
  cases log : files.log with
  | none =>
    refine ⟨fun _ => Or.inl rfl, fun _ => ?_⟩
    rw [readLicenceStatus, log, Files.lines, log]
    refine ⟨_, rfl, ?_, ?_, ?_⟩
    · exact fun active => absurd active Bool.false_ne_true
    · exact fun count first => absurd first (Option.some_ne_none _).symm
    · refine ⟨fun capped => absurd capped Bool.false_ne_true, fun capped => ?_⟩
      exact absurd capped.1 (Option.some_ne_none _).symm
  | some bytes =>
    have lines_ : files.lines sinceOffset = appendedLines bytes sinceOffset := by
      rw [Files.lines, log]
    rw [lines_, or_iff_right (Option.some_ne_none bytes)]
    constructor
    · rintro ⟨status, read, tells⟩
      obtain ⟨active, pages, -⟩ := readLicenceStatus_parts log read
      refine ⟨?_, legible_of_readPages pages tells.pages⟩
      by_cases told : firstSaysActive unicode (appendedLines bytes sinceOffset) = true
      · exact Or.inl told
      · have inactive := mt tells.active told
        rw [active, not_or, Bool.not_eq_true, Bool.not_eq_true] at inactive
        exact Or.inr inactive
    · rintro ⟨licence, counts⟩
      have pages := readPages_of_legible counts
      obtain ⟨status, read⟩ : ∃ status,
          readLicenceStatus digits unicode files sinceOffset expectedUrlCount = some status := by
        rw [readLicenceStatus, log]
        dsimp only
        rw [pages, Option.map_some]
        exact ⟨_, rfl⟩
      obtain ⟨active, pages', capped⟩ := readLicenceStatus_parts log read
      rw [pages] at pages'
      have same := Option.some.inj pages'
      refine ⟨status, read, fun active' => ?_, fun count first => ?_, ?_⟩
      · obtain told | ⟨unlicensed, silent⟩ := licence
        · exact told
        · rw [active, unlicensed, silent] at active'
          cases active' with
          | inl never => cases never
          | inr never => cases never
      · rw [← same, first, Option.map_some]
      · rw [capped, ← same, isCapped_iff]

/-- The log of a run of a thousand pages. -/
def thousandLog : Text :=
  "Licence Status: Active\nCompleted the spider of http://a/ in 3 s, crawled 1,000 urls".toList

def thousandFiles : Files where
  log := some (Utf8.encode thousandLog)
  size _ := none

theorem lines_thousandFiles : thousandFiles.lines 0 = splitlines thousandLog := by
  rw [Files.lines, thousandFiles]
  dsimp only
  rw [appendedLines, List.drop_zero, Utf8.decodeReplacing_encode]

theorem firstCount_thousandLog :
    firstCount .asciiOnly (splitlines thousandLog) = some "1,000".toList := by
  decide

theorem readPages_thousandLog : readPages .asciiOnly (splitlines thousandLog) = some none := by
  decide

/-- The thousand pages are not counted. -/
theorem thousandLog_untold :
    ¬∃ status, readLicenceStatus .asciiOnly .ascii thousandFiles 0 none = some status ∧
      TellsTheRun .asciiOnly .ascii (thousandFiles.lines 0) none status := by
  rintro ⟨status, read, tells⟩
  obtain ⟨-, pages, -⟩ := readLicenceStatus_parts rfl read
  have told := tells.pages "1,000".toList (by rw [lines_thousandFiles, firstCount_thousandLog])
  have same : appendedLines (Utf8.encode thousandLog) 0 = splitlines thousandLog :=
    lines_thousandFiles
  rw [same, readPages_thousandLog] at pages
  rw [← Option.some.inj pages] at told
  cases told

end Rankuno.LicenceCheck
