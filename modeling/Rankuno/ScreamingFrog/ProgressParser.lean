import Mathlib.Data.List.Induction
import Rankuno.Python.CutWords
import Rankuno.Python.Digits
import Rankuno.ScreamingFrog.Reconciler

/-!
# The progress of a running crawl

`progress_parser.py`: a poll reads what was appended to the log of Screaming Frog since the
one before it, and parses it alone. A line or a character that stands partly in the bytes of
one poll and partly in those of the next is seen by neither.
-/

namespace Rankuno.ProgressParser

open Python Python.Text

inductive WorkerJobPhase where
  | crawling
  | exporting
  deriving DecidableEq

structure ScreamingFrogProgressSnapshot (F : Type) where
  pagesCrawled : Option Nat := none
  progressPct : Option F := none
  phase : Option WorkerJobPhase := none

section Lines

def openText : Text := "SpiderProgress [mActive=".toList
def completedText : Text := ", mCompleted=".toList
def waitingText : Text := ", mWaiting=".toList
def closeText : Text := "%]".toList

/-- What stands before and after the first `sep`. -/
def cutAt? (sep : Text) : Text → Option (Text × Text)
  | [] => none
  | c :: s =>
    if sep.isPrefixOf (c :: s) then some ([], (c :: s).drop sep.length)
    else (cutAt? sep s).map fun parts => (c :: parts.1, parts.2)

variable (digits : DecimalDigits)

/-- `[\d,]+`. -/
def isRun (s : Text) : Bool := !s.isEmpty && s.all fun c => digits.isDigit c || c = ','

/-- `\d+(?:\.\d+)?`. -/
def isPercent (s : Text) : Bool :=
  match partition '.' s with
  | (whole, none) => digits.isPlain whole
  | (whole, some fraction) => digits.isPlain whole && digits.isPlain fraction

def progressLine (active completed waiting percent : Text) : Text :=
  openText ++ active ++ completedText ++ completed ++ waitingText ++ waiting ++ completedText ++
    percent ++ closeText

/-- `_SPIDER_PROGRESS_LINE` at the beginning of a text, with `completed` and `percent`. No run
has the beginning of what follows it, so that each ends before the first of that. -/
def progressAt? (s : Text) : Option (Text × Text × Text) :=
  if openText.isPrefixOf s then
    match cutAt? completedText (s.drop openText.length) with
    | none => none
    | some (active, s₁) =>
      match cutAt? waitingText s₁ with
      | none => none
      | some (completed, s₂) =>
        match cutAt? completedText s₂ with
        | none => none
        | some (waiting, s₃) =>
          match cutAt? closeText s₃ with
          | none => none
          | some (percent, _) =>
            if isRun digits active && isRun digits completed && isRun digits waiting &&
                isPercent digits percent then
              some (progressLine active completed waiting percent, completed, percent)
            else none
  else none

/-- A match of `_SPIDER_PROGRESS_LINE`. -/
def IsProgressLine (m completed percent : Text) : Prop :=
  ∃ active waiting, m = progressLine active completed waiting percent ∧
    isRun digits active = true ∧ isRun digits completed = true ∧ isRun digits waiting = true ∧
      isPercent digits percent = true

variable {digits} {sep s x y m completed percent : Text} {a b c : Char}

theorem cutAt?_eq_some (cut : cutAt? sep s = some (x, y)) : s = x ++ sep ++ y := by
  induction s generalizing x with
  | nil => cases cut
  | cons c s ih =>
    rw [cutAt?] at cut
    split at cut
    · next here =>
      obtain ⟨rest, whole⟩ := List.isPrefixOf_iff_prefix.mp here
      cases cut
      rw [← whole, List.drop_left]
      rfl
    · obtain ⟨parts, found, same⟩ := Option.map_eq_some_iff.mp cut
      obtain ⟨before, after⟩ := parts
      cases same
      rw [ih found]
      rfl

theorem cutAt?_append (apart : b ≠ a) (free : b ∉ x) (y : Text) :
    cutAt? (a :: b :: sep) (x ++ a :: b :: sep ++ y) = some (x, y) := by
  induction x with
  | nil =>
    rw [List.nil_append, List.cons_append, cutAt?, if_pos]
    · rw [← List.cons_append, List.drop_left]
    · exact List.isPrefixOf_iff_prefix.mpr (List.prefix_append (a :: b :: sep) y)
  | cons c x ih =>
    rw [List.mem_cons, not_or] at free
    rw [List.cons_append, List.cons_append, cutAt?, if_neg, ih free.2]
    · rfl
    · intro here
      obtain ⟨rest, whole⟩ := List.isPrefixOf_iff_prefix.mp here
      obtain ⟨-, tail⟩ := List.cons.inj whole
      cases x with
      | nil => exact apart (List.cons.inj tail).1
      | cons d x => exact free.2 ((List.cons.inj tail).1 ▸ List.mem_cons_self)

theorem of_mem_isRun (run : isRun digits s = true) (mem : c ∈ s) :
    digits.isDigit c = true ∨ c = ',' := by
  rw [isRun, Bool.and_eq_true, List.all_eq_true] at run
  simpa only [Bool.or_eq_true, decide_eq_true_eq] using run.2 c mem

theorem of_mem_isPercent (percents : isPercent digits s = true) (mem : c ∈ s) :
    digits.isDigit c = true ∨ c = '.' := by
  rw [isPercent] at percents
  split at percents
  · next whole parts =>
    have none_ : (partition '.' s).2 = none := by rw [parts]
    rw [partition_of_notMem (partition_snd_eq_none.mp none_)] at parts
    cases parts
    exact Or.inl ((DecimalDigits.isPlain_iff.mp percents).2 c mem)
  · next whole fraction parts =>
    obtain ⟨first, second⟩ := Bool.and_eq_true_iff.mp percents
    have pointed : '.' ∈ s := by
      by_contra free
      rw [partition_of_notMem free] at parts
      cases parts
    obtain ⟨before, after, -, rfl, cut⟩ := exists_partition pointed
    rw [cut] at parts
    cases parts
    obtain inside | here := List.mem_append.mp mem
    · exact Or.inl ((DecimalDigits.isPlain_iff.mp first).2 c inside)
    · obtain rfl | inside := List.mem_cons.mp here
      · exact Or.inr rfl
      · exact Or.inl ((DecimalDigits.isPlain_iff.mp second).2 c inside)

variable (digits) in
theorem notMem_of_ascii (small : c.toNat < 128) (digit : isAsciiDigit c = false) (other : c ≠ ',')
    (other' : c ≠ '.') :
    (∀ s, isRun digits s = true → c ∉ s) ∧ ∀ s, isPercent digits s = true → c ∉ s := by
  have digit' : digits.isDigit c ≠ true := by
    rw [DecimalDigits.isDigit_of_ascii small, digit]
    exact Bool.false_ne_true
  refine ⟨fun s run mem => ?_, fun s percents mem => ?_⟩
  · exact (of_mem_isRun run mem).elim digit' other
  · exact (of_mem_isPercent percents mem).elim digit' other'

theorem progressAt?_eq_some_iff : progressAt? digits s = some (m, completed, percent) ↔
    IsProgressLine digits m completed percent ∧ m <+: s := by
  constructor
  · intro found
    unfold progressAt? at found
    split at found
    · next opens =>
      obtain ⟨rest, rfl⟩ := List.isPrefixOf_iff_prefix.mp opens
      rw [List.drop_left] at found
      split at found
      · cases found
      next active s₁ cut₁ =>
      split at found
      · cases found
      next completed s₂ cut₂ =>
      split at found
      · cases found
      next waiting s₃ cut₃ =>
      split at found
      · cases found
      next percent s₄ cut₄ =>
      split at found
      · next runs =>
        cases found
        simp only [Bool.and_eq_true] at runs
        obtain ⟨⟨⟨first, second⟩, third⟩, last⟩ := runs
        refine ⟨⟨active, waiting, rfl, first, second, third, last⟩, s₄, ?_⟩
        rw [cutAt?_eq_some cut₁, cutAt?_eq_some cut₂, cutAt?_eq_some cut₃, cutAt?_eq_some cut₄]
        simp only [progressLine, List.append_assoc]
      · cases found
    · cases found
  · rintro ⟨⟨active, waiting, rfl, first, second, third, last⟩, rest, rfl⟩
    have spaces := (notMem_of_ascii digits (c := ' ') (by decide) (by decide)
      (by decide) (by decide)).1
    have brackets := (notMem_of_ascii digits (c := ']') (by decide) (by decide)
      (by decide) (by decide)).2
    have apart : ' ' ≠ ',' := by decide
    have apart' : ']' ≠ '%' := by decide
    have parts : progressLine active completed waiting percent ++ rest =
        openText ++ (active ++ completedText ++ (completed ++ waitingText ++
          (waiting ++ completedText ++ (percent ++ closeText ++ rest)))) := by
      simp only [progressLine, List.append_assoc]
    have opens : openText.isPrefixOf (openText ++ (active ++ completedText ++
        (completed ++ waitingText ++ (waiting ++ completedText ++
          (percent ++ closeText ++ rest))))) = true :=
      List.isPrefixOf_iff_prefix.mpr (List.prefix_append _ _)
    have cut₁ (y : Text) : cutAt? completedText (active ++ completedText ++ y) = some (active, y) :=
      cutAt?_append apart (spaces _ first) y
    have cut₂ (y : Text) : cutAt? waitingText (completed ++ waitingText ++ y) =
        some (completed, y) := cutAt?_append apart (spaces _ second) y
    have cut₃ (y : Text) : cutAt? completedText (waiting ++ completedText ++ y) =
        some (waiting, y) := cutAt?_append apart (spaces _ third) y
    have cut₄ (y : Text) : cutAt? closeText (percent ++ closeText ++ y) = some (percent, y) :=
      cutAt?_append apart' (brackets _ last) y
    rw [parts, progressAt?, if_pos opens, List.drop_left]
    simp only [cut₁, cut₂, cut₃, cut₄]
    rw [first, second, third, last]
    rfl

theorem progressLine_once (line : IsProgressLine digits m completed percent) :
    ∃ rest, m = 'S' :: rest ∧ 'S' ∉ rest := by
  obtain ⟨active, waiting, rfl, first, second, third, last⟩ := line
  obtain ⟨runs, percents⟩ := notMem_of_ascii digits (c := 'S') (by decide) (by decide)
    (by decide) (by decide)
  refine ⟨"piderProgress [mActive=".toList ++ active ++ completedText ++ completed ++
    waitingText ++ waiting ++ completedText ++ percent ++ closeText, rfl, ?_⟩
  simp only [List.mem_append, not_or]
  refine ⟨⟨⟨⟨⟨⟨⟨⟨?_, runs _ first⟩, ?_⟩, runs _ second⟩, ?_⟩, runs _ third⟩, ?_⟩,
    percents _ last⟩, ?_⟩ <;> decide

theorem progressLine_unmarked (line : IsProgressLine digits m completed percent) :
    Char.ofNat 0xfffd ∉ m := by
  obtain ⟨active, waiting, rfl, first, second, third, last⟩ := line
  have digit : digits.isDigit (Char.ofNat 0xfffd) ≠ true := by
    rw [DecimalDigits.isDigit_replacement]
    exact Bool.false_ne_true
  have runs {s : Text} (run : isRun digits s = true) : Char.ofNat 0xfffd ∉ s := fun mem =>
    (of_mem_isRun run mem).elim digit (by decide)
  have percents : Char.ofNat 0xfffd ∉ percent := fun mem =>
    (of_mem_isPercent last mem).elim digit (by decide)
  simp only [progressLine, List.mem_append, not_or]
  refine ⟨⟨⟨⟨⟨⟨⟨⟨?_, runs first⟩, ?_⟩, runs second⟩, ?_⟩, runs third⟩, ?_⟩, percents⟩, ?_⟩ <;>
    decide

variable {line : Text × Text}

theorem progressAt?_isPrefix (found : progressAt? digits s = some (m, line)) :
    m <+: s :=
  (progressAt?_eq_some_iff.mp found).2

theorem progressAt?_stable (found : progressAt? digits s = some (m, line))
    (t : Text) : progressAt? digits (m ++ t) = some (m, line) :=
  progressAt?_eq_some_iff.mpr ⟨(progressAt?_eq_some_iff.mp found).1, List.prefix_append m t⟩

theorem progressAt?_once (found : progressAt? digits s = some (m, line)) :
    ∃ rest, m = 'S' :: rest ∧ 'S' ∉ rest :=
  progressLine_once (progressAt?_eq_some_iff.mp found).1

theorem progressAt?_unmarked
    (found : progressAt? digits s = some (m, line)) : Char.ofNat 0xfffd ∉ m :=
  progressLine_unmarked (progressAt?_eq_some_iff.mp found).1

theorem ascii_S : 'S'.toNat < 0x80 := by decide

variable (digits)

/-- The scan of `_SPIDER_PROGRESS_LINE`, with the groups `completed` and `percent`. -/
def progressReader : WordReader (Text × Text) where
  initial := 'S'
  ascii := ascii_S
  read := progressAt? digits
  isPrefix := progressAt?_isPrefix
  stable := progressAt?_stable
  once := progressAt?_once
  unmarked := progressAt?_unmarked

/-- `_COMPLETION_MARKER`, without its first character. -/
def markerRest : Text := "ompleted the spider of".toList

theorem isLiteral_marker : IsLiteral 'C' markerRest := ⟨by decide, by decide, by decide⟩

def completionMarker : Text := 'C' :: markerRest

end Lines

section Code

variable (digits : DecimalDigits) {F : Type} (float : Text → F)

/-- `int(_strip_thousands(digits))`; a `ValueError` is `none`. -/
def readCount (completed : Text) : Option Nat := digits.int? (completed.filter fun c => c ≠ ',')

/-- `pages_crawled` and `progress_pct` after the loop over the lines. -/
def latest (lines : List (Text × Text)) : Option (Option (Nat × F)) :=
  lines.foldlM (fun _ line => (readCount digits line.1).map fun n => some (n, float line.2)) none

/-- `parse_latest_progress`; a `ValueError` is `none`. -/
def parseLatestProgress (appendedText : Text) : Option (Option (ScreamingFrogProgressSnapshot F)) :=
  (latest digits float ((progressReader digits).finditer 0 appendedText)).map fun latest =>
    let phase := if latest.isSome then some .crawling else none
    let phase := if containsText completionMarker appendedText then some .exporting else phase
    if phase.isNone then none
    else some { pagesCrawled := latest.map Prod.fst, progressPct := latest.map Prod.snd, phase }

structure ScreamingFrogProgressReader where
  offset : Nat
  rotated : Bool := false

/-- The size of the log that `stat` tells a poll, and the bytes that it reads then; an `OSError`
is `none`. -/
structure Seen where
  size : Option Nat
  bytes : Option (List UInt8)

/-- `poll`, with the reader as it leaves it. -/
def ScreamingFrogProgressReader.poll (reader : ScreamingFrogProgressReader) (seen : Seen) :
    ScreamingFrogProgressReader × Option (Option (ScreamingFrogProgressSnapshot F)) :=
  if reader.rotated then (reader, some none)
  else
    match seen.size with
    | none => ({ reader with rotated := true }, some none)
    | some size =>
      if size < reader.offset then ({ reader with rotated := true }, some none)
      else if size = reader.offset then (reader, some none)
      else
        match seen.bytes with
        | none => (reader, some none)
        | some bytes =>
          ({ reader with offset := size }, parseLatestProgress digits float
              (Utf8.decodeReplacing (bytes.drop reader.offset)))

/-- What successive polls return. -/
def ScreamingFrogProgressReader.polls (reader : ScreamingFrogProgressReader) :
    List Seen → List (Option (Option (ScreamingFrogProgressSnapshot F)))
  | [] => []
  | seen :: later =>
    (reader.poll digits float seen).2 :: (reader.poll digits float seen).1.polls later

end Code

section Meaning

variable (digits : DecimalDigits) {F : Type} (float : Text → F)

/-- A log that grows by one piece before each poll. -/
def growing : List UInt8 → List (List UInt8) → List Seen
  | _, [] => []
  | log, piece :: pieces =>
    { size := some (log ++ piece).length, bytes := some (log ++ piece) } ::
      growing (log ++ piece) pieces

/-- What the polls of a growing log return, if the run began after `before`. -/
def returns (before : List UInt8) (pieces : List (List UInt8)) :
    List (Option (Option (ScreamingFrogProgressSnapshot F))) :=
  ScreamingFrogProgressReader.polls digits float { offset := before.length }
    (growing before pieces)

/-- The snapshots that they report. -/
def reports (before : List UInt8) (pieces : List (List UInt8)) :
    List (ScreamingFrogProgressSnapshot F) :=
  (returns digits float before pieces).filterMap Option.join

/-- The page counts of a text in the order of its lines. -/
def counts (text : Text) : List Nat :=
  ((progressReader digits).finditer 0 text).filterMap fun line => readCount digits line.1

/-- The polls report in the end what the whole text says, and on the way nothing out of order,
whatever stands before the run. -/
structure ReportsTheWhole (before : List UInt8) (pieces : List (List UInt8)) : Prop where
  same : ∃ whole,
    parseLatestProgress digits float (Utf8.decodeReplacing pieces.flatten) = some whole ∧
    ((reports digits float before pieces).filterMap fun report => report.pagesCrawled).getLast? =
      whole.bind (fun snapshot => snapshot.pagesCrawled) ∧
    ((reports digits float before pieces).filterMap fun report => report.progressPct).getLast? =
      whole.bind (fun snapshot => snapshot.progressPct) ∧
    ((reports digits float before pieces).filterMap fun report => report.phase).getLast? =
      whole.bind (fun snapshot => snapshot.phase)
  unread : ∀ other : List UInt8, other.length = before.length →
    returns digits float other pieces = returns digits float before pieces
  ordered : List.Sublist
    ((reports digits float before pieces).filterMap fun report => report.pagesCrawled)
    (counts digits (Utf8.decodeReplacing pieces.flatten))
  forward : ((reports digits float before pieces).filterMap fun report => report.phase).Pairwise
    fun earlier later => earlier = .exporting → later = .exporting

/-- No progress line follows a completion marker. -/
def CompletesLast (appended : List UInt8) : Prop :=
  ∀ before after, appended = before ++ Utf8.encode completionMarker ++ after →
    (progressReader digits).finditer 0 (Utf8.decodeReplacing after) = []

/-- The progress lines of the pieces, put together, by the bytes they take up. -/
def lineSpans (pieces : List (List UInt8)) : List (Span (Text × Text)) :=
  (progressReader digits).spans 0 pieces.flatten

def markerSpans (pieces : List (List UInt8)) : List (Span Unit) :=
  isLiteral_marker.reader.spans 0 pieces.flatten

/-- The page count and the percentage of a progress line. -/
def figures (line : Text × Text) : Option (Nat × F) :=
  (readCount digits line.1).map fun n => (n, float line.2)

/-- The counts can be read; the last progress line that no cut goes through has the figures of
the last one; and some completion marker is left whole, if there is one. -/
structure CutsHarmless (pieces : List (List UInt8)) : Prop where
  readable : ∀ line ∈ lineSpans digits pieces, (readCount digits line.value.1).isSome = true
  line : (((lineSpans digits pieces).filter (Span.uncut (cutsFrom 0 pieces))).getLast?).map
      (fun line => figures digits float line.value) =
    ((lineSpans digits pieces).getLast?).map fun line => figures digits float line.value
  marker : markerSpans pieces ≠ [] →
    (markerSpans pieces).filter (Span.uncut (cutsFrom 0 pieces)) ≠ []

end Meaning

section Lists

variable {α β : Type} {f : α → List β} {xs : List α}

theorem getLast?_filterMap_getLast? :
    (xs.filterMap fun x => (f x).getLast?).getLast? = (xs.flatMap f).getLast? := by
  induction xs using List.reverseRecOn with
  | nil => rfl
  | append_singleton xs x ih =>
    rw [List.filterMap_append, List.flatMap_append, List.getLast?_append, List.getLast?_append,
      ih, List.flatMap_singleton, List.filterMap_cons, List.filterMap_nil]
    cases (f x).getLast? <;> rfl

theorem filterMap_getLast?_sublist :
    List.Sublist (xs.filterMap fun x => (f x).getLast?) (xs.flatMap f) := by
  induction xs with
  | nil => exact List.Sublist.slnil
  | cons x xs ih =>
    rw [List.filterMap_cons, List.flatMap_cons]
    cases last : (f x).getLast? with
    | none => exact ih.trans (List.sublist_append_right _ _)
    | some y =>
      have own : List.Sublist [y] (f x) :=
        List.singleton_sublist.mpr (List.mem_of_getLast? last)
      exact own.append ih

end Lists

section Parses

variable {digits : DecimalDigits} {F : Type} {float : Text → F} {lines : List (Text × Text)}
  {text : Text}

theorem latest_append (before : List (Text × Text)) (line : Text × Text) :
    latest digits float (before ++ [line]) =
      (latest digits float before).bind fun _ => (figures digits float line).map some := by
  rw [latest, List.foldlM_append]
  simp only [List.foldlM_cons, List.foldlM_nil]
  rw [latest]
  refine bind_congr fun _ => ?_
  rw [figures]
  cases readCount digits line.1 <;> rfl

theorem latest_eq (readable : ∀ line ∈ lines, (readCount digits line.1).isSome = true) :
    latest digits float lines = some ((lines.filterMap (figures digits float)).getLast?) := by
  induction lines using List.reverseRecOn with
  | nil => rfl
  | append_singleton lines line ih =>
    rw [latest_append, ih fun line own => readable line (List.mem_append_left _ own),
      Option.bind_some]
    obtain ⟨n, read⟩ := Option.isSome_iff_exists.mp
      (readable line (List.mem_append_right _ List.mem_cons_self))
    have figures_ : figures digits float line = some (n, float line.2) := by
      rw [figures, read, Option.map_some]
    rw [figures_, Option.map_some, List.filterMap_append, List.filterMap_cons, figures_,
      List.filterMap_nil, List.getLast?_concat]

theorem readable_of_latest {last : Option (Nat × F)}
    (read : latest digits float lines = some last) :
    ∀ line ∈ lines, (readCount digits line.1).isSome = true := by
  induction lines using List.reverseRecOn generalizing last with
  | nil => exact fun line own => absurd own List.not_mem_nil
  | append_singleton lines line ih =>
    rw [latest_append, Option.bind_eq_some_iff] at read
    obtain ⟨earlier, before, here⟩ := read
    intro other own
    obtain earlier | own := List.mem_append.mp own
    · exact ih before other earlier
    · obtain rfl := List.mem_singleton.mp own
      obtain ⟨figures_, read, -⟩ := Option.map_eq_some_iff.mp here
      obtain ⟨n, read, -⟩ := Option.map_eq_some_iff.mp read
      rw [read]
      rfl

/-- The phase that a text tells. -/
def phaseOf (digits : DecimalDigits) (text : Text) : Option WorkerJobPhase :=
  if containsText completionMarker text then some .exporting
  else if (progressReader digits).words text = [] then none
  else some .crawling

theorem finditer_eq :
    (progressReader digits).finditer 0 text = (progressReader digits).words text :=
  WordReader.finditer_eq_words List.not_mem_nil

def lastFigures (digits : DecimalDigits) (float : Text → F) (text : Text) : Option (Nat × F) :=
  (((progressReader digits).words text).filterMap (figures digits float)).getLast?

variable (float) in
theorem isSome_lastFigures (readable : ∀ line ∈ (progressReader digits).words text,
    (readCount digits line.1).isSome = true) :
    (lastFigures digits float text).isSome = true ↔ (progressReader digits).words text ≠ [] := by
  rw [lastFigures, List.getLast?_isSome, ne_eq, List.filterMap_eq_nil_iff, not_iff_not]
  constructor
  · intro unread
    refine List.eq_nil_iff_forall_not_mem.mpr fun line own => ?_
    have read := readable line own
    have none_ := unread line own
    rw [figures, Option.map_eq_none_iff] at none_
    rw [none_] at read
    cases read
  · intro empty line own
    rw [empty] at own
    cases own

theorem parseLatestProgress_eq (readable : ∀ line ∈ (progressReader digits).words text,
    (readCount digits line.1).isSome = true) :
    parseLatestProgress digits float text = some ((phaseOf digits text).map fun phase =>
      { pagesCrawled := (lastFigures digits float text).map Prod.fst
        progressPct := (lastFigures digits float text).map Prod.snd
        phase := some phase }) := by
  rw [parseLatestProgress, finditer_eq, latest_eq readable, Option.map_some, phaseOf]
  have filled := isSome_lastFigures float readable
  rw [lastFigures] at filled ⊢
  dsimp only
  cases marked : containsText completionMarker text with
  | true => rfl
  | false =>
    rw [if_neg Bool.false_ne_true, if_neg Bool.false_ne_true]
    by_cases empty : (progressReader digits).words text = []
    · rw [empty]
      rfl
    · rw [filled.mpr empty, if_neg empty]
      rfl

variable (float) in
theorem lastFigures_of_phase (silent : phaseOf digits text = none) :
    lastFigures digits float text = none := by
  rw [phaseOf] at silent
  split at silent
  · cases silent
  · split at silent
    · next empty =>
      rw [lastFigures, empty]
      rfl
    · cases silent

end Parses

section Runs

variable {digits : DecimalDigits} {F : Type} {float : Text → F} {before : List UInt8}
  {pieces : List (List UInt8)}

theorem returns_eq (before : List UInt8) (pieces : List (List UInt8)) :
    returns digits float before pieces =
      pieces.map fun piece => parseLatestProgress digits float (Utf8.decodeReplacing piece) := by
  induction pieces generalizing before with
  | nil => rfl
  | cons piece pieces ih =>
    have later := ih (before ++ piece)
    rw [returns] at later ⊢
    rw [growing, ScreamingFrogProgressReader.polls, List.map_cons]
    have poll : ScreamingFrogProgressReader.poll digits float { offset := before.length }
        { size := some (before ++ piece).length, bytes := some (before ++ piece) } =
        ({ offset := (before ++ piece).length },
          parseLatestProgress digits float (Utf8.decodeReplacing piece)) := by
      rw [ScreamingFrogProgressReader.poll, if_neg Bool.false_ne_true]
      dsimp only
      rw [List.length_append, if_neg (Nat.not_lt.mpr (Nat.le_add_right _ _))]
      cases piece with
      | nil =>
        rw [List.length_nil, Nat.add_zero, if_pos rfl]
        rfl
      | cons b piece =>
        rw [if_neg (by rw [List.length_cons]; omega), List.drop_left]
    rw [poll]
    exact congrArg (List.cons _) later

theorem mem_lineSpans {piece : List UInt8} {line : Text × Text} (own : piece ∈ pieces)
    (inside : line ∈ (progressReader digits).words (Utf8.decodeReplacing piece)) :
    ∃ span ∈ lineSpans digits pieces, span.value = line := by
  have found : line ∈ pieces.flatMap fun piece =>
      (progressReader digits).words (Utf8.decodeReplacing piece) :=
    List.mem_flatMap.mpr ⟨piece, own, inside⟩
  rw [WordReader.words_pieces _ 0] at found
  obtain ⟨span, mem, same⟩ := List.mem_map.mp found
  exact ⟨span, (List.mem_filter.mp mem).1, same⟩

theorem reports_eq (readable : ∀ line ∈ lineSpans digits pieces,
    (readCount digits line.value.1).isSome = true) :
    reports digits float before pieces = pieces.filterMap fun piece =>
      (phaseOf digits (Utf8.decodeReplacing piece)).map fun phase =>
        { pagesCrawled := (lastFigures digits float (Utf8.decodeReplacing piece)).map Prod.fst
          progressPct := (lastFigures digits float (Utf8.decodeReplacing piece)).map Prod.snd
          phase := some phase } := by
  rw [reports, returns_eq, List.filterMap_map]
  refine List.filterMap_congr fun piece own => ?_
  rw [Function.comp_apply, parseLatestProgress_eq]
  · rfl
  · intro line inside
    obtain ⟨span, mem, rfl⟩ := mem_lineSpans own inside
    exact readable span mem

theorem reports_figures {γ : Type} {part : ScreamingFrogProgressSnapshot F → Option γ}
    (of : Nat × F → γ)
    (part_ : ∀ last phase, part { pagesCrawled := Option.map Prod.fst last
                                  progressPct := Option.map Prod.snd last
                                  phase := some phase } = last.map of)
    (readable : ∀ line ∈ lineSpans digits pieces, (readCount digits line.value.1).isSome = true) :
    (reports digits float before pieces).filterMap part = (pieces.filterMap fun piece =>
        lastFigures digits float (Utf8.decodeReplacing piece)).map of := by
  rw [reports_eq readable, List.filterMap_filterMap, List.map_filterMap]
  refine List.filterMap_congr fun piece _ => ?_
  cases told : phaseOf digits (Utf8.decodeReplacing piece) with
  | none =>
    rw [lastFigures_of_phase float told]
    rfl
  | some phase => exact part_ _ phase

theorem reports_phases (readable : ∀ line ∈ lineSpans digits pieces,
    (readCount digits line.value.1).isSome = true) :
    (reports digits float before pieces).filterMap (fun report => report.phase) =
      pieces.filterMap fun piece => phaseOf digits (Utf8.decodeReplacing piece) := by
  rw [reports_eq readable, List.filterMap_filterMap]
  refine List.filterMap_congr fun piece _ => ?_
  cases phaseOf digits (Utf8.decodeReplacing piece) <;> rfl

theorem getLast?_lastFigures : (pieces.filterMap fun piece =>
        lastFigures digits float (Utf8.decodeReplacing piece)).getLast? =
      ((((lineSpans digits pieces).filter (Span.uncut (cutsFrom 0 pieces))).map
        Span.value).filterMap (figures digits float)).getLast? := by
  rw [lineSpans, ← WordReader.words_pieces, List.filterMap_flatMap]
  exact getLast?_filterMap_getLast?

theorem lastFigures_whole : lastFigures digits float (Utf8.decodeReplacing pieces.flatten) =
    (((lineSpans digits pieces).map Span.value).filterMap (figures digits float)).getLast? := by
  rw [lastFigures, WordReader.words_decodeReplacing 0, lineSpans]

theorem getLast?_figures {lines : List (Span (Text × Text))}
    (readable : ∀ line ∈ lines, (readCount digits line.value.1).isSome = true) :
    (((lines.map Span.value).filterMap (figures digits float)).getLast?).map some =
      (lines.getLast?).map fun line => figures digits float line.value := by
  induction lines using List.reverseRecOn with
  | nil => rfl
  | append_singleton lines line _ =>
    obtain ⟨n, read⟩ := Option.isSome_iff_exists.mp
      (readable line (List.mem_append_right _ List.mem_cons_self))
    have figures_ : figures digits float line.value = some (n, float line.value.2) := by
      rw [figures, read, Option.map_some]
    rw [List.map_append, List.filterMap_append, List.map_singleton, List.filterMap_cons, figures_,
      List.filterMap_nil, List.getLast?_concat, List.getLast?_concat, Option.map_some,
      Option.map_some, figures_]

theorem containsText_marker_iff {text : Text} : containsText completionMarker text = true ↔
    isLiteral_marker.reader.words text ≠ [] := by
  rw [isLiteral_marker.words_ne_nil_iff, containsText, List.any_eq_true]
  constructor
  · rintro ⟨tail, suffix_, here⟩
    obtain ⟨before, rfl⟩ := (List.mem_tails _ _).mp suffix_
    obtain ⟨after, rfl⟩ := List.isPrefixOf_iff_prefix.mp here
    exact ⟨before, after, (List.append_assoc _ _ _).symm⟩
  · rintro ⟨before, after, rfl⟩
    refine ⟨completionMarker ++ after, (List.mem_tails _ _).mpr ⟨before, ?_⟩, ?_⟩
    · exact (List.append_assoc _ _ _).symm
    · exact List.isPrefixOf_iff_prefix.mpr (List.prefix_append _ _)

theorem exists_marker_iff :
    (∃ piece ∈ pieces, containsText completionMarker (Utf8.decodeReplacing piece) = true) ↔
      (markerSpans pieces).filter (Span.uncut (cutsFrom 0 pieces)) ≠ [] := by
  rw [ne_eq, ← List.map_eq_nil_iff (f := Span.value), markerSpans, ← WordReader.words_pieces,
    List.flatMap_eq_nil_iff]
  push Not
  simp only [containsText_marker_iff, ne_eq]

theorem marker_whole_iff :
    containsText completionMarker (Utf8.decodeReplacing pieces.flatten) = true ↔
      markerSpans pieces ≠ [] := by
  rw [containsText_marker_iff, WordReader.words_decodeReplacing 0, markerSpans, ne_eq,
    List.map_eq_nil_iff]

theorem exists_encode_marker {bytes : List UInt8}
    (marked : containsText completionMarker (Utf8.decodeReplacing bytes) = true) :
    ∃ before after, bytes = before ++ Utf8.encode completionMarker ++ after := by
  rw [containsText_marker_iff, WordReader.words_decodeReplacing 0, ne_eq, List.map_eq_nil_iff] at marked
  obtain ⟨span, own⟩ := List.exists_mem_of_ne_nil _ marked
  obtain ⟨before, m, after, rfl, found⟩ := WordReader.exists_of_mem_spans own
  obtain ⟨rfl, -⟩ := readLiteral_eq_some.mp found
  exact ⟨before, after, rfl⟩

theorem completesLast_of_unmarked {bytes : List UInt8}
    (unmarked : containsText completionMarker (Utf8.decodeReplacing bytes) = false) :
    CompletesLast digits bytes := by
  rintro before after rfl
  rw [← Bool.not_eq_true, containsText_marker_iff, WordReader.words_decodeReplacing 0, ne_eq,
    List.map_eq_nil_iff, not_not] at unmarked
  refine absurd unmarked (WordReader.spans_ne_nil (v := ()) ?_)
  rw [Utf8.decodeReplacing_encode_append]
  have here : readLiteral completionMarker (completionMarker ++ Utf8.decodeReplacing after) =
      some (completionMarker, ()) := readLiteral_eq_some.mpr ⟨rfl, List.prefix_append _ _⟩
  exact here

theorem CompletesLast.of_append {piece rest : List UInt8}
    (last : CompletesLast digits (piece ++ rest)) : CompletesLast digits rest := by
  rintro before after rfl
  refine last (piece ++ before) after ?_
  simp only [List.append_assoc]

theorem CompletesLast.no_lines {piece : List UInt8}
    (last : CompletesLast digits (piece ++ pieces.flatten))
    (marked : containsText completionMarker (Utf8.decodeReplacing piece) = true)
    {other : List UInt8} (own : other ∈ pieces) :
    (progressReader digits).words (Utf8.decodeReplacing other) = [] := by
  obtain ⟨before, after, rfl⟩ := exists_encode_marker marked
  have silent := last before (after ++ pieces.flatten) (by simp only [List.append_assoc])
  rw [finditer_eq, WordReader.words_decodeReplacing 0, List.map_eq_nil_iff] at silent
  have pieces_ := WordReader.words_pieces (progressReader digits) 0 (after :: pieces)
  rw [List.flatten_cons, silent, List.filter_nil, List.map_nil, List.flatMap_eq_nil_iff] at pieces_
  exact pieces_ other (List.mem_cons_of_mem after own)

theorem pairwise_phases (last : CompletesLast digits pieces.flatten) :
    (pieces.filterMap fun piece => phaseOf digits (Utf8.decodeReplacing piece)).Pairwise
      fun earlier later => earlier = .exporting → later = .exporting := by
  induction pieces with
  | nil => exact List.Pairwise.nil
  | cons piece pieces ih =>
    rw [List.flatten_cons] at last
    rw [List.filterMap_cons]
    cases told : phaseOf digits (Utf8.decodeReplacing piece) with
    | none => exact ih last.of_append
    | some phase =>
      refine List.pairwise_cons.mpr ⟨fun later own exporting => ?_, ih last.of_append⟩
      obtain ⟨other, mem, told'⟩ := List.mem_filterMap.mp own
      rw [exporting, phaseOf] at told
      split at told
      · next marked =>
        rw [phaseOf, last.no_lines marked mem, if_pos rfl] at told'
        split at told'
        · exact (Option.some.inj told').symm
        · cases told'
      · split at told
        · cases told
        · cases told

theorem getLast?_of_exporting {phases : List WorkerJobPhase}
    (forward : phases.Pairwise fun earlier later => earlier = .exporting → later = .exporting)
    (own : .exporting ∈ phases) : phases.getLast? = some .exporting := by
  induction phases using List.reverseRecOn with
  | nil => cases own
  | append_singleton phases phase _ =>
    rw [List.getLast?_concat]
    obtain earlier | here := List.mem_append.mp own
    · have after := (List.pairwise_append.mp forward).2.2
      rw [after _ earlier phase List.mem_cons_self rfl]
    · rw [List.mem_singleton.mp here]

theorem getLast?_of_crawling {phases : List WorkerJobPhase}
    (never : .exporting ∉ phases) :
    phases.getLast? = if phases = [] then none else some .crawling := by
  cases last : phases.getLast? with
  | none => rw [List.getLast?_eq_none_iff.mp last, if_pos rfl]
  | some phase =>
    have own := List.mem_of_getLast? last
    rw [if_neg (List.ne_nil_of_mem own)]
    cases phase with
    | crawling => rfl
    | exporting => exact absurd own never

theorem phases_eq_nil_iff :
    (pieces.filterMap fun piece => phaseOf digits (Utf8.decodeReplacing piece)) = [] ↔
      (∀ piece ∈ pieces, containsText completionMarker (Utf8.decodeReplacing piece) = false) ∧
        (lineSpans digits pieces).filter (Span.uncut (cutsFrom 0 pieces)) = [] := by
  rw [← List.map_eq_nil_iff (f := Span.value), lineSpans, ← WordReader.words_pieces,
    List.flatMap_eq_nil_iff, List.filterMap_eq_nil_iff, ← forall₂_and]
  refine forall₂_congr fun piece _ => ?_
  rw [phaseOf]
  cases containsText completionMarker (Utf8.decodeReplacing piece) with
  | true => simp
  | false => simp

variable (digits) in
theorem exporting_mem_iff :
    .exporting ∈ (pieces.filterMap fun piece => phaseOf digits (Utf8.decodeReplacing piece)) ↔
      ∃ piece ∈ pieces, containsText completionMarker (Utf8.decodeReplacing piece) = true := by
  rw [List.mem_filterMap]
  refine exists_congr fun piece => and_congr_right fun _ => ?_
  rw [phaseOf]
  cases containsText completionMarker (Utf8.decodeReplacing piece) with
  | true => simp
  | false =>
    rw [if_neg Bool.false_ne_true]
    split <;> simp

theorem getLast?_phases (last : CompletesLast digits pieces.flatten)
    (lines : (lineSpans digits pieces).filter (Span.uncut (cutsFrom 0 pieces)) = [] ↔
      lineSpans digits pieces = []) :
    (pieces.filterMap fun piece => phaseOf digits (Utf8.decodeReplacing piece)).getLast? =
        phaseOf digits (Utf8.decodeReplacing pieces.flatten) ↔
      (markerSpans pieces ≠ [] →
        (markerSpans pieces).filter (Span.uncut (cutsFrom 0 pieces)) ≠ []) := by
  have forward := pairwise_phases last
  rw [phaseOf]
  by_cases whole : markerSpans pieces ≠ []
  · rw [if_pos (marker_whole_iff.mpr whole), imp_iff_right whole, ← exists_marker_iff,
      ← exporting_mem_iff digits]
    exact ⟨List.mem_of_getLast?, getLast?_of_exporting forward⟩
  · have unmarked : ¬∃ piece ∈ pieces,
        containsText completionMarker (Utf8.decodeReplacing piece) = true := by
      rw [exists_marker_iff]
      intro some_
      refine whole fun none_ => some_ ?_
      rw [none_, List.filter_nil]
    refine ⟨fun _ some_ => absurd some_ whole, fun _ => ?_⟩
    rw [if_neg (mt marker_whole_iff.mp whole),
      getLast?_of_crawling (mt (exporting_mem_iff digits).mp unmarked)]
    have empty : (pieces.filterMap fun piece => phaseOf digits (Utf8.decodeReplacing piece)) = [] ↔
        (progressReader digits).words (Utf8.decodeReplacing pieces.flatten) = [] := by
      rw [phases_eq_nil_iff, lines, WordReader.words_decodeReplacing 0, List.map_eq_nil_iff,
        and_iff_right, lineSpans]
      intro piece own
      rw [← Bool.not_eq_true]
      exact fun marked => unmarked ⟨piece, own, marked⟩
    by_cases none_ : (progressReader digits).words (Utf8.decodeReplacing pieces.flatten) = []
    · rw [if_pos (empty.mpr none_), if_pos none_]
    · rw [if_neg (mt empty.mp none_), if_neg none_]

variable (float) in
theorem counts_eq : counts digits (Utf8.decodeReplacing pieces.flatten) =
    (((lineSpans digits pieces).map Span.value).filterMap (figures digits float)).map Prod.fst := by
  rw [counts, finditer_eq, WordReader.words_decodeReplacing 0, lineSpans, List.map_filterMap]
  refine List.filterMap_congr fun line _ => ?_
  rw [figures, Option.map_map]
  cases readCount digits line.1 <;> rfl

theorem readable_of_parse {whole : Option (ScreamingFrogProgressSnapshot F)}
    (parsed : parseLatestProgress digits float (Utf8.decodeReplacing pieces.flatten) = some whole) :
    ∀ line ∈ lineSpans digits pieces, (readCount digits line.value.1).isSome = true := by
  rw [parseLatestProgress] at parsed
  obtain ⟨last, read, -⟩ := Option.map_eq_some_iff.mp parsed
  rw [finditer_eq, WordReader.words_decodeReplacing 0] at read
  exact fun line own => readable_of_latest read line.value (List.mem_map_of_mem own)

theorem eq_of_parts {α β : Type} {x y : Option (α × β)} (first : x.map Prod.fst = y.map Prod.fst)
    (second : x.map Prod.snd = y.map Prod.snd) : x = y := by
  cases x with
  | none =>
    cases y with
    | none => rfl
    | some _ => cases first
  | some x =>
    cases y with
    | none => cases first
    | some y => rw [Prod.ext (Option.some.inj first) (Option.some.inj second)]

theorem same_iff (readable : ∀ line ∈ lineSpans digits pieces,
    (readCount digits line.value.1).isSome = true) :
    (∃ whole, parseLatestProgress digits float (Utf8.decodeReplacing pieces.flatten) = some whole ∧
      ((reports digits float before pieces).filterMap fun report => report.pagesCrawled).getLast? =
        whole.bind (fun snapshot => snapshot.pagesCrawled) ∧
      ((reports digits float before pieces).filterMap fun report => report.progressPct).getLast? =
        whole.bind (fun snapshot => snapshot.progressPct) ∧
      ((reports digits float before pieces).filterMap fun report => report.phase).getLast? =
        whole.bind (fun snapshot => snapshot.phase)) ↔
    (pieces.filterMap fun piece =>
        lastFigures digits float (Utf8.decodeReplacing piece)).getLast? =
      lastFigures digits float (Utf8.decodeReplacing pieces.flatten) ∧
    (pieces.filterMap fun piece => phaseOf digits (Utf8.decodeReplacing piece)).getLast? =
      phaseOf digits (Utf8.decodeReplacing pieces.flatten) := by
  have readable' : ∀ line ∈ (progressReader digits).words (Utf8.decodeReplacing pieces.flatten),
      (readCount digits line.1).isSome = true := by
    rw [WordReader.words_decodeReplacing 0]
    intro line own
    obtain ⟨span, mem, rfl⟩ := List.mem_map.mp own
    exact readable span mem
  rw [parseLatestProgress_eq readable', reports_figures Prod.fst (fun _ _ => rfl) readable,
    reports_figures Prod.snd (fun _ _ => rfl) readable, reports_phases readable,
    List.getLast?_map, List.getLast?_map]
  have silent : phaseOf digits (Utf8.decodeReplacing pieces.flatten) = none → _ :=
    lastFigures_of_phase float
  generalize phaseOf digits (Utf8.decodeReplacing pieces.flatten) = phase at silent ⊢
  generalize lastFigures digits float (Utf8.decodeReplacing pieces.flatten) = last at silent ⊢
  cases phase with
  | none =>
    rw [silent rfl]
    constructor
    · rintro ⟨whole, parsed, pages, -, phases⟩
      obtain rfl := Option.some.inj parsed
      exact ⟨Option.map_eq_none_iff.mp pages, phases⟩
    · rintro ⟨figures_, phases⟩
      exact ⟨none, rfl, by rw [figures_]; rfl, by rw [figures_]; rfl, phases⟩
  | some phase =>
    constructor
    · rintro ⟨whole, parsed, pages, percents, phases⟩
      obtain rfl := Option.some.inj parsed
      exact ⟨eq_of_parts pages percents, phases⟩
    · rintro ⟨figures_, phases⟩
      exact ⟨_, rfl, by rw [figures_]; rfl, by rw [figures_]; rfl, phases⟩

theorem lastFigures_iff (readable : ∀ line ∈ lineSpans digits pieces,
    (readCount digits line.value.1).isSome = true) :
    (pieces.filterMap fun piece =>
        lastFigures digits float (Utf8.decodeReplacing piece)).getLast? =
      lastFigures digits float (Utf8.decodeReplacing pieces.flatten) ↔
    (((lineSpans digits pieces).filter (Span.uncut (cutsFrom 0 pieces))).getLast?).map
        (fun line => figures digits float line.value) =
      ((lineSpans digits pieces).getLast?).map fun line => figures digits float line.value := by
  rw [getLast?_lastFigures, lastFigures_whole, ← getLast?_figures readable,
    ← getLast?_figures fun line own => readable line (List.mem_filter.mp own).1]
  exact (Option.map_injective (Option.some_injective _)).eq_iff.symm

end Runs

/-- The polls report the whole exactly where the cuts are harmless. -/
theorem reportsTheWhole_iff (digits : DecimalDigits) {F : Type} (float : Text → F)
    (before : List UInt8) (pieces : List (List UInt8))
    (last : CompletesLast digits pieces.flatten) :
    ReportsTheWhole digits float before pieces ↔ CutsHarmless digits float pieces := by
  have lines_of_line (line :
      (((lineSpans digits pieces).filter (Span.uncut (cutsFrom 0 pieces))).getLast?).map
          (fun line => figures digits float line.value) =
        ((lineSpans digits pieces).getLast?).map fun line => figures digits float line.value) :
      (lineSpans digits pieces).filter (Span.uncut (cutsFrom 0 pieces)) = [] ↔
        lineSpans digits pieces = [] := by
    rw [← List.getLast?_eq_none_iff, ← Option.map_eq_none_iff, line, Option.map_eq_none_iff,
      List.getLast?_eq_none_iff]
  constructor
  · intro reported
    obtain ⟨whole, parsed, -⟩ := reported.same
    have readable := readable_of_parse parsed
    obtain ⟨figures_, phases⟩ := (same_iff readable).mp reported.same
    have line := (lastFigures_iff readable).mp figures_
    exact ⟨readable, line, (getLast?_phases last (lines_of_line line)).mp phases⟩
  · intro harmless
    have readable := harmless.readable
    refine ⟨(same_iff readable).mpr ⟨(lastFigures_iff readable).mpr harmless.line,
      (getLast?_phases last (lines_of_line harmless.line)).mpr harmless.marker⟩, ?_, ?_, ?_⟩
    · intro other _
      rw [returns_eq, returns_eq]
    · rw [reports_figures Prod.fst (fun _ _ => rfl) readable, counts_eq float]
      refine List.Sublist.map _ (filterMap_getLast?_sublist.trans ?_)
      rw [← List.filterMap_flatMap, WordReader.words_pieces _ 0]
      exact (List.filter_sublist.map _).filterMap _
    · rw [reports_phases readable]
      exact pairwise_phases last

/-- A progress line that a poll cuts. -/
def cutLine : List (List UInt8) :=
  [Utf8.encode "SpiderProgress [mActive=4, mCompl".toList,
    Utf8.encode "eted=3,718, mWaiting=5,474, mCompleted=40.43%]".toList]

theorem completesLast_cutLine : CompletesLast .asciiOnly cutLine.flatten :=
  completesLast_of_unmarked (by decide)

theorem reportsTheWhole_cutLine : ReportsTheWhole .asciiOnly (fun percent => percent) [] cutLine ↔
      CutsHarmless .asciiOnly (fun percent => percent) cutLine :=
  reportsTheWhole_iff .asciiOnly (fun percent => percent) [] cutLine completesLast_cutLine

theorem reports_cutLine : ((reports .asciiOnly (fun percent => percent) [] cutLine).filterMap
      fun report => report.pagesCrawled) = [] := by
  decide

theorem parse_cutLine : (parseLatestProgress .asciiOnly (fun percent => percent)
      (Utf8.decodeReplacing cutLine.flatten)).map
        (fun whole => whole.bind fun snapshot => snapshot.pagesCrawled) = some (some 3718) := by
  decide

/-- The polls before and after the cut report nothing of the line. -/
theorem cutLine_unreported : CompletesLast .asciiOnly cutLine.flatten ∧
    ¬ReportsTheWhole .asciiOnly (fun percent => percent) [] cutLine := by
  refine ⟨completesLast_cutLine, fun reported => ?_⟩
  obtain ⟨whole, parsed, pages, -⟩ := reported.same
  have told := parse_cutLine
  rw [parsed, Option.map_some, ← pages, reports_cutLine] at told
  cases told

end Rankuno.ProgressParser
