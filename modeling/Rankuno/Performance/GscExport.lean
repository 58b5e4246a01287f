import Mathlib.Data.List.Forall2
import Mathlib.Data.Rat.Defs
import Mathlib.Algebra.Order.Ring.Rat
import Rankuno.Performance.Aggregator
import Rankuno.Python.Digits
import Rankuno.ScreamingFrog.Reconciler

/-!
# Reading a Search Console export

`gsc_export.py`: of the tables of an upload the one whose first column holds addresses is
chosen, and the cells of three of its columns are read as numbers. A count loses every
separator, the point of a float among them; of a position the last separator is the decimal
mark.

A float cell is held by its `repr`, and `float` of a text is a parameter.
-/

namespace Rankuno.SearchConsole

open Python Python.Text Python.Urllib UrlKeys Performance

/-- What a row holds in one column. -/
inductive Cell where
  | empty
  | bool (b : Bool)
  | int (n : Int)
  | float (repr : Text)
  | text (s : Text)
  /-- Anything else, by its `str`. -/
  | other (str : Text)

abbrev Row := List Cell

/-- The name and the rows of a table. -/
abbrev Table := Text × List Row

/-- `DecimalDigits`, and `float` of a text without its `ValueError`. -/
structure Numerals where
  digits : DecimalDigits
  float? : Text → Option ℚ

structure GscExport where
  rows : List GscPageMetrics
  sourceName : Text
  skippedRows : Nat

/-- A refusal with its message, or the `ValueError` of `str` of an integer that is too long. -/
inductive LoadError where
  | refused (message : Text)
  | tooLong

section Numbers

/-- `_SEPARATORS`. -/
def separators : List Char := [' ', '\u00a0', '\u202f', '\u2009', '\'']

def isSeparator (c : Char) : Bool := separators.any fun separator => separator = c

/-- One of the characters that may mark the decimals. -/
def isMark (c : Char) : Bool := c = '.' || c = ','

variable (numerals : Numerals)

/-- `str` of an integer; a `ValueError` is `none`. -/
def strInt? (n : Int) : Option Text :=
  if (ofNat n.natAbs).length ≤ DecimalDigits.maxStrDigits then
    some (if n < 0 then '-' :: ofNat n.natAbs else ofNat n.natAbs)
  else none

/-- What `_number` leaves of a text. -/
def normalised (s : Text) : Text :=
  let text := strip isSpace (rstrip (fun c => c = '%') (strip isSpace s))
  let text := text.filter fun c => !isSeparator c
  if text.any numerals.digits.isDigit then text else []

/-- `_number`; a `ValueError` is `none`. -/
def number : Cell → Option Text
  | .empty => some []
  | .bool _ => some []
  | .int n => strInt? n
  | .float repr => some repr
  | .text s => some (normalised numerals s)
  | .other s => some (normalised numerals s)

/-- `_as_int`. -/
def asInt (cell : Cell) : Option Nat :=
  (number numerals cell).map fun text =>
    match numerals.digits.readInt? (text.filter fun c => !isMark c) with
    | none => 0
    | some n => n.toNat

/-- What stands before and after the last mark. -/
def cutLast? : Text → Option (Text × Text)
  | [] => none
  | c :: s =>
    match cutLast? s with
    | some (before, after) => some (c :: before, after)
    | none => if isMark c then some ([], s) else none

/-- The text that `_as_float` hands to `float`. -/
def decimalText (text : Text) : Text :=
  match cutLast? text with
  | none => text
  | some (before, after) => before.filter (fun c => !isMark c) ++ '.' :: after

/-- `_as_float`. -/
def asFloat (cell : Cell) : Option ℚ :=
  (number numerals cell).map fun text =>
    match numerals.float? (decimalText text) with
    | none => 0
    | some x => max 0 x

end Numbers

section Tables

def httpSchemes : List Text := ["http".toList, "https".toList]

/-- `_CLICK_WORDS`. -/
def clickWords : List Text :=
  ["click".toList, "klick".toList, "clic".toList, "clique".toList, "cliques".toList, "クリック".toList]

/-- `_IMPRESSION_WORDS`. -/
def impressionWords : List Text :=
  ["impression".toList, "impressionen".toList, "impresion".toList, "impressão".toList, "表示".toList]

/-- `_POSITION_WORDS`. -/
def positionWords : List Text :=
  ["position".toList, "posición".toList, "posição".toList, "posizione".toList, "掲載順位".toList]

/-- `_NOT_AN_EXPORT`. -/
def notAnExport : Text :=
  ("this file is not a readable Search Console page export. Upload the ZIP from Export → CSV, " ++
    "the workbook from Export → Excel, or the pages CSV from inside either one.").toList

/-- `_WRONG_REPORT`. -/
def wrongReport (tabs : Text) : Text :=
  ("no tab in this file holds page addresses, so there is nothing to attach to the crawl. " ++
    "Found: ").toList ++ tabs ++
  (". That looks like a different Search Console report — Page indexing, Sitemaps and Core " ++
    "Web Vitals all export counts rather than URLs. The one with pages in it is Performance: " ++
    "open Performance → search results, then Export at the top right.").toList

/-- `_NO_METRICS`. -/
def noMetrics (place : Text) : Text :=
  "this table lists addresses but no clicks or impressions".toList ++ place ++
  (". That is the shape of a Page indexing export — it says which URLs are indexed, not how " ++
    "they perform. The Performance report carries clicks and impressions per URL: open " ++
    "Performance → search results, then Export at the top right.").toList

/-- `_NO_ADDRESSES`. -/
def noAddresses : Text :=
  ("this file's first column holds no page addresses, so there is nothing to attach to the " ++
    "crawl. A Search Console Performance export lists one URL per row with its clicks and " ++
    "impressions; a queries, dates or countries tab does not, and neither does the Page " ++
    "indexing report.").toList

variable (unicode : UnicodeData)

/-- `_is_address`. -/
def isAddress : Cell → Bool
  | .text s =>
    let text := strip isSpace s
    text.head? = some '/' ||
      match safeSplit unicode text with
      | none => false
      | some parts => httpSchemes.any (fun scheme => scheme = parts.scheme) && parts.netloc ≠ []
  | _ => false

/-- `_cell`. -/
def cellAt (row : Row) (index : Nat) : Cell := (row[index]?).getD .empty

/-- `_address_share`. -/
def addressShare (rows : List Row) : ℚ :=
  let body := if 1 < rows.length then rows.tail else rows
  if body.isEmpty then 0
  else (body.countP fun row => isAddress unicode (cellAt row 0) : ℚ) / body.length

/-- `_ADDRESS_SHARE`. -/
def leastShare : ℚ := 3 / 5

/-- A share of addresses and a number of rows that `max` prefers to another one. -/
def outranks (share : ℚ) (rows : Nat) (share' : ℚ) (rows' : Nat) : Bool :=
  share' < share || (share = share' && rows' < rows)

/-- The first table of the largest share and then of the most rows. -/
def best? : List Table → Option Table
  | [] => none
  | table :: tables =>
    match best? tables with
    | none => some table
    | some later =>
      if outranks (addressShare unicode later.2) later.2.length (addressShare unicode table.2)
          table.2.length then some later
      else some table

/-- `_pick`. -/
def pick (tables : List Table) : Except LoadError Table :=
  let scored := tables.filter fun table => !table.2.isEmpty
  match best? unicode scored with
  | none => .error (.refused notAnExport)
  | some table =>
    if addressShare unicode table.2 < leastShare then
      let named := (scored.map Prod.fst).filter fun name => !name.isEmpty
      if named.isEmpty then .error (.refused noAddresses)
      else .error (.refused (wrongReport (join ", ".toList (named.take 6))))
    else .ok table

structure Columns where
  address : Nat
  clicks : Nat
  impressions : Nat
  position : Nat

/-- `_FALLBACK`. -/
def fallback : Columns := { address := 0, clicks := 1, impressions := 2, position := 4 }

/-- A header as it is compared with the words; a `ValueError` of `str` is `none`. -/
def header? : Cell → Option Text
  | .empty => some []
  | .bool b => some (unicode.lower (strip isSpace (if b then "True".toList else "False".toList)))
  | .int n => (strInt? n).map fun s => unicode.lower (strip isSpace s)
  | .float repr => some (unicode.lower (strip isSpace repr))
  | .text s => some (unicode.lower (strip isSpace s))
  | .other s => some (unicode.lower (strip isSpace s))

/-- `find`: a column after the first whose header has one of the words. -/
def findColumn (headers : List Text) (words : List Text) : Option Nat :=
  (headers.tail.findIdx? fun header => words.any fun word => containsText word header).map
    fun index => index + 1

/-- `_columns`. -/
def columns (rows : List Row) : Option (Columns × Nat) :=
  let first := rows.head?.getD []
  if isAddress unicode (cellAt first 0) then some (fallback, 0)
  else
    (first.mapM (header? unicode)).map fun headers =>
      match findColumn headers clickWords, findColumn headers impressionWords with
      | some clicks, some impressions =>
        ({ address := 0, clicks, impressions,
           position := (findColumn headers positionWords).getD fallback.position }, 1)
      | _, _ => (fallback, 1)

variable (numerals : Numerals)

/-- The text of an address cell. -/
def addressText : Cell → Text
  | .text s => strip isSpace s
  | _ => []

/-- The metrics of a row with an address. -/
def readRow (columns : Columns) (row : Row) : Option GscPageMetrics :=
  (asInt numerals (cellAt row columns.clicks)).bind fun clicks =>
    (asInt numerals (cellAt row columns.impressions)).bind fun impressions =>
      (asFloat numerals (cellAt row columns.position)).map fun position =>
        { url := addressText (cellAt row columns.address), clicks, impressions, position }

def addressRows (columns : Columns) (rows : List Row) : List Row :=
  rows.filter fun row => isAddress unicode (cellAt row columns.address)

/-- `load_gsc_export` of the tables of an upload. -/
def loadGscExport (tables : List Table) : Except LoadError GscExport :=
  match pick unicode tables with
  | .error refusal => .error refusal
  | .ok (name, rows) =>
    match columns unicode rows with
    | none => .error .tooLong
    | some (columns, start) =>
      let own := addressRows unicode columns (rows.drop start)
      match own.mapM (readRow numerals columns) with
      | none => .error .tooLong
      | some parsed =>
        if parsed.isEmpty then .error (.refused notAnExport)
        else if parsed.any fun row => row.clicks ≠ 0 || row.impressions ≠ 0 then
          .ok { rows := parsed, sourceName := name,
                skippedRows := (rows.drop start).length - own.length }
        else
          let place := if name.isEmpty then [] else " — read from ".toList ++ name
          .error (.refused (noMetrics place))

end Tables

section Meaning

/-- A blank, an apostrophe, a point or a comma between groups of digits. -/
def isGroupMark (c : Char) : Bool := isSeparator c || isMark c

/-- The text writes the number in one group of digits, or with a mark between each two groups
of three. -/
def WritesCount (n : Nat) (s : Text) : Prop :=
  s = ofNat n ∨ List.Forall₂ (fun c d => c = d ∨ c = ',' ∧ isGroupMark d = true) (ofNatGrouped n) s

/-- `repr` of the float that is the number. -/
def IsRepr (n : Nat) (repr : Text) : Prop :=
  n < 10 ^ 16 ∧ repr = ofNat n ++ ".0".toList ∨
    10 ^ 16 ≤ n ∧ ∃ whole fraction : Text, ∃ exponent : Nat, fraction.length ≤ exponent ∧
      n = decimal (whole ++ fraction) * 10 ^ (exponent - fraction.length) ∧
      repr = whole ++ (if fraction.isEmpty then [] else '.' :: fraction) ++ "e+".toList ++
        ofNat exponent

/-- The cell holds the count. -/
def CountCell (n : Nat) : Cell → Prop
  | .int m => m = n
  | .float repr => IsRepr n repr
  | .text s => WritesCount n s
  | _ => False

/-- A position without a mark, or with one before its decimals. -/
def positionText (mark : Char) (whole : Nat) (decimals : Text) : Text :=
  if decimals.isEmpty then ofNat whole else ofNat whole ++ mark :: decimals

/-- The cell holds the position, as the text that writes it or as the float. -/
def PositionCell (numerals : Numerals) (position : ℚ) (cell : Cell) : Prop :=
  0 ≤ position ∧ ∃ (whole : Nat) (decimals : Text), decimals.all isAsciiDigit = true ∧
    numerals.float? (positionText '.' whole decimals) = some position ∧
    ((∃ mark, isMark mark = true ∧ cell = .text (positionText mark whole decimals)) ∨
      ∃ repr, ',' ∉ repr ∧ repr.count '.' ≤ 1 ∧ numerals.float? repr = some position ∧
        cell = .float repr)

/-- The cell is not a float other than zero, and the count is not longer than `int` reads. -/
def LegibleCount (n : Nat) : Cell → Prop
  | .float _ => n = 0
  | _ => (ofNat n).length ≤ DecimalDigits.maxStrDigits

/-- The cell is not an integer that is longer than `str` writes. -/
def Cell.Writable : Cell → Prop
  | .int n => (ofNat n.natAbs).length ≤ DecimalDigits.maxStrDigits
  | _ => True

variable (unicode : UnicodeData) (numerals : Numerals)

/-- The metrics are what the cells of the row hold. -/
structure Carries (columns : Columns) (row : Row) (metrics : GscPageMetrics) : Prop where
  url : metrics.url = addressText (cellAt row columns.address)
  clicks : ∀ n, CountCell n (cellAt row columns.clicks) → metrics.clicks = n
  impressions : ∀ n, CountCell n (cellAt row columns.impressions) → metrics.impressions = n
  position : ∀ p, PositionCell numerals p (cellAt row columns.position) → metrics.position = p

/-- The rows of the export are those of the table that was chosen, with its numbers. -/
def CarriesTheTable (tables : List Table) : Prop :=
  ∀ name rows used start, pick unicode tables = .ok (name, rows) →
    columns unicode rows = some (used, start) →
      ∃ parsed, (addressRows unicode used (rows.drop start)).mapM (readRow numerals used) =
          some parsed ∧
        List.Forall₂ (Carries numerals used) (addressRows unicode used (rows.drop start)) parsed ∧
        ∀ result, loadGscExport unicode numerals tables = .ok result →
          result.rows = parsed ∧ result.sourceName = name

/-- What the cells of a row must not hold. -/
structure LegibleRow (used : Columns) (row : Row) : Prop where
  writable : (cellAt row used.clicks).Writable ∧ (cellAt row used.impressions).Writable ∧
    (cellAt row used.position).Writable
  clicks : ∀ n, CountCell n (cellAt row used.clicks) → LegibleCount n (cellAt row used.clicks)
  impressions : ∀ n, CountCell n (cellAt row used.impressions) →
    LegibleCount n (cellAt row used.impressions)

/-- The rows with an address of the table that was chosen are legible. -/
def LegibleTable (tables : List Table) : Prop :=
  ∀ name rows used start, pick unicode tables = .ok (name, rows) →
    columns unicode rows = some (used, start) →
      ∀ row ∈ addressRows unicode used (rows.drop start), LegibleRow used row

end Meaning

section Counts

variable {numerals : Numerals} {n : Nat} {s : Text} {c : Char} {cell : Cell} {p q : Char → Bool}

theorem filter_lstrip (other : ∀ c, q c = true → p c = false) :
    (lstrip q s).filter p = s.filter p := by
  induction s with
  | nil => rfl
  | cons c s ih =>
    rw [lstrip, List.dropWhile_cons]
    split
    · next own =>
      rw [List.filter_cons_of_neg (Bool.eq_false_iff.mp (other c own))]
      exact ih
    · rfl

theorem filter_rstrip (other : ∀ c, q c = true → p c = false) :
    (rstrip q s).filter p = s.filter p := by
  have reversed := filter_lstrip (s := s.reverse) other
  rw [lstrip] at reversed
  rw [rstrip, List.filter_reverse, reversed, List.filter_reverse, List.reverse_reverse]

theorem filter_strip (other : ∀ c, q c = true → p c = false) :
    (strip q s).filter p = s.filter p := by
  rw [strip, filter_rstrip other, filter_lstrip other]

theorem isAsciiDigit_iff : isAsciiDigit c = true ↔ 48 ≤ c.toNat ∧ c.toNat ≤ 57 := by
  rw [isAsciiDigit, Bool.and_eq_true, decide_eq_true_eq, decide_eq_true_eq]

theorem not_digit_of_isSpace (space : isSpace c = true) : isAsciiDigit c = false := by
  rw [← Bool.not_eq_true, isAsciiDigit_iff]
  simp only [isSpace, Bool.or_eq_true, Bool.and_eq_true, decide_eq_true_eq] at space
  omega

theorem not_digit_of_isGroupMark (mark : isGroupMark c = true) : isAsciiDigit c = false := by
  have each : (separators ++ ['.', ',']).all (fun c => !isAsciiDigit c) = true := by decide
  rw [isGroupMark, Bool.or_eq_true, isSeparator, List.any_eq_true, isMark, Bool.or_eq_true,
    decide_eq_true_eq, decide_eq_true_eq] at mark
  have own : c ∈ separators ++ ['.', ','] := by
    obtain ⟨d, own, same⟩ | rfl | rfl := mark
    · rw [decide_eq_true_eq] at same
      exact List.mem_append_left _ (same ▸ own)
    · exact List.mem_append_right _ List.mem_cons_self
    · exact List.mem_append_right _ (List.mem_cons_of_mem _ List.mem_cons_self)
  simpa using List.all_eq_true.mp each c own

theorem isGroupMark_of_digit (digit : isAsciiDigit c = true) : isGroupMark c = false := by
  rw [← Bool.not_eq_true]
  intro mark
  rw [not_digit_of_isGroupMark mark] at digit
  cases digit

theorem filter_normalised (own : ∀ c ∈ s, isAsciiDigit c = true ∨ isGroupMark c = true)
    (digit : ∃ c ∈ s, isAsciiDigit c = true) :
    (normalised numerals s).filter (fun c => !isMark c) = s.filter isAsciiDigit := by
  have percent : ∀ c : Char, decide (c = '%') = true → isAsciiDigit c = false := by
    intro c same
    rw [of_decide_eq_true same]
    rfl
  have outer : (strip isSpace (rstrip (fun c => c = '%') (strip isSpace s))).filter isAsciiDigit =
      s.filter isAsciiDigit := by
    rw [filter_strip fun c => not_digit_of_isSpace, filter_rstrip percent,
      filter_strip fun c => not_digit_of_isSpace]
  have inside : ∀ c ∈ strip isSpace (rstrip (fun c => c = '%') (strip isSpace s)), c ∈ s :=
    fun c mem => mem_of_mem_strip (mem_of_mem_rstrip (mem_of_mem_strip mem))
  rw [normalised]
  generalize strip isSpace (rstrip (fun c => c = '%') (strip isSpace s)) = text at outer inside
  obtain ⟨c, mem, digit⟩ := digit
  have kept : c ∈ text.filter fun c => !isSeparator c := by
    have left : c ∈ text := List.mem_of_mem_filter (outer ▸ List.mem_filter.mpr ⟨mem, digit⟩)
    refine List.mem_filter.mpr ⟨left, ?_⟩
    have plain := isGroupMark_of_digit digit
    rw [isGroupMark, Bool.or_eq_false_iff] at plain
    rw [plain.1]
    rfl
  rw [if_pos (List.any_eq_true.mpr ⟨c, kept, DecimalDigits.isDigit_of_isAsciiDigit digit⟩),
    ← outer, List.filter_filter]
  refine List.filter_congr fun d here => ?_
  obtain plain | mark := own d (inside d here)
  · have free := isGroupMark_of_digit plain
    rw [isGroupMark, Bool.or_eq_false_iff] at free
    rw [free.1, free.2, plain]
    rfl
  · rw [not_digit_of_isGroupMark mark]
    rw [isGroupMark] at mark
    cases separator : isSeparator d <;> cases point : isMark d <;> simp_all

theorem filter_group (digits : ∀ c ∈ s, isAsciiDigit c = true) :
    (ofNatGrouped.group s).filter isAsciiDigit = s := by
  fun_induction ofNatGrouped.group s with
  | case1 a b c d s ih =>
    have own := ih fun e mem => digits e
      (List.mem_cons_of_mem a (List.mem_cons_of_mem b (List.mem_cons_of_mem c mem)))
    have first := digits a List.mem_cons_self
    have second := digits b (List.mem_cons_of_mem a List.mem_cons_self)
    have third := digits c
      (List.mem_cons_of_mem a (List.mem_cons_of_mem b List.mem_cons_self))
    rw [List.filter_cons_of_pos first, List.filter_cons_of_pos second,
      List.filter_cons_of_pos third, List.filter_cons_of_neg (by decide), own]
  | case2 s _ => exact List.filter_eq_self.mpr digits

theorem filter_ofNatGrouped (n : Nat) : (ofNatGrouped n).filter isAsciiDigit = ofNat n := by
  rw [ofNatGrouped, List.filter_reverse, filter_group, List.reverse_reverse]
  exact fun c mem => DecimalDigits.isAsciiDigit_of_mem_ofNat (List.mem_reverse.mp mem)

theorem mem_group (mem : c ∈ ofNatGrouped.group s) : c ∈ s ∨ c = ',' := by
  fun_induction ofNatGrouped.group s with
  | case1 a b c' d s ih =>
    simp only [List.mem_cons] at mem ih ⊢
    tauto
  | case2 s _ => exact Or.inl mem

theorem WritesCount.spec (written : WritesCount n s) : s.filter isAsciiDigit = ofNat n ∧
    ∀ c ∈ s, isAsciiDigit c = true ∨ isGroupMark c = true := by
  obtain rfl | groups := written
  · have digits : ∀ c ∈ ofNat n, isAsciiDigit c = true := fun c =>
      DecimalDigits.isAsciiDigit_of_mem_ofNat
    exact ⟨List.filter_eq_self.mpr digits, fun c mem => Or.inl (digits c mem)⟩
  · have own : ∀ c ∈ ofNatGrouped n, isAsciiDigit c = true ∨ c = ',' := by
      intro c mem
      rw [ofNatGrouped, List.mem_reverse] at mem
      refine (mem_group mem).imp_left fun inside => ?_
      exact DecimalDigits.isAsciiDigit_of_mem_ofNat (List.mem_reverse.mp inside)
    rw [← filter_ofNatGrouped n]
    generalize ofNatGrouped n = grouped at groups own
    induction groups with
    | nil => exact ⟨rfl, fun c mem => absurd mem List.not_mem_nil⟩
    | cons same groups ih =>
      obtain ⟨filtered, marks⟩ := ih fun c mem => own c (List.mem_cons_of_mem _ mem)
      have first := own _ List.mem_cons_self
      obtain rfl | ⟨rfl, mark⟩ := same
      · refine ⟨?_, fun c mem => ?_⟩
        · rw [List.filter_cons, List.filter_cons, filtered]
        · obtain rfl | later := List.mem_cons.mp mem
          · obtain digit | rfl := first
            · exact Or.inl digit
            · exact Or.inr rfl
          · exact marks c later
      · refine ⟨?_, fun c mem => ?_⟩
        · rw [List.filter_cons_of_neg (Bool.eq_false_iff.mp (not_digit_of_isGroupMark mark)),
            List.filter_cons_of_neg (by decide), filtered]
        · obtain rfl | later := List.mem_cons.mp mem
          · exact Or.inr mark
          · exact marks c later

theorem readInt?_ofNat (n : Nat) : numerals.digits.readInt? (ofNat n) =
    if (ofNat n).length ≤ DecimalDigits.maxStrDigits then some (n : Int) else none := by
  rw [DecimalDigits.readInt?_of_digits (DecimalDigits.ofNat_ne_nil n)
    fun c => DecimalDigits.isAsciiDigit_of_mem_ofNat, DecimalDigits.number_ofNat]

theorem short_zero : (ofNat 0).length ≤ DecimalDigits.maxStrDigits := by decide

theorem asInt_of_digits {text : Text} (own : number numerals cell = some text)
    (digits : text.filter (fun c => !isMark c) = ofNat n) :
    asInt numerals cell = some n ↔ (ofNat n).length ≤ DecimalDigits.maxStrDigits := by
  rw [asInt, own, Option.map_some, digits, readInt?_ofNat]
  by_cases short : (ofNat n).length ≤ DecimalDigits.maxStrDigits
  · simp [short]
  · rw [if_neg short]
    refine ⟨fun read => ?_, fun short' => absurd short' short⟩
    rw [← Option.some.inj read]
    exact short_zero

theorem filter_ofNat_marks (n : Nat) : (ofNat n).filter (fun c => !isMark c) = ofNat n := by
  refine List.filter_eq_self.mpr fun c mem => ?_
  have free := isGroupMark_of_digit (DecimalDigits.isAsciiDigit_of_mem_ofNat mem)
  rw [isGroupMark, Bool.or_eq_false_iff] at free
  rw [free.2]
  rfl

theorem length_ofNat (small : n < 10 ^ 16) : (ofNat n).length ≤ 16 := by
  rw [DecimalDigits.ofNat_eq]
  exact (Nat.length_toDigits_le_iff (by decide) (by decide)).mpr small

theorem asInt_float {repr : Text} (own : IsRepr n repr) :
    asInt numerals (.float repr) = some n ↔ n = 0 := by
  rw [asInt, number, Option.map_some]
  obtain ⟨small, rfl⟩ | ⟨large, whole, fraction, exponent, -, -, rfl⟩ := own
  · have digits : (ofNat n ++ ".0".toList).filter (fun c => !isMark c) = ofNat n ++ ['0'] := by
      rw [List.filter_append, filter_ofNat_marks]
      rfl
    have ascii : ∀ c ∈ ofNat n ++ ['0'], isAsciiDigit c = true := by
      intro c mem
      obtain own | last := List.mem_append.mp mem
      · exact DecimalDigits.isAsciiDigit_of_mem_ofNat own
      · rw [List.mem_singleton.mp last]
        rfl
    have short : (ofNat n ++ ['0']).length ≤ DecimalDigits.maxStrDigits := by
      have bound := length_ofNat small
      rw [List.length_append, List.length_singleton, DecimalDigits.maxStrDigits]
      omega
    have zero : numerals.digits.value? '0' = some 0 := DecimalDigits.value?_digitChar (d := 0) (by decide)
    rw [digits, DecimalDigits.readInt?_of_digits (by simp) ascii, if_pos short,
      DecimalDigits.number_concat _ zero, DecimalDigits.number_ofNat]
    simp
    omega
  · have unread : numerals.digits.readInt?
        ((whole ++ (if fraction.isEmpty then [] else '.' :: fraction) ++ "e+".toList ++
          ofNat exponent).filter fun c => !isMark c) = none := by
      have here : 'e' ∈ (whole ++ (if fraction.isEmpty then [] else '.' :: fraction) ++
          "e+".toList ++ ofNat exponent).filter fun c => !isMark c := by
        refine List.mem_filter.mpr ⟨?_, by decide⟩
        simp only [List.mem_append]
        exact Or.inl (Or.inr (by decide))
      exact DecimalDigits.readInt?_of_other here (by decide) (by decide) (by decide) (by decide)
        (DecimalDigits.isDigit_of_ascii (by decide))
    rw [unread]
    simp
    omega

variable (numerals) in
theorem asInt_eq_some_iff (own : CountCell n cell) :
    asInt numerals cell = some n ↔ LegibleCount n cell := by
  cases cell with
  | empty => exact own.elim
  | bool b => exact own.elim
  | other s => exact own.elim
  | float repr => exact asInt_float own
  | text s =>
    obtain ⟨digits, marks⟩ := WritesCount.spec own
    have filled : ∃ c ∈ s, isAsciiDigit c = true := by
      obtain ⟨c, mem⟩ := List.exists_mem_of_ne_nil _ (DecimalDigits.ofNat_ne_nil n)
      rw [← digits] at mem
      exact ⟨c, List.mem_filter.mp mem⟩
    exact asInt_of_digits rfl ((filter_normalised marks filled).trans digits)
  | int m =>
    have same : m = n := own
    subst same
    have legible : LegibleCount n (.int n) ↔ (ofNat n).length ≤ DecimalDigits.maxStrDigits :=
      Iff.rfl
    rw [legible]
    by_cases short : (ofNat n).length ≤ DecimalDigits.maxStrDigits
    · have written : number numerals (.int n) = some (ofNat n) := by
        rw [number, strInt?, Int.natAbs_natCast, if_pos short, if_neg (by omega)]
      exact asInt_of_digits written (filter_ofNat_marks n)
    · refine ⟨fun read => ?_, fun short' => absurd short' short⟩
      rw [asInt, number, strInt?, Int.natAbs_natCast, if_neg short] at read
      cases read

end Counts

section Positions

variable {numerals : Numerals} {whole : Nat} {decimals before after : Text} {mark c : Char}
  {position : ℚ} {cell : Cell}

theorem cutLast?_eq_none (free : ∀ c ∈ after, isMark c = false) : cutLast? after = none := by
  induction after with
  | nil => rfl
  | cons c after ih =>
    rw [cutLast?, ih fun d mem => free d (List.mem_cons_of_mem c mem)]
    dsimp only
    rw [free c List.mem_cons_self, if_neg Bool.false_ne_true]

theorem cutLast?_append (here : isMark mark = true) (free : ∀ c ∈ after, isMark c = false)
    (before : Text) : cutLast? (before ++ mark :: after) = some (before, after) := by
  induction before with
  | nil =>
    rw [List.nil_append, cutLast?, cutLast?_eq_none free]
    dsimp only
    rw [if_pos here]
  | cons c before ih => rw [List.cons_append, cutLast?, ih]

theorem exists_of_cutLast? {s : Text} (cut : cutLast? s = some (before, after)) :
    ∃ mark, isMark mark = true ∧ s = before ++ mark :: after := by
  induction s generalizing before with
  | nil => cases cut
  | cons c s ih =>
    rw [cutLast?] at cut
    split at cut
    · next later after' found =>
      cases cut
      obtain ⟨mark, here, rfl⟩ := ih found
      exact ⟨mark, here, rfl⟩
    · split at cut
      · next here =>
        cases cut
        exact ⟨c, here, rfl⟩
      · cases cut

theorem decimalText_repr {repr : Text} (comma : ',' ∉ repr) (point : repr.count '.' ≤ 1) :
    decimalText repr = repr := by
  rw [decimalText]
  cases cut : cutLast? repr with
  | none => rfl
  | some parts =>
    obtain ⟨before, after⟩ := parts
    obtain ⟨mark, here, rfl⟩ := exists_of_cutLast? cut
    rw [List.mem_append, not_or, List.mem_cons, not_or] at comma
    rw [isMark, Bool.or_eq_true, decide_eq_true_eq, decide_eq_true_eq] at here
    obtain rfl := here.resolve_right fun same => comma.2.1 same.symm
    rw [List.count_append, List.count_cons_self] at point
    have none_ : '.' ∉ before := List.count_eq_zero.mp (by omega)
    dsimp only
    rw [List.filter_eq_self.mpr]
    intro c mem
    rw [Bool.not_eq_true', isMark, Bool.or_eq_false_iff, decide_eq_false_iff_not,
      decide_eq_false_iff_not]
    exact ⟨fun same => none_ (same ▸ mem), fun same => comma.1 (same ▸ mem)⟩

theorem isMark_of_digit (digit : isAsciiDigit c = true) : isMark c = false := by
  have free := isGroupMark_of_digit digit
  rw [isGroupMark, Bool.or_eq_false_iff] at free
  exact free.2

theorem decimalText_positionText (here : isMark mark = true)
    (digits : ∀ c ∈ decimals, isAsciiDigit c = true) :
    decimalText (positionText mark whole decimals) = positionText '.' whole decimals := by
  rw [positionText, positionText]
  cases decimals with
  | nil =>
    have free : ∀ c ∈ ofNat whole, isMark c = false := fun c mem =>
      isMark_of_digit (DecimalDigits.isAsciiDigit_of_mem_ofNat mem)
    rw [List.isEmpty_nil, if_pos rfl, if_pos rfl, decimalText, cutLast?_eq_none free]
  | cons d decimals =>
    rw [List.isEmpty_cons, if_neg Bool.false_ne_true, if_neg Bool.false_ne_true, decimalText,
      cutLast?_append here fun c mem => isMark_of_digit (digits c mem)]
    dsimp only
    rw [filter_ofNat_marks]

theorem normalised_eq {s : Text} (own : ∀ c ∈ s, isAsciiDigit c = true ∨ isMark c = true)
    (first : ∀ c, s.head? = some c → isAsciiDigit c = true)
    (last : ∀ c, s.getLast? = some c → isAsciiDigit c = true) (filled : s ≠ []) :
    normalised numerals s = s := by
  have solid {c : Char} (digit : isAsciiDigit c = true) : isSpace c = false := by
    rw [← Bool.not_eq_true]
    intro space
    rw [not_digit_of_isSpace space] at digit
    cases digit
  have percent {c : Char} (digit : isAsciiDigit c = true) : decide (c = '%') = false := by
    rw [decide_eq_false_iff_not]
    rintro rfl
    cases digit
  have stripped : strip isSpace s = s :=
    strip_eq_self (fun c at_ => solid (first c at_)) fun c at_ => solid (last c at_)
  have kept : s.filter (fun c => !isSeparator c) = s := by
    refine List.filter_eq_self.mpr fun c mem => ?_
    rw [Bool.not_eq_true']
    obtain digit | mark := own c mem
    · have free := isGroupMark_of_digit digit
      rw [isGroupMark, Bool.or_eq_false_iff] at free
      exact free.1
    · rw [isMark, Bool.or_eq_true, decide_eq_true_eq, decide_eq_true_eq] at mark
      obtain rfl | rfl := mark <;> rfl
  rw [normalised, stripped, rstrip_eq_self fun c at_ => percent (last c at_), stripped, kept,
    if_pos]
  obtain ⟨c, at_⟩ := Option.isSome_iff_exists.mp (List.isSome_head?.mpr filled)
  exact List.any_eq_true.mpr
    ⟨c, List.mem_of_mem_head? at_, DecimalDigits.isDigit_of_isAsciiDigit (first c at_)⟩

variable (whole) in
theorem positionText_own (here : isMark mark = true)
    (digits : ∀ c ∈ decimals, isAsciiDigit c = true) :
    (∀ c ∈ positionText mark whole decimals, isAsciiDigit c = true ∨ isMark c = true) ∧
      (∀ c, (positionText mark whole decimals).head? = some c → isAsciiDigit c = true) ∧
        (∀ c, (positionText mark whole decimals).getLast? = some c → isAsciiDigit c = true) ∧
          positionText mark whole decimals ≠ [] := by
  have wholes : ∀ c ∈ ofNat whole, isAsciiDigit c = true := fun c =>
    DecimalDigits.isAsciiDigit_of_mem_ofNat
  have filled := DecimalDigits.ofNat_ne_nil whole
  rw [positionText]
  cases decimals with
  | nil =>
    rw [List.isEmpty_nil, if_pos rfl]
    exact ⟨fun c mem => Or.inl (wholes c mem), fun c at_ => wholes c (List.mem_of_mem_head? at_),
      fun c at_ => wholes c (List.mem_of_getLast? at_), filled⟩
  | cons d decimals =>
    rw [List.isEmpty_cons, if_neg Bool.false_ne_true]
    refine ⟨fun c mem => ?_, fun c at_ => ?_, fun c at_ => ?_, ?_⟩
    · obtain own | later := List.mem_append.mp mem
      · exact Or.inl (wholes c own)
      · obtain rfl | own := List.mem_cons.mp later
        · exact Or.inr here
        · exact Or.inl (digits c own)
    · rw [List.head?_append_of_ne_nil _ filled] at at_
      exact wholes c (List.mem_of_mem_head? at_)
    · rw [List.getLast?_append_of_ne_nil _ (List.cons_ne_nil mark _), List.getLast?_cons_cons] at at_
      exact digits c (List.mem_of_getLast? at_)
    · exact List.append_ne_nil_of_left_ne_nil filled _

theorem asFloat_of_position (own : PositionCell numerals position cell) :
    asFloat numerals cell = some position := by
  obtain ⟨least, whole, decimals, digits, value, ⟨mark, here, rfl⟩ | ⟨repr, comma, point, read, rfl⟩⟩ :=
    own
  · rw [List.all_eq_true] at digits
    have text : normalised numerals (positionText mark whole decimals) =
        positionText mark whole decimals := by
      obtain ⟨all, first, last, filled⟩ := positionText_own whole here digits
      exact normalised_eq all first last filled
    rw [asFloat, number, text, Option.map_some, decimalText_positionText here digits, value]
    exact congrArg some (max_eq_right least)
  · rw [asFloat, number, Option.map_some, decimalText_repr comma point, read]
    exact congrArg some (max_eq_right least)

end Positions

section Rows

variable {unicode : UnicodeData} {numerals : Numerals} {used : Columns} {row : Row}
  {rows : List Row} {cell : Cell} {tables : List Table}

theorem exists_mapM_iff {α β : Type} {f : α → Option β} {R : α → β → Prop} {xs : List α} :
    (∃ ys, xs.mapM f = some ys ∧ List.Forall₂ R xs ys) ↔ ∀ x ∈ xs, ∃ y, f x = some y ∧ R x y := by
  induction xs with
  | nil => exact ⟨fun _ x mem => absurd mem List.not_mem_nil, fun _ => ⟨[], rfl, .nil⟩⟩
  | cons x xs ih =>
    rw [List.forall_mem_cons, ← ih]
    constructor
    · rintro ⟨ys, found, holds⟩
      rw [List.mapM_cons, Option.bind_eq_bind, Option.bind_eq_some_iff] at found
      obtain ⟨y, first, found⟩ := found
      rw [Option.bind_eq_bind, Option.bind_eq_some_iff] at found
      obtain ⟨ys', later, same⟩ := found
      cases same
      obtain ⟨here, there⟩ := List.forall₂_cons.mp holds
      exact ⟨⟨y, first, here⟩, ys', later, there⟩
    · rintro ⟨⟨y, first, here⟩, ys, later, there⟩
      refine ⟨y :: ys, ?_, .cons here there⟩
      rw [List.mapM_cons, first, Option.bind_eq_bind, Option.bind_some, later]
      rfl

theorem number_isSome : (number numerals cell).isSome = true ↔ cell.Writable := by
  cases cell with
  | int n =>
    rw [number, strInt?]
    have writable : (Cell.int n).Writable ↔
        (ofNat n.natAbs).length ≤ DecimalDigits.maxStrDigits := Iff.rfl
    rw [writable]
    split
    · next short => exact ⟨fun _ => short, fun _ => rfl⟩
    · next long => exact ⟨fun never => absurd never Bool.false_ne_true, fun short => absurd short long⟩
  | empty => exact ⟨fun _ => trivial, fun _ => rfl⟩
  | bool b => exact ⟨fun _ => trivial, fun _ => rfl⟩
  | float repr => exact ⟨fun _ => trivial, fun _ => rfl⟩
  | text s => exact ⟨fun _ => trivial, fun _ => rfl⟩
  | other s => exact ⟨fun _ => trivial, fun _ => rfl⟩

variable (numerals used row) in
theorem readRow_iff :
    (∃ metrics, readRow numerals used row = some metrics ∧ Carries numerals used row metrics) ↔
      LegibleRow used row := by
  constructor
  · rintro ⟨metrics, read, carries⟩
    rw [readRow, Option.bind_eq_some_iff] at read
    obtain ⟨clicks, first, read⟩ := read
    rw [Option.bind_eq_some_iff] at read
    obtain ⟨impressions, second, read⟩ := read
    obtain ⟨position, third, rfl⟩ := Option.map_eq_some_iff.mp read
    have written {γ : Type} {f : Text → γ} {x : γ} {cell : Cell}
        (read : (number numerals cell).map f = some x) : cell.Writable := by
      obtain ⟨text, found, -⟩ := Option.map_eq_some_iff.mp read
      exact number_isSome.mp (Option.isSome_iff_exists.mpr ⟨text, found⟩)
    refine ⟨⟨written first, written second, written third⟩, fun n own => ?_, fun n own => ?_⟩
    · rw [← asInt_eq_some_iff numerals own, first]
      exact congrArg some (carries.clicks n own)
    · rw [← asInt_eq_some_iff numerals own, second]
      exact congrArg some (carries.impressions n own)
  · intro legible
    have read {γ : Type} (f : Text → γ) {cell : Cell} (writable : cell.Writable) :
        ∃ x, (number numerals cell).map f = some x := by
      obtain ⟨text, found⟩ := Option.isSome_iff_exists.mp (number_isSome.mpr writable)
      exact ⟨f text, by rw [found, Option.map_some]⟩
    obtain ⟨clicks, first⟩ : ∃ x, asInt numerals (cellAt row used.clicks) = some x :=
      read _ legible.writable.1
    obtain ⟨impressions, second⟩ : ∃ x, asInt numerals (cellAt row used.impressions) = some x :=
      read _ legible.writable.2.1
    obtain ⟨position, third⟩ : ∃ x, asFloat numerals (cellAt row used.position) = some x :=
      read _ legible.writable.2.2
    refine ⟨⟨addressText (cellAt row used.address), clicks, impressions, position⟩, ?_,
      rfl, fun n own => ?_, fun n own => ?_, fun p own => ?_⟩
    · rw [readRow, first, Option.bind_some, second, Option.bind_some, third, Option.map_some]
    · exact Option.some.inj (first.symm.trans
        ((asInt_eq_some_iff numerals own).mpr (legible.clicks n own)))
    · exact Option.some.inj (second.symm.trans
        ((asInt_eq_some_iff numerals own).mpr (legible.impressions n own)))
    · exact Option.some.inj (third.symm.trans (asFloat_of_position own))

theorem rows_of_loadGscExport {name : Text} {start : Nat} {parsed : List GscPageMetrics}
    {result : GscExport} (picked : pick unicode tables = .ok (name, rows))
    (located : columns unicode rows = some (used, start))
    (read : (addressRows unicode used (rows.drop start)).mapM (readRow numerals used) = some parsed)
    (loaded : loadGscExport unicode numerals tables = .ok result) :
    result.rows = parsed ∧ result.sourceName = name := by
  rw [loadGscExport, picked] at loaded
  dsimp only at loaded
  rw [located] at loaded
  dsimp only at loaded
  rw [read] at loaded
  dsimp only at loaded
  split at loaded
  · cases loaded
  · split at loaded
    · cases loaded
      exact ⟨rfl, rfl⟩
    · cases loaded

theorem carriesTheTable_iff :
    CarriesTheTable unicode numerals tables ↔ LegibleTable unicode tables := by
  refine forall_congr' fun name => forall_congr' fun rows => forall_congr' fun used =>
    forall_congr' fun start => forall_congr' fun picked => forall_congr' fun located => ?_
  rw [← forall₂_congr fun row _ => readRow_iff numerals used row, ← exists_mapM_iff]
  constructor
  · rintro ⟨parsed, read, carries, -⟩
    exact ⟨parsed, read, carries⟩
  · rintro ⟨parsed, read, carries⟩
    exact ⟨parsed, read, carries, fun result => rows_of_loadGscExport picked located read⟩

end Rows

/-- A count is read exactly where its cell is legible, a position always, and a table where all
its counts are legible. -/
theorem numbers_survive_iff (unicode : UnicodeData) (numerals : Numerals) :
    (∀ n cell, CountCell n cell → (asInt numerals cell = some n ↔ LegibleCount n cell)) ∧
      (∀ position cell, PositionCell numerals position cell →
        asFloat numerals cell = some position) ∧
      ∀ tables, CarriesTheTable unicode numerals tables ↔ LegibleTable unicode tables :=
  ⟨fun _ _ => asInt_eq_some_iff numerals, fun _ _ => asFloat_of_position, fun _ => carriesTheTable_iff⟩

/-- ASCII digits, and `float` of whole numbers. -/
def asciiNumerals : Numerals where
  digits := .asciiOnly
  float? s := if s.all isAsciiDigit then some (decimal s) else none

/-- A float cell is read tenfold. -/
theorem float_read_tenfold : CountCell 1234 (.float "1234.0".toList) ∧
    asInt asciiNumerals (.float "1234.0".toList) = some 12340 :=
  ⟨Or.inl ⟨by decide, by decide⟩, by decide⟩

example : asInt asciiNumerals (.text "1.234.567".toList) = some 1234567 := by decide

end Rankuno.SearchConsole
