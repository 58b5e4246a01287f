import Rankuno.Python.Digits

/-!
# The internal map of a masterfile

`build_internal_map` of `masterfile_enrichment.py`. pandas types a column as a whole: one blank
cell makes floats of its integers, one word makes texts of its numbers, and the map is built from
how the cells print.
-/

namespace Rankuno.Deliverables

open Python Python.Text

/-- What pandas and the built-in types make of a cell. -/
structure Pandas where
  /-- The cell is read as `NaN`. -/
  isBlank : Text → Bool
  isInteger : Text → Bool
  isNumeral : Text → Bool
  /-- `str` of the integer, and of the float, that a cell is read as. -/
  intText : Text → Text
  floatText : Text → Text
  /-- `str.isdigit`. -/
  isDigit : Text → Bool
  /-- `int` of a text, none where it raises `ValueError`. -/
  int? : Text → Option Nat
  /-- `int(float(_))`. -/
  floatInt : Text → Int

/-- The columns of a row that the map reads. -/
structure ExportRow where
  address : Text
  statusCode : Text
  indexability : Text
  inlinks : Text

inductive ColumnType where
  | integers
  | floats
  | objects

structure InternalEntry where
  statusCode : Option Text
  indexability : Option Text
  inlinks : Option Nat
  deriving DecidableEq

section Map

variable (pandas : Pandas)

/-- The type of a column. -/
def columnType (column : List Text) : ColumnType :=
  if column.all fun cell => pandas.isBlank cell || pandas.isNumeral cell then
    if column.all pandas.isInteger then .integers else .floats
  else .objects

/-- `str` of a cell that is not blank. -/
def print (cell : Text) : ColumnType → Text
  | .integers => pandas.intText cell
  | .floats => pandas.floatText cell
  | .objects => cell

/-- `str` of a cell as it is read, none for `NaN`. -/
def view (type : ColumnType) (cell : Text) : Option Text :=
  if pandas.isBlank cell then none else some (print pandas cell type)

/-- The inlinks of a cell, none where `int` raises. -/
def readInlinks : Option Text → Option (Option Nat)
  | none => some none
  | some text => if pandas.isDigit text then (pandas.int? text).map some else some none

/-- `_as_int`, by which the other maps read their counts. -/
def asInt : Option Text → Int
  | none => 0
  | some text =>
    if pandas.isDigit ((text.erase '.').dropWhile (· = '-')) then pandas.floatInt text else 0

/-- The entry of a row in columns of the three types, none where the row is left out. -/
def rowEntry (status indexability inlinks : ColumnType) (row : ExportRow) : Option InternalEntry :=
  (readInlinks pandas (view pandas inlinks row.inlinks)).map fun count =>
    ⟨view pandas status row.statusCode, view pandas indexability row.indexability, count⟩

/-- The entry of a row of an export. An address is no number, and is read as it is. -/
def entryIn (rows : List ExportRow) : ExportRow → Option InternalEntry :=
  rowEntry pandas (columnType pandas (rows.map ExportRow.statusCode))
    (columnType pandas (rows.map ExportRow.indexability))
    (columnType pandas (rows.map ExportRow.inlinks))

/-- `build_internal_map`: the assignments to the dictionary, in order. -/
def buildInternalMap (rows : List ExportRow) : List (Text × InternalEntry) :=
  rows.filterMap fun row => (entryIn pandas rows row).map fun entry => (row.address, entry)

/-- The entry of a URL: the one assigned last. -/
def lookUp (url : Text) (map : List (Text × InternalEntry)) : Option InternalEntry :=
  (map.filter fun pair => pair.1 = url).getLast?.map Prod.snd

/-- Rows that have other addresses than a row. -/
def Others (row : ExportRow) (rows : List ExportRow) : Prop :=
  ∀ other ∈ rows, other.address ≠ row.address

/-- The entry of a row's URL is the same among whatever rows with other addresses. -/
def DependsOnItself (row : ExportRow) : Prop :=
  ∀ before after before' after', Others row before → Others row after → Others row before' →
    Others row after' →
    lookUp row.address (buildInternalMap pandas (before ++ row :: after)) =
      lookUp row.address (buildInternalMap pandas (before' ++ row :: after'))

/-- A cell holds a count: as an integer, as a float or with thousands separators. -/
def HoldsCount (n : Nat) (cell : Text) : Prop :=
  cell = ofNat n ∨ cell = ofNat n ++ ".0".toList ∨ cell = ofNatGrouped n ∧ ',' ∈ cell

/-- Each entry depends on its own row, and each count is read. -/
structure StandsAlone (rows : List ExportRow) : Prop where
  alone : ∀ row ∈ rows, DependsOnItself pandas row
  counts : ∀ row ∈ rows, ∀ n, HoldsCount n row.inlinks →
    let read := view pandas (columnType pandas (rows.map ExportRow.inlinks)) row.inlinks
    readInlinks pandas read = some (some n) ∧ asInt pandas read = n

/-- The cell prints alike in every column it can be in. -/
def Steady (cell : Text) : Prop :=
  pandas.isBlank cell ∨ pandas.isNumeral cell = false ∨
    pandas.isInteger cell = false ∧ pandas.floatText cell = cell

/-- The cell is read as the same count in every column, or always as none. -/
def SteadyCount (cell : Text) : Prop :=
  pandas.isBlank cell ∨ pandas.isNumeral cell = false ∨ pandas.isDigit cell = false ∧
      (pandas.isInteger cell → pandas.isDigit (pandas.intText cell) = false)

/-- The row is always left out: its count is of digits that `int` does not take. -/
def LeftOut (cell : Text) : Prop :=
  pandas.isBlank cell = false ∧ pandas.isNumeral cell = false ∧ pandas.isDigit cell ∧
    pandas.int? cell = none

/-- The cells of a row print alike in every column they can be in, and none holds a count. -/
def SteadyRow (row : ExportRow) : Prop :=
  (LeftOut pandas row.inlinks ∨ Steady pandas row.statusCode ∧ Steady pandas row.indexability ∧
    SteadyCount pandas row.inlinks) ∧ ∀ n, ¬HoldsCount n row.inlinks

end Map

/-- What is documented of pandas and `str`. -/
structure Pandas.Documented (pandas : Pandas) : Prop where
  blank : pandas.isBlank [] ∧ pandas.isInteger [] = false
  word : pandas.isBlank ['x'] = false ∧ pandas.isNumeral ['x'] = false
  numeral : ∀ cell, pandas.isInteger cell → pandas.isNumeral cell
  float : ∀ cell, pandas.isDigit (pandas.floatText cell) = false
  apart : ∀ cell, pandas.isInteger cell → pandas.intText cell ≠ pandas.floatText cell
  natural : ∀ n, pandas.isInteger (ofNat n) ∧ pandas.isBlank (ofNat n) = false ∧
    pandas.isDigit (pandas.intText (ofNat n))
  mark : ∀ cell, '.' ∈ cell ∨ ',' ∈ cell →
    pandas.isInteger cell = false ∧ pandas.isDigit cell = false

section Reading

variable {pandas : Pandas} {row : ExportRow} {cell : Text} {column : List Text}

theorem lookUp_map {before after : List ExportRow} (others : Others row before)
    (others' : Others row after) :
    lookUp row.address (buildInternalMap pandas (before ++ row :: after)) =
      entryIn pandas (before ++ row :: after) row := by
  have elsewhere (rows : List ExportRow) (others : Others row rows)
      (entry : ExportRow → Option InternalEntry) :
      (rows.filterMap fun row => (entry row).map fun entry => (row.address, entry)).filter
        (fun pair => pair.1 = row.address) = [] := by
    rw [List.filter_eq_nil_iff]
    intro pair mem
    obtain ⟨other, listed, made⟩ := List.mem_filterMap.mp mem
    obtain ⟨-, -, rfl⟩ := Option.map_eq_some_iff.mp made
    simpa using others other listed
  rw [lookUp, buildInternalMap, List.filterMap_append, List.filterMap_cons, List.filter_append,
    elsewhere before others, List.nil_append]
  cases made : entryIn pandas (before ++ row :: after) row with
  | none =>
    rw [Option.map_none, elsewhere after others']
    rfl
  | some entry =>
    dsimp only [Option.map_some]
    rw [List.filter_cons, if_pos (decide_eq_true rfl), elsewhere after others']
    rfl

theorem columnType_of_not (mem : cell ∈ column) (filled : pandas.isBlank cell = false)
    (word : pandas.isNumeral cell = false) : columnType pandas column = .objects := by
  rw [columnType, if_neg]
  rw [List.all_eq_true]
  intro all
  simpa [filled, word] using all cell mem

theorem columnType_ne_integers (mem : cell ∈ column) (other : pandas.isInteger cell = false) :
    columnType pandas column ≠ .integers := by
  rw [columnType]
  split
  · rw [if_neg fun all => Bool.false_ne_true (other.symm.trans (List.all_eq_true.mp all cell mem))]
    exact ColumnType.noConfusion
  · exact ColumnType.noConfusion

theorem Steady.view_eq (steady : Steady pandas cell) (mem : cell ∈ column) :
    view pandas (columnType pandas column) cell = view pandas .objects cell := by
  unfold view
  split
  · rfl
  · next filled =>
    obtain blank | word | ⟨other, same⟩ := steady
    · exact absurd blank filled
    · rw [columnType_of_not mem (Bool.eq_false_iff.mpr filled) word]
    · have type := columnType_ne_integers mem other
      cases kind : columnType pandas column with
      | integers => exact absurd kind type
      | floats => exact congrArg some same
      | objects => rfl

theorem readInlinks_of_not {text : Text} (other : pandas.isDigit text = false) :
    readInlinks pandas (some text) = some none := by
  rw [readInlinks, other]
  rfl

theorem SteadyCount.read_eq (documented : pandas.Documented) (steady : SteadyCount pandas cell)
    (mem : cell ∈ column) : readInlinks pandas (view pandas (columnType pandas column) cell) =
      readInlinks pandas (view pandas .objects cell) := by
  unfold view
  split
  · rfl
  · next filled =>
    obtain blank | word | ⟨plain, integer⟩ := steady
    · exact absurd blank filled
    · rw [columnType_of_not mem (Bool.eq_false_iff.mpr filled) word]
    · rw [print, readInlinks_of_not plain]
      have type := @columnType_ne_integers pandas cell column mem
      cases kind : columnType pandas column with
      | integers =>
        refine readInlinks_of_not (integer (Bool.not_eq_false _ ▸ fun other => type other kind))
      | floats => exact readInlinks_of_not (documented.float cell)
      | objects => exact readInlinks_of_not plain

theorem entryIn_eq (documented : pandas.Documented) {rows : List ExportRow} (mem : row ∈ rows)
    (steady : SteadyRow pandas row) :
    entryIn pandas rows row = rowEntry pandas .objects .objects .objects row := by
  have inlinks := List.mem_map_of_mem (f := ExportRow.inlinks) mem
  obtain ⟨⟨filled, word, digit, fails⟩ | ⟨status, indexability, count⟩, -⟩ := steady
  · have fails : readInlinks pandas (view pandas .objects row.inlinks) = none := by
      simp [view, filled, print, readInlinks, digit, fails]
    rw [entryIn, rowEntry, rowEntry, columnType_of_not inlinks filled word, fails]
    rfl
  · rw [entryIn, rowEntry, rowEntry, count.read_eq documented inlinks,
      status.view_eq (List.mem_map_of_mem mem), indexability.view_eq (List.mem_map_of_mem mem)]

theorem cases_cell (documented : pandas.Documented) (cell : Text) :
    pandas.isBlank cell ∨ pandas.isNumeral cell = false ∨
      view pandas (columnType pandas [cell, []]) cell = some (pandas.floatText cell) ∧
        view pandas (columnType pandas [cell, ['x']]) cell = some cell ∧
        (pandas.isInteger cell →
          view pandas (columnType pandas [cell]) cell = some (pandas.intText cell)) := by
  have blank := documented.blank
  have word := documented.word
  cases filled : pandas.isBlank cell with
  | true => exact Or.inl rfl
  | false =>
    cases number : pandas.isNumeral cell with
    | false => exact Or.inr (Or.inl rfl)
    | true =>
      refine Or.inr (Or.inr ⟨?_, ?_, fun integer => ?_⟩)
      · simp [columnType, view, print, filled, number, blank]
      · simp [columnType, view, print, filled, word]
      · simp [columnType, view, print, filled, number, integer]

theorem steady_of_eq (documented : pandas.Documented)
    (alone : view pandas (columnType pandas [cell]) cell =
      view pandas (columnType pandas [cell, ['x']]) cell)
    (beside : view pandas (columnType pandas [cell, []]) cell =
      view pandas (columnType pandas [cell, ['x']]) cell) : Steady pandas cell := by
  obtain blank | word | ⟨float, object, integer⟩ := cases_cell documented cell
  · exact Or.inl blank
  · exact Or.inr (Or.inl word)
  · rw [object, float] at beside
    refine Or.inr (Or.inr ⟨Bool.eq_false_iff.mpr fun whole => ?_, Option.some.inj beside⟩)
    rw [object, integer whole] at alone
    exact documented.apart cell whole (Option.some.inj (alone.trans beside.symm))

theorem plain_of_read {text : Text} (read : readInlinks pandas (some text) = some none) :
    pandas.isDigit text = false := by
  rw [readInlinks] at read
  split at read
  · obtain ⟨n, -, same⟩ := Option.map_eq_some_iff.mp read
    cases same
  · next plain => exact Bool.eq_false_iff.mpr plain

theorem steadyCount_of_eq (documented : pandas.Documented)
    (alone : readInlinks pandas (view pandas (columnType pandas [cell]) cell) =
      readInlinks pandas (view pandas (columnType pandas [cell, ['x']]) cell))
    (beside : readInlinks pandas (view pandas (columnType pandas [cell, []]) cell) =
      readInlinks pandas (view pandas (columnType pandas [cell, ['x']]) cell)) :
    SteadyCount pandas cell := by
  obtain blank | word | ⟨float, object, integer⟩ := cases_cell documented cell
  · exact Or.inl blank
  · exact Or.inr (Or.inl word)
  · rw [object, float, readInlinks_of_not (documented.float cell)] at beside
    refine Or.inr (Or.inr ⟨plain_of_read beside.symm, fun whole => ?_⟩)
    rw [object, integer whole, ← beside] at alone
    exact plain_of_read alone

theorem steady_of_dependsOnItself (documented : pandas.Documented)
    (own : DependsOnItself pandas row) : LeftOut pandas row.inlinks ∨
      Steady pandas row.statusCode ∧ Steady pandas row.indexability ∧
        SteadyCount pandas row.inlinks := by
  have beside (cell : Text) : Others row [⟨'x' :: row.address, cell, cell, cell⟩] := by
    intro other mem
    rw [List.mem_singleton.mp mem]
    exact List.cons_ne_self _ _
  have nil : Others row [] := fun other mem => absurd mem List.not_mem_nil
  have blank := own [] _ [] _ nil (beside []) nil (beside ['x'])
  have alone := own [] [] [] _ nil nil nil (beside ['x'])
  rw [lookUp_map nil (beside _), lookUp_map nil (beside _)] at blank
  rw [lookUp_map nil nil, lookUp_map nil (beside _)] at alone
  simp only [List.nil_append, entryIn, rowEntry, List.map_cons, List.map_nil] at blank alone
  cases read : readInlinks pandas (view pandas (columnType pandas [row.inlinks, ['x']])
      row.inlinks) with
  | none =>
    rw [read] at blank
    have raises := Option.map_eq_none_iff.mp blank
    obtain void | word | ⟨float, -, -⟩ := cases_cell documented row.inlinks
    · rw [view, if_pos void] at raises
      cases raises
    · unfold view at raises
      split at raises
      · cases raises
      · next filled =>
        have filled := Bool.eq_false_iff.mpr filled
        rw [columnType_of_not List.mem_cons_self filled word, print, readInlinks] at raises
        split at raises
        · next digit => exact Or.inl ⟨filled, word, digit, Option.map_eq_none_iff.mp raises⟩
        · cases raises
    · rw [float, readInlinks_of_not (documented.float _)] at raises
      cases raises
  | some count =>
    rw [read] at blank alone
    obtain ⟨_, readBlank, sameBlank⟩ := Option.map_eq_some_iff.mp blank
    obtain ⟨_, readAlone, sameAlone⟩ := Option.map_eq_some_iff.mp alone
    simp only [InternalEntry.mk.injEq] at sameBlank sameAlone
    obtain ⟨status, index, rfl⟩ := sameBlank
    obtain ⟨status', index', rfl⟩ := sameAlone
    exact Or.inr ⟨steady_of_eq documented status' status, steady_of_eq documented index' index,
      steadyCount_of_eq documented (readAlone.trans read.symm) (readBlank.trans read.symm)⟩

theorem read_of_plain (documented : pandas.Documented) (mem : cell ∈ column)
    (other : pandas.isInteger cell = false) (plain : pandas.isDigit cell = false) :
    readInlinks pandas (view pandas (columnType pandas column) cell) = some none := by
  unfold view
  split
  · rfl
  · cases kind : columnType pandas column with
    | integers => exact absurd kind (columnType_ne_integers mem other)
    | floats => exact readInlinks_of_not (documented.float cell)
    | objects => exact readInlinks_of_not plain

end Reading

section Sample

/-- The text is of digits. -/
def isDigits (cell : Text) : Bool := cell ≠ [] ∧ cell.all isAsciiDigit

/-- Numbers without a sign or an exponent. -/
def plainPandas : Pandas where
  isBlank cell := cell = []
  isInteger := isDigits
  isNumeral cell := isDigits cell || '.' ∈ cell
  intText cell := cell
  floatText cell := if '.' ∈ cell then cell else cell ++ ".0".toList
  isDigit := isDigits
  int? cell := some (decimal cell)
  floatInt cell := decimal (cell.takeWhile (· ≠ '.'))

theorem isDigits_of_mem {cell : Text} {c : Char} (mem : c ∈ cell) (other : isAsciiDigit c = false) :
    isDigits cell = false := by
  simp only [isDigits, decide_eq_false_iff_not, List.all_eq_true]
  exact fun digits => Bool.false_ne_true (other.symm.trans (digits.2 c mem))

theorem point_mem_floatText (cell : Text) : '.' ∈ plainPandas.floatText cell := by
  simp only [plainPandas]
  split
  · assumption
  · simp

theorem documented_plainPandas : plainPandas.Documented where
  blank := by decide
  word := by decide
  numeral cell integer := Bool.or_eq_true_iff.mpr (Or.inl integer)
  float cell := isDigits_of_mem (point_mem_floatText cell) rfl
  apart cell integer same := by
    have other : isDigits cell = false := isDigits_of_mem (same ▸ point_mem_floatText cell) rfl
    exact Bool.false_ne_true (other.symm.trans integer)
  natural n := by
    have filled := DecimalDigits.ofNat_ne_nil n
    have digits : isDigits (ofNat n) = true := decide_eq_true ⟨filled, List.all_eq_true.mpr
      fun c mem => DecimalDigits.isAsciiDigit_of_mem_ofNat mem⟩
    exact ⟨digits, decide_eq_false filled, digits⟩
  mark cell mark := by
    obtain mem | mem := mark
    · exact ⟨isDigits_of_mem mem rfl, isDigits_of_mem mem rfl⟩
    · exact ⟨isDigits_of_mem mem rfl, isDigits_of_mem mem rfl⟩

end Sample

end Rankuno.Deliverables
