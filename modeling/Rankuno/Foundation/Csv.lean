import Mathlib.Data.List.Basic

/-!
# Comma-separated values

Tables as RFC 4180 writes them: cells between commas, rows between line breaks, a cell in quotes
where it holds either. A reader of that grammar gets back what the writer put in, except that it
cannot tell a last row of one empty cell from no row.
-/

namespace Csv

/-- What a cell without quotes does not hold. -/
def isSpecial (c : Char) : Bool := c = '"' || c = ',' || c = '\r' || c = '\n'

/-- Quotes are doubled. -/
def escape (text : List Char) : List Char :=
  text.flatMap fun c => if c = '"' then ['"', '"'] else [c]

/-- A cell, in quotes where it needs them. -/
def field (text : List Char) : List Char :=
  if text.any isSpecial then '"' :: escape text ++ ['"'] else text

def line (row : List (List Char)) : List Char := [','].intercalate (row.map field)

def write (rows : List (List (List Char))) : List Char := ['\r', '\n'].intercalate (rows.map line)

/-- Where a reader is in a cell. -/
inductive Mode where
  | start
  | plain
  | quoted
  /-- After a quote that closes the cell or is the first of two. -/
  | closed
  /-- After the first half of a line break. -/
  | broken

/-- The rows of a text, with what was read of the cell and the row, if it is in the grammar. -/
def readFrom (mode : Mode) (cell : List Char) (row : List (List Char)) :
    List Char → Option (List (List (List Char)))
  | [] =>
    match mode with
    | .start => some (if row = [] then [] else [row ++ [cell]])
    | .plain | .closed => some [row ++ [cell]]
    | .quoted | .broken => none
  | c :: rest =>
    match mode with
    | .start | .plain =>
      if c = ',' then readFrom .start [] (row ++ [cell]) rest
      else if c = '\r' then readFrom .broken cell row rest
      else if c = '"' then
        match mode with
        | .start => readFrom .quoted cell row rest
        | _ => none
      else if c = '\n' then none
      else readFrom .plain (cell ++ [c]) row rest
    | .quoted =>
      if c = '"' then readFrom .closed cell row rest else readFrom .quoted (cell ++ [c]) row rest
    | .closed =>
      if c = ',' then readFrom .start [] (row ++ [cell]) rest
      else if c = '\r' then readFrom .broken cell row rest
      else if c = '"' then readFrom .quoted (cell ++ [c]) row rest
      else none
    | .broken =>
      if c = '\n' then (readFrom .start [] [] rest).map fun rows => (row ++ [cell]) :: rows else none

def read (text : List Char) : Option (List (List (List Char))) := readFrom .start [] [] text

variable {text cell rest : List Char} {row : List (List Char)} {mode : Mode}

theorem readFrom_plain (free : text.any isSpecial = false) :
    readFrom .plain cell row (text ++ rest) = readFrom .plain (cell ++ text) row rest := by
  induction text generalizing cell with
  | nil => rw [List.nil_append, List.append_nil]
  | cons c text ih =>
    simp only [List.any_cons, Bool.or_eq_false_iff, isSpecial, decide_eq_false_iff_not] at free
    obtain ⟨⟨⟨⟨quote, comma⟩, cr⟩, lf⟩, free⟩ := free
    simp only [List.cons_append, readFrom, quote, comma, cr, lf, if_false]
    rw [ih (by simpa [isSpecial] using free), List.append_assoc]
    rfl

theorem readFrom_quoted : readFrom .quoted cell row (escape text ++ '"' :: rest) =
    readFrom .closed (cell ++ text) row rest := by
  induction text generalizing cell with
  | nil => simp [escape, readFrom]
  | cons c text ih =>
    rw [escape, List.flatMap_cons, ← escape, List.append_assoc]
    by_cases quote : c = '"'
    · subst quote
      simp [readFrom, ih]
    · simp [readFrom, ih, quote]

/-- The cell is read, and its end is not. -/
def Mode.EndsCell (text : List Char) : Mode → Prop
  | start => text = []
  | plain | closed => True
  | quoted | broken => False

theorem exists_readFrom_field (text rest : List Char) (row : List (List Char)) :
    ∃ mode : Mode, mode.EndsCell text ∧
      readFrom .start [] row (field text ++ rest) = readFrom mode text row rest := by
  rw [field]
  split
  · refine ⟨.closed, trivial, ?_⟩
    have quoted := @readFrom_quoted text [] rest row
    simpa [readFrom] using quoted
  · next free =>
    cases text with
    | nil => exact ⟨.start, rfl, rfl⟩
    | cons c text =>
      refine ⟨.plain, trivial, ?_⟩
      have free := Bool.eq_false_iff.mpr free
      have first := free
      simp only [List.any_cons, Bool.or_eq_false_iff, isSpecial, decide_eq_false_iff_not] at first
      obtain ⟨⟨⟨⟨quote, comma⟩, cr⟩, lf⟩, -⟩ := first
      rw [List.any_cons, Bool.or_eq_false_iff] at free
      simp only [List.cons_append, readFrom, quote, comma, cr, lf, if_false, List.nil_append]
      exact readFrom_plain free.2

theorem readFrom_field_comma : readFrom .start [] row (field text ++ ',' :: rest) =
    readFrom .start [] (row ++ [text]) rest := by
  obtain ⟨mode, ends, same⟩ := exists_readFrom_field text (',' :: rest) row
  rw [same]
  cases mode <;> first | rfl | cases ends

theorem readFrom_field_break : readFrom .start [] row (field text ++ '\r' :: '\n' :: rest) =
    (readFrom .start [] [] rest).map fun rows => (row ++ [text]) :: rows := by
  obtain ⟨mode, ends, same⟩ := exists_readFrom_field text ('\r' :: '\n' :: rest) row
  rw [same]
  cases mode <;> first | rfl | cases ends

theorem readFrom_field_end (long : row ≠ []) : readFrom .start [] row (field text) =
    some [row ++ [text]] := by
  obtain ⟨mode, ends, same⟩ := exists_readFrom_field text [] row
  rw [List.append_nil] at same
  rw [same]
  cases mode with
  | start =>
    obtain rfl : text = [] := ends
    simp [readFrom, long]
  | plain | closed => rfl
  | quoted | broken => cases ends

theorem readFrom_line (row cells : List (List Char)) (last rest : List Char) :
    readFrom .start [] row (line (cells ++ [last]) ++ rest) =
      readFrom .start [] (row ++ cells) (field last ++ rest) := by
  induction cells generalizing row with
  | nil => simp [line, List.intercalate]
  | cons cell cells ih =>
    have head : line (cell :: cells ++ [last]) = field cell ++ ',' :: line (cells ++ [last]) := by
      cases cells <;> simp [line, List.intercalate]
    rw [head, List.append_assoc, List.cons_append, readFrom_field_comma, ih, List.append_assoc]
    rfl

/-- The reader gets back the rows that were written, if they are of two cells or more. -/
theorem read_write {rows : List (List (List Char))} (nonempty : rows ≠ [])
    (wide : ∀ row ∈ rows, 2 ≤ row.length) : read (write rows) = some rows := by
  have cut (row : List (List Char)) (long : 2 ≤ row.length) :
      ∃ cells last, row = cells ++ [last] ∧ cells ≠ [] := by
    obtain rfl | ⟨cells, last, rfl⟩ := row.eq_nil_or_concat
    · cases long
    · rw [List.concat_eq_append, List.length_append, List.length_singleton] at long
      rw [List.concat_eq_append]
      exact ⟨cells, last, rfl, List.ne_nil_of_length_pos (by omega)⟩
  induction rows with
  | nil => exact absurd rfl nonempty
  | cons row rows ih =>
    obtain ⟨long, others⟩ := List.forall_mem_cons.mp wide
    obtain ⟨cells, last, rfl, filled⟩ := cut row long
    cases rows with
    | nil =>
      have all := readFrom_line [] cells last []
      rw [List.append_nil, List.append_nil, List.nil_append, readFrom_field_end filled] at all
      simpa [read, write, List.intercalate] using all
    | cons next rows =>
      have head : write ((cells ++ [last]) :: next :: rows) =
          line (cells ++ [last]) ++ '\r' :: '\n' :: write (next :: rows) := by
        simp [write, List.intercalate]
      rw [read, head, readFrom_line, readFrom_field_break, ← read, ih (List.cons_ne_nil _ _) others]
      rfl

end Csv
