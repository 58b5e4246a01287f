/-!
# Python's text and the methods the sources call on it

A text is the list of its code points. What a method does at a place in the
text follows its documentation; what it looks up in the Unicode database is in
`UnicodeData`, which the callers take as a parameter.
-/

namespace Rankuno.Python

/-- A `str`, one character for each code point. -/
abbrev Text := List Char

/-- The parts of the Unicode database, and of the codecs over it, that the
sources rely on. -/
structure UnicodeData where
  /-- `str.lower`. -/
  lower : Text → Text
  /-- `unicodedata.normalize('NFKC', _)`. -/
  nfkc : Text → Text
  /-- `_.encode("idna").decode("ascii")`, or the text of the `UnicodeError`. -/
  idna : Text → Except Text Text
  /-- `repr`. -/
  repr : Text → Text

namespace Text

def isAscii (s : Text) : Bool := s.all fun c => c.toNat < 128

/-- `str.isspace` for one character. -/
def isSpace (c : Char) : Bool :=
  (9 ≤ c.toNat && c.toNat ≤ 13) || (28 ≤ c.toNat && c.toNat ≤ 32) || c.toNat = 0x85 ||
    c.toNat = 0xa0 || c.toNat = 0x1680 || (0x2000 ≤ c.toNat && c.toNat ≤ 0x200a) ||
    c.toNat = 0x2028 || c.toNat = 0x2029 || c.toNat = 0x202f || c.toNat = 0x205f ||
    c.toNat = 0x3000

def isAsciiDigit (c : Char) : Bool := 48 ≤ c.toNat && c.toNat ≤ 57

def isAsciiAlpha (c : Char) : Bool :=
  (65 ≤ c.toNat && c.toNat ≤ 90) || (97 ≤ c.toNat && c.toNat ≤ 122)

/-- The characters `[a-z0-9_-]` of the sources' identifier patterns. -/
def isSlugChar (c : Char) : Bool :=
  (97 ≤ c.toNat && c.toNat ≤ 122) || isAsciiDigit c || c = '_' || c = '-'

/-- The value of a hexadecimal digit. -/
def hexDigit? (c : Char) : Option Nat :=
  if 48 ≤ c.toNat ∧ c.toNat ≤ 57 then some (c.toNat - 48)
  else if 97 ≤ c.toNat ∧ c.toNat ≤ 102 then some (c.toNat - 87)
  else if 65 ≤ c.toNat ∧ c.toNat ≤ 70 then some (c.toNat - 55)
  else none

/-- `str.lstrip` of a set of characters. -/
def lstrip (p : Char → Bool) (s : Text) : Text := s.dropWhile p

/-- `str.rstrip` of a set of characters. -/
def rstrip (p : Char → Bool) (s : Text) : Text := (s.reverse.dropWhile p).reverse

/-- `str.strip` of a set of characters. -/
def strip (p : Char → Bool) (s : Text) : Text := rstrip p (lstrip p s)

/-- `str.partition`: what stands before the first `sep`, and what stands after
it if there is one. -/
def partition (sep : Char) : Text → Text × Option Text
  | [] => ([], none)
  | c :: s =>
    if c = sep then ([], some s)
    else
      let rest := partition sep s
      (c :: rest.1, rest.2)

/-- `str.rpartition`: what stands before the last `sep` if there is one, and
what stands after it. -/
def rpartition (sep : Char) (s : Text) : Option Text × Text :=
  match partition sep s.reverse with
  | (_, none) => (none, s)
  | (after, some before) => (some before.reverse, after.reverse)

/-- `str.split` at every `sep`. -/
def split (sep : Char) : Text → List Text
  | [] => [[]]
  | c :: s =>
    match split sep s with
    | [] => [[c]]
    | part :: parts => if c = sep then [] :: part :: parts else (c :: part) :: parts

theorem split_ne_nil (sep : Char) (s : Text) : split sep s ≠ [] := by
  cases s with
  | nil => exact List.cons_ne_nil _ _
  | cons c s =>
    rw [split]
    split
    · exact List.cons_ne_nil _ _
    · split <;> exact List.cons_ne_nil _ _

theorem split_of_notMem {sep : Char} {s : Text} (h : sep ∉ s) : split sep s = [s] := by
  induction s with
  | nil => rfl
  | cons c s ih =>
    have first : c ≠ sep := fun same => h (same ▸ List.mem_cons_self)
    rw [split, ih fun mem => h (List.mem_cons_of_mem c mem)]
    simp only [if_neg first]

theorem split_append_cons {sep : Char} {s : Text} (h : sep ∉ s) (t : Text) :
    split sep (s ++ sep :: t) = s :: split sep t := by
  induction s with
  | nil =>
    rw [List.nil_append, split]
    split
    · next empty => exact absurd empty (split_ne_nil sep t)
    · next part parts same => rw [if_pos rfl, same]
  | cons c s ih =>
    have first : c ≠ sep := fun same => h (same ▸ List.mem_cons_self)
    rw [List.cons_append, split, ih fun mem => h (List.mem_cons_of_mem c mem)]
    simp only [if_neg first]

/-- `sep.join` of the parts. -/
def join (sep : Text) (parts : List Text) : Text := sep.intercalate parts

/-- `int` of a text of ASCII digits. -/
def decimal (s : Text) : Nat := s.foldl (fun n c => 10 * n + (c.toNat - 48)) 0

/-- `str` of a natural number. -/
def ofNat (n : Nat) : Text := (toString n).toList

/-- `'%x'` of a natural number. -/
def ofNatHex (n : Nat) : Text := Nat.toDigits 16 n

/-- `str.splitlines`: a carriage return and the line feed after it end one
line, and a text that ends with a line end has no empty last line. -/
def splitlines : Text → List Text
  | [] => []
  | '\r' :: '\n' :: s => [] :: splitlines s
  | c :: s =>
    if isLineEnd c then [] :: splitlines s
    else
      match splitlines s with
      | [] => [[c]]
      | line :: lines => (c :: line) :: lines
where
  isLineEnd (c : Char) : Bool :=
    (10 ≤ c.toNat && c.toNat ≤ 13) || (28 ≤ c.toNat && c.toNat ≤ 30) || c.toNat = 0x85 ||
      c.toNat = 0x2028 || c.toNat = 0x2029

/-- `f"{n:,}"`. -/
def ofNatGrouped (n : Nat) : Text := (group (ofNat n).reverse).reverse
where
  group : Text → Text
    | a :: b :: c :: d :: s => a :: b :: c :: ',' :: group (d :: s)
    | s => s

end Text

end Rankuno.Python
