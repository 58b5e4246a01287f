import Rankuno.Python.Partition

/-!
# Decimal digits

`\d` and `int` go by the decimal digits of the Unicode database, of which those of ASCII are
known here. A count may be written plainly or in groups of three.
-/

namespace Rankuno.Python

namespace Text

theorem exists_mem_split (sep : Char) {c : Char} {s : Text} (mem : c ∈ s) :
    c = sep ∨ ∃ part ∈ split sep s, c ∈ part := by
  by_cases same : c = sep
  · exact Or.inl same
  · induction s with
    | nil => cases mem
    | cons d s ih =>
      right
      rw [split]
      cases parts : split sep s with
      | nil => exact absurd parts (split_ne_nil sep s)
      | cons first rest =>
        rw [parts] at ih
        dsimp only
        obtain rfl | later := List.mem_cons.mp mem
        · rw [if_neg same]
          exact ⟨c :: first, List.mem_cons_self, List.mem_cons_self⟩
        · obtain same' | ⟨part, own, inside⟩ := ih later
          · exact absurd same' same
          · split
            · exact ⟨part, List.mem_cons_of_mem _ own, inside⟩
            · obtain rfl | own := List.mem_cons.mp own
              · exact ⟨d :: part, List.mem_cons_self, List.mem_cons_of_mem d inside⟩
              · exact ⟨part, List.mem_cons_of_mem _ own, inside⟩

end Text

/-- The decimal digits of the Unicode database with their values. -/
structure DecimalDigits where
  value? : Char → Option (Fin 10)
  ascii : ∀ c : Char, c.toNat < 128 →
    (value? c).map Fin.val = if Text.isAsciiDigit c then some (c.toNat - 48) else none
  replacement : value? (Char.ofNat 0xfffd) = none

namespace DecimalDigits

variable (digits : DecimalDigits)

/-- `\d`. -/
def isDigit (c : Char) : Bool := (digits.value? c).isSome

/-- `sys.int_info.default_max_str_digits`. -/
def maxStrDigits : Nat := 4300

/-- The number that the digits of a text write. -/
def number (s : Text) : Nat := (s.filterMap digits.value?).foldl (fun n d => 10 * n + d.val) 0

/-- `int` of a text that has no characters but digits; a `ValueError` is `none`. -/
def int? (s : Text) : Option Nat :=
  if s.isEmpty || maxStrDigits < s.length then none else some (digits.number s)

/-- `\d+`. -/
def isPlain (s : Text) : Bool := s ≠ [] && s.all digits.isDigit

/-- A number in groups of three digits with commas between them. -/
def isGrouped (s : Text) : Bool :=
  match Text.split ',' s with
  | [] => false
  | first :: groups =>
    !groups.isEmpty && first.length ≤ 3 && digits.isPlain first &&
      groups.all fun group => group.length = 3 && digits.isPlain group

/-- A natural number, with or without thousands separators. -/
def isCount (s : Text) : Bool := digits.isPlain s || digits.isGrouped s

variable {digits} {c : Char} {s : Text}

theorem isDigit_of_ascii (small : c.toNat < 128) : digits.isDigit c = Text.isAsciiDigit c := by
  have known := digits.ascii c small
  rw [isDigit]
  cases value : digits.value? c with
  | none =>
    rw [value] at known
    cases ascii : Text.isAsciiDigit c with
    | false => rfl
    | true =>
      rw [ascii] at known
      cases known
  | some d =>
    rw [value] at known
    cases ascii : Text.isAsciiDigit c with
    | false =>
      rw [ascii] at known
      cases known
    | true => rfl

theorem isDigit_space : digits.isDigit ' ' = false := isDigit_of_ascii (by decide)

theorem isDigit_replacement : digits.isDigit (Char.ofNat 0xfffd) = false := by
  rw [isDigit, digits.replacement]
  rfl

theorem int?_of_length (filled : s ≠ []) (short : s.length ≤ maxStrDigits) :
    digits.int? s = some (digits.number s) := by
  rw [int?, List.isEmpty_eq_false_iff.mpr filled, Bool.false_or,
    decide_eq_false (Nat.not_lt.mpr short), if_neg Bool.false_ne_true]

theorem length_of_int? {n : Nat} (read : digits.int? s = some n) :
    s.length ≤ maxStrDigits ∧ n = digits.number s := by
  rw [int?] at read
  split at read
  · cases read
  · next fits =>
    rw [Bool.or_eq_true, not_or, decide_eq_true_eq, Nat.not_lt] at fits
    exact ⟨fits.2, (Option.some.inj read).symm⟩

theorem isPlain_iff : digits.isPlain s = true ↔ s ≠ [] ∧ ∀ c ∈ s, digits.isDigit c = true := by
  rw [isPlain, Bool.and_eq_true, decide_eq_true_eq, List.all_eq_true]

theorem ne_nil_of_isPlain (plain : digits.isPlain s = true) : s ≠ [] := (isPlain_iff.mp plain).1

theorem isPlain_of_isCount (counts : digits.isCount s = true) (plain : ',' ∉ s) :
    digits.isPlain s = true := by
  rw [isCount, isGrouped, Text.split_of_notMem plain, Bool.or_eq_true] at counts
  obtain plainly | grouped := counts
  · exact plainly
  · cases grouped

theorem notMem_space_of_isCount (counts : digits.isCount s = true) : ' ' ∉ s := by
  have spaceless {part : Text} (plain : digits.isPlain part = true) : ' ' ∉ part := by
    intro space
    have digit := (isPlain_iff.mp plain).2 ' ' space
    rw [isDigit_space] at digit
    cases digit
  rw [isCount, Bool.or_eq_true] at counts
  obtain plainly | grouped := counts
  · exact spaceless plainly
  · intro space
    obtain same | ⟨part, own, inside⟩ := Text.exists_mem_split ',' space
    · cases same
    · refine spaceless ?_ inside
      rw [isGrouped] at grouped
      cases parts : Text.split ',' s with
      | nil => exact absurd parts (Text.split_ne_nil ',' s)
      | cons first groups =>
        rw [parts] at grouped own
        simp only [Bool.and_eq_true, List.all_eq_true] at grouped
        obtain ⟨⟨-, first_⟩, groups_⟩ := grouped
        obtain rfl | later := List.mem_cons.mp own
        · exact first_
        · exact (groups_ part later).2

section Numerals

theorem ofNat_eq (n : Nat) : Text.ofNat n = Nat.toDigits 10 n := Nat.toList_repr

theorem value?_digitChar {d : Nat} (small : d < 10) :
    digits.value? (Nat.digitChar d) = some ⟨d, small⟩ := by
  have chars : ∀ d < 10, (Nat.digitChar d).toNat < 128 ∧
      Text.isAsciiDigit (Nat.digitChar d) = true ∧ (Nat.digitChar d).toNat - 48 = d := by
    decide
  obtain ⟨ascii, digit, value⟩ := chars d small
  have known := digits.ascii _ ascii
  rw [digit, if_pos rfl, value] at known
  obtain ⟨e, found, same⟩ := Option.map_eq_some_iff.mp known
  rw [found, Option.some.injEq]
  exact Fin.ext same

theorem number_concat (s : Text) {c : Char} {d : Fin 10} (value : digits.value? c = some d) :
    digits.number (s ++ [c]) = 10 * digits.number s + d.val := by
  rw [number, List.filterMap_append, List.filterMap_cons, value, List.filterMap_nil,
    List.foldl_append]
  rfl

theorem number_ofNat (n : Nat) : digits.number (Text.ofNat n) = n := by
  rw [ofNat_eq]
  induction n using Nat.strongRecOn with
  | ind n ih =>
    rw [Nat.toDigits_eq_if (by decide)]
    split
    · next small =>
      rw [← List.nil_append [Nat.digitChar n], number_concat [] (value?_digitChar small)]
      exact Nat.zero_add n
    · next large =>
      rw [number_concat _ (value?_digitChar (Nat.mod_lt n (by decide))), ih (n / 10) (by omega)]
      exact Nat.div_add_mod n 10

theorem isAsciiDigit_of_mem_ofNat {n : Nat} (mem : c ∈ Text.ofNat n) :
    Text.isAsciiDigit c = true := by
  rw [ofNat_eq] at mem
  have digit := Nat.isDigit_of_mem_toDigits (by decide) (by decide) mem
  rw [Char.isDigit, Bool.and_eq_true, decide_eq_true_eq, decide_eq_true_eq] at digit
  rw [Text.isAsciiDigit, Bool.and_eq_true, decide_eq_true_eq, decide_eq_true_eq]
  exact ⟨UInt32.le_iff_toNat_le.mp digit.1, UInt32.le_iff_toNat_le.mp digit.2⟩

theorem isDigit_of_isAsciiDigit (digit : Text.isAsciiDigit c = true) : digits.isDigit c = true := by
  have bounds := digit
  rw [Text.isAsciiDigit, Bool.and_eq_true, decide_eq_true_eq, decide_eq_true_eq] at bounds
  rw [isDigit_of_ascii (by omega), digit]

theorem ofNat_ne_nil (n : Nat) : Text.ofNat n ≠ [] := by
  rw [ofNat_eq]
  exact Nat.toDigits_ne_nil

end Numerals

section Integers

variable (digits)

/-- `int` of a text; a `ValueError` is `none`. -/
def readInt? (s : Text) : Option Int :=
  match Text.strip Text.isSpace s with
  | '-' :: rest => (magnitude? rest).map fun n => -(n : Int)
  | '+' :: rest => (magnitude? rest).map fun n => (n : Int)
  | rest => (magnitude? rest).map fun n => (n : Int)
where
  /-- Digits, with single underscores between them. -/
  magnitude? (s : Text) : Option Nat :=
    let parts := Text.split '_' s
    if parts.all digits.isPlain && parts.flatten.length ≤ maxStrDigits then
      some (digits.number parts.flatten)
    else none

variable {digits}

theorem readInt?_of_digits (filled : s ≠ []) (ascii : ∀ c ∈ s, Text.isAsciiDigit c = true) :
    digits.readInt? s = if s.length ≤ maxStrDigits then some (digits.number s : Int) else none := by
  have apart {c : Char} (mem : c ∈ s) : Text.isSpace c = false ∧ c ≠ '-' ∧ c ≠ '+' ∧ c ≠ '_' := by
    have digit := ascii c mem
    rw [Text.isAsciiDigit, Bool.and_eq_true, decide_eq_true_eq, decide_eq_true_eq] at digit
    refine ⟨?_, ?_, ?_, ?_⟩
    · rw [← Bool.not_eq_true]
      intro space
      simp only [Text.isSpace, Bool.or_eq_true, Bool.and_eq_true, decide_eq_true_eq] at space
      omega
    all_goals
      rintro rfl
      revert digit
      decide
  have stripped : Text.strip Text.isSpace s = s :=
    Text.strip_eq_self (fun c first => (apart (List.mem_of_mem_head? first)).1)
      fun c last => (apart (List.mem_of_getLast? last)).1
  have magnitude : readInt?.magnitude? digits s =
      if s.length ≤ maxStrDigits then some (digits.number s) else none := by
    have plain : digits.isPlain s = true :=
      isPlain_iff.mpr ⟨filled, fun c mem => isDigit_of_isAsciiDigit (ascii c mem)⟩
    rw [readInt?.magnitude?, Text.split_of_notMem fun mem => (apart mem).2.2.2 rfl]
    simp [plain]
  rw [readInt?, stripped]
  cases s with
  | nil => exact absurd rfl filled
  | cons c rest =>
    obtain ⟨-, minus, plus, -⟩ := apart List.mem_cons_self
    split
    · next same => exact absurd (List.cons.inj same).1 minus
    · next same => exact absurd (List.cons.inj same).1 plus
    · rw [magnitude]
      split <;> rfl

theorem readInt?_of_other (mem : c ∈ s) (space : Text.isSpace c = false) (minus : c ≠ '-')
    (plus : c ≠ '+') (under : c ≠ '_') (digit : digits.isDigit c = false) :
    digits.readInt? s = none := by
  have unread {rest : Text} (inside : c ∈ rest) : readInt?.magnitude? digits rest = none := by
    obtain same | ⟨part, own, mem⟩ := Text.exists_mem_split '_' inside
    · exact absurd same under
    · rw [readInt?.magnitude?, if_neg]
      rw [Bool.and_eq_true, not_and_or]
      left
      intro all
      have plain := (isPlain_iff.mp (List.all_eq_true.mp all part own)).2 c mem
      rw [digit] at plain
      cases plain
  have kept := Text.mem_strip mem space
  rw [readInt?]
  split
  · next rest same =>
    rw [same] at kept
    rw [unread ((List.mem_cons.mp kept).resolve_left minus)]
    rfl
  · next rest same =>
    rw [same] at kept
    rw [unread ((List.mem_cons.mp kept).resolve_left plus)]
    rfl
  · rw [unread kept]
    rfl

end Integers

end DecimalDigits

theorem DecimalDigits.mod_ten_lt (n : Nat) : n % 10 < 10 := Nat.mod_lt n (by decide)

/-- The decimal digits of ASCII alone. -/
def DecimalDigits.asciiValue (c : Char) : Option (Fin 10) :=
  if Text.isAsciiDigit c then some ⟨(c.toNat - 48) % 10, mod_ten_lt (c.toNat - 48)⟩ else none

theorem DecimalDigits.asciiValue_eq (c : Char) (_ : c.toNat < 128) : (asciiValue c).map Fin.val =
      if Text.isAsciiDigit c then some (c.toNat - 48) else none := by
  rw [asciiValue]
  split
  · next digit =>
    rw [Text.isAsciiDigit, Bool.and_eq_true, decide_eq_true_eq, decide_eq_true_eq] at digit
    rw [Option.map_some, Option.some.injEq]
    exact Nat.mod_eq_of_lt (by omega)
  · rfl

theorem DecimalDigits.asciiValue_replacement : asciiValue (Char.ofNat 0xfffd) = none := rfl

def DecimalDigits.asciiOnly : DecimalDigits where
  value? := asciiValue
  ascii := asciiValue_eq
  replacement := asciiValue_replacement

end Rankuno.Python
