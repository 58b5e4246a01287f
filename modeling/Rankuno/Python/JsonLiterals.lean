import Rankuno.Python.Json

/-!
# JSON numbers and strings

The scanner of numbers and the one of strings read what is written (`scanNumber_text`,
`scanString_escaped`), and what comes after the end of either makes no difference to them
(`scanNumber_append`, `scanString_append`).
-/

namespace Rankuno.Python

open Text

/-! ## Numbers -/

/-- The characters that a number may go on with. -/
def continuesNumber (c : Char) : Bool := isAsciiDigit c || c = '.' || c = 'e' || c = 'E'

/-- No number goes on in a text. -/
def EndsNumber (text : Text) : Prop := ∀ c ∈ text.head?, continuesNumber c = false

/-- A value has ended where the text begins. -/
def Delimits (text : Text) : Prop := text ≠ [] ∧ EndsNumber text

theorem endsNumber_nil : EndsNumber [] := fun _ found => by cases found

variable {text rest : Text} {c : Char} {n : Nat}

theorem endsNumber_cons {text : Text} :
    EndsNumber (c :: text) ↔ continuesNumber c = false :=
  ⟨fun ends => ends c rfl, fun ends _ found => Option.some.inj found ▸ ends⟩

theorem Delimits.append {text after : Text} (h : Delimits text) : Delimits (text ++ after) := by
  obtain ⟨nonempty, ends⟩ := h
  cases text with
  | nil => exact absurd rfl nonempty
  | cons c text => exact ⟨List.cons_ne_nil _ _, endsNumber_cons.mpr (endsNumber_cons.mp ends)⟩

theorem EndsNumber.of_prefix (ends : EndsNumber rest) (begins : text <+: rest) :
    EndsNumber text := by
  cases text with
  | nil => exact endsNumber_nil
  | cons c text =>
    obtain ⟨more, rfl⟩ := begins
    exact endsNumber_cons.mpr (endsNumber_cons.mp ends)

theorem not_digit_of_endsNumber {text : Text} (ends : EndsNumber text) :
    ∀ c ∈ text.head?, isAsciiDigit c = false := by
  intro c found
  have stops := ends c found
  rw [continuesNumber, Bool.or_eq_false_iff, Bool.or_eq_false_iff, Bool.or_eq_false_iff] at stops
  exact stops.1.1.1

theorem takeWhile_digits {digits rest : Text} (all : digits.all isAsciiDigit = true)
    (stop : ∀ c ∈ rest.head?, isAsciiDigit c = false) :
    (digits ++ rest).takeWhile isAsciiDigit = digits := by
  rw [List.takeWhile_append_of_pos fun c mem => List.all_eq_true.mp all c mem]
  cases rest with
  | nil => exact List.append_nil _
  | cons c rest =>
    rw [List.takeWhile_cons_of_neg (by rw [stop c rfl]; exact Bool.false_ne_true)]
    exact List.append_nil _

theorem dropWhile_digits {digits rest : Text} (all : digits.all isAsciiDigit = true)
    (stop : ∀ c ∈ rest.head?, isAsciiDigit c = false) :
    (digits ++ rest).dropWhile isAsciiDigit = rest := by
  rw [List.dropWhile_append_of_pos fun c mem => List.all_eq_true.mp all c mem]
  cases rest with
  | nil => rfl
  | cons c rest =>
    exact List.dropWhile_cons_of_neg (by rw [stop c rfl]; exact Bool.false_ne_true)

theorem scanDigits_append {digits rest : Text} (h : Digits digits)
    (stop : ∀ c ∈ rest.head?, isAsciiDigit c = false) :
    scanDigits (digits ++ rest) = some (⟨digits, h⟩, rest) := by
  have taken := takeWhile_digits h.2 stop
  have left := dropWhile_digits h.2 stop
  rw [scanDigits, dif_neg (by rw [taken]; exact h.1)]
  simp only [taken, left]

/-- No number goes on in a text, whatever was read of it. -/
structure Inert (text : Text) : Prop where
  digit : ∀ c ∈ text.head?, isAsciiDigit c = false
  fraction : scanFraction text = (⟨[], .none⟩, text)
  exponent : scanExponent text = (⟨[], .none⟩, text)

theorem EndsNumber.inert {text : Text} (ends : EndsNumber text) : Inert text := by
  refine ⟨not_digit_of_endsNumber ends, ?_, ?_⟩
  · cases text with
    | nil => rfl
    | cons c rest =>
      have stops := endsNumber_cons.mp ends
      rw [scanFraction, if_neg]
      rintro rfl
      exact absurd stops (by decide)
  · cases text with
    | nil => rfl
    | cons c rest =>
      have stops := endsNumber_cons.mp ends
      rw [scanExponent, dif_neg]
      rintro (rfl | rfl) <;> exact absurd stops (by decide)

theorem scanFraction_append {fraction rest : Text} (h : NumberFraction fraction)
    (stop : ∀ c ∈ rest.head?, isAsciiDigit c = false)
    (point : scanFraction rest = (⟨[], .none⟩, rest)) :
    scanFraction (fraction ++ rest) = (⟨fraction, h⟩, rest) := by
  cases h with
  | none => exact point
  | @point digits h =>
    rw [List.cons_append, scanFraction, if_pos rfl, scanDigits_append h stop]

theorem scanExponent_append {exponent rest : Text} (h : NumberExponent exponent)
    (inert : Inert rest) : scanExponent (exponent ++ rest) = (⟨exponent, h⟩, rest) := by
  cases h with
  | none => exact inert.exponent
  | @power e sign digits power shape h =>
    have sign_scanned : scanExponentSign (sign ++ (digits ++ rest)) =
        (⟨sign, shape⟩, digits ++ rest) := by
      rcases shape with rfl | rfl | rfl
      · cases digits with
        | nil => exact absurd rfl h.1
        | cons c digits =>
          have digit : isAsciiDigit c = true := List.all_eq_true.mp h.2 c List.mem_cons_self
          rw [List.nil_append, List.cons_append, scanExponentSign, if_neg, if_neg]
          · rintro rfl
            exact absurd digit (by decide)
          · rintro rfl
            exact absurd digit (by decide)
      · rfl
      · rfl
    rw [List.cons_append, List.append_assoc, scanExponent, dif_pos power, sign_scanned]
    dsimp only
    rw [scanDigits_append h inert.digit]

theorem Inert.exponent_append {exponent rest : Text} (h : NumberExponent exponent)
    (inert : Inert rest) :
    (∀ c ∈ (exponent ++ rest).head?, isAsciiDigit c = false) ∧
      scanFraction (exponent ++ rest) = (⟨[], .none⟩, exponent ++ rest) := by
  cases h with
  | none => exact ⟨inert.digit, inert.fraction⟩
  | power power shape h =>
    refine ⟨fun c found => ?_, ?_⟩
    · cases found
      rcases power with rfl | rfl <;> rfl
    · rw [List.cons_append, scanFraction, if_neg]
      rcases power with rfl | rfl <;> decide

theorem Inert.fraction_append {fraction exponent rest : Text} (h : NumberFraction fraction)
    (h' : NumberExponent exponent) (inert : Inert rest) :
    ∀ c ∈ (fraction ++ (exponent ++ rest)).head?, isAsciiDigit c = false := by
  cases h with
  | none => exact (inert.exponent_append h').1
  | point h =>
    intro c found
    cases found
    rfl

theorem scanSign_append {sign text : Text} (shape : sign = [] ∨ sign = ['-'])
    (unsigned : text.head? ≠ some '-') : scanSign (sign ++ text) = (⟨sign, shape⟩, text) := by
  rcases shape with rfl | rfl
  · cases text with
    | nil => rfl
    | cons c text =>
      rw [List.nil_append, scanSign, if_neg fun same => unsigned (congrArg some same)]
  · rfl

theorem digit_ne_minus (digit : isAsciiDigit c = true) : c ≠ '-' := by
  rintro rfl
  exact absurd digit (by decide)

theorem scanNumber_text {n : NumberLiteral} {rest : Text} (inert : Inert rest) :
    scanNumber (n.text ++ rest) = some (n, rest) := by
  obtain ⟨sign, whole, fraction, exponent, sign_shape, whole_shape, no_leading_zero,
    fraction_shape, exponent_shape⟩ := n
  have fraction_scanned : scanFraction (fraction ++ (exponent ++ rest)) =
        (⟨fraction, fraction_shape⟩, exponent ++ rest) :=
    scanFraction_append fraction_shape (inert.exponent_append exponent_shape).1
      (inert.exponent_append exponent_shape).2
  have stop := inert.fraction_append fraction_shape exponent_shape
  cases whole with
  | nil => exact absurd rfl whole_shape.1
  | cons c digits =>
    have digit : isAsciiDigit c = true := List.all_eq_true.mp whole_shape.2 c List.mem_cons_self
    have all : digits.all isAsciiDigit = true := by
      have both := whole_shape.2
      rw [List.all_cons, Bool.and_eq_true] at both
      exact both.2
    have sign_scanned : scanSign (sign ++ c :: (digits ++ (fraction ++ (exponent ++ rest)))) =
        (⟨sign, sign_shape⟩, c :: (digits ++ (fraction ++ (exponent ++ rest)))) :=
      scanSign_append sign_shape fun same => digit_ne_minus digit (Option.some.inj same)
    simp only [NumberLiteral.text, List.append_assoc, List.cons_append]
    rw [scanNumber, sign_scanned]
    dsimp only
    by_cases zero : c = '0'
    · subst zero
      have single : digits = [] := by
        rcases no_leading_zero with same | other
        · exact (List.cons.inj same).2
        · exact absurd rfl other
      subst single
      rw [dif_pos rfl, List.nil_append, fraction_scanned]
      dsimp only
      rw [scanExponent_append exponent_shape inert]
    · rw [dif_neg zero, dif_pos digit]
      simp only [takeWhile_digits all stop, dropWhile_digits all stop, fraction_scanned,
        scanExponent_append exponent_shape inert]

theorem scanDigits_eq {digits : {digits : Text // Digits digits}}
    (h : scanDigits text = some (digits, rest)) : text = digits.1 ++ rest := by
  rw [scanDigits] at h
  split at h
  · cases h
  · cases h
    exact List.takeWhile_append_dropWhile.symm

theorem scanSign_eq (text : Text) : text = (scanSign text).1.1 ++ (scanSign text).2 := by
  cases text with
  | nil => rfl
  | cons c rest =>
    rw [scanSign]
    split
    · next minus => rw [minus]; rfl
    · rfl

theorem scanExponentSign_eq (text : Text) :
    text = (scanExponentSign text).1.1 ++ (scanExponentSign text).2 := by
  cases text with
  | nil => rfl
  | cons c rest =>
    rw [scanExponentSign]
    split
    · next plus => rw [plus]; rfl
    · split
      · next minus => rw [minus]; rfl
      · rfl

theorem scanFraction_eq (text : Text) :
    text = (scanFraction text).1.1 ++ (scanFraction text).2 := by
  cases text with
  | nil => rfl
  | cons c rest =>
    rw [scanFraction]
    split
    · next point =>
      cases scanned : scanDigits rest with
      | none => rfl
      | some found =>
        obtain ⟨digits, after⟩ := found
        rw [scanDigits_eq scanned, point]
        rfl
    · rfl

theorem scanExponent_eq (text : Text) :
    text = (scanExponent text).1.1 ++ (scanExponent text).2 := by
  cases text with
  | nil => rfl
  | cons c rest =>
    rw [scanExponent]
    split
    · have signed := scanExponentSign_eq rest
      dsimp only
      cases scanned : scanDigits (scanExponentSign rest).2 with
      | none => rfl
      | some found =>
        obtain ⟨digits, after⟩ := found
        rw [scanDigits_eq scanned, ← List.append_assoc] at signed
        exact congrArg (c :: ·) signed
    · rfl

theorem scanNumber_eq {n : NumberLiteral}
    (h : scanNumber text = some (n, rest)) : text = n.text ++ rest := by
  have tail (text : Text) : text = (scanFraction text).1.1 ++
      ((scanExponent (scanFraction text).2).1.1 ++ (scanExponent (scanFraction text).2).2) := by
    rw [← scanExponent_eq]
    exact scanFraction_eq text
  rw [scanNumber] at h
  refine (scanSign_eq text).trans ?_
  dsimp only at h
  cases unsigned : (scanSign text).2 with
  | nil =>
    rw [unsigned] at h
    cases h
  | cons c digits =>
    rw [unsigned] at h
    dsimp only at h
    split at h
    · next zero =>
      cases h
      simp only [NumberLiteral.text, List.append_assoc]
      rw [← tail, zero]
      rfl
    · split at h
      · cases h
        simp only [NumberLiteral.text, List.append_assoc, List.cons_append]
        rw [← tail, List.takeWhile_append_dropWhile]
      · cases h

/-! ## Strings -/

theorem hexDigit?_lowerHex (small : n < 16) : hexDigit? (lowerHex n) = some n := by
  have all : ∀ n < 16, hexDigit? (lowerHex n) = some n := by decide
  exact all n small

theorem scanUnit_unicodeEscape (small : n < 0x10000) (rest : Text) :
    scanUnit ((unicodeEscape n).drop 2 ++ rest) = some (n, rest) := by
  have value : 4096 * (n / 4096 % 16) + 256 * (n / 256 % 16) + 16 * (n / 16 % 16) + n % 16 = n := by
    omega
  simp only [unicodeEscape, List.drop_succ_cons, List.drop_zero, List.cons_append, List.nil_append]
  rw [scanUnit, hexDigit?_lowerHex (by omega), hexDigit?_lowerHex (by omega),
    hexDigit?_lowerHex (by omega), hexDigit?_lowerHex (by omega)]
  dsimp only
  rw [value]

theorem scanUnicode_unicodeEscape (small : n < 0x10000) (rest : Text)
    (single : ¬(0xd800 ≤ n ∧ n ≤ 0xdfff)) :
    scanUnicode ((unicodeEscape n).drop 2 ++ rest) = some (.ofNat n, rest) := by
  rw [scanUnicode, scanUnit_unicodeEscape small]
  dsimp only
  rw [if_neg (by omega), if_neg (by omega)]

theorem scanUnicode_pair {high low : Nat} (isHigh : 0xd800 ≤ high ∧ high ≤ 0xdbff)
    (isLow : 0xdc00 ≤ low ∧ low ≤ 0xdfff) (rest : Text) :
    scanUnicode ((unicodeEscape high).drop 2 ++ (unicodeEscape low ++ rest)) =
      some (.ofNat (0x10000 + (high - 0xd800) * 1024 + (low - 0xdc00)), rest) := by
  have second : unicodeEscape low ++ rest =
      '\\' :: 'u' :: ((unicodeEscape low).drop 2 ++ rest) := rfl
  rw [scanUnicode, scanUnit_unicodeEscape (by omega)]
  dsimp only
  rw [if_pos isHigh, second]
  have small : low < 0x10000 := by omega
  simp only [scanUnit_unicodeEscape small, if_pos isLow]

theorem char_not_surrogate (c : Char) : ¬(0xd800 ≤ c.toNat ∧ c.toNat ≤ 0xdfff) := by
  rintro ⟨least, most⟩
  rcases c.valid with below | ⟨above, -⟩
  · have small : c.toNat < 0xd800 := below
    omega
  · have large : 0xdfff < c.toNat := above
    omega

theorem char_lt (c : Char) : c.toNat < 0x110000 := by
  rcases c.valid with below | ⟨-, below⟩
  · exact Nat.lt_trans (below : c.toNat < 0xd800) (by decide)
  · exact below

theorem shortEscapes_scan : ∀ escape ∈ shortEscapes, escape.1 ≠ 'u' ∧
    (('/', '/') :: shortEscapes).find? (fun other => other.1 = escape.1) = some escape := by
  decide

theorem scanString_escapeChar {ensureAscii : Bool} (fuel : Nat) (rest : Text) :
    scanString (fuel + 1) (escapeChar ensureAscii c ++ rest) =
      (scanString fuel rest).map fun found => (c :: found.1, found.2) := by
  have unicode (n : Nat) (text : Text) : unicodeEscape n ++ text =
      '\\' :: 'u' :: ((unicodeEscape n).drop 2 ++ text) := rfl
  rw [escapeChar]
  cases short : shortEscapes.find? fun escape => escape.2 = c with
  | some escape =>
    obtain ⟨other, scan⟩ := shortEscapes_scan escape (List.mem_of_find?_eq_some short)
    have own : escape.2 = c := by simpa using List.find?_some short
    have scanned : scanEscape (escape.1 :: rest) = some (c, rest) := by
      rw [scanEscape, if_neg other, scan, ← own]
      rfl
    simp only [List.cons_append, List.nil_append]
    rw [scanString, if_neg (by decide), if_pos rfl, scanned]
  | none =>
    have absent := List.find?_eq_none.mp short
    have not_quote : c ≠ '"' := by
      rintro rfl
      exact absent _ List.mem_cons_self rfl
    have not_backslash : c ≠ '\\' := by
      rintro rfl
      exact absent _ (List.mem_cons_of_mem _ List.mem_cons_self) rfl
    have escaped {n : Nat} (small : n < 0x10000) (own : n = c.toNat) :
        scanString (fuel + 1) (unicodeEscape n ++ rest) =
          (scanString fuel rest).map fun found => (c :: found.1, found.2) := by
      rw [unicode, scanString, if_neg (by decide), if_pos rfl, scanEscape, if_pos rfl,
        scanUnicode_unicodeEscape small rest (own ▸ char_not_surrogate c), own,
        Char.ofNat_toNat]
    dsimp only
    split
    · next control => exact escaped (by omega) rfl
    · next printed =>
      split
      · rw [List.singleton_append, scanString, if_neg not_quote, if_neg not_backslash,
          if_neg printed]
      · split
        · next small => exact escaped small rfl
        · next large =>
          have bound := char_lt c
          rw [List.append_assoc, unicode, scanString, if_neg (by decide), if_pos rfl, scanEscape,
            if_pos rfl, scanUnicode_pair ⟨by omega, by omega⟩ ⟨by omega, by omega⟩]
          have own : 0x10000 + (0xd800 + (c.toNat - 0x10000) / 1024 - 0xd800) * 1024 +
              (0xdc00 + (c.toNat - 0x10000) % 1024 - 0xdc00) = c.toNat := by omega
          rw [own, Char.ofNat_toNat]

theorem scanString_escaped {style : JsonStyle} {fuel : Nat}
    (enough : text.length < fuel) :
    scanString fuel (style.escaped text ++ '"' :: rest) = some (text, rest) := by
  induction text generalizing fuel with
  | nil =>
    obtain ⟨fuel, rfl⟩ := Nat.exists_eq_succ_of_ne_zero (Nat.ne_zero_of_lt enough)
    rfl
  | cons c text ih =>
    obtain ⟨fuel, rfl⟩ := Nat.exists_eq_succ_of_ne_zero (Nat.ne_zero_of_lt enough)
    rw [JsonStyle.escaped, List.flatMap_cons, List.append_assoc, scanString_escapeChar,
      ← JsonStyle.escaped, ih (Nat.lt_of_succ_lt_succ enough)]
    rfl

theorem scanUnit_append (h : scanUnit text = some (n, rest))
    (after : Text) :
    scanUnit (text ++ after) = some (n, rest ++ after) ∧ rest.length < text.length := by
  match text, h with
  | a :: b :: c :: d :: text, h =>
    rw [scanUnit] at h
    simp only [List.cons_append]
    rw [scanUnit]
    split at h
    · cases h
      refine ⟨rfl, ?_⟩
      simp only [List.length_cons]
      omega
    · cases h

theorem scanUnicode_append (h : scanUnicode text = some (c, rest))
    (after : Text) :
    scanUnicode (text ++ after) = some (c, rest ++ after) ∧ rest.length < text.length := by
  rw [scanUnicode] at h
  cases first : scanUnit text with
  | none =>
    rw [first] at h
    cases h
  | some found =>
    obtain ⟨unit, tail⟩ := found
    obtain ⟨longer, shorter⟩ := scanUnit_append first after
    rw [first] at h
    dsimp only at h
    rw [scanUnicode, longer]
    dsimp only
    by_cases high : 0xd800 ≤ unit ∧ unit ≤ 0xdbff
    · rw [if_pos high] at h ⊢
      split at h
      · next tail =>
        cases second : scanUnit tail with
        | none =>
          rw [second] at h
          cases h
        | some found =>
          obtain ⟨low, last⟩ := found
          obtain ⟨longer, shorter'⟩ := scanUnit_append second after
          simp only [second] at h
          by_cases pair : 0xdc00 ≤ low ∧ low ≤ 0xdfff
          · rw [if_pos pair] at h
            obtain ⟨rfl, rfl⟩ := Prod.mk.inj (Option.some.inj h)
            simp only [List.cons_append, longer, if_pos pair]
            refine ⟨trivial, ?_⟩
            simp only [List.length_cons] at shorter
            omega
          · rw [if_neg pair] at h
            cases h
      · cases h
    · rw [if_neg high] at h ⊢
      split at h
      · cases h
      · next single =>
        cases h
        rw [if_neg single]
        exact ⟨rfl, shorter⟩

theorem scanEscape_append (h : scanEscape text = some (c, rest))
    (after : Text) :
    scanEscape (text ++ after) = some (c, rest ++ after) ∧ rest.length < text.length := by
  cases text with
  | nil => cases h
  | cons first text =>
    rw [scanEscape] at h
    rw [List.cons_append, scanEscape]
    split at h
    · next unicode =>
      rw [if_pos unicode]
      obtain ⟨longer, shorter⟩ := scanUnicode_append h after
      exact ⟨longer, Nat.lt_succ_of_lt shorter⟩
    · next short =>
      rw [if_neg short]
      obtain ⟨escape, found, same⟩ := Option.map_eq_some_iff.mp h
      cases same
      rw [found]
      exact ⟨rfl, Nat.lt_succ_self _⟩

theorem scanString_append {text rest found : Text} {fuel fuel' : Nat}
    (h : scanString fuel text = some (found, rest)) (more : fuel ≤ fuel') (after : Text) :
    scanString fuel' (text ++ after) = some (found, rest ++ after) ∧ rest.length < text.length := by
  induction fuel generalizing text rest found fuel' with
  | zero => cases h
  | succ fuel ih =>
    obtain ⟨fuel', rfl⟩ := Nat.exists_eq_succ_of_ne_zero (Nat.ne_zero_of_lt more)
    have more := Nat.le_of_succ_le_succ more
    cases text with
    | nil => cases h
    | cons c text =>
      rw [scanString] at h
      rw [List.cons_append, scanString]
      by_cases quote : c = '"'
      · rw [if_pos quote] at h ⊢
        cases h
        exact ⟨rfl, Nat.lt_succ_self _⟩
      · rw [if_neg quote] at h ⊢
        by_cases backslash : c = '\\'
        · rw [if_pos backslash] at h ⊢
          cases escape : scanEscape text with
          | none =>
            rw [escape] at h
            cases h
          | some char =>
            obtain ⟨char, tail⟩ := char
            rw [escape] at h
            obtain ⟨longer, shorter⟩ := scanEscape_append escape after
            obtain ⟨⟨others, last⟩, read, same⟩ := Option.map_eq_some_iff.mp h
            obtain ⟨ih, shorter'⟩ := ih read more
            cases same
            rw [longer]
            dsimp only
            rw [ih]
            exact ⟨rfl, by rw [List.length_cons]; omega⟩
        · rw [if_neg backslash] at h ⊢
          split at h
          · cases h
          · next printed =>
            obtain ⟨⟨others, last⟩, read, same⟩ := Option.map_eq_some_iff.mp h
            obtain ⟨ih, shorter⟩ := ih read more
            cases same
            rw [if_neg printed, ih]
            exact ⟨rfl, Nat.lt_succ_of_lt shorter⟩

end Rankuno.Python
