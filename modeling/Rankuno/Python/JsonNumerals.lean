import Rankuno.Python.JsonRoundTrip

/-!
# Numbers cut in two

A number that a reader meets in two parts is read as two numbers, or more where a part begins
with zeros, if both parts are numerals (`Numeral.cut`, `Numeral.decode`). Otherwise the
second part begins where no value does (`Numeral.broken`).
-/

namespace Rankuno.Python

open Text

/-- A number that may begin with zeros. -/
inductive Numeral : Text → Prop where
  | parts {sign whole fraction exponent : Text} :
      sign = [] ∨ sign = ['-'] → Digits whole → NumberFraction fraction →
        NumberExponent exponent → Numeral (sign ++ (whole ++ (fraction ++ exponent)))

theorem NumberLiteral.numeral_text (n : NumberLiteral) : Numeral n.text := by
  rw [NumberLiteral.text, List.append_assoc, List.append_assoc]
  exact .parts n.sign_shape n.whole_shape n.fraction_shape n.exponent_shape

variable {text : Text} {digits : Text}

theorem Digits.head (h : Digits digits) :
    ∃ c rest, digits = c :: rest ∧ isAsciiDigit c = true := by
  obtain ⟨c, rest, rfl⟩ := List.exists_cons_of_ne_nil h.1
  exact ⟨c, rest, rfl, List.all_eq_true.mp h.2 c List.mem_cons_self⟩

theorem Digits.split {first second : Text} (h : Digits (first ++ second)) :
    (first ≠ [] → Digits first) ∧ (second ≠ [] → Digits second) := by
  have all := h.2
  rw [List.all_append, Bool.and_eq_true] at all
  exact ⟨fun nonempty => ⟨nonempty, all.1⟩, fun nonempty => ⟨nonempty, all.2⟩⟩

theorem Numeral.startsItem (h : Numeral text) : StartsItem text := by
  obtain ⟨sign_shape, whole, -, -⟩ := h
  obtain ⟨c, digits, rfl, digit⟩ := whole.head
  rcases sign_shape with rfl | rfl
  · exact ⟨c, _, rfl, startsItem_digit digit⟩
  · exact ⟨'-', _, rfl, rfl⟩

theorem digit_apart {c d : Char} (digit : isAsciiDigit c = true)
    (apart : isAsciiDigit d = false) : c ≠ d := by
  rintro rfl
  rw [apart] at digit
  cases digit

theorem zero_alone : (['0'] : Text) = ['0'] ∨ (['0'] : Text).head? ≠ some '0' := .inl rfl

/-- The number a text with further digits after a zero begins with. -/
def zeroLiteral (sign : Text) (shape : sign = [] ∨ sign = ['-']) : NumberLiteral where
  sign := sign
  whole := ['0']
  fraction := []
  exponent := []
  sign_shape := shape
  whole_shape := .cons rfl rfl
  no_leading_zero := zero_alone
  fraction_shape := .none
  exponent_shape := .none

theorem scanNumber_zeros {sign rest : Text} (shape : sign = [] ∨ sign = ['-']) {c : Char}
    (digit : isAsciiDigit c = true) :
    scanNumber (sign ++ '0' :: c :: rest) = some (zeroLiteral sign shape, c :: rest) := by
  have unsigned : scanSign (sign ++ '0' :: c :: rest) = (⟨sign, shape⟩, '0' :: c :: rest) :=
    scanSign_append shape fun same => absurd (Option.some.inj same) (by decide)
  have fraction : scanFraction (c :: rest) = (⟨[], .none⟩, c :: rest) := by
    rw [scanFraction, if_neg (digit_apart digit rfl)]
  have exponent : scanExponent (c :: rest) = (⟨[], .none⟩, c :: rest) := by
    rw [scanExponent, dif_neg]
    rintro (rfl | rfl) <;> exact absurd digit (by decide)
  rw [scanNumber, unsigned]
  dsimp only
  rw [dif_pos rfl, fraction]
  dsimp only
  rw [exponent]
  rfl

theorem rawDecode_number (n : NumberLiteral) (rest : Text) :
    rawDecode (n.text ++ rest) = (scanNumber (n.text ++ rest)).map fun found =>
      (.number found.1, found.2) := by
  rw [rawDecode, scanOnce_number_eq, scanLiteral, constantAt_number]

theorem Numeral.decode {text rest : Text} (h : Numeral text) (inert : Inert rest) :
    ∃ n, rawDecode (text ++ rest) = some (.number n, rest) ∨
      ∃ text', Numeral text' ∧ text'.length < text.length ∧
        rawDecode (text ++ rest) = some (.number n, text' ++ rest) := by
  obtain @⟨sign, whole, fraction, exponent, sign_shape, whole_shape, fraction_shape,
    exponent_shape⟩ := h
  have read (n : NumberLiteral) : rawDecode (n.text ++ rest) = some (.number n, rest) := by
    rw [rawDecode_number, scanNumber_text inert]
    rfl
  obtain ⟨c, digits, rfl, digit⟩ := whole_shape.head
  by_cases zero : c = '0'
  · cases digits with
    | nil =>
      refine ⟨⟨sign, [c], fraction, exponent, sign_shape, whole_shape,
        .inl (congrArg ([·]) zero), fraction_shape, exponent_shape⟩, .inl ?_⟩
      rw [← read]
      simp [NumberLiteral.text]
    | cons d digits =>
      have both : Digits ([c] ++ d :: digits) := whole_shape
      have others : Digits (d :: digits) := both.split.2 (List.cons_ne_nil _ _)
      have next : isAsciiDigit d = true :=
        List.all_eq_true.mp others.2 d List.mem_cons_self
      refine ⟨zeroLiteral sign sign_shape, .inr ⟨_, .parts (.inl rfl) others fraction_shape
        exponent_shape, ?_, ?_⟩⟩
      · simp only [List.length_append, List.length_cons, List.length_nil]
        omega
      · have scanned :
            scanNumber (sign ++ '0' :: d :: (digits ++ (fraction ++ (exponent ++ rest)))) =
              some (zeroLiteral sign sign_shape,
                d :: (digits ++ (fraction ++ (exponent ++ rest)))) :=
          scanNumber_zeros sign_shape next
        have number := rawDecode_number (zeroLiteral sign sign_shape)
          (d :: (digits ++ (fraction ++ (exponent ++ rest))))
        have text_eq : (zeroLiteral sign sign_shape).text = sign ++ ['0'] := by
          simp [NumberLiteral.text, zeroLiteral]
        rw [text_eq, List.append_assoc, List.singleton_append, scanned] at number
        subst zero
        simpa using number
  · refine ⟨⟨sign, c :: digits, fraction, exponent, sign_shape, whole_shape,
      .inr fun same => zero (Option.some.inj same), fraction_shape, exponent_shape⟩, .inl ?_⟩
    rw [← read]
    simp [NumberLiteral.text]

/-! ## Cuts -/

/-- Both parts of a number are read as numbers. -/
structure CleanCut (before after : Text) : Prop where
  next : ∃ c ∈ after.head?, isAsciiDigit c = true
  last : before = ['-'] ∨ ∃ c ∈ before.getLast?, isAsciiDigit c = true

/-- No value begins with a point or an exponent. -/
def Stuck (text : Text) : Prop := ∃ c ∈ text.head?, c = '.' ∨ c = 'e' ∨ c = 'E'

theorem Stuck.rawDecode (h : Stuck text) : rawDecode text = none := by
  obtain ⟨c, first, stuck⟩ := h
  cases text with
  | nil => cases first
  | cons d text =>
    cases first
    rcases stuck with rfl | rfl | rfl <;> rfl

theorem Stuck.append (h : Stuck text) (after : Text) : Stuck (text ++ after) := by
  obtain ⟨c, first, stuck⟩ := h
  cases text with
  | nil => cases first
  | cons d text => exact ⟨c, first, stuck⟩

theorem startsItem_of_stuck (h : Stuck text) : StartsItem text := by
  obtain ⟨c, first, stuck⟩ := h
  cases text with
  | nil => cases first
  | cons d text =>
    cases first
    refine ⟨c, text, rfl, ?_⟩
    rcases stuck with rfl | rfl | rfl <;> rfl

theorem stuck_of_begins {text stuck rest : Text} (h : Stuck stuck) (nonempty : text ≠ [])
    (begins : text <+: stuck ++ rest) : Stuck text := by
  obtain ⟨c, first, shape⟩ := h
  cases text with
  | nil => exact absurd rfl nonempty
  | cons d text =>
    obtain ⟨more, same⟩ := begins
    cases stuck with
    | nil => cases first
    | cons e stuck =>
      obtain ⟨rfl, -⟩ := List.cons.inj same
      exact ⟨c, first, shape⟩

theorem NumberFraction.stuck {fraction : Text} (h : NumberFraction fraction)
    (nonempty : fraction ≠ []) : Stuck fraction := by
  cases h with
  | none => exact absurd rfl nonempty
  | point digits => exact ⟨'.', rfl, .inl rfl⟩

theorem NumberExponent.stuck {exponent : Text} (h : NumberExponent exponent)
    (nonempty : exponent ≠ []) : Stuck exponent := by
  cases h with
  | none => exact absurd rfl nonempty
  | power power shape digits => exact ⟨_, rfl, .inr power⟩

theorem Stuck.not_digit (h : Stuck text) :
    ¬∃ c ∈ text.head?, isAsciiDigit c = true := by
  rintro ⟨d, first', digit⟩
  obtain ⟨c, first, stuck⟩ := h
  obtain rfl : c = d := Option.some.inj (first.symm.trans first')
  rcases stuck with rfl | rfl | rfl <;> exact absurd digit (by decide)

/-- A reader that has seen the first part of a number does not get over the second. -/
def Broken (before after : Text) : Prop :=
  ¬CleanCut before after ∧ ∃ first left, before = first ++ left ∧ Numeral first ∧
    Inert left ∧ Stuck (left ++ after)

/-- Two parts of a number that are read as numbers. -/
def Parted (before after : Text) : Prop :=
  CleanCut before after ∧ Numeral after ∧ (before = ['-'] ∨ Numeral before)

theorem Numeral.broken_before {before after : Text} (h : Numeral before) (stuck : Stuck after) :
    Broken before after :=
  ⟨fun clean => stuck.not_digit clean.next, before, [], (List.append_nil _).symm, h,
    endsNumber_nil.inert, stuck⟩

theorem Numeral.broken_within {first left after : Text} (h : Numeral first) (inert : Inert left)
    (stuck : Stuck left) (last : ∀ c ∈ left.getLast?, isAsciiDigit c = false) :
    Broken (first ++ left) after := by
  refine ⟨fun clean => ?_, first, left, rfl, h, inert, stuck.append after⟩
  have some_left : left ≠ [] := by
    rintro rfl
    obtain ⟨c, found, -⟩ := stuck
    cases found
  rcases clean.last with minus | ⟨c, found, digit⟩
  · obtain ⟨d, rest, rfl, starts⟩ := h.startsItem
    exact some_left (List.append_eq_nil_iff.mp (List.cons.inj minus).2).2
  · rw [List.getLast?_append_of_ne_nil _ some_left] at found
    rw [last c found] at digit
    cases digit

theorem inert_point : Inert ['.'] where
  digit := by
    intro c found
    cases found
    rfl
  fraction := rfl
  exponent := rfl

theorem inert_power {e : Char} {sign : Text} (power : e = 'e' ∨ e = 'E')
    (shape : sign = [] ∨ sign = ['+'] ∨ sign = ['-']) : Inert (e :: sign) := by
  refine ⟨fun c found => ?_, ?_, ?_⟩
  · cases found
    rcases power with rfl | rfl <;> rfl
  · rcases power with rfl | rfl <;> rfl
  · rcases power with rfl | rfl <;> rcases shape with rfl | rfl | rfl <;> rfl

theorem last_power {e : Char} {sign : Text} (power : e = 'e' ∨ e = 'E')
    (shape : sign = [] ∨ sign = ['+'] ∨ sign = ['-']) :
    ∀ c ∈ (e :: sign).getLast?, isAsciiDigit c = false := by
  intro c found
  rcases power with rfl | rfl <;> rcases shape with rfl | rfl | rfl <;> cases found <;> rfl

theorem Digits.head? (h : Digits digits) (after : Text) :
    ∃ c ∈ (digits ++ after).head?, isAsciiDigit c = true := by
  obtain ⟨c, rest, rfl, digit⟩ := h.head
  exact ⟨c, rfl, digit⟩

theorem Digits.getLast? (h : Digits digits) (before : Text) :
    ∃ c ∈ (before ++ digits).getLast?, isAsciiDigit c = true := by
  refine ⟨digits.getLast h.1, ?_, List.all_eq_true.mp h.2 _ (List.getLast_mem h.1)⟩
  rw [List.getLast?_append_of_ne_nil _ h.1]
  exact List.getLast?_eq_some_getLast h.1

theorem signShape_of_append {first second : Text}
    (shape : first ++ second = [] ∨ first ++ second = ['+'] ∨ first ++ second = ['-']) :
    first = [] ∨ first = ['+'] ∨ first = ['-'] := by
  cases first with
  | nil => exact .inl rfl
  | cons c first =>
    rcases shape with same | same | same
    · cases same
    · obtain ⟨rfl, rest⟩ := List.cons.inj same
      rw [(List.append_eq_nil_iff.mp rest).1]
      exact .inr (.inl rfl)
    · obtain ⟨rfl, rest⟩ := List.cons.inj same
      rw [(List.append_eq_nil_iff.mp rest).1]
      exact .inr (.inr rfl)

theorem Digits.numeral (h : Digits digits) : Numeral digits := by
  have parts : Numeral ([] ++ (digits ++ ([] ++ []))) := .parts (.inl rfl) h .none .none
  rwa [List.nil_append, List.append_nil, List.append_nil] at parts

theorem NumberExponent.cut {number before after : Text} (h : NumberExponent (before ++ after))
    (some_before : before ≠ []) (some_after : after ≠ [])
    (numeral : ∀ exponent, NumberExponent exponent → Numeral (number ++ exponent)) :
    Parted (number ++ before) after ∨ Broken (number ++ before) after := by
  have bare : Numeral number := by
    have alone := numeral [] .none
    rwa [List.append_nil] at alone
  generalize same : before ++ after = text at h
  cases h with
  | none => exact absurd (List.append_eq_nil_iff.mp same).1 some_before
  | @power e sign digits power shape digits_shape =>
    cases before with
    | nil => exact absurd rfl some_before
    | cons first before =>
      obtain ⟨rfl, tail⟩ := List.cons.inj same
      have halfway {seen : Text} (shape : seen = [] ∨ seen = ['+'] ∨ seen = ['-']) :
          Broken (number ++ first :: seen) after :=
        bare.broken_within (inert_power power shape) ⟨first, rfl, .inr power⟩
          (last_power power shape)
      rcases List.append_eq_append_iff.mp tail with ⟨part, rfl, -⟩ | ⟨seen, rfl, rfl⟩
      · exact .inr (halfway (signShape_of_append shape))
      · by_cases none_seen : seen = []
        · subst none_seen
          rw [List.append_nil]
          exact .inr (halfway shape)
        · have first_digits := digits_shape.split.1 none_seen
          have second_digits := digits_shape.split.2 some_after
          refine .inl ⟨⟨?_, .inr ?_⟩, second_digits.numeral, .inr ?_⟩
          · simpa using second_digits.head? []
          · rw [← List.cons_append, ← List.append_assoc]
            exact first_digits.getLast? _
          · exact numeral _ (.power power shape first_digits)

theorem NumberFraction.cut {number before after exponent : Text}
    (h : NumberFraction (before ++ after)) (exponent_shape : NumberExponent exponent)
    (some_before : before ≠ []) (some_after : after ≠ [])
    (numeral : ∀ fraction, NumberFraction fraction → Numeral (number ++ fraction)) :
    Parted (number ++ before) (after ++ exponent) ∨
      Broken (number ++ before) (after ++ exponent) := by
  have bare : Numeral number := by
    have alone := numeral [] .none
    rwa [List.append_nil] at alone
  generalize same : before ++ after = text at h
  cases h with
  | none => exact absurd (List.append_eq_nil_iff.mp same).1 some_before
  | @point digits digits_shape =>
    cases before with
    | nil => exact absurd rfl some_before
    | cons first seen =>
      obtain ⟨rfl, rfl⟩ := List.cons.inj same
      by_cases none_seen : seen = []
      · subst none_seen
        refine .inr (bare.broken_within inert_point ⟨'.', rfl, .inl rfl⟩ ?_)
        intro c found
        cases found
        rfl
      · have first_digits := digits_shape.split.1 none_seen
        have second_digits := digits_shape.split.2 some_after
        refine .inl ⟨⟨second_digits.head? _, .inr ?_⟩, ?_, .inr ?_⟩
        · rw [← List.singleton_append, ← List.append_assoc]
          exact first_digits.getLast? _
        · have parts : Numeral ([] ++ (after ++ ([] ++ exponent))) :=
            .parts (.inl rfl) second_digits .none exponent_shape
          rwa [List.nil_append, List.nil_append] at parts
        · exact numeral _ (.point first_digits)

/-- **A cut leaves two numerals, or a number that is broken.** -/
theorem Numeral.cut {before after : Text} (h : Numeral (before ++ after))
    (some_before : before ≠ [])
    (some_after : after ≠ []) : Parted before after ∨ Broken before after := by
  generalize same : before ++ after = text at h
  obtain @⟨sign, whole, fraction, exponent, sign_shape, whole_shape, fraction_shape,
    exponent_shape⟩ := h
  have with_fraction (fraction : Text) (h : NumberFraction fraction) :
      Numeral (sign ++ whole ++ fraction) := by
    have parts := Numeral.parts sign_shape whole_shape h .none
    rwa [List.append_nil, ← List.append_assoc] at parts
  have with_exponent (exponent : Text) (h : NumberExponent exponent) :
      Numeral (sign ++ whole ++ fraction ++ exponent) := by
    have parts := Numeral.parts sign_shape whole_shape fraction_shape h
    rwa [← List.append_assoc, ← List.append_assoc] at parts
  have after_sign : Numeral (whole ++ (fraction ++ exponent)) :=
    .parts (.inl rfl) whole_shape fraction_shape exponent_shape
  have bare : Numeral (sign ++ whole) := by
    have alone := with_fraction [] .none
    rwa [List.append_nil] at alone
  have tail_stuck (some_tail : fraction ++ exponent ≠ []) : Stuck (fraction ++ exponent) := by
    by_cases whole_only : fraction = []
    · subst whole_only
      exact exponent_shape.stuck some_tail
    · exact (fraction_shape.stuck whole_only).append exponent
  -- The first part ends in the sign, the whole part, the fraction or the exponent.
  rcases List.append_eq_append_iff.mp same with ⟨part, rfl, rfl⟩ | ⟨seen, rfl, inner⟩
  · have minus : before = ['-'] ∧ part = [] := by
      cases before with
      | nil => exact absurd rfl some_before
      | cons c before =>
        rcases sign_shape with same | same
        · cases same
        · obtain ⟨rfl, rest⟩ := List.cons.inj same
          obtain ⟨rfl, rfl⟩ := List.append_eq_nil_iff.mp rest
          exact ⟨rfl, rfl⟩
    obtain ⟨rfl, rfl⟩ := minus
    exact .inl ⟨⟨whole_shape.head? _, .inl rfl⟩, after_sign, .inl rfl⟩
  · have whole_then (seen : Text) : sign ++ (whole ++ seen) = sign ++ whole ++ seen :=
      (List.append_assoc _ _ _).symm
    rcases List.append_eq_append_iff.mp inner with ⟨seen', rfl, rest⟩ | ⟨left, rfl, rfl⟩
    · rw [whole_then]
      rcases List.append_eq_append_iff.mp rest with ⟨power, rfl, rfl⟩ | ⟨left, rfl, rfl⟩
      · rw [← List.append_assoc]
        by_cases none_seen : power = []
        · subst none_seen
          rw [List.append_nil]
          exact .inr ((with_fraction _ fraction_shape).broken_before
            (exponent_shape.stuck some_after))
        · exact exponent_shape.cut none_seen some_after with_exponent
      · by_cases none_seen : seen' = []
        · subst none_seen
          rw [List.append_nil]
          exact .inr (bare.broken_before (tail_stuck some_after))
        · by_cases none_left : left = []
          · subst none_left
            refine .inr (Numeral.broken_before ?_ (exponent_shape.stuck some_after))
            have seen_shape : NumberFraction (seen' ++ []) := fraction_shape
            rw [List.append_nil] at seen_shape
            exact with_fraction _ seen_shape
          · exact fraction_shape.cut exponent_shape none_seen none_left with_fraction
    · by_cases none_left : left = []
      · subst none_left
        rw [List.append_nil] at bare
        exact .inr (bare.broken_before (tail_stuck some_after))
      · have second_digits := whole_shape.split.2 none_left
        have second : Numeral (left ++ (fraction ++ exponent)) :=
          .parts (.inl rfl) second_digits fraction_shape exponent_shape
        by_cases none_seen : seen = []
        · subst none_seen
          rw [List.append_nil] at some_before ⊢
          have minus : sign = ['-'] := sign_shape.resolve_left some_before
          exact .inl ⟨⟨second_digits.head? _, .inl minus⟩, second, .inl minus⟩
        · have first_digits := whole_shape.split.1 none_seen
          have first : Numeral (sign ++ (seen ++ ([] ++ []))) :=
            .parts sign_shape first_digits .none .none
          rw [List.append_nil, List.append_nil] at first
          exact .inl ⟨⟨second_digits.head? _, .inr (first_digits.getLast? _)⟩, second, .inr first⟩

theorem CleanCut.of_append {before middle after : Text} (some_before : before ≠ [])
    (some_middle : middle ≠ []) (clean : CleanCut (before ++ middle) after) :
    CleanCut middle after := by
  refine ⟨clean.next, .inr ?_⟩
  rcases clean.last with minus | ⟨c, last, digit⟩
  · obtain ⟨d, tail, rfl⟩ := List.exists_cons_of_ne_nil some_before
    exact absurd (List.append_eq_nil_iff.mp (List.cons.inj minus).2).2 some_middle
  · rw [List.getLast?_append_of_ne_nil _ some_middle] at last
    exact ⟨c, last, digit⟩

end Rankuno.Python
