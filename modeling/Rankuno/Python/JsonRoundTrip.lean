import Mathlib.Data.List.Forall2
import Rankuno.Python.JsonValues

/-!
# Decoding what was written

`raw_decode` gives back the value a text was written for, whatever stands after it
(`rawDecode_dumps`). No proper part from the start of a written string, array, object or
constant decodes (`rawDecode_cut`).
-/

namespace Rankuno.Python

open Text

/-! ## Written values -/

/-- The characters that a written value may begin with. -/
def startsItem (c : Char) : Bool := !(isSpace c || c = ',' || c = ']' || c = '}')

theorem startsItem_shown {c : Char} (starts : startsItem c = true) : isJsonBlank c = false := by
  by_contra blank
  rw [Bool.not_eq_false, isJsonBlank, Bool.or_eq_true, Bool.or_eq_true, Bool.or_eq_true] at blank
  simp only [decide_eq_true_eq] at blank
  obtain ((rfl | rfl) | rfl) | rfl := blank <;> exact absurd starts (by decide)

theorem startsItem_digit {c : Char} (digit : isAsciiDigit c = true) : startsItem c = true := by
  rw [isAsciiDigit, Bool.and_eq_true] at digit
  simp only [decide_eq_true_eq] at digit
  have space : isSpace c = false := by
    simp only [isSpace, Bool.or_eq_false_iff, Bool.and_eq_false_iff, decide_eq_false_iff_not]
    omega
  have other {d : Char} (apart : ¬(48 ≤ d.toNat ∧ d.toNat ≤ 57)) : decide (c = d) = false := by
    refine decide_eq_false ?_
    rintro rfl
    exact apart digit
  rw [startsItem, space, other (by decide), other (by decide), other (by decide)]
  rfl

/-- A text begins with a character that a written value may begin with. -/
def StartsItem (text : Text) : Prop := ∃ c rest, text = c :: rest ∧ startsItem c = true

theorem StartsItem.append {text : Text} (h : StartsItem text) (after : Text) :
    StartsItem (text ++ after) := by
  obtain ⟨c, rest, rfl, starts⟩ := h
  exact ⟨c, rest ++ after, rfl, starts⟩

theorem StartsItem.skipBlanks {text : Text} (h : StartsItem text) : skipBlanks text = text := by
  obtain ⟨c, rest, rfl, starts⟩ := h
  exact skipBlanks_cons (startsItem_shown starts)

theorem StartsItem.ne_nil {text : Text} (h : StartsItem text) : text ≠ [] := by
  obtain ⟨c, rest, rfl, -⟩ := h
  exact List.cons_ne_nil _ _

theorem NumberLiteral.text_eq_cons (n : NumberLiteral) :
    ∃ c rest, n.text = c :: rest ∧ (c = '-' ∨ isAsciiDigit c = true) := by
  obtain ⟨c, digits, whole⟩ := List.exists_cons_of_ne_nil n.whole_shape.1
  have digit : isAsciiDigit c = true :=
    List.all_eq_true.mp n.whole_shape.2 c (whole ▸ List.mem_cons_self)
  rw [NumberLiteral.text, whole]
  rcases n.sign_shape with unsigned | signed
  · rw [unsigned]
    exact ⟨c, _, rfl, .inr digit⟩
  · rw [signed]
    exact ⟨'-', _, rfl, .inl rfl⟩

theorem NumberLiteral.startsItem_text (n : NumberLiteral) : StartsItem n.text := by
  obtain ⟨c, rest, begins, rfl | digit⟩ := n.text_eq_cons
  · exact ⟨'-', rest, begins, rfl⟩
  · exact ⟨c, rest, begins, startsItem_digit digit⟩

theorem JsonConstant.startsItem_text (constant : JsonConstant) : StartsItem constant.text := by
  cases constant <;> exact ⟨_, _, rfl, rfl⟩

theorem startsItem_dumps (style : JsonStyle) (level : Nat) (value : Json) :
    StartsItem (style.dumps level value) := by
  cases value with
  | constant constant =>
    rw [JsonStyle.dumps]
    exact constant.startsItem_text
  | number n =>
    rw [JsonStyle.dumps]
    exact n.startsItem_text
  | string text =>
    rw [JsonStyle.dumps]
    exact ⟨'"', _, rfl, rfl⟩
  | array values =>
    rw [JsonStyle.dumps]
    cases style.dumpsValues (level + 1) values with
    | nil => exact ⟨'[', _, rfl, rfl⟩
    | cons text texts => exact ⟨'[', _, rfl, rfl⟩
  | object members =>
    rw [JsonStyle.dumps]
    cases style.dumpsMembers (level + 1) members with
    | nil => exact ⟨'{', _, rfl, rfl⟩
    | cons text texts => exact ⟨'{', _, rfl, rfl⟩

section Layout

variable (style : JsonStyle)

theorem JsonStyle.blank_beforeComma : style.beforeComma.all isJsonBlank = true :=
  style.blank _ (by simp)

theorem JsonStyle.blank_afterComma : style.afterComma.all isJsonBlank = true :=
  style.blank _ (by simp)

theorem JsonStyle.blank_beforeColon : style.beforeColon.all isJsonBlank = true :=
  style.blank _ (by simp)

theorem JsonStyle.blank_afterColon : style.afterColon.all isJsonBlank = true :=
  style.blank _ (by simp)

theorem JsonStyle.blank_newlineIndent (level : Nat) :
    (style.newlineIndent level).all isJsonBlank = true := by
  have unit := style.blank (style.indent.getD []) (by simp)
  rw [newlineIndent]
  cases indent : style.indent with
  | none => rfl
  | some text =>
    rw [indent] at unit
    rw [List.all_cons, List.all_eq_true.mpr]
    · rfl
    · intro c mem
      obtain ⟨copy, listed, inside⟩ := List.mem_flatten.mp mem
      rw [List.eq_of_mem_replicate listed] at inside
      exact List.all_eq_true.mp unit c inside

end Layout

section Written

variable {α : Type} {style : JsonStyle} {level : Nat} {item : Text → Option (α × Text)}
  {closing : Char} {bound : Nat}

/-- A text is read as a value where the whole is not longer than a bound. -/
def Reads (bound : Nat) (item : Text → Option (α × Text)) (text : Text) (value : α) : Prop :=
  ∀ rest, Delimits rest → (text ++ rest).length ≤ bound → item (text ++ rest) = some (value, rest)

/-- A bracket that ends a list of items. -/
structure Closes (closing : Char) : Prop where
  stops : continuesNumber closing = false
  shown : isJsonBlank closing = false
  no_comma : closing ≠ ','
  no_item : startsItem closing = false

theorem closes_array : Closes ']' := ⟨by decide, by decide, by decide, by decide⟩

theorem closes_object : Closes '}' := ⟨by decide, by decide, by decide, by decide⟩

theorem skipBlanks_newlineIndent (closes : Closes closing) (rest : Text) :
    skipBlanks (style.newlineIndent level ++ closing :: rest) = closing :: rest := by
  rw [skipBlanks_blank (style.blank_newlineIndent level), skipBlanks_cons closes.shown]

theorem following_cons (style : JsonStyle) (level : Nat) (text : Text) (texts : List Text) :
    style.following level (text :: texts) = style.itemSeparator ++ (style.newlineIndent level ++
      (text ++ style.following level texts)) := by
  rw [JsonStyle.following, List.flatMap_cons, List.append_assoc, List.append_assoc]
  rfl

theorem skipBlanks_following (style : JsonStyle) (level : Nat) (text : Text) (texts : List Text)
    (rest : Text) :
    skipBlanks (style.following level (text :: texts) ++ rest) =
      ',' :: (style.afterComma ++ (style.newlineIndent level ++
        (text ++ (style.following level texts ++ rest)))) := by
  rw [following_cons, JsonStyle.itemSeparator]
  simp only [List.append_assoc, List.cons_append]
  rw [skipBlanks_blank style.blank_beforeComma, skipBlanks_cons (by decide)]

variable {texts : List Text}

theorem scanItems_written (closes : Closes closing) {text : Text} {value : α}
    {values : List α} {fuel : Nat} {inner : Nat} {rest : Text}
    (first : Reads bound item text value)
    (others : List.Forall₂ (Reads bound item) texts values)
    (starts : ∀ text ∈ texts, StartsItem text) (enough : texts.length < fuel)
    (within : (text ++ (style.following inner texts ++
      (style.newlineIndent level ++ closing :: rest))).length ≤ bound) :
    scanItems item closing fuel (text ++ (style.following inner texts ++
      (style.newlineIndent level ++ closing :: rest))) = some (value :: values, rest) := by
  induction others generalizing text value fuel with
  | nil =>
    obtain ⟨fuel, rfl⟩ := Nat.exists_eq_succ_of_ne_zero (Nat.ne_zero_of_lt enough)
    have shown : skipBlanks (style.following inner [] ++
        (style.newlineIndent level ++ closing :: rest)) = closing :: rest :=
      skipBlanks_newlineIndent closes rest
    rw [scanItems, first _ (delimits_of_skipBlanks shown closes.stops) within]
    dsimp only
    rw [shown]
    dsimp only
    rw [if_pos rfl]
  | @cons next value' texts values reads others ih =>
    obtain ⟨fuel, rfl⟩ := Nat.exists_eq_succ_of_ne_zero (Nat.ne_zero_of_lt enough)
    have shown := skipBlanks_following style inner next texts
      (style.newlineIndent level ++ closing :: rest)
    have next_starts := (starts next List.mem_cons_self).append
      (style.following inner texts ++ (style.newlineIndent level ++ closing :: rest))
    rw [scanItems, first _ (delimits_of_skipBlanks shown (by decide)) within]
    dsimp only
    rw [shown]
    dsimp only
    rw [if_neg closes.no_comma.symm, if_pos rfl, skipBlanks_blank style.blank_afterComma,
      skipBlanks_blank (style.blank_newlineIndent inner), next_starts.skipBlanks,
      ih reads (fun text listed => starts text (List.mem_cons_of_mem _ listed))
        (Nat.lt_of_succ_lt_succ enough)]
    · rfl
    · refine Nat.le_trans ?_ within
      rw [following_cons]
      simp only [List.length_append]
      omega

theorem length_le_following (style : JsonStyle) (level : Nat)
    (starts : ∀ text ∈ texts, StartsItem text) :
    texts.length ≤ (style.following level texts).length := by
  induction texts with
  | nil => exact Nat.le_refl 0
  | cons text texts ih =>
    have shorter := ih fun text listed => starts text (List.mem_cons_of_mem _ listed)
    have nonempty := List.length_pos_iff.mpr (starts text List.mem_cons_self).ne_nil
    rw [following_cons, List.length_cons]
    simp only [List.length_append]
    omega

theorem scanBracketed_written (closes : Closes closing) {opening : Char}
    {values : List α} {body rest : Text} (reads : List.Forall₂ (Reads bound item) texts values)
    (starts : ∀ text ∈ texts, StartsItem text)
    (written : style.bracketed level opening closing texts = opening :: body)
    (within : (body ++ rest).length ≤ bound) :
    scanBracketed item closing (body ++ rest) = some (values, rest) := by
  cases reads with
  | nil =>
    cases written
    rw [scanBracketed, List.singleton_append, skipBlanks_cons closes.shown]
    dsimp only
    rw [if_pos rfl]
  | @cons text value texts values first others =>
    have shape : body ++ rest = style.newlineIndent (level + 1) ++ (text ++
        (style.following (level + 1) texts ++ (style.newlineIndent level ++ closing :: rest))) := by
      rw [← (List.cons.inj written).2]
      simp
    have first_starts := starts text List.mem_cons_self
    have others_start : ∀ text ∈ texts, StartsItem text := fun text listed =>
      starts text (List.mem_cons_of_mem _ listed)
    obtain ⟨c, tail, begins, c_starts⟩ := first_starts.append
      (style.following (level + 1) texts ++ (style.newlineIndent level ++ closing :: rest))
    rw [scanBracketed, shape, skipBlanks_blank (style.blank_newlineIndent (level + 1)),
      (first_starts.append _).skipBlanks, begins]
    dsimp only
    rw [if_neg, ← begins]
    · refine scanItems_written closes first others others_start ?_ ?_
      · have := length_le_following style (level + 1) others_start
        have nonempty := List.length_pos_iff.mpr first_starts.ne_nil
        simp only [List.length_append]
        omega
      · rw [shape, List.length_append] at within
        exact Nat.le_trans (Nat.le_add_left _ _) within
    · rintro rfl
      rw [closes.no_item] at c_starts
      cases c_starts

end Written

theorem bracketed_eq_cons (style : JsonStyle) (level : Nat) (opening closing : Char)
    (texts : List Text) :
    ∃ body, style.bracketed level opening closing texts = opening :: body := by
  cases texts with
  | nil => exact ⟨_, rfl⟩
  | cons text texts => exact ⟨_, rfl⟩

theorem starts_dumpsValues (style : JsonStyle) (level : Nat) (values : List Json) :
    ∀ text ∈ style.dumpsValues level values, StartsItem text := by
  induction values with
  | nil =>
    intro text listed
    cases listed
  | cons value values ih =>
    intro text listed
    rw [JsonStyle.dumpsValues] at listed
    rcases List.mem_cons.mp listed with rfl | listed
    · exact startsItem_dumps style level value
    · exact ih text listed

theorem starts_dumpsMembers (style : JsonStyle) (level : Nat) (members : List (Text × Json)) :
    ∀ text ∈ style.dumpsMembers level members, StartsItem text := by
  induction members with
  | nil =>
    intro text listed
    cases listed
  | cons member members ih =>
    intro text listed
    rw [JsonStyle.dumpsMembers] at listed
    rcases List.mem_cons.mp listed with rfl | listed
    · exact ⟨'"', _, rfl, rfl⟩
    · exact ih text listed

theorem length_le_escaped (style : JsonStyle) (text : Text) :
    text.length ≤ (style.escaped text).length := by
  have nonempty (c : Char) : 1 ≤ (escapeChar style.ensureAscii c).length := by
    rw [escapeChar]
    split
    · simp
    · split
      · simp [unicodeEscape]
      · split
        · simp
        · split
          · simp [unicodeEscape]
          · simp [unicodeEscape]
  induction text with
  | nil => exact Nat.le_refl 0
  | cons c text ih =>
    have := nonempty c
    rw [JsonStyle.escaped] at ih ⊢
    rw [List.flatMap_cons, List.length_append, List.length_cons]
    omega

theorem scanString_quoted (style : JsonStyle) (text rest : Text) :
    scanString (style.escaped text ++ '"' :: rest).length (style.escaped text ++ '"' :: rest) =
      some (text, rest) := by
  have shorter := length_le_escaped style text
  refine scanString_escaped ?_
  rw [List.length_append, List.length_cons]
  omega

theorem scanOnce_constant (constant : JsonConstant) (fuel : Nat) (rest : Text) :
    scanOnce (fuel + 1) (constant.text ++ rest) = some (.constant constant, rest) := by
  have literal : scanOnce (fuel + 1) (constant.text ++ rest) =
      scanLiteral (constant.text ++ rest) := by
    cases constant <;> rfl
  rw [literal, scanLiteral_constant]

theorem scanOnce_number_eq (n : NumberLiteral) (fuel : Nat) (rest : Text) :
    scanOnce (fuel + 1) (n.text ++ rest) = scanLiteral (n.text ++ rest) := by
  obtain ⟨c, tail, begins, rfl | digit⟩ := n.text_eq_cons
  · rw [begins]
    rfl
  · have other {d : Char} (apart : isAsciiDigit d = false) : c ≠ d := by
      rintro rfl
      rw [apart] at digit
      cases digit
    rw [begins, List.cons_append, scanOnce, if_neg (other (by decide)),
      if_neg (other (by decide)), if_neg (other (by decide))]

mutual

/-- **What is written is read**, and what stands after it is left. -/
theorem scanOnce_dumps (style : JsonStyle) (value : Json) (level fuel : Nat) (rest : Text)
    (ends : EndsNumber rest) (enough : (style.dumps level value ++ rest).length < fuel) :
    scanOnce fuel (style.dumps level value ++ rest) = some (value, rest) := by
  obtain ⟨fuel, rfl⟩ := Nat.exists_eq_succ_of_ne_zero (Nat.ne_zero_of_lt enough)
  cases value with
  | constant constant =>
    rw [JsonStyle.dumps]
    exact scanOnce_constant constant fuel rest
  | number n =>
    rw [JsonStyle.dumps, scanOnce_number_eq, scanLiteral_number ends.inert]
  | string text =>
    rw [JsonStyle.dumps, JsonStyle.quoted, List.cons_append, scanOnce, if_pos rfl,
      List.append_assoc, List.singleton_append, scanString_quoted]
    rfl
  | array values =>
    obtain ⟨body, written⟩ :=
      bracketed_eq_cons style level '[' ']' (style.dumpsValues (level + 1) values)
    rw [JsonStyle.dumps, written] at enough ⊢
    rw [List.cons_append, scanOnce, if_neg (by decide), if_neg (by decide), if_pos rfl,
      scanBracketed_written closes_array
        (reads_dumpsValues style values (level + 1) fuel _ (Nat.lt_of_succ_lt_succ enough))
        (starts_dumpsValues style _ values) written (Nat.le_refl _)]
    rfl
  | object members =>
    obtain ⟨body, written⟩ :=
      bracketed_eq_cons style level '{' '}' (style.dumpsMembers (level + 1) members)
    rw [JsonStyle.dumps, written] at enough ⊢
    rw [List.cons_append, scanOnce, if_neg (by decide), if_pos rfl,
      scanBracketed_written closes_object
        (reads_dumpsMembers style members (level + 1) fuel _ (Nat.lt_of_succ_lt_succ enough))
        (starts_dumpsMembers style _ members) written (Nat.le_refl _)]
    rfl

theorem reads_dumpsValues (style : JsonStyle) (values : List Json) (level fuel bound : Nat)
    (enough : bound < fuel) :
    List.Forall₂ (Reads bound (scanOnce fuel)) (style.dumpsValues level values) values := by
  cases values with
  | nil =>
    rw [JsonStyle.dumpsValues]
    exact .nil
  | cons value values =>
    rw [JsonStyle.dumpsValues]
    refine .cons (fun rest ended within => ?_)
      (reads_dumpsValues style values level fuel bound enough)
    exact scanOnce_dumps style value level fuel rest ended.2 (Nat.lt_of_le_of_lt within enough)

theorem reads_dumpsMembers (style : JsonStyle) (members : List (Text × Json))
    (level fuel bound : Nat) (enough : bound < fuel) :
    List.Forall₂ (Reads bound (scanMember (scanOnce fuel))) (style.dumpsMembers level members)
      members := by
  match members with
  | [] =>
    rw [JsonStyle.dumpsMembers]
    exact .nil
  | (key, value) :: members =>
    rw [JsonStyle.dumpsMembers]
    refine .cons (fun rest ended within => ?_)
      (reads_dumpsMembers style members level fuel bound enough)
    have read := scanOnce_dumps style value level fuel rest ended.2 (by
      simp only [List.length_append] at within ⊢
      omega)
    have starts := (startsItem_dumps style level value).append rest
    rw [JsonStyle.quoted, JsonStyle.keySeparator]
    simp only [List.cons_append, List.append_assoc, List.nil_append]
    rw [scanMember, if_pos rfl, scanString_quoted]
    dsimp only
    rw [skipBlanks_blank style.blank_beforeColon, skipBlanks_cons (by decide)]
    dsimp only
    rw [if_pos rfl, skipBlanks_blank style.blank_afterColon, starts.skipBlanks, read]
    rfl

end

theorem rawDecode_dumps (style : JsonStyle) (level : Nat) (value : Json) {rest : Text}
    (ends : EndsNumber rest) :
    rawDecode (style.dumps level value ++ rest) = some (value, rest) :=
  scanOnce_dumps style value level _ rest ends (Nat.lt_succ_self _)

theorem rawDecode_consumes : Consumes rawDecode := fun text => scanOnce_consumes _ text

theorem rawDecode_dumps_append (style : JsonStyle) (level : Nat) {value : Json}
    (closed : value.isNumber = false) (rest : Text) :
    rawDecode (style.dumps level value ++ rest) = some (value, rest) := by
  have alone := scanOnce_dumps style value level _ [] endsNumber_nil (Nat.lt_succ_self _)
  rw [List.append_nil] at alone
  refine scanOnce_append alone ?_ (fun number => ?_) rest
  · rw [List.length_append]
    omega
  · rw [closed] at number
    cases number

theorem number_of_scanOnce {fuel : Nat} {text rest : Text} {n : NumberLiteral}
    (h : scanOnce fuel text = some (.number n, rest)) : text = n.text ++ rest := by
  cases fuel with
  | zero => cases h
  | succ fuel =>
    cases text with
    | nil => cases h
    | cons c text =>
      rw [scanOnce] at h
      split at h
      · obtain ⟨found, -, same⟩ := Option.map_eq_some_iff.mp h
        cases same
      · split at h
        · obtain ⟨found, -, same⟩ := Option.map_eq_some_iff.mp h
          cases same
        · split at h
          · obtain ⟨found, -, same⟩ := Option.map_eq_some_iff.mp h
            cases same
          · rcases scanLiteral_eq_some h with ⟨constant, same, -⟩ | ⟨n', same, scanned⟩
            · cases same
            · cases same
              exact scanNumber_eq scanned

/-- **A part of a value does not decode**, unless the value is a number. -/
theorem rawDecode_cut (style : JsonStyle) (level : Nat) {value : Json}
    (closed : value.isNumber = false) {before after : Text}
    (cut : before ++ after = style.dumps level value) (more : after ≠ []) :
    rawDecode before = none := by
  cases decoded : rawDecode before with
  | none => rfl
  | some found =>
    obtain ⟨value', rest⟩ := found
    have whole := rawDecode_dumps_append style level closed []
    rw [List.append_nil] at whole
    cases number : value'.isNumber with
    | false =>
      have again := scanOnce_append decoded
        (Nat.succ_le_succ (Nat.le_add_right before.length after.length))
        (fun isNumber => by rw [number] at isNumber; cases isNumber) after
      rw [cut, ← List.length_append, cut] at again
      obtain ⟨-, left⟩ := Prod.mk.inj (Option.some.inj (again.symm.trans whole))
      exact absurd (List.append_eq_nil_iff.mp left).2 more
    | true =>
      obtain ⟨n, rfl⟩ : ∃ n, value' = .number n := by
        cases value' with
        | number n => exact ⟨n, rfl⟩
        | _ => cases number
      have begins := number_of_scanOnce decoded
      rw [← cut, begins, List.append_assoc, rawDecode, scanOnce_number_eq] at whole
      rcases scanLiteral_eq_some whole with ⟨constant, -, stands⟩ | ⟨n', same, -⟩
      · have found : constantAt (n.text ++ (rest ++ after)) = none := constantAt_number
        rw [stands, constantAt_append] at found
        cases found
      · rw [same] at closed
        cases closed

end Rankuno.Python
