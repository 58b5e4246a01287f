import Rankuno.Python.JsonLiterals

/-!
# The end of a JSON value

`scan_once` reads a value to its end and not beyond: it takes at least a character
(`scanOnce_consumes`), and once it has seen the end, what comes after makes no difference
(`scanOnce_append`). Only a number has no end of its own.
-/

namespace Rankuno.Python

open Text

/-! ## Items -/

variable {c : Char}

theorem blank_continues (blank : isJsonBlank c = true) : continuesNumber c = false := by
  rw [isJsonBlank, Bool.or_eq_true, Bool.or_eq_true, Bool.or_eq_true] at blank
  simp only [decide_eq_true_eq] at blank
  obtain ((rfl | rfl) | rfl) | rfl := blank <;> decide

theorem skipBlanks_length (text : Text) : (skipBlanks text).length ≤ text.length :=
  (List.dropWhile_sublist _).length_le

theorem skipBlanks_append {text rest : Text} (h : skipBlanks text = c :: rest)
    (after : Text) : skipBlanks (text ++ after) = c :: (rest ++ after) := by
  rw [skipBlanks, List.dropWhile_append, ← skipBlanks, h]
  rfl

theorem skipBlanks_blank {gap rest : Text} (blank : gap.all isJsonBlank = true) :
    skipBlanks (gap ++ rest) = skipBlanks rest :=
  List.dropWhile_append_of_pos fun c mem => List.all_eq_true.mp blank c mem

theorem skipBlanks_cons {rest : Text} (shown : isJsonBlank c = false) :
    skipBlanks (c :: rest) = c :: rest :=
  List.dropWhile_cons_of_neg (by rw [shown]; exact Bool.false_ne_true)

theorem delimits_of_skipBlanks {text rest : Text} (h : skipBlanks text = c :: rest)
    (stops : continuesNumber c = false) : Delimits text := by
  cases text with
  | nil => cases h
  | cons first text =>
    refine ⟨List.cons_ne_nil _ _, endsNumber_cons.mpr ?_⟩
    by_cases blank : isJsonBlank first = true
    · exact blank_continues blank
    · rw [skipBlanks_cons (Bool.eq_false_iff.mpr blank)] at h
      rw [(List.cons.inj h).1]
      exact stops

section Items

variable {α : Type}

/-- The second reader gives what the first does, whatever comes after a value that has ended. -/
def Extends (item item' : Text → Option (α × Text)) : Prop :=
  ∀ text value rest, item text = some (value, rest) → Delimits rest →
    ∀ after, item' (text ++ after) = some (value, rest ++ after)

/-- A value takes at least a character. -/
def Consumes (item : Text → Option (α × Text)) : Prop :=
  ∀ text value rest, item text = some (value, rest) → rest.length < text.length

variable {item item' : Text → Option (α × Text)} {closing : Char} {text rest : Text}
  {values : List α}

theorem scanItems_nil (consumes : Consumes item) {fuel : Nat} :
    scanItems item closing fuel [] = none := by
  cases fuel with
  | zero => rfl
  | succ fuel =>
    cases first : item [] with
    | none => rw [scanItems, first]
    | some found => exact absurd (consumes [] found.1 found.2 first) (Nat.not_lt_zero _)

theorem scanItems_consumes (consumes : Consumes item) {fuel : Nat}
    (h : scanItems item closing fuel text = some (values, rest)) : rest.length < text.length := by
  induction fuel generalizing text values with
  | zero => cases h
  | succ fuel ih =>
    rw [scanItems] at h
    cases first : item text with
    | none =>
      rw [first] at h
      cases h
    | some found =>
      obtain ⟨value, tail⟩ := found
      rw [first] at h
      dsimp only at h
      have shorter := consumes text value tail first
      have skipped := skipBlanks_length tail
      cases next : skipBlanks tail with
      | nil =>
        rw [next] at h
        cases h
      | cons c tail' =>
        rw [next] at h skipped
        rw [List.length_cons] at skipped
        dsimp only at h
        split at h
        · cases h
          omega
        · split at h
          · obtain ⟨⟨others, last⟩, read, same⟩ := Option.map_eq_some_iff.mp h
            cases same
            have deeper := ih read
            have skipped' := skipBlanks_length tail'
            omega
          · cases h

theorem scanItems_append (consumes : Consumes item) (longer : Extends item item')
    (stops : continuesNumber closing = false)
    {fuel fuel' : Nat} (h : scanItems item closing fuel text = some (values, rest))
    (more : fuel ≤ fuel') (after : Text) :
    scanItems item' closing fuel' (text ++ after) = some (values, rest ++ after) := by
  induction fuel generalizing text values fuel' with
  | zero => cases h
  | succ fuel ih =>
    obtain ⟨fuel', rfl⟩ := Nat.exists_eq_succ_of_ne_zero (Nat.ne_zero_of_lt more)
    rw [scanItems] at h ⊢
    cases first : item text with
    | none =>
      rw [first] at h
      cases h
    | some found =>
      obtain ⟨value, tail⟩ := found
      rw [first] at h
      dsimp only at h
      cases next : skipBlanks tail with
      | nil =>
        rw [next] at h
        cases h
      | cons c tail' =>
        rw [next] at h
        dsimp only at h
        by_cases closed : c = closing
        · rw [if_pos closed] at h
          cases h
          have ended := delimits_of_skipBlanks next (closed ▸ stops)
          rw [longer text value tail first ended after]
          dsimp only
          rw [skipBlanks_append next after]
          dsimp only
          rw [if_pos closed]
        · rw [if_neg closed] at h
          by_cases comma : c = ','
          · rw [if_pos comma] at h
            have ended := delimits_of_skipBlanks next (by rw [comma]; decide)
            obtain ⟨⟨others, last⟩, read, same⟩ := Option.map_eq_some_iff.mp h
            cases same
            rw [longer text value tail first ended after]
            dsimp only
            rw [skipBlanks_append next after]
            dsimp only
            rw [if_neg closed, if_pos comma]
            have rest_read : scanItems item' closing fuel' (skipBlanks (tail' ++ after)) =
                some (others, last ++ after) := by
              cases shown : skipBlanks tail' with
              | nil =>
                rw [shown, scanItems_nil consumes] at read
                cases read
              | cons d tail'' =>
                rw [shown] at read
                rw [skipBlanks_append shown]
                exact ih read (Nat.le_of_succ_le_succ more)
            rw [rest_read]
            rfl
          · rw [if_neg comma] at h
            cases h

theorem scanBracketed_consumes (consumes : Consumes item)
    (h : scanBracketed item closing text = some (values, rest)) : rest.length < text.length := by
  have skipped := skipBlanks_length text
  rw [scanBracketed] at h
  cases shown : skipBlanks text with
  | nil =>
    rw [shown] at h
    cases h
  | cons c tail =>
    rw [shown] at h skipped
    dsimp only at h
    split at h
    · cases h
      exact skipped
    · exact Nat.lt_of_lt_of_le (scanItems_consumes consumes h) skipped

theorem scanBracketed_append (consumes : Consumes item) (longer : Extends item item')
    (stops : continuesNumber closing = false)
    (h : scanBracketed item closing text = some (values, rest)) (after : Text) :
    scanBracketed item' closing (text ++ after) = some (values, rest ++ after) := by
  rw [scanBracketed] at h
  cases shown : skipBlanks text with
  | nil =>
    rw [shown] at h
    cases h
  | cons c tail =>
    rw [shown] at h
    rw [scanBracketed, skipBlanks_append shown]
    dsimp only at h ⊢
    by_cases closed : c = closing
    · rw [if_pos closed] at h ⊢
      cases h
      rfl
    · rw [if_neg closed] at h ⊢
      refine scanItems_append consumes longer stops h ?_ after
      rw [List.length_cons, List.length_cons, List.length_append]
      omega

end Items

section Members

variable {scan scan' : Text → Option (Json × Text)}

theorem scanMember_consumes (consumes : Consumes scan) : Consumes (scanMember scan) := by
  intro text value rest h
  cases text with
  | nil => cases h
  | cons quote text =>
    rw [scanMember] at h
    split at h
    · cases key : scanString text.length text with
      | none =>
        rw [key] at h
        cases h
      | some found =>
        obtain ⟨key', tail⟩ := found
        rw [key] at h
        have first := (scanString_append key (Nat.le_refl _) []).2
        have skipped := skipBlanks_length tail
        dsimp only at h
        cases shown : skipBlanks tail with
        | nil =>
          rw [shown] at h
          cases h
        | cons c tail' =>
          rw [shown] at h skipped
          dsimp only at h
          split at h
          · obtain ⟨⟨value', last⟩, read, same⟩ := Option.map_eq_some_iff.mp h
            cases same
            have deeper := consumes _ _ _ read
            have skipped' := skipBlanks_length tail'
            rw [List.length_cons] at skipped ⊢
            dsimp only
            omega
          · cases h
    · cases h

theorem scanMember_extends (consumes : Consumes scan) (longer : Extends scan scan') :
    Extends (scanMember scan) (scanMember scan') := by
  intro text value rest h ended after
  cases text with
  | nil => cases h
  | cons quote text =>
    rw [scanMember] at h
    rw [List.cons_append, scanMember]
    split at h
    · next isQuote =>
      rw [if_pos isQuote]
      cases key : scanString text.length text with
      | none =>
        rw [key] at h
        cases h
      | some found =>
        obtain ⟨key', tail⟩ := found
        rw [key] at h
        have within : text.length ≤ (text ++ after).length := by
          rw [List.length_append]
          omega
        rw [(scanString_append key within after).1]
        dsimp only at h ⊢
        cases shown : skipBlanks tail with
        | nil =>
          rw [shown] at h
          cases h
        | cons c tail' =>
          rw [shown] at h
          rw [skipBlanks_append shown]
          dsimp only at h ⊢
          split at h
          · next colon =>
            rw [if_pos colon]
            obtain ⟨⟨value', last⟩, read, same⟩ := Option.map_eq_some_iff.mp h
            cases same
            cases shown' : skipBlanks tail' with
            | nil =>
              rw [shown'] at read
              exact absurd (consumes _ _ _ read) (Nat.not_lt_zero _)
            | cons d tail'' =>
              rw [shown'] at read
              rw [skipBlanks_append shown', ← List.cons_append, longer _ _ _ read ended after]
              rfl
          · cases h
    · cases h

end Members

/-! ## Values -/

theorem JsonConstant.text_head {constant constant' : JsonConstant}
    (h : constant.text.head? = constant'.text.head?) : constant = constant' := by
  revert h
  cases constant <;> cases constant' <;> decide

theorem JsonConstant.text_ne_nil (constant : JsonConstant) : constant.text ≠ [] := by
  cases constant <;> decide

theorem JsonConstant.head_append (constant : JsonConstant) (rest : Text) :
    (constant.text ++ rest).head? = constant.text.head? := by
  cases constant <;> rfl

theorem prefix_of_constantAt {text : Text} {constant : JsonConstant}
    (h : constantAt text = some constant) : ∃ rest, text = constant.text ++ rest := by
  have stands : constant.text.isPrefixOf text = true := by simpa using List.find?_some h
  obtain ⟨rest, same⟩ := List.isPrefixOf_iff_prefix.mp stands
  exact ⟨rest, same.symm⟩

theorem constantAt_append (constant : JsonConstant) (rest : Text) :
    constantAt (constant.text ++ rest) = some constant := by
  have listed : constant ∈ jsonConstants := by cases constant <;> decide
  cases found : constantAt (constant.text ++ rest) with
  | none =>
    exact absurd (List.isPrefixOf_iff_prefix.mpr (List.prefix_append _ _))
      (List.find?_eq_none.mp found constant listed)
  | some constant' =>
    obtain ⟨rest', same⟩ := prefix_of_constantAt found
    have heads := congrArg List.head? same
    rw [JsonConstant.head_append, JsonConstant.head_append] at heads
    rw [JsonConstant.text_head heads]

theorem constantAt_number {n : NumberLiteral} {rest : Text} :
    constantAt (n.text ++ rest) = none := by
  cases found : constantAt (n.text ++ rest) with
  | none => rfl
  | some constant =>
    obtain ⟨rest', same⟩ := prefix_of_constantAt found
    obtain ⟨c, digits, whole⟩ := List.exists_cons_of_ne_nil n.whole_shape.1
    have digit : isAsciiDigit c = true :=
      List.all_eq_true.mp n.whole_shape.2 c (whole ▸ List.mem_cons_self)
    rw [NumberLiteral.text, whole] at same
    have heads := congrArg List.head? same
    rw [JsonConstant.head_append] at heads
    rcases n.sign_shape with unsigned | signed
    · rw [unsigned] at heads
      have first : c ∈ constant.text.head? := heads.symm
      cases constant <;> cases first <;> exact absurd digit (by decide)
    · rw [signed] at heads same
      have minus : constant = .negativeInfinity := JsonConstant.text_head heads.symm
      subst minus
      have second : some c = some 'I' := congrArg (fun text => text[1]?) same
      cases second
      exact absurd digit (by decide)

variable {value : Json}

theorem scanLiteral_eq_some {text rest : Text}
    (h : scanLiteral text = some (value, rest)) :
    (∃ constant, value = .constant constant ∧ text = constant.text ++ rest) ∨
      ∃ n, value = .number n ∧ scanNumber text = some (n, rest) := by
  rw [scanLiteral] at h
  split at h
  · next constant found =>
    obtain ⟨after, rfl⟩ := prefix_of_constantAt found
    cases h
    exact .inl ⟨constant, rfl, by rw [List.drop_left]⟩
  · obtain ⟨⟨n, last⟩, read, same⟩ := Option.map_eq_some_iff.mp h
    cases same
    exact .inr ⟨n, rfl, read⟩

theorem scanLiteral_constant {constant : JsonConstant} {rest : Text} :
    scanLiteral (constant.text ++ rest) = some (.constant constant, rest) := by
  rw [scanLiteral, constantAt_append]
  dsimp only
  rw [List.drop_left]

theorem scanLiteral_number {n : NumberLiteral} {rest : Text} (inert : Inert rest) :
    scanLiteral (n.text ++ rest) = some (.number n, rest) := by
  rw [scanLiteral, constantAt_number, scanNumber_text inert]
  rfl

def Json.isNumber : Json → Bool
  | .number _ => true
  | _ => false

theorem scanLiteral_append {text rest : Text}
    (h : scanLiteral text = some (value, rest)) (ended : value.isNumber = true → Delimits rest)
    (after : Text) : scanLiteral (text ++ after) = some (value, rest ++ after) := by
  rcases scanLiteral_eq_some h with ⟨constant, rfl, rfl⟩ | ⟨n, rfl, scanned⟩
  · rw [List.append_assoc]
    exact scanLiteral_constant
  · rw [scanNumber_eq scanned, List.append_assoc]
    exact scanLiteral_number (ended rfl).append.2.inert

theorem NumberLiteral.text_ne_nil (n : NumberLiteral) : n.text ≠ [] := by
  intro empty
  have whole : n.whole = [] := by
    simp only [NumberLiteral.text, List.append_eq_nil_iff] at empty
    exact empty.1.1.2
  exact n.whole_shape.1 whole

theorem scanLiteral_consumes : Consumes scanLiteral := by
  intro text value rest h
  rcases scanLiteral_eq_some h with ⟨constant, rfl, rfl⟩ | ⟨n, rfl, scanned⟩
  · have := List.length_pos_iff.mpr constant.text_ne_nil
    rw [List.length_append]
    omega
  · rw [scanNumber_eq scanned]
    have := List.length_pos_iff.mpr n.text_ne_nil
    rw [List.length_append]
    omega

theorem scanOnce_consumes (fuel : Nat) : Consumes (scanOnce fuel) := by
  induction fuel with
  | zero =>
    intro text value rest h
    cases h
  | succ fuel ih =>
    intro text value rest h
    cases text with
    | nil => cases h
    | cons c text =>
      rw [scanOnce] at h
      split at h
      · obtain ⟨⟨found, last⟩, read, same⟩ := Option.map_eq_some_iff.mp h
        cases same
        exact Nat.lt_succ_of_lt (scanString_append read (Nat.le_refl _) []).2
      · split at h
        · obtain ⟨⟨found, last⟩, read, same⟩ := Option.map_eq_some_iff.mp h
          cases same
          exact Nat.lt_succ_of_lt (scanBracketed_consumes (scanMember_consumes ih) read)
        · split at h
          · obtain ⟨⟨found, last⟩, read, same⟩ := Option.map_eq_some_iff.mp h
            cases same
            exact Nat.lt_succ_of_lt (scanBracketed_consumes ih read)
          · exact scanLiteral_consumes _ _ _ h

theorem scanOnce_append {fuel fuel' : Nat} {text rest : Text}
    (h : scanOnce fuel text = some (value, rest)) (more : fuel ≤ fuel')
    (ended : value.isNumber = true → Delimits rest) (after : Text) :
    scanOnce fuel' (text ++ after) = some (value, rest ++ after) := by
  induction fuel generalizing text rest value fuel' after with
  | zero => cases h
  | succ fuel ih =>
    obtain ⟨fuel', rfl⟩ := Nat.exists_eq_succ_of_ne_zero (Nat.ne_zero_of_lt more)
    have longer : Extends (scanOnce fuel) (scanOnce fuel') := fun text value rest h ended after =>
      ih h (Nat.le_of_succ_le_succ more) (fun _ => ended) after
    have consumes := scanOnce_consumes fuel
    cases text with
    | nil => cases h
    | cons c text =>
      rw [scanOnce] at h
      rw [List.cons_append, scanOnce]
      split at h
      · next quote =>
        rw [if_pos quote]
        obtain ⟨⟨found, last⟩, read, same⟩ := Option.map_eq_some_iff.mp h
        cases same
        have within : text.length ≤ (text ++ after).length := by
          rw [List.length_append]
          omega
        rw [(scanString_append read within after).1]
        rfl
      · next quote =>
        rw [if_neg quote]
        split at h
        · next brace =>
          rw [if_pos brace]
          obtain ⟨⟨found, last⟩, read, same⟩ := Option.map_eq_some_iff.mp h
          cases same
          rw [scanBracketed_append (scanMember_consumes consumes)
            (scanMember_extends consumes longer) (by decide) read after]
          rfl
        · next brace =>
          rw [if_neg brace]
          split at h
          · next bracket =>
            rw [if_pos bracket]
            obtain ⟨⟨found, last⟩, read, same⟩ := Option.map_eq_some_iff.mp h
            cases same
            rw [scanBracketed_append consumes longer (by decide) read after]
            rfl
          · next bracket =>
            rw [if_neg bracket]
            exact scanLiteral_append h ended after

end Rankuno.Python
