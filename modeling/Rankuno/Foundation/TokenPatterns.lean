import Mathlib.Data.List.Forall2

/-!
# Patterns of letters and runs

A pattern is a list of tokens, each of which stands for one letter of a class, or for a run of
such letters. `accepts` runs a pattern by trying every length of a run, and hands what is left
of the word on: so a pattern may have to match a word, or only the beginning of one.
-/

universe u v

namespace TokenPattern

variable {α : Type u}

inductive Token (α : Type u) where
  | one (letter : α → Bool)
  | many (letter : α → Bool)

/-- The words that a pattern matches. -/
inductive Matches : List (Token α) → List α → Prop
  | nil : Matches [] []
  | one {letter : α → Bool} {c : α} {tokens : List (Token α)} {word : List α}
      (own : letter c = true) (rest : Matches tokens word) :
      Matches (.one letter :: tokens) (c :: word)
  | many {letter : α → Bool} {run word : List α} {tokens : List (Token α)}
      (own : ∀ c ∈ run, letter c = true) (rest : Matches tokens word) :
      Matches (.many letter :: tokens) (run ++ word)

/-- Some run of a class, and then what accepts the rest. -/
def skipping (letter : α → Bool) (next : List α → Bool) : List α → Bool
  | [] => next []
  | c :: word => next (c :: word) || (letter c && skipping letter next word)

/-- The pattern, and then what accepts the rest. -/
def accepts (final : List α → Bool) : List (Token α) → List α → Bool
  | [], word => final word
  | .one _ :: _, [] => false
  | .one letter :: tokens, c :: word => letter c && accepts final tokens word
  | .many letter :: tokens, word => skipping letter (accepts final tokens) word

/-- Of the letters of a word, a token stands for those of another one only. -/
inductive Token.Within (word : List α) : Token α → Token α → Prop
  | one {p q : α → Bool} (only : ∀ c ∈ word, p c = true → q c = true) :
      Within word (.one p) (.one q)
  | many {p q : α → Bool} (only : ∀ c ∈ word, p c = true → q c = true) :
      Within word (.many p) (.many q)

variable {letter : α → Bool} {c : α} {tokens tokens' : List (Token α)} {word whole : List α}
  {next final : List α → Bool}

theorem skipping_iff : skipping letter next word = true ↔
    ∃ run rest, word = run ++ rest ∧ (∀ c ∈ run, letter c = true) ∧ next rest = true := by
  induction word with
  | nil =>
    constructor
    · exact fun accepted => ⟨[], [], rfl, List.forall_mem_nil _, accepted⟩
    · rintro ⟨run, rest, parts, -, accepted⟩
      obtain ⟨rfl, rfl⟩ := List.nil_eq_append_iff.mp parts
      exact accepted
  | cons c word ih =>
    rw [skipping, Bool.or_eq_true, Bool.and_eq_true, ih]
    constructor
    · rintro (accepted | ⟨own, run, rest, rfl, class_, accepted⟩)
      · exact ⟨[], c :: word, rfl, List.forall_mem_nil _, accepted⟩
      · exact ⟨c :: run, rest, rfl, List.forall_mem_cons.mpr ⟨own, class_⟩, accepted⟩
    · rintro ⟨run, rest, parts, class_, accepted⟩
      cases run with
      | nil =>
        left
        rw [parts]
        exact accepted
      | cons d run =>
        obtain ⟨rfl, rfl⟩ := List.cons.inj parts
        obtain ⟨own, class_⟩ := List.forall_mem_cons.mp class_
        exact Or.inr ⟨own, run, rest, rfl, class_, accepted⟩

@[simp] theorem matches_nil_iff : Matches [] word ↔ word = [] := by
  constructor
  · rintro ⟨⟩
    rfl
  · rintro rfl
    exact .nil

theorem matches_one_iff : Matches (.one letter :: tokens) word ↔
    ∃ c rest, word = c :: rest ∧ letter c = true ∧ Matches tokens rest := by
  constructor
  · intro matched
    cases matched with
    | one own rest => exact ⟨_, _, rfl, own, rest⟩
  · rintro ⟨c, rest, rfl, own, matched⟩
    exact .one own matched

theorem matches_many_iff : Matches (.many letter :: tokens) word ↔
    ∃ run rest, word = run ++ rest ∧ (∀ c ∈ run, letter c = true) ∧ Matches tokens rest := by
  constructor
  · intro matched
    cases matched with
    | many own rest => exact ⟨_, _, rfl, own, rest⟩
  · rintro ⟨run, rest, rfl, own, matched⟩
    exact .many own matched

theorem accepts_iff : accepts final tokens word = true ↔
    ∃ before rest, word = before ++ rest ∧ Matches tokens before ∧ final rest = true := by
  induction tokens generalizing word with
  | nil =>
    rw [accepts]
    constructor
    · exact fun accepted => ⟨[], word, rfl, .nil, accepted⟩
    · rintro ⟨before, rest, rfl, matched, accepted⟩
      rw [matches_nil_iff.mp matched]
      exact accepted
  | cons token tokens ih =>
    cases token with
    | one letter =>
      cases word with
      | nil =>
        rw [accepts]
        constructor
        · exact fun never => Bool.noConfusion never
        · rintro ⟨before, rest, parts, matched, -⟩
          obtain ⟨rfl, -⟩ := List.nil_eq_append_iff.mp parts
          cases matched
      | cons c word =>
        rw [accepts, Bool.and_eq_true, ih]
        constructor
        · rintro ⟨own, before, rest, rfl, matched, accepted⟩
          exact ⟨c :: before, rest, rfl, .one own matched, accepted⟩
        · rintro ⟨before, rest, parts, matched, accepted⟩
          obtain ⟨d, inner, rfl, own, tail⟩ := matches_one_iff.mp matched
          obtain ⟨rfl, rfl⟩ := List.cons.inj parts
          exact ⟨own, inner, rest, rfl, tail, accepted⟩
    | many letter =>
      rw [accepts, skipping_iff]
      constructor
      · rintro ⟨run, word, rfl, own, accepted⟩
        obtain ⟨before, rest, rfl, matched, accepted⟩ := ih.mp accepted
        exact ⟨run ++ before, rest, (List.append_assoc _ _ _).symm, .many own matched, accepted⟩
      · rintro ⟨before, rest, rfl, matched, accepted⟩
        obtain ⟨run, inner, rfl, own, tail⟩ := matches_many_iff.mp matched
        exact ⟨run, inner ++ rest, List.append_assoc _ _ _, own,
          ih.mpr ⟨inner, rest, rfl, tail, accepted⟩⟩

theorem accepts_isEmpty_iff : accepts List.isEmpty tokens word = true ↔ Matches tokens word := by
  rw [accepts_iff]
  constructor
  · rintro ⟨before, rest, rfl, matched, empty⟩
    rw [List.isEmpty_iff.mp empty, List.append_nil]
    exact matched
  · exact fun matched => ⟨word, [], (List.append_nil _).symm, matched, rfl⟩

theorem accepts_true_iff : accepts (fun _ => true) tokens word = true ↔
    ∃ before, before <+: word ∧ Matches tokens before := by
  rw [accepts_iff]
  constructor
  · rintro ⟨before, rest, rfl, matched, -⟩
    exact ⟨before, List.prefix_append _ _, matched⟩
  · rintro ⟨before, ⟨rest, rfl⟩, matched⟩
    exact ⟨before, rest, rfl, matched, rfl⟩

theorem Matches.within (matched : Matches tokens word)
    (within : List.Forall₂ (Token.Within whole) tokens tokens') (part : word ⊆ whole) :
    Matches tokens' word := by
  induction matched generalizing tokens' with
  | nil =>
    cases within
    exact .nil
  | one own rest ih =>
    obtain ⟨inWhole, part⟩ := List.cons_subset.mp part
    cases within with
    | cons first others =>
      cases first with
      | one only => exact .one (only _ inWhole own) (ih others part)
  | many own rest ih =>
    obtain ⟨run, part⟩ := List.append_subset.mp part
    cases within with
    | cons first others =>
      cases first with
      | many only => exact .many (fun c mem => only c (run mem) (own c mem)) (ih others part)

theorem Matches.map {β : Type v} {f g : β → Token α} {signs : List β}
    (matched : Matches (signs.map f) word) (part : word ⊆ whole)
    (within : ∀ sign ∈ signs, Token.Within whole (f sign) (g sign)) :
    Matches (signs.map g) word := by
  refine matched.within ?_ part
  rw [List.forall₂_map_left_iff, List.forall₂_map_right_iff, List.forall₂_same]
  exact within

end TokenPattern
