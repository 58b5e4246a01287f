import Mathlib.Data.List.Infix

/-!
# Glob patterns

Words over any alphabet, one of whose letters is a wildcard. A pattern matches what it
becomes when each wildcard in it is replaced by some word.

A greedy matcher compares letters before it looks for the wildcard, so it takes a wildcard
that stands in front of the same letter of the text for that letter. `StarForStar` is what
is left of the language then; where the text is free of the wildcard it is all of it.
-/

universe u

variable {α : Type u}

/-- The text is the pattern with each wildcard replaced by some word. -/
def Glob [DecidableEq α] (star : α) (pattern text : List α) : Prop :=
  ∃ fill : Nat → List α, (pattern.mapIdx fun i c => if c = star then fill i else [c]).flatten = text

/-- The same, where a wildcard in front of a wildcard of the text stands for that letter
alone. -/
inductive StarForStar (star : α) : List α → List α → Prop
  | nil : StarForStar star [] []
  | same (c : α) {pattern text : List α} (rest : StarForStar star pattern text) :
      StarForStar star (c :: pattern) (c :: text)
  | fill {pattern text : List α} (word : List α) (rest : StarForStar star pattern text)
      (plain : (word ++ text).head? ≠ some star) : StarForStar star (star :: pattern) (word ++ text)

section Glob

variable [DecidableEq α] {star c : α} {pattern text before after : List α}

theorem glob_nil : Glob star [] text ↔ text = [] :=
  ⟨fun ⟨_, same⟩ => same.symm, fun empty => ⟨fun _ => [], empty.symm⟩⟩

theorem glob_star : Glob star (star :: pattern) text ↔
    ∃ word rest, text = word ++ rest ∧ Glob star pattern rest := by
  constructor
  · rintro ⟨fill, rfl⟩
    rw [List.mapIdx_cons, List.flatten_cons, if_pos rfl]
    exact ⟨fill 0, _, rfl, fun i => fill (i + 1), rfl⟩
  · rintro ⟨word, -, rfl, fill, rfl⟩
    refine ⟨fun i => i.casesOn word fill, ?_⟩
    rw [List.mapIdx_cons, List.flatten_cons, if_pos rfl]
    rfl

theorem glob_cons (plain : c ≠ star) : Glob star (c :: pattern) text ↔
    ∃ rest, text = c :: rest ∧ Glob star pattern rest := by
  constructor
  · rintro ⟨fill, rfl⟩
    rw [List.mapIdx_cons, List.flatten_cons, if_neg plain]
    exact ⟨_, rfl, fun i => fill (i + 1), rfl⟩
  · rintro ⟨-, rfl, fill, rfl⟩
    refine ⟨fun i => fill (i - 1), ?_⟩
    rw [List.mapIdx_cons, List.flatten_cons, if_neg plain]
    rfl

theorem glob_append_star : Glob star (pattern ++ [star]) text ↔
    ∃ before after, text = before ++ after ∧ Glob star pattern before := by
  induction pattern generalizing text with
  | nil =>
    rw [List.nil_append, glob_star]
    constructor
    · rintro ⟨word, rest, rfl, -⟩
      exact ⟨[], word ++ rest, rfl, glob_nil.mpr rfl⟩
    · rintro ⟨before, after, rfl, -⟩
      exact ⟨before ++ after, [], (List.append_nil _).symm, glob_nil.mpr rfl⟩
  | cons c pattern ih =>
    rw [List.cons_append]
    by_cases plain : c = star
    · subst plain
      rw [glob_star]
      constructor
      · rintro ⟨word, rest, rfl, matched⟩
        obtain ⟨before, after, rfl, found⟩ := ih.mp matched
        exact ⟨word ++ before, after, (List.append_assoc _ _ _).symm,
          glob_star.mpr ⟨word, before, rfl, found⟩⟩
      · rintro ⟨before, after, rfl, found⟩
        obtain ⟨word, rest, rfl, matched⟩ := glob_star.mp found
        exact ⟨word, rest ++ after, List.append_assoc _ _ _, ih.mpr ⟨rest, after, rfl, matched⟩⟩
    · rw [glob_cons plain]
      constructor
      · rintro ⟨rest, rfl, matched⟩
        obtain ⟨before, after, rfl, found⟩ := ih.mp matched
        exact ⟨c :: before, after, rfl, (glob_cons plain).mpr ⟨before, rfl, found⟩⟩
      · rintro ⟨before, after, rfl, found⟩
        obtain ⟨rest, rfl, matched⟩ := (glob_cons plain).mp found
        exact ⟨rest ++ after, rfl, ih.mpr ⟨rest, after, rfl, matched⟩⟩

end Glob

namespace StarForStar

variable {star c d : α} {pattern text word run rest : List α}

theorem glob [DecidableEq α] (h : StarForStar star pattern text) : Glob star pattern text := by
  induction h with
  | nil => exact glob_nil.mpr rfl
  | @same c pattern text rest ih =>
    by_cases plain : c = star
    · subst plain
      exact glob_star.mpr ⟨[c], text, rfl, ih⟩
    · exact (glob_cons plain).mpr ⟨text, rfl, ih⟩
  | @fill pattern text word rest plain ih => exact glob_star.mpr ⟨word, text, rfl, ih⟩

theorem nil_right : StarForStar star pattern [] ↔ ∀ c ∈ pattern, c = star := by
  induction pattern with
  | nil => exact iff_of_true nil fun c mem => by cases mem
  | cons c pattern ih =>
    rw [List.forall_mem_cons, ← ih]
    constructor
    · generalize made : ([] : List α) = text
      intro h
      cases h with
      | same _ rest => cases made
      | fill word rest plain =>
        obtain ⟨rfl, rfl⟩ := List.append_eq_nil_iff.mp made.symm
        exact ⟨rfl, rest⟩
    · rintro ⟨rfl, h⟩
      exact fill [] h fun first => by cases first

theorem cons_same :
    StarForStar star (c :: pattern) (c :: text) ↔ StarForStar star pattern text := by
  refine ⟨?_, same c⟩
  generalize made : c :: text = whole
  intro h
  cases h with
  | same _ rest =>
    cases made
    exact rest
  | fill word rest plain =>
    rw [← made] at plain
    exact absurd rfl plain

theorem append_same :
    StarForStar star (run ++ pattern) (run ++ text) ↔ StarForStar star pattern text := by
  induction run with
  | nil => rfl
  | cons c run ih => rw [List.cons_append, List.cons_append, cons_same, ih]

theorem of_star (h : StarForStar star (star :: pattern) text) :
    ∃ rest, rest <:+ text ∧ StarForStar star pattern rest := by
  cases h with
  | same _ matched => exact ⟨_, List.suffix_cons _ _, matched⟩
  | fill _ matched _ => exact ⟨_, List.suffix_append _ _, matched⟩

theorem star_cons (plain : text.head? ≠ some star) : StarForStar star (star :: pattern) text ↔
    ∃ rest, rest <:+ text ∧ StarForStar star pattern rest := by
  refine ⟨of_star, ?_⟩
  rintro ⟨rest, ⟨word, rfl⟩, matched⟩
  exact fill word matched plain

theorem not_cons (differ : c ≠ d) (plain : c ≠ star) :
    ¬StarForStar star (c :: pattern) (d :: text) := by
  generalize made : d :: text = whole
  intro h
  cases h with
  | same _ rest =>
    cases made
    exact differ rfl
  | fill word rest _ => exact plain rfl

theorem not_nil_left : ¬StarForStar star [] (d :: text) := by
  intro h
  cases h

theorem exchange {late : List α} (later : late <:+ run ++ text)
    (h : StarForStar star (run ++ pattern) late) :
    ∃ rest, rest <:+ text ∧ StarForStar star pattern rest := by
  induction run generalizing late with
  | nil => exact ⟨late, later, h⟩
  | cons c run ih =>
    rw [List.cons_append] at h later
    obtain rfl | inner := List.suffix_cons_iff.mp later
    · exact ih (List.suffix_refl _) (cons_same.mp h)
    · cases h with
      | @same _ _ left rest => exact ih (List.IsSuffix.trans (List.suffix_cons c left) inner) rest
      | @fill _ left word rest _ =>
        exact ih (List.IsSuffix.trans (List.suffix_append word left) inner) rest

end StarForStar
