import Rankuno.Foundation.Glob
import Rankuno.HttpFetcher.Robots

/-!
# What a robots.txt pattern matches

The loop of `_glob_full_match` against the language of globs. It compares letters before
it looks for a `*`, so a `*` in front of a `*` of the path is never passed as a wildcard.
-/

namespace Rankuno

open Python Python.Text

section Loop

variable {pattern text : Text} {p t starT : Nat} {starP : Option Nat}

/-- Since the last `*` it passed, the loop has found equal letters only. -/
def Running (pattern text : Text) (p t : Nat) (starP : Option Nat) (starT : Nat) : Prop :=
  ∀ star, starP = some star →
    ∃ run, pattern.drop (star + 1) = run ++ pattern.drop p ∧ text.drop starT = run ++ text.drop t

theorem running_star (star t : Nat) : Running pattern text (star + 1) t (some star) t := by
  intro last passed
  cases passed
  exact ⟨[], rfl, rfl⟩

/-- What is left to match: the rest of the pattern, or all of it from the last `*` on, at
any place from where the text stood then. -/
def LeftToMatch (pattern text : Text) (p t : Nat) (starP : Option Nat) (starT : Nat) : Prop :=
  match starP with
  | none => StarForStar '*' (pattern.drop p) (text.drop t)
  | some star =>
    ∃ rest, rest <:+ text.drop starT ∧ StarForStar '*' (pattern.drop (star + 1)) rest

theorem leftToMatch_of_running (running : Running pattern text p t starP starT)
    (h : StarForStar '*' (pattern.drop p) (text.drop t)) :
    LeftToMatch pattern text p t starP starT := by
  cases starP with
  | none => exact h
  | some star =>
    obtain ⟨run, read, passed⟩ := running star rfl
    refine ⟨text.drop starT, List.suffix_refl _, ?_⟩
    rw [read, passed]
    exact StarForStar.append_same.mpr h

theorem exists_of_leftToMatch (running : Running pattern text p t starP starT)
    (h : LeftToMatch pattern text p t starP starT) :
    ∃ rest, rest <:+ text.drop t ∧ StarForStar '*' (pattern.drop p) rest := by
  cases starP with
  | none => exact ⟨text.drop t, List.suffix_refl _, h⟩
  | some star =>
    obtain ⟨run, read, passed⟩ := running star rfl
    obtain ⟨late, later, matched⟩ := h
    rw [read] at matched
    rw [passed] at later
    exact StarForStar.exchange later matched

theorem drop_of_getElem? {l : Text} {i : Nat} {c : Char} (h : l[i]? = some c) :
    l.drop i = c :: l.drop (i + 1) := by
  obtain ⟨inside, rfl⟩ := List.getElem?_eq_some_iff.mp h
  exact List.drop_eq_getElem_cons inside

theorem Running.succ (running : Running pattern text p t starP starT) {c : Char}
    (read : pattern[p]? = some c) (same : text[t]? = some c) :
    Running pattern text (p + 1) (t + 1) starP starT := by
  intro star passed
  obtain ⟨run, before, upto⟩ := running star passed
  refine ⟨run ++ [c], ?_, ?_⟩
  · rw [before, drop_of_getElem? read, List.append_assoc]
    rfl
  · rw [upto, drop_of_getElem? same, List.append_assoc]
    rfl

theorem leftToMatch_succ {c : Char} (read : pattern[p]? = some c) (same : text[t]? = some c) :
    LeftToMatch pattern text (p + 1) (t + 1) starP starT ↔
      LeftToMatch pattern text p t starP starT := by
  cases starP with
  | none =>
    rw [LeftToMatch, LeftToMatch, drop_of_getElem? read, drop_of_getElem? same,
      StarForStar.cons_same]
  | some star => rfl

theorem not_starForStar (inside : t < text.length)
    (differ : ¬(p < pattern.length ∧ pattern[p]? = text[t]?))
    (plain : ¬(p < pattern.length ∧ pattern[p]? = some '*')) :
    ¬StarForStar '*' (pattern.drop p) (text.drop t) := by
  rw [List.drop_eq_getElem_cons inside]
  by_cases more : p < pattern.length
  · rw [List.drop_eq_getElem_cons more]
    refine StarForStar.not_cons (fun same => differ ⟨more, ?_⟩) fun wild => plain ⟨more, ?_⟩
    · rw [List.getElem?_eq_getElem more, List.getElem?_eq_getElem inside, same]
    · rw [List.getElem?_eq_getElem more, wild]
  · rw [List.drop_eq_nil_of_le (Nat.le_of_not_lt more)]
    exact StarForStar.not_nil_left

theorem globLoop_iff (behind : starT ≤ t) (running : Running pattern text p t starP starT) :
    globLoop pattern text p t starP starT behind = true ↔
      LeftToMatch pattern text p t starP starT := by
  fun_induction globLoop pattern text p t starP starT behind with
  | case1 p t starP starT behind inside equal ih =>
    have same : text[t]? = some text[t] := List.getElem?_eq_getElem inside
    have read : pattern[p]? = some text[t] := equal.2.trans same
    rw [ih (running.succ read same), leftToMatch_succ read same]
  | case2 p t starP starT behind inside differ wild ih =>
    have read : pattern.drop p = '*' :: pattern.drop (p + 1) := drop_of_getElem? wild.2
    have plain : (text.drop t).head? ≠ some '*' := by
      rw [List.head?_drop]
      exact fun star => differ ⟨wild.1, wild.2.trans star.symm⟩
    rw [ih (running_star p t)]
    constructor
    · intro h
      refine leftToMatch_of_running running ?_
      rw [read]
      exact (StarForStar.star_cons plain).mpr h
    · intro h
      obtain ⟨late, later, matched⟩ := exists_of_leftToMatch running h
      rw [read] at matched
      obtain ⟨rest, after, found⟩ := StarForStar.of_star matched
      exact ⟨rest, List.IsSuffix.trans after later, found⟩
  | case3 p t starT behind inside differ plain star ih =>
    have step : text.drop starT = text[starT] :: text.drop (starT + 1) :=
      List.drop_eq_getElem_cons (Nat.lt_of_le_of_lt behind inside)
    rw [ih (running_star star (starT + 1)), LeftToMatch, LeftToMatch]
    refine exists_congr fun rest => and_congr_left fun matched => ?_
    rw [step, List.suffix_cons_iff]
    refine ⟨Or.inr, fun later => later.resolve_left ?_⟩
    -- The first attempt after the `*` is the one that has just failed.
    rintro rfl
    obtain ⟨run, read, passed⟩ := running star rfl
    rw [← step, read, passed, StarForStar.append_same] at matched
    exact not_starForStar inside differ plain matched
  | case4 p t starT behind inside differ plain =>
    exact iff_of_false Bool.noConfusion (not_starForStar inside differ plain)
  | case5 p t starP starT behind outside =>
    have ended : text.drop t = [] := List.drop_eq_nil_of_le (Nat.le_of_not_lt outside)
    have stars : ((pattern.drop p).all fun c => c = '*') = true ↔
        StarForStar '*' (pattern.drop p) [] := by
      rw [List.all_eq_true, StarForStar.nil_right]
      exact forall₂_congr fun _ _ => decide_eq_true_iff
    rw [stars]
    constructor
    · intro h
      refine leftToMatch_of_running running ?_
      rwa [ended]
    · intro h
      obtain ⟨rest, after, matched⟩ := exists_of_leftToMatch running h
      rw [ended, List.suffix_nil] at after
      rwa [after] at matched

end Loop

def slashed (path : Text) : Text := if path.head? = some '/' then path else '/' :: path

/-- A pattern that ends in `$` matches a whole path, any other one a path that begins with
what it becomes when each `*` in it is replaced by some text. -/
def PatternMatches (pattern path : Text) : Prop :=
  if pattern.getLast? = some '$' then Glob '*' pattern.dropLast (slashed path)
  else ∃ before after, slashed path = before ++ after ∧ Glob '*' pattern before

/-- The same, where a `*` in front of a `*` of the path is replaced by `*` alone. -/
def PatternTakesStars (pattern path : Text) : Prop :=
  StarForStar '*' (if pattern.getLast? = some '$' then pattern.dropLast else pattern ++ ['*'])
    (slashed path)

variable {pattern path : Text}

theorem matchesPattern_eq_true_iff :
    matchesPattern pattern path = true ↔ PatternTakesStars pattern path := by
  have start : ∀ pattern text, Running pattern text 0 0 none 0 := fun _ _ _ none => by cases none
  exact globLoop_iff (Nat.le_refl 0) (start _ _)

theorem patternMatches_iff : PatternMatches pattern path ↔
    Glob '*' (if pattern.getLast? = some '$' then pattern.dropLast else pattern ++ ['*'])
      (slashed path) := by
  rw [PatternMatches]
  split
  · rfl
  · exact glob_append_star.symm

theorem patternMatches_of_matchesPattern (h : matchesPattern pattern path = true) :
    PatternMatches pattern path :=
  patternMatches_iff.mpr (matchesPattern_eq_true_iff.mp h).glob

/-- The code answers for a pattern and a path as it should exactly when the path does not
match, or still does with each `*` that stands in front of a `*` of the path for that letter
alone. -/
theorem matchesPattern_correct_iff (pattern path : Text) :
    (matchesPattern pattern path = true ↔ PatternMatches pattern path) ↔
      (PatternMatches pattern path → PatternTakesStars pattern path) := by
  rw [matchesPattern_eq_true_iff]
  refine ⟨Iff.mpr, fun h => ⟨fun taken => ?_, h⟩⟩
  exact patternMatches_of_matchesPattern (matchesPattern_eq_true_iff.mpr taken)

/-- `*` is taken for the `*` of the path, and nothing else is tried for it. -/
theorem star_in_path_missed :
    ¬∀ pattern path, matchesPattern pattern path = true ↔ PatternMatches pattern path := by
  intro always
  have found : PatternMatches "/*a$".toList "/*ba".toList := by
    rw [patternMatches_iff]
    refine (glob_cons (by decide)).mpr ⟨"*ba".toList, rfl, glob_star.mpr ⟨"*b".toList, ['a'], rfl, ?_⟩⟩
    exact (glob_cons (by decide)).mpr ⟨[], rfl, glob_nil.mpr rfl⟩
  have taken := matchesPattern_eq_true_iff.mp ((always _ _).mpr found)
  have rest : StarForStar '*' ['*', 'a'] "*ba".toList := StarForStar.cons_same.mp taken
  have last : StarForStar '*' ['a'] "ba".toList := StarForStar.cons_same.mp rest
  exact StarForStar.not_cons (by decide) (by decide) last

end Rankuno
