import Rankuno.UrlFilter.Patterns

/-!
# What wildcard patterns match

A wildcard pattern is made into a regular expression by replacing its stars, and what else it
has is left as it is. Where no other character but a dot is special to `re`, the expression has
one part for each sign of the pattern. It matches what the pattern means, and also what has
another character for a dot; and the expression of a pattern with `**` may be followed by
anything.
-/

namespace Rankuno.UrlFilters

open Python Python.Text TokenPattern

/-! ### What a pattern means -/

/-- A sign of a wildcard pattern. -/
inductive Sign where
  | char (c : Char)
  | star
  | stars
  deriving DecidableEq

/-- The signs of a pattern, the longest first. -/
def signs : Text → List Sign
  | [] => []
  | [c] => [if c = '*' then .star else .char c]
  | c :: d :: rest =>
    if c = '*' ∧ d = '*' then .stars :: signs rest
    else (if c = '*' then .star else .char c) :: signs (d :: rest)

/-- `**` stands for any text, `*` for any text without a slash, and every other character for
itself. -/
def Sign.meaning (same : Char → Char → Bool) : Sign → Token Char
  | char c => .one (same c)
  | star => .many fun c => c ≠ '/'
  | stars => .many fun _ => true

/-- The path matches the pattern as it is written. -/
def MatchesAsWritten (regexes : Regexes) (path pattern : Text) : Prop :=
  Matches ((signs pattern).map (Sign.meaning regexes.same)) path

/-- The same, where a dot stands for any character. -/
def Sign.looseMeaning (same : Char → Char → Bool) (sign : Sign) : Token Char :=
  if sign = .char '.' then .one fun _ => true else sign.meaning same

/-- The path matches the pattern with any characters for its dots. -/
def MatchesLoosely (regexes : Regexes) (path pattern : Text) : Prop :=
  Matches ((signs pattern).map (Sign.looseMeaning regexes.same)) path

/-- The path lies below another one. Everything lies below the root. -/
def LiesBelow (path outer : Text) : Prop :=
  outer = ['/'] ∨ outer ++ ['/'] <+: path ∨ outer.getLast? = some '/' ∧ outer <+: path

/-- What a wildcard pattern means, ignoring case. -/
def Meant (regexes : Regexes) (path pattern : Text) : Prop :=
  if '*' ∈ pattern then MatchesAsWritten regexes path pattern
  else
    regexes.lower path = regexes.lower pattern ∨
      LiesBelow (regexes.lower path) (regexes.lower pattern)

/-- No character but the stars and dots is special. -/
def isPlain : Text → Bool
  | [] => true
  | c :: rest => (c = '*' || c = '.' || isLiteral c rest) && isPlain rest

/-- A pattern with stars has no special character beside them and its dots, nor the
placeholder's mark where that is used, and the path has one line. -/
structure Readable (path pattern : Text) : Prop where
  plain : isPlain pattern = true
  marked : containsText doubleStar pattern = true → '\x00' ∉ pattern
  line : '\n' ∉ path

/-- A path that matches a pattern with other characters for its dots, or begins with what matches
one with `**`, matches it as it is written. A path below a pattern that ends with a slash goes
on with a slash. -/
def KeepsTo (regexes : Regexes) (path pattern : Text) : Prop :=
  if '*' ∈ pattern then
    ∀ before, before <+: path → (containsText doubleStar pattern = false → before = path) →
      MatchesLoosely regexes before pattern → MatchesAsWritten regexes path pattern
  else
    (regexes.lower pattern).getLast? = some '/' → regexes.lower pattern <+: regexes.lower path →
        regexes.lower path = regexes.lower pattern ∨ regexes.lower pattern = ['/'] ∨
          regexes.lower pattern ++ ['/'] <+: regexes.lower path

section Replace

variable {old new s u : Text} {c o : Char} {n : Nat}

theorem replaceFrom_length : replaceFrom old new u.length (u ++ s) = replaceFrom old new 0 s := by
  induction u with
  | nil => rfl
  | cons c u ih => exact ih

theorem replace_append_self : replace (o :: old) new (o :: old ++ s) =
    new ++ replace (o :: old) new s := by
  have found : (o :: old).isPrefixOf (o :: (old ++ s)) = true :=
    List.isPrefixOf_iff_prefix.mpr (List.prefix_append _ s)
  rw [replace, List.cons_append, replaceFrom, if_pos found]
  exact congrArg (new ++ ·) replaceFrom_length

theorem replace_cons (other : (o :: old).isPrefixOf (c :: s) = false) :
    replace (o :: old) new (c :: s) = c :: replace (o :: old) new s := by
  rw [replace, replaceFrom, other, if_neg Bool.false_ne_true]
  rfl

theorem isPrefixOf_of_ne (other : c ≠ o) : (o :: old).isPrefixOf (c :: s) = false := by
  rw [List.isPrefixOf, beq_false_of_ne other.symm, Bool.false_and]

theorem replace_append (others : ∀ c ∈ u, c ≠ o) :
    replace (o :: old) new (u ++ s) = u ++ replace (o :: old) new s := by
  induction u with
  | nil => rfl
  | cons c u ih =>
    obtain ⟨other, others⟩ := List.forall_mem_cons.mp others
    rw [List.cons_append, replace_cons (isPrefixOf_of_ne other), ih others, List.cons_append]

end Replace

/-- The text of a sign, where the stars have been replaced. -/
def Sign.text (star stars : Text) : Sign → Text
  | char c => [c]
  | .star => star
  | .stars => stars

section Signs

variable {pattern rest star stars new : Text} {c d o : Char} {old : Text} {sign : Sign}
  {list : List Sign}

theorem signs_cons (other : c ≠ '*') : signs (c :: rest) = .char c :: signs rest := by
  cases rest with
  | nil => simp [signs, other]
  | cons d rest => rw [signs, if_neg fun both => other both.1, if_neg other]

theorem signs_star (other : rest.head? ≠ some '*') : signs ('*' :: rest) = .star :: signs rest := by
  cases rest with
  | nil => rfl
  | cons d rest =>
    have differs : d ≠ '*' := fun same => other (congrArg some same)
    rw [signs, if_neg fun both => differs both.2, if_pos rfl]

theorem signs_stars : signs ('*' :: '*' :: rest) = .stars :: signs rest := by
  rw [signs, if_pos ⟨rfl, rfl⟩]

theorem sign_cases {motive : Text → Prop} (nil : motive [])
    (char : ∀ c rest, c ≠ '*' → motive rest → motive (c :: rest))
    (star : ∀ rest, rest.head? ≠ some '*' → motive rest → motive ('*' :: rest))
    (stars : ∀ rest, motive rest → motive ('*' :: '*' :: rest)) (pattern : Text) :
    motive pattern := by
  induction pattern using signs.induct with
  | case1 => exact nil
  | case2 c =>
    by_cases same : c = '*'
    · rw [same]
      exact star [] (fun never => by cases never) nil
    · exact char c [] same nil
  | case3 c d rest both ih =>
    rw [both.1, both.2]
    exact stars rest ih
  | case4 c d rest differs ih =>
    by_cases same : c = '*'
    · rw [same] at differs ⊢
      exact star (d :: rest) (fun second => differs ⟨rfl, Option.some.inj second⟩) ih
    · exact char c (d :: rest) same ih

/-- The text of a pattern whose stars have been replaced. -/
def render (star stars pattern : Text) : Text := (signs pattern).flatMap (Sign.text star stars)

theorem render_cons (other : c ≠ '*') :
    render star stars (c :: rest) = c :: render star stars rest := by
  rw [render, signs_cons other]
  rfl

theorem render_star (other : rest.head? ≠ some '*') :
    render star stars ('*' :: rest) = star ++ render star stars rest := by
  rw [render, signs_star other, List.flatMap_cons]
  rfl

theorem render_stars :
    render star stars ('*' :: '*' :: rest) = stars ++ render star stars rest := by
  rw [render, signs_stars, List.flatMap_cons]
  rfl

theorem replace_doubleStar : replace doubleStar new pattern = render ['*'] new pattern := by
  have both : doubleStar = ['*', '*'] := rfl
  rw [both]
  induction pattern using sign_cases with
  | nil => rfl
  | char c rest other ih =>
    rw [render_cons other, ← ih]
    exact replace_cons (isPrefixOf_of_ne other)
  | star rest other ih =>
    rw [render_star other, ← ih]
    refine replace_cons ?_
    cases rest with
    | nil => rfl
    | cons d rest =>
      have differs : d ≠ '*' := fun same => other (congrArg some same)
      rw [List.isPrefixOf, isPrefixOf_of_ne differs, Bool.and_false]
  | stars rest ih =>
    rw [render_stars, ← ih]
    exact replace_append_self

theorem replace_star (kept : '*' ∉ stars) :
    replace ['*'] new (render ['*'] stars pattern) = render new stars pattern := by
  have kept : ∀ c ∈ stars, c ≠ '*' := fun c listed same => kept (same ▸ listed)
  induction pattern using sign_cases with
  | nil => rfl
  | char c rest other ih =>
    rw [render_cons other, render_cons other, replace_cons (isPrefixOf_of_ne other), ih]
  | star rest other ih =>
    rw [render_star other, render_star other, replace_append_self, ih]
  | stars rest ih =>
    rw [render_stars, render_stars, replace_append kept, ih]

theorem replace_placeholder (unmarked : '\x00' ∉ pattern) (kept : '\x00' ∉ star) :
    replace placeholder new (render star placeholder pattern) = render star new pattern := by
  have kept : ∀ c ∈ star, c ≠ '\x00' := fun c listed same => kept (same ▸ listed)
  induction pattern using sign_cases with
  | nil => rfl
  | char c rest other ih =>
    rw [List.mem_cons, not_or] at unmarked
    rw [render_cons other, render_cons other, ← ih unmarked.2]
    exact replace_cons (isPrefixOf_of_ne (Ne.symm unmarked.1))
  | star rest other ih =>
    rw [List.mem_cons, not_or] at unmarked
    rw [render_star other, render_star other, ← ih unmarked.2]
    exact replace_append kept
  | stars rest ih =>
    simp only [List.mem_cons, not_or] at unmarked
    rw [render_stars, render_stars, ← ih unmarked.2.2]
    exact replace_append_self

/-- What a pattern with `**` is compiled from. -/
theorem recursiveExpression_eq (unmarked : '\x00' ∉ pattern) :
    recursiveExpression pattern = '^' :: render segmentText lineText pattern := by
  rw [recursiveExpression, replace_doubleStar, replace_star (by decide),
    replace_placeholder unmarked (by decide)]

theorem containsText_cons {needle : Text} (contained : containsText needle rest = true) :
    containsText needle (c :: rest) = true := by
  obtain ⟨tail, listed, begins⟩ := List.any_eq_true.mp contained
  refine List.any_eq_true.mpr ⟨tail, ?_, begins⟩
  rw [List.tails_cons]
  exact List.mem_cons_of_mem _ listed

/-- Without `**` it does not matter what that would be replaced by. -/
theorem render_congr (single : containsText doubleStar pattern = false) (other : Text) :
    render star stars pattern = render star other pattern := by
  induction pattern using sign_cases with
  | nil => rfl
  | char c rest differs ih =>
    have single : containsText doubleStar rest = false :=
      Bool.eq_false_iff.mpr fun contained =>
        Bool.eq_false_iff.mp single (containsText_cons contained)
    rw [render_cons differs, render_cons differs, ih single]
  | star rest differs ih =>
    have single : containsText doubleStar rest = false :=
      Bool.eq_false_iff.mpr fun contained =>
        Bool.eq_false_iff.mp single (containsText_cons contained)
    rw [render_star differs, render_star differs, ih single]
  | stars rest ih =>
    have found : containsText doubleStar ('*' :: '*' :: rest) = true := by
      refine List.any_eq_true.mpr ⟨'*' :: '*' :: rest, ?_, ?_⟩
      · exact (List.mem_tails _ _).mpr (List.suffix_refl _)
      · exact List.isPrefixOf_iff_prefix.mpr (List.prefix_append doubleStar rest)
    rw [found] at single
    cases single

theorem render_self : render ['*'] doubleStar pattern = pattern := by
  induction pattern using sign_cases with
  | nil => rfl
  | char c rest differs ih => rw [render_cons differs, ih]
  | star rest differs ih => rw [render_star differs, ih]; rfl
  | stars rest ih => rw [render_stars, ih]; rfl

theorem segmentExpression_eq (single : containsText doubleStar pattern = false) :
    segmentExpression pattern = '^' :: (render segmentText lineText pattern ++ ['$']) := by
  have read : pattern = render ['*'] placeholder pattern := by
    rw [render_congr single doubleStar, render_self]
  rw [segmentExpression]
  conv => lhs; rw [read]
  rw [replace_star (by decide), render_congr single lineText]

/-! ### Reading the expression -/

/-- The part of an expression that a sign becomes. -/
def Sign.piece : Sign → Piece
  | char c => if c = '.' then .any else .char c
  | .star => .segment
  | .stars => .line

theorem readPieces_segment {s : Text} : readPieces 0 (segmentText ++ s) =
    (readPieces 0 s).map fun read => (.segment :: read.1, read.2) := rfl

theorem readPieces_line {s : Text} : readPieces 0 (lineText ++ s) =
    (readPieces 0 s).map fun read => (.line :: read.1, read.2) := rfl

theorem readPieces_dot {s : Text} (last : s.head? ≠ some '*') : readPieces 0 ('.' :: s) =
    (readPieces 0 s).map fun read => (.any :: read.1, read.2) := by
  have line : lineText.isPrefixOf ('.' :: s) = false := by
    cases s with
    | nil => rfl
    | cons d s =>
      have differs : d ≠ '*' := fun same => last (congrArg some same)
      have both : lineText = ['.', '*'] := rfl
      rw [both, List.isPrefixOf, isPrefixOf_of_ne differs, Bool.and_false]
  have bracket : segmentText.isPrefixOf ('.' :: s) = false := isPrefixOf_of_ne (by decide)
  rw [readPieces, bracket, line, if_neg Bool.false_ne_true, if_neg Bool.false_ne_true, if_pos rfl]

theorem not_special {s : Text} (literal : isLiteral c s = true) : c ∉ specials := by
  intro listed
  rw [isLiteral, Bool.and_eq_true, Bool.not_eq_true', List.any_eq_false] at literal
  exact literal.1 c listed (decide_eq_true rfl)

theorem readPieces_char {s : Text} (literal : isLiteral c s = true) :
    readPieces 0 (c :: s) = (readPieces 0 s).map fun read => (.char c :: read.1, read.2) := by
  have special := not_special literal
  have other {d : Char} (listed : d ∈ specials) : c ≠ d := fun same => special (same ▸ listed)
  have bracket : segmentText.isPrefixOf (c :: s) = false :=
    isPrefixOf_of_ne (other (d := '[') (by decide))
  have dot : lineText.isPrefixOf (c :: s) = false :=
    isPrefixOf_of_ne (other (d := '.') (by decide))
  rw [readPieces, bracket, dot, if_neg Bool.false_ne_true, if_neg Bool.false_ne_true,
    if_neg (other (by decide)), if_neg fun both => other (by decide) both.1, if_pos literal]

/-- What follows a wildcard pattern in its expression. -/
def ending (ended : Bool) : Text := if ended then ['$'] else []

variable {ended : Bool}

theorem dropWhile_render :
    (render segmentText lineText pattern ++ ending ended).dropWhile isAsciiDigit =
      render segmentText lineText (pattern.dropWhile isAsciiDigit) ++ ending ended := by
  induction pattern using sign_cases with
  | nil => cases ended <;> rfl
  | char c rest other ih =>
    rw [render_cons other, List.cons_append, List.dropWhile_cons, List.dropWhile_cons]
    split
    · exact ih
    · rw [render_cons other, List.cons_append]
  | star rest other ih =>
    rw [List.dropWhile_cons_of_neg (by decide), render_star other]
    rfl
  | stars rest ih =>
    rw [List.dropWhile_cons_of_neg (by decide), render_stars]
    rfl

theorem head?_render {ended : Bool} (p : Char → Bool) (star_ : p '*' = false) (dot : p '.' = false)
    (bracket : p '[' = false) (dollar : p '$' = false) :
    (render segmentText lineText pattern ++ ending ended).head?.any p = pattern.head?.any p := by
  induction pattern using sign_cases with
  | nil =>
    cases ended with
    | true => exact dollar
    | false => rfl
  | char c rest other ih => rw [render_cons other]; rfl
  | star rest other ih =>
    rw [render_star other]
    exact bracket.trans star_.symm
  | stars rest ih =>
    rw [render_stars]
    exact dot.trans star_.symm

theorem opensRepeat_render :
    opensRepeat (render segmentText lineText pattern ++ ending ended) = opensRepeat pattern := by
  rw [opensRepeat, opensRepeat, dropWhile_render,
    head?_render isAsciiDigit (by decide) (by decide) (by decide) (by decide)]
  generalize pattern.dropWhile isAsciiDigit = later
  induction later using sign_cases with
  | nil => cases ended <;> rfl
  | char c rest other ih =>
    rw [render_cons other, List.cons_append]
    dsimp only
    rw [dropWhile_render,
      head?_render (fun c => c = '}') (by decide) (by decide) (by decide) (by decide)]
  | star rest other ih => rw [render_star other]; rfl
  | stars rest ih => rw [render_stars]; rfl

theorem head?_render_ne_star :
    (render segmentText lineText pattern ++ ending ended).head? ≠ some '*' := by
  induction pattern using sign_cases with
  | nil => cases ended <;> decide
  | char c rest other ih =>
    rw [render_cons other]
    exact fun same => other (Option.some.inj same)
  | star rest other ih =>
    rw [render_star other]
    exact fun same => absurd (Option.some.inj same) (by decide)
  | stars rest ih =>
    rw [render_stars]
    exact fun same => absurd (Option.some.inj same) (by decide)

theorem isLiteral_render :
    isLiteral c (render segmentText lineText pattern ++ ending ended) = isLiteral c pattern := by
  rw [isLiteral, opensRepeat_render, isLiteral]

theorem readPieces_render (plain : isPlain pattern = true) :
    readPieces 0 (render segmentText lineText pattern ++ ending ended) =
      some ((signs pattern).map Sign.piece, ended) := by
  induction pattern using sign_cases with
  | nil => cases ended <;> rfl
  | char c rest other ih =>
    rw [isPlain, decide_eq_false other, Bool.false_or, Bool.and_eq_true] at plain
    have rest_ := ih plain.2
    rw [render_cons other, List.cons_append, signs_cons other, List.map_cons, Sign.piece]
    by_cases dot : c = '.'
    · rw [dot, readPieces_dot head?_render_ne_star, rest_, if_pos rfl]
      rfl
    · rw [decide_eq_false dot, Bool.false_or] at plain
      rw [readPieces_char (isLiteral_render.trans plain.1), rest_, if_neg dot]
      rfl
  | star rest other ih =>
    rw [isPlain, Bool.and_eq_true] at plain
    rw [render_star other, List.append_assoc, readPieces_segment, ih plain.2, signs_star other]
    rfl
  | stars rest ih =>
    rw [isPlain, isPlain, Bool.and_eq_true, Bool.and_eq_true] at plain
    rw [render_stars, List.append_assoc, readPieces_line, ih plain.2.2, signs_stars]
    rfl

theorem matches_pieces_iff {same : Char → Char → Bool} {path before : Text}
    (line : '\n' ∉ path) (part : before ⊆ path) :
    Matches (((signs pattern).map Sign.piece).map (Piece.token same)) before ↔
      Matches ((signs pattern).map (Sign.looseMeaning same)) before := by
  have plain (c : Char) (listed : c ∈ path) : decide (c ≠ '\n') = true :=
    decide_eq_true fun newline => line (newline ▸ listed)
  rw [List.map_map]
  constructor
  · refine fun matched => matched.map part fun sign _ => ?_
    cases sign with
    | char c =>
      rw [Function.comp_apply, Sign.piece, Sign.looseMeaning]
      by_cases dot : c = '.'
      · rw [if_pos dot, if_pos (congrArg Sign.char dot)]
        exact .one fun _ _ _ => rfl
      · rw [if_neg dot, if_neg fun same => dot (Sign.char.inj same)]
        exact .one fun _ _ own => own
    | star => exact .many fun _ _ own => own
    | stars => exact .many fun _ _ _ => rfl
  · refine fun matched => matched.map part fun sign _ => ?_
    cases sign with
    | char c =>
      rw [Function.comp_apply, Sign.piece, Sign.looseMeaning]
      by_cases dot : c = '.'
      · rw [if_pos dot, if_pos (congrArg Sign.char dot)]
        exact .one fun d listed _ => plain d listed
      · rw [if_neg dot, if_neg fun same => dot (Sign.char.inj same)]
        exact .one fun _ _ own => own
    | star => exact .many fun _ _ own => own
    | stars => exact .many fun d listed _ => plain d listed

end Signs

/-! ### The verdict -/

section Verdict

variable {regexes : Regexes} {path pattern : Text}

theorem matchesExpression_render {ended : Bool} (plain : isPlain pattern = true) :
    matchesExpression regexes ('^' :: (render segmentText lineText pattern ++ ending ended)) path =
      accepts (if ended then atEnd else fun _ => true)
        (((signs pattern).map Sign.piece).map (Piece.token regexes.same)) path := by
  rw [matchesExpression, compileMatch, if_pos rfl, readPieces_render plain]
  rfl

theorem any_star_iff : (pattern.any fun c => c = '*') = true ↔ '*' ∈ pattern := by
  rw [List.any_eq_true]
  constructor
  · rintro ⟨c, listed, same⟩
    exact of_decide_eq_true same ▸ listed
  · exact fun listed => ⟨'*', listed, decide_eq_true rfl⟩

theorem star_mem_of_containsText (contained : containsText doubleStar pattern = true) :
    '*' ∈ pattern := by
  obtain ⟨tail, listed, begins⟩ := List.any_eq_true.mp contained
  have within : doubleStar ⊆ tail := (List.isPrefixOf_iff_prefix.mp begins).subset
  exact ((List.mem_tails _ _).mp listed).subset (within (by decide))

theorem MatchesAsWritten.loosely (matched : MatchesAsWritten regexes path pattern) :
    MatchesLoosely regexes path pattern := by
  refine matched.map (List.Subset.refl _) fun sign _ => ?_
  rw [Sign.looseMeaning]
  split
  · next dot =>
      rw [dot]
      exact .one fun _ _ _ => rfl
  · cases sign with
    | char c => exact .one fun _ _ own => own
    | star => exact .many fun _ _ own => own
    | stars => exact .many fun _ _ own => own

/-- A pattern with `**` matches what begins as it loosely means. -/
theorem recursive_iff (readable : Readable path pattern)
    (contained : containsText doubleStar pattern = true) :
    wildcardMatch regexes path pattern = true ↔
      ∃ before, before <+: path ∧ MatchesLoosely regexes before pattern := by
  have expression : recursiveExpression pattern =
      '^' :: (render segmentText lineText pattern ++ ending false) := by
    rw [recursiveExpression_eq (readable.marked contained), ending, if_neg Bool.false_ne_true,
      List.append_nil]
  rw [wildcardMatch, if_pos contained, expression, matchesExpression_render readable.plain,
    if_neg Bool.false_ne_true, accepts_true_iff]
  refine exists_congr fun before => and_congr_right fun begins => ?_
  exact matches_pieces_iff readable.line begins.subset

theorem segment_iff (readable : Readable path pattern) (starred : '*' ∈ pattern)
    (single : containsText doubleStar pattern = false) :
    wildcardMatch regexes path pattern = true ↔ MatchesLoosely regexes path pattern := by
  have expression : segmentExpression pattern =
      '^' :: (render segmentText lineText pattern ++ ending true) := segmentExpression_eq single
  rw [wildcardMatch, single, if_neg Bool.false_ne_true, if_pos (any_star_iff.mpr starred),
    expression, matchesExpression_render readable.plain, if_pos rfl, accepts_iff]
  constructor
  · rintro ⟨before, rest, rfl, matched, last⟩
    rcases of_decide_eq_true last with rfl | rfl
    · rw [List.append_nil] at readable ⊢
      exact (matches_pieces_iff readable.line (List.Subset.refl _)).mp matched
    · exact absurd (List.mem_append_right _ List.mem_cons_self) readable.line
  · intro meant
    exact ⟨path, [], (List.append_nil _).symm,
      (matches_pieces_iff readable.line (List.Subset.refl _)).mpr meant, rfl⟩

theorem starred_iff (readable : Readable path pattern) (starred : '*' ∈ pattern) :
    wildcardMatch regexes path pattern = true ↔ ∃ before, before <+: path ∧
      (containsText doubleStar pattern = false → before = path) ∧
        MatchesLoosely regexes before pattern := by
  cases contained : containsText doubleStar pattern with
  | true =>
    rw [recursive_iff readable contained]
    constructor
    · rintro ⟨before, begins, matched⟩
      exact ⟨before, begins, fun never => Bool.noConfusion never, matched⟩
    · rintro ⟨before, begins, -, matched⟩
      exact ⟨before, begins, matched⟩
  | false =>
    rw [segment_iff readable starred contained]
    constructor
    · exact fun matched => ⟨path, List.prefix_refl _, fun _ => rfl, matched⟩
    · rintro ⟨before, -, whole, matched⟩
      exact whole rfl ▸ matched

theorem starless_iff (starless : '*' ∉ pattern) : wildcardMatch regexes path pattern = true ↔
      regexes.lower path = regexes.lower pattern ∨ regexes.lower pattern = ['/'] ∨
        regexes.lower pattern ++ ['/'] <+: regexes.lower path := by
  have single : containsText doubleStar pattern = false :=
    Bool.eq_false_iff.mpr fun contained => starless (star_mem_of_containsText contained)
  have none_ : (pattern.any fun c => c = '*') = false :=
    Bool.eq_false_iff.mpr fun starred => starless (any_star_iff.mp starred)
  rw [wildcardMatch, single, none_, if_neg Bool.false_ne_true, if_neg Bool.false_ne_true,
    ← List.isPrefixOf_iff_prefix]
  by_cases same : regexes.lower path = regexes.lower pattern
  · simp [same]
  · by_cases root : regexes.lower pattern = ['/']
    · simp [root]
    · simp [same, root]

/-- A readable pattern matches what it means exactly on the paths that keep to it. -/
theorem wildcardMatch_iff_meant (regexes : Regexes) (path pattern : Text)
    (readable : '*' ∈ pattern → Readable path pattern) :
    (wildcardMatch regexes path pattern = true ↔ Meant regexes path pattern) ↔
      KeepsTo regexes path pattern := by
  rw [Meant, KeepsTo]
  by_cases starred : '*' ∈ pattern
  · rw [if_pos starred, if_pos starred, starred_iff (readable starred) starred]
    constructor
    · exact fun same before begins whole matched => same.mp ⟨before, begins, whole, matched⟩
    · intro keeps
      constructor
      · rintro ⟨before, begins, whole, matched⟩
        exact keeps before begins whole matched
      · exact fun matched => ⟨path, List.prefix_refl _, fun _ => rfl, matched.loosely⟩
  · rw [if_neg starred, if_neg starred, starless_iff starred, LiesBelow]
    constructor
    · intro same slash below
      exact same.mpr (Or.inr (Or.inr (Or.inr ⟨slash, below⟩)))
    · intro keeps
      constructor
      · rintro (same | root | below)
        · exact Or.inl same
        · exact Or.inr (Or.inl root)
        · exact Or.inr (Or.inr (Or.inl below))
      · rintro (same | root | below | ⟨slash, below⟩)
        · exact Or.inl same
        · exact Or.inr (Or.inl root)
        · exact Or.inr (Or.inr below)
        · exact keeps slash below

/-- ASCII letters, and no expression beyond the fragment. -/
def asciiRegexes : Regexes where
  lower := List.map Char.toLower
  same c d := c.toLower = d.toLower
  other _ := none
  search _ := none

theorem matchesAsWritten_iff : MatchesAsWritten regexes path pattern ↔
    accepts List.isEmpty ((signs pattern).map (Sign.meaning regexes.same)) path = true :=
  accepts_isEmpty_iff.symm

theorem meant_blog_post : (wildcardMatch asciiRegexes "/blog/post".toList "/blog/*".toList = true ↔
        Meant asciiRegexes "/blog/post".toList "/blog/*".toList) ↔
      KeepsTo asciiRegexes "/blog/post".toList "/blog/*".toList := by
  refine wildcardMatch_iff_meant asciiRegexes "/blog/post".toList "/blog/*".toList fun _ => ?_
  exact ⟨by decide, fun contained => absurd contained (by decide), by decide⟩

/-- A dot matches another character, what follows a pattern with `**` is not looked at, and a
slash at the end of a pattern keeps what lies below it out. -/
theorem patterns_not_as_written :
    (wildcardMatch asciiRegexes "/v1x0/a".toList "/v1.0/*".toList = true ∧
        ¬Meant asciiRegexes "/v1x0/a".toList "/v1.0/*".toList) ∧
      (wildcardMatch asciiRegexes "/a/x/bc".toList "/a/**/b".toList = true ∧
        ¬Meant asciiRegexes "/a/x/bc".toList "/a/**/b".toList) ∧
      (wildcardMatch asciiRegexes "/blog/x".toList "/blog/".toList = false ∧
        Meant asciiRegexes "/blog/x".toList "/blog/".toList) := by
  refine ⟨⟨by decide, ?_⟩, ⟨by decide, ?_⟩, ⟨by decide, ?_⟩⟩
  · rw [Meant, if_pos (by decide), matchesAsWritten_iff]
    decide
  · rw [Meant, if_pos (by decide), matchesAsWritten_iff]
    decide
  · rw [Meant, if_neg (by decide)]
    exact Or.inr (Or.inr (Or.inr ⟨by decide, by decide⟩))

end Verdict

end Rankuno.UrlFilters
