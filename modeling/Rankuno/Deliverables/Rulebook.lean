import Mathlib.Data.Char
import Mathlib.Data.List.Infix
import Mathlib.Data.List.Lex
import Mathlib.Data.Prod.Lex
import Rankuno.Foundation.Precedence
import Rankuno.Python.Lower

/-!
# Rulebook verdicts

A rulebook lists rules for the path of a URL, each with the labels it assigns, and at most
one fallback row. `classify` collects the rules that match and takes one of them: an exact
rule before any other, then the longest pattern, then the greatest pattern text, then the
greatest rule type.

What `re` makes of a pattern, and `str.casefold`, are parameters. The rule taken is one of
the highest rank; `classify` depends on the order of the rows exactly where matching rows of
the highest rank carry different labels, `TiesAgree`.
-/

namespace Rankuno

open Python

/-- What the sources take from `re` and from the Unicode database. -/
structure PatternMatching where
  unicode : UnicodeData
  casefold : Text → Text
  /-- `re.compile` accepts the pattern. -/
  compiles : Text → Bool
  /-- `re.compile(pattern).search(path) is not None`. -/
  searches : Text → Text → Bool

inductive RuleType where
  | contains
  | startsWith
  | endsWith
  | exact
  | regex
  | fallback
  deriving DecidableEq

/-- The value of the `StrEnum`. -/
def RuleType.value : RuleType → Text
  | contains => "CONTAINS".toList
  | startsWith => "STARTS_WITH".toList
  | endsWith => "ENDS_WITH".toList
  | exact => "EXACT".toList
  | regex => "REGEX".toList
  | fallback => "FALLBACK".toList

theorem RuleType.value_injective : Function.Injective RuleType.value := by
  intro a b same
  cases a <;> cases b <;> first | rfl | exact absurd same (by decide)

/-- `MAX_PATTERN_LENGTH`. -/
def maxRulePatternLength : Nat := 500

/-- `MAX_NOTE_LENGTH`, of the audit contract. -/
def maxRuleNoteLength : Nat := 500

/-- The verdict on one page. -/
structure Classification where
  theme1 : Option Text := none
  theme2 : Option Text := none
  language : Option Text := none
  businessPriority : Option Text := none
  deriving DecidableEq

/-- The cells of one row. -/
structure RuleRow where
  ruleType : RuleType
  pattern : Text
  theme1 : Option Text := none
  theme2 : Option Text := none
  language : Option Text := none
  businessPriority : Option Text := none
  deriving DecidableEq

namespace RuleRow

variable (m : PatternMatching)

/-- The lengths `Rule` asks of its fields, and `_pattern_matches_rule_type`: a fallback row
has no pattern, every other row has one, and that of a `REGEX` row compiles. -/
def accepted (row : RuleRow) : Bool :=
  row.pattern.length ≤ maxRulePatternLength &&
    [row.theme1, row.theme2, row.language, row.businessPriority].all
      (fun label => label.all fun text => text.length ≤ maxRuleNoteLength) &&
    match row.ruleType with
    | .fallback => row.pattern.isEmpty
    | .regex => !row.pattern.isEmpty && m.compiles row.pattern
    | _ => !row.pattern.isEmpty

/-- `_matches`. Only the pattern of a `REGEX` row minds the case. The sources call it for no
fallback row. -/
def hits (row : RuleRow) (path : Text) : Bool :=
  match row.ruleType with
  | .regex => m.searches row.pattern path
  | .contains => (m.casefold path).tails.any fun tail => (m.casefold row.pattern).isPrefixOf tail
  | .startsWith => (m.casefold row.pattern).isPrefixOf (m.casefold path)
  | .endsWith => (m.casefold row.pattern).isSuffixOf (m.casefold path)
  | .exact | .fallback => m.casefold path = m.casefold row.pattern

/-- The labels of the row. -/
def classification (row : RuleRow) : Classification where
  theme1 := row.theme1
  theme2 := row.theme2
  language := row.language
  businessPriority := row.businessPriority

/-- The key that `max` compares the candidates by. -/
def rank (row : RuleRow) : ℕ ×ₗ Text ×ₗ Text :=
  toLex (row.pattern.length, toLex (row.pattern, row.ruleType.value))

end RuleRow

/-- A row that `Rule` accepts. -/
structure Rule (m : PatternMatching) extends RuleRow where
  valid : toRuleRow.accepted m = true

namespace Rule

variable {m : PatternMatching}

/-- A candidate for the path. -/
def matched (rule : Rule m) (path : Text) : Bool :=
  rule.ruleType ≠ .fallback && rule.hits m path

theorem rank_eq_iff {rule other : Rule m} : rule.rank = other.rank ↔
    rule.pattern = other.pattern ∧ rule.ruleType = other.ruleType := by
  simp only [RuleRow.rank, EmbeddingLike.apply_eq_iff_eq, Prod.mk.injEq,
    RuleType.value_injective.eq_iff]
  constructor
  · rintro ⟨-, pattern, type⟩
    exact ⟨pattern, type⟩
  · rintro ⟨pattern, type⟩
    exact ⟨congrArg List.length pattern, pattern, type⟩

theorem length_le_of_rank_le {rule other : Rule m} (h : rule.rank ≤ other.rank) :
    rule.pattern.length ≤ other.pattern.length := by
  obtain shorter | ⟨same, -⟩ := Prod.Lex.le_iff.mp h
  · exact shorter.le
  · exact same.le

end Rule

/-- The rows of a workbook, of which at most one is a fallback row. -/
structure Rulebook (m : PatternMatching) where
  rules : List (Rule m)
  fallbackOnce : (rules.filter fun rule => rule.ruleType = .fallback).length ≤ 1

namespace Rulebook

variable {m : PatternMatching}

section Classify

variable (book : Rulebook m)

def fallback? : Option (Rule m) := book.rules.find? fun rule => rule.ruleType = .fallback

def candidates (path : Text) : List (Rule m) := book.rules.filter fun rule => rule.matched path

/-- The candidates that `max` chooses among. -/
def pool (path : Text) : List (Rule m) :=
  let exacts := (book.candidates path).filter fun rule => rule.ruleType = .exact
  if exacts = [] then book.candidates path else exacts

/-- `winner`. -/
def winner? (path : Text) : Option (Rule m) := (book.pool path).argmax fun rule => rule.rank

/-- `OTHERS_THEME` and `PRIORITY_NOT_APPLICABLE`. -/
def unclassified : Classification where
  theme1 := some "Others".toList
  businessPriority := some "N/A".toList

/-- What stands for a path that no rule matches. -/
def unmatched : Classification :=
  match book.fallback? with
  | some rule => rule.classification
  | none => unclassified

/-- The verdict on a path. -/
def verdict (path : Text) : Classification :=
  match book.winner? path with
  | some rule => rule.classification
  | none => book.unmatched

/-- `classify`. What `urlsplit` refuses is raised. -/
def classify (url : Text) : Except Text Classification :=
  (Urllib.urlsplit m.unicode url).map fun parts => book.verdict parts.path

end Classify

/-! ### The order of the rows -/

section Order

variable (book : Rulebook m)

/-- The row wins over the other where both match: an exact one over any other, and else the
one of the higher rank. -/
def Outranks (rule other : Rule m) : Prop :=
  rule.ruleType = .exact ∧ other.ruleType ≠ .exact ∨
    (rule.ruleType = .exact ↔ other.ruleType = .exact) ∧ other.rank < rule.rank

/-- Rows with the same pattern and rule type that match the path, with no matching row to
outrank them, assign the same labels. -/
def TiesAgree (path : Text) : Prop :=
  ∀ rule ∈ book.rules, ∀ other ∈ book.rules, rule.matched path = true →
    rule.pattern = other.pattern → rule.ruleType = other.ruleType →
      (∀ higher ∈ book.rules, higher.matched path = true → ¬Outranks higher rule) →
        rule.classification = other.classification

/-- Which row is taken for a path. -/
structure TakesHighest (path : Text) : Prop where
  matched : ∀ winner, book.winner? path = some winner →
    winner ∈ book.rules ∧ winner.matched path = true
  exactFirst : ∀ winner, book.winner? path = some winner → ∀ rule ∈ book.rules,
    rule.matched path = true → rule.ruleType = .exact → winner.ruleType = .exact
  longest : ∀ winner, book.winner? path = some winner →
    (∀ rule ∈ book.rules, rule.matched path = true → rule.ruleType ≠ .exact) →
      ∀ rule ∈ book.rules, rule.matched path = true → rule.pattern.length ≤ winner.pattern.length
  unmatched : book.winner? path = none ↔ ∀ rule ∈ book.rules, rule.matched path = false

/-- The verdict on a URL is the same in every order of the rows, and that of the highest row. -/
structure OrderFree (url : Text) : Prop where
  same : ∀ other : Rulebook m, other.rules.Perm book.rules → other.classify url = book.classify url
  takes : ∀ parts, Urllib.urlsplit m.unicode url = .ok parts → book.TakesHighest parts.path

variable {book} {path : Text} {rule other : Rule m}

theorem mem_candidates : rule ∈ book.candidates path ↔
    rule ∈ book.rules ∧ rule.matched path = true :=
  List.mem_filter

theorem mem_pool : rule ∈ book.pool path ↔ rule ∈ book.rules ∧ rule.matched path = true ∧
    (rule.ruleType = .exact ∨
      ∀ other ∈ book.rules, other.matched path = true → other.ruleType ≠ .exact) := by
  simp only [pool]
  split
  · next none =>
    rw [mem_candidates]
    rw [List.filter_eq_nil_iff] at none
    constructor
    · rintro ⟨listed, hits⟩
      refine ⟨listed, hits, Or.inr fun other listed hits exact => ?_⟩
      exact none other (mem_candidates.mpr ⟨listed, hits⟩) (decide_eq_true exact)
    · rintro ⟨listed, hits, -⟩
      exact ⟨listed, hits⟩
  · next some =>
    obtain ⟨exact, mem⟩ := List.exists_mem_of_ne_nil _ some
    obtain ⟨candidate, isExact⟩ := List.mem_filter.mp mem
    rw [List.mem_filter, mem_candidates, decide_eq_true_iff, and_assoc]
    refine and_congr_right fun _ => and_congr_right fun _ => ?_
    refine (or_iff_left fun others => ?_).symm
    obtain ⟨listed, hits⟩ := mem_candidates.mp candidate
    exact others exact listed hits (of_decide_eq_true isExact)

theorem heads_pool_iff : Precedence.Heads (fun rule : Rule m => rule.rank) (book.pool path) rule ↔
    rule ∈ book.rules ∧ rule.matched path = true ∧
      ∀ higher ∈ book.rules, higher.matched path = true → ¬Outranks higher rule := by
  constructor
  · rintro ⟨mem, highest⟩
    obtain ⟨listed, hits, first⟩ := mem_pool.mp mem
    refine ⟨listed, hits, fun higher listed' hits' outranks => ?_⟩
    obtain ⟨exact, other⟩ | ⟨alike, above⟩ := outranks
    · obtain exact' | none := first
      · exact other exact'
      · exact none higher listed' hits' exact
    · refine not_le.mpr above (highest higher (mem_pool.mpr ⟨listed', hits', ?_⟩))
      exact first.imp_left alike.mpr
  · rintro ⟨listed, hits, top⟩
    have first : rule.ruleType = .exact ∨
        ∀ other ∈ book.rules, other.matched path = true → other.ruleType ≠ .exact := by
      by_cases exact : rule.ruleType = .exact
      · exact Or.inl exact
      · exact Or.inr fun other listed' hits' exact' => top other listed' hits' (Or.inl ⟨exact', exact⟩)
    refine ⟨mem_pool.mpr ⟨listed, hits, first⟩, fun other mem => not_lt.mp fun above => ?_⟩
    obtain ⟨listed', hits', first'⟩ := mem_pool.mp mem
    refine top other listed' hits' (Or.inr ⟨?_, above⟩)
    constructor
    · intro exact'
      exact first.resolve_right fun none => none other listed' hits' exact'
    · intro exact
      exact first'.resolve_right fun none => none rule listed hits exact

theorem tiesAgree_iff : book.TiesAgree path ↔ Precedence.Agree (fun rule : Rule m => rule.rank)
    (fun rule => rule.classification) (book.pool path) := by
  constructor
  · intro agree rule other top top'
    have same : rule.rank = other.rank :=
      le_antisymm (top'.highest rule top.mem) (top.highest other top'.mem)
    obtain ⟨pattern, type⟩ := Rule.rank_eq_iff.mp same
    obtain ⟨listed, hits, none⟩ := heads_pool_iff.mp top
    exact agree rule listed other (heads_pool_iff.mp top').1 hits pattern type none
  · intro agree rule listed other listed' hits pattern type none
    refine agree rule other (heads_pool_iff.mpr ⟨listed, hits, none⟩)
      (heads_pool_iff.mpr ⟨listed', ?_, fun higher listed hits above => ?_⟩)
    · rwa [Rule.matched, RuleRow.hits, ← type, ← pattern]
    · refine none higher listed hits ?_
      rwa [Outranks, type, Rule.rank_eq_iff.mpr ⟨pattern, type⟩]

variable (book) in
/-- The rules that contend for the path, in one test. -/
def contends (path : Text) (rule : Rule m) : Bool :=
  rule.matched path && (rule.ruleType = .exact ||
    !book.rules.any fun other => other.matched path && other.ruleType = .exact)

theorem pool_eq_filter : book.pool path = book.rules.filter (book.contends path) := by
  simp only [pool, candidates, List.filter_filter]
  split
  · next none =>
    refine List.filter_congr fun rule mem => ?_
    have others : (book.rules.any fun other =>
        other.matched path && other.ruleType = .exact) = false := by
      rw [List.any_eq_false]
      intro other listed hits
      rw [List.filter_eq_nil_iff] at none
      exact none other listed (Bool.and_comm _ _ ▸ hits)
    rw [contends, others, Bool.not_false, Bool.or_true, Bool.and_true]
  · next some =>
    refine List.filter_congr fun rule mem => ?_
    have others : (book.rules.any fun other =>
        other.matched path && other.ruleType = .exact) = true := by
      obtain ⟨exact, mem⟩ := List.exists_mem_of_ne_nil _ some
      obtain ⟨listed, passes⟩ := List.mem_filter.mp mem
      exact List.any_eq_true.mpr ⟨exact, listed, Bool.and_comm _ _ ▸ passes⟩
    rw [contends, others, Bool.not_true, Bool.or_false, Bool.and_comm]

theorem pool_of_perm {more : Rulebook m} (moved : more.rules.Perm book.rules) :
    more.pool path = more.rules.filter (book.contends path) := by
  rw [pool_eq_filter]
  refine List.filter_congr fun rule _ => ?_
  rw [contends, contends, List.Perm.any_eq moved]

theorem winner?_eq_none : book.winner? path = none ↔
    ∀ rule ∈ book.rules, rule.matched path = false := by
  rw [winner?, List.argmax_eq_none]
  constructor
  · intro empty rule listed
    rw [Bool.eq_false_iff]
    intro hits
    by_cases exact : rule.ruleType = .exact
    · exact List.not_mem_nil (empty ▸ mem_pool.mpr ⟨listed, hits, Or.inl exact⟩)
    · have others : ∀ other ∈ book.rules, other.matched path = true → other.ruleType ≠ .exact :=
        fun other listed hits exact =>
          List.not_mem_nil (empty ▸ mem_pool.mpr ⟨listed, hits, Or.inl exact⟩)
      exact List.not_mem_nil (empty ▸ mem_pool.mpr ⟨listed, hits, Or.inr others⟩)
  · intro none
    refine List.eq_nil_iff_forall_not_mem.mpr fun rule mem => ?_
    obtain ⟨listed, hits, -⟩ := mem_pool.mp mem
    rw [none rule listed] at hits
    cases hits

variable (book path) in
theorem takesHighest : book.TakesHighest path where
  matched winner taken := by
    obtain ⟨listed, hits, -⟩ := mem_pool.mp (List.argmax_mem taken)
    exact ⟨listed, hits⟩
  exactFirst winner taken rule listed hits exact := by
    obtain ⟨-, -, first⟩ := mem_pool.mp (List.argmax_mem taken)
    exact first.resolve_right fun none => none rule listed hits exact
  longest winner taken none rule listed hits :=
    Rule.length_le_of_rank_le
      (List.le_of_mem_argmax (mem_pool.mpr ⟨listed, hits, Or.inr none⟩) taken :)
  unmatched := winner?_eq_none

theorem fallback?_of_perm {more : Rulebook m} (moved : more.rules.Perm book.rules) :
    more.fallback? = book.fallback? := by
  have filtered := moved.filter fun rule => rule.ruleType = .fallback
  have once := book.fallbackOnce
  rw [fallback?, fallback?, ← List.head?_filter, ← List.head?_filter]
  cases rows : book.rules.filter fun rule => rule.ruleType = .fallback with
  | nil =>
    rw [rows] at filtered
    rw [filtered.eq_nil]
  | cons row rest =>
    rw [rows, List.length_cons] at once
    obtain rfl := List.length_eq_zero_iff.mp (Nat.le_zero.mp (Nat.le_of_succ_le_succ once))
    rw [rows] at filtered
    rw [List.perm_singleton.mp filtered]

/-- The rows in another order. -/
def reordered (book : Rulebook m) {rules : List (Rule m)} (moved : book.rules.Perm rules) :
    Rulebook m where
  rules := rules
  fallbackOnce := (moved.filter _).length_eq ▸ book.fallbackOnce

theorem verdict_eq : book.verdict path =
    ((book.winner? path).map fun rule => rule.classification).getD book.unmatched := by
  rw [verdict]
  cases book.winner? path with
  | none => rfl
  | some rule => rfl

theorem forall_verdict_iff :
    (∀ more : Rulebook m, more.rules.Perm book.rules → more.verdict path = book.verdict path) ↔
      book.TiesAgree path := by
  rw [tiesAgree_iff, pool_eq_filter, ← Precedence.forall_perm_iff]
  constructor
  · intro same rules moved
    have others := same (book.reordered moved) moved.symm
    have pool : (book.reordered moved).pool path = rules.filter (book.contends path) :=
      pool_of_perm moved.symm
    have filtered := moved.filter (book.contends path)
    rw [verdict_eq, verdict_eq, winner?, winner?, pool, pool_eq_filter] at others
    cases taken : (book.rules.filter (book.contends path)).argmax fun rule => rule.rank with
    | none =>
      rw [List.argmax_eq_none] at taken
      rw [taken] at filtered
      rw [filtered.symm.eq_nil]
      rfl
    | some rule =>
      have listed : rules.filter (book.contends path) ≠ [] :=
        List.ne_nil_of_mem (filtered.mem_iff.mp (List.argmax_mem taken))
      obtain ⟨other, taken'⟩ :=
        Precedence.argmax_isSome (fun rule : Rule m => rule.rank) listed
      rw [taken'] at others ⊢
      rw [taken] at others
      exact congrArg some others
  · intro same more moved
    rw [verdict_eq, verdict_eq, unmatched, unmatched, fallback?_of_perm moved, winner?, winner?,
      pool_of_perm moved, pool_eq_filter, same more.rules moved.symm]

/-- **The order of the rows decides nothing exactly where tied rows agree.** -/
theorem orderFree_iff (book : Rulebook m) (url : Text) : book.OrderFree url ↔
    ∀ parts, Urllib.urlsplit m.unicode url = .ok parts → book.TiesAgree parts.path := by
  constructor
  · rintro ⟨same, -⟩ parts read
    refine forall_verdict_iff.mp fun more moved => ?_
    have verdicts := same more moved
    rw [classify, classify, read] at verdicts
    exact Except.ok.inj verdicts
  · intro agree
    refine ⟨fun more moved => ?_, fun parts _ => takesHighest book parts.path⟩
    rw [classify, classify]
    cases read : Urllib.urlsplit m.unicode url with
    | error message => rfl
    | ok parts => exact congrArg Except.ok (forall_verdict_iff.mpr (agree parts read) more moved)

section Tied

/-- ASCII text, and no regular expression compiles. -/
def asciiPatterns : PatternMatching where
  unicode := .ascii
  casefold s := s.map Char.toLower
  compiles _ := false
  searches _ _ := false

/-- A `CONTAINS` row for `/blog` with this theme. -/
def blogRow (theme : String) : RuleRow where
  ruleType := .contains
  pattern := "/blog".toList
  theme1 := some theme.toList

theorem accepted_blogRow_articles : (blogRow "Articles").accepted asciiPatterns = true := by decide

theorem accepted_blogRow_news : (blogRow "News").accepted asciiPatterns = true := by decide

def articlesRule : Rule asciiPatterns := ⟨blogRow "Articles", accepted_blogRow_articles⟩

def newsRule : Rule asciiPatterns := ⟨blogRow "News", accepted_blogRow_news⟩

theorem fallbackOnce_blogRows :
    ([articlesRule, newsRule].filter fun rule => rule.ruleType = .fallback).length ≤ 1 := by
  decide

/-- The same pattern and rule type twice, with other themes. -/
def blogRulebook : Rulebook asciiPatterns := ⟨[articlesRule, newsRule], fallbackOnce_blogRows⟩

theorem blogRulebook_swapped : blogRulebook.rules.Perm [newsRule, articlesRule] := .swap _ _ []

/-- **The first of two tied rows is taken.** -/
theorem not_orderFree_tied : ¬∀ (m : PatternMatching) (book : Rulebook m) (url : Text),
    book.OrderFree url := by
  intro always
  have same := (always _ blogRulebook "https://example.com/blog/a".toList).same
    (blogRulebook.reordered blogRulebook_swapped) blogRulebook_swapped.symm
  have articles : blogRulebook.classify "https://example.com/blog/a".toList =
      .ok { theme1 := some "Articles".toList } := by decide
  have news : (blogRulebook.reordered blogRulebook_swapped).classify
      "https://example.com/blog/a".toList = .ok { theme1 := some "News".toList } := by decide
  rw [articles, news] at same
  exact absurd (Except.ok.inj same) (by decide)

end Tied

end Order

end Rulebook

end Rankuno
