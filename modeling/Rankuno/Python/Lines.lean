import Rankuno.Python.Partition

/-!
# The lines of a text

`str.splitlines` of a text whose parts are known, and how many of its lines hold
something else than whitespace.
-/

namespace Rankuno.Python.Text

open splitlines (isLineEnd)

variable {s t u : Text} {c : Char}

/-- No character of the text ends a line. -/
def OneLine (s : Text) : Prop := ∀ c ∈ s, isLineEnd c = false

instance : DecidablePred OneLine := fun s =>
  List.decidableBAll (fun c => isLineEnd c = false) s

/-- `"\r\n"`. -/
def crlf : Text := ['\r', '\n']

theorem isSpace_of_isLineEnd (h : isLineEnd c = true) : isSpace c = true := by
  simp only [isLineEnd, isSpace, Bool.or_eq_true, Bool.and_eq_true, decide_eq_true_eq] at h ⊢
  omega

/-- What is left after the character that ends a line. -/
def afterLineEnd (c : Char) (s : Text) : Text :=
  if c = '\r' ∧ s.head? = some '\n' then s.tail else s

theorem splitlines_lineEnd (ends : isLineEnd c = true) (s : Text) :
    splitlines (c :: s) = [] :: splitlines (afterLineEnd c s) := by
  by_cases both : c = '\r' ∧ s.head? = some '\n'
  · obtain ⟨rfl, first⟩ := both
    obtain ⟨rest, rfl⟩ := List.head?_eq_some_iff.mp first
    rw [splitlines]
    rfl
  · rw [afterLineEnd, if_neg both, splitlines, if_pos ends]
    rintro rest rfl rfl
    exact both ⟨rfl, rfl⟩

theorem splitlines_cons (stays : isLineEnd c = false) (s : Text) :
    splitlines (c :: s) = (c :: (splitlines s).head?.getD []) :: (splitlines s).tail := by
  rw [splitlines, if_neg (Bool.eq_false_iff.mp stays)]
  · cases splitlines s with
    | nil => rfl
    | cons line lines => rfl
  · rintro rest rfl
    cases stays

theorem splitlines_append_lineEnd (line : OneLine s) (ends : isLineEnd c = true) (t : Text) :
    splitlines (s ++ c :: t) = s :: splitlines (afterLineEnd c t) := by
  induction s with
  | nil => exact splitlines_lineEnd ends t
  | cons d s ih =>
    rw [List.cons_append, splitlines_cons (line d List.mem_cons_self),
      ih fun e mem => line e (List.mem_cons_of_mem d mem)]
    rfl

theorem splitlines_append_crlf (line : OneLine s) (t : Text) :
    splitlines (s ++ crlf ++ t) = s :: splitlines t := by
  rw [List.append_assoc]
  exact splitlines_append_lineEnd line rfl _

theorem exists_lineEnd (h : ¬OneLine s) :
    ∃ a c b, s = a ++ c :: b ∧ OneLine a ∧ isLineEnd c = true := by
  induction s with
  | nil => exact absurd (fun c mem => absurd mem List.not_mem_nil) h
  | cons d s ih =>
    cases ends : isLineEnd d with
    | true => exact ⟨[], d, s, rfl, fun c mem => absurd mem List.not_mem_nil, ends⟩
    | false =>
      have later : ¬OneLine s := by
        intro line
        refine h fun c mem => ?_
        obtain rfl | mem := List.mem_cons.mp mem
        · exact ends
        · exact line c mem
      obtain ⟨a, c, b, rfl, line, here⟩ := ih later
      refine ⟨d :: a, c, b, rfl, fun e mem => ?_, here⟩
      obtain rfl | mem := List.mem_cons.mp mem
      · exact ends
      · exact line e mem

theorem afterLineEnd_append (c : Char) (b t : Text) :
    afterLineEnd c (b ++ crlf ++ t) = afterLineEnd c b ++ crlf ++ t := by
  cases b with
  | nil =>
    rw [afterLineEnd, if_neg fun both => absurd both.2 (by decide : ¬some '\r' = some '\n'),
      afterLineEnd, if_neg fun both => absurd both.2 (by decide : ¬none = some '\n')]
  | cons d b =>
    by_cases both : c = '\r' ∧ some d = some '\n'
    · obtain ⟨rfl, same⟩ := both
      cases same
      rfl
    · have kept (t : Text) : afterLineEnd c (d :: t) = d :: t := if_neg both
      rw [kept, List.cons_append, List.cons_append, kept]

theorem length_afterLineEnd (c : Char) (b : Text) : (afterLineEnd c b).length ≤ b.length := by
  rw [afterLineEnd]
  split
  · rw [List.length_tail]
    omega
  · exact le_rfl

theorem splitlines_crlf_append (s t : Text) :
    splitlines (s ++ crlf ++ t) = splitlines (s ++ crlf) ++ splitlines t := by
  by_cases line : OneLine s
  · have alone := splitlines_append_crlf line []
    rw [List.append_nil] at alone
    rw [splitlines_append_crlf line, alone]
    rfl
  · obtain ⟨a, c, b, rfl, first, ends⟩ := exists_lineEnd line
    have alone := afterLineEnd_append c b []
    simp only [List.append_nil] at alone
    have rest := splitlines_crlf_append (afterLineEnd c b) t
    simp only [List.append_assoc, List.cons_append] at rest alone ⊢
    rw [splitlines_append_lineEnd first ends, splitlines_append_lineEnd first ends,
      ← List.append_assoc b, afterLineEnd_append, alone, List.append_assoc, rest,
      List.cons_append]
termination_by s.length
decreasing_by
  have shorter := length_afterLineEnd c b
  subst_vars
  simp only [List.length_append, List.length_cons]
  omega

theorem mem_afterLineEnd {d : Char} {b : Text} (mem : d ∈ b) (stays : isLineEnd d = false) :
    d ∈ afterLineEnd c b := by
  rw [afterLineEnd]
  split
  · next both =>
    obtain ⟨rest, rfl⟩ := List.head?_eq_some_iff.mp both.2
    obtain rfl | later := List.mem_cons.mp mem
    · cases stays
    · exact later
  · exact mem

theorem exists_mem_splitlines {d : Char} {s : Text} (mem : d ∈ s) (stays : isLineEnd d = false) :
    ∃ line ∈ splitlines (s ++ crlf), d ∈ line := by
  by_cases line : OneLine s
  · have alone := splitlines_append_crlf line []
    rw [List.append_nil] at alone
    exact ⟨s, alone ▸ List.mem_cons_self, mem⟩
  · obtain ⟨a, c, b, rfl, first, ends⟩ := exists_lineEnd line
    have apart := splitlines_append_lineEnd first ends (b ++ crlf)
    have after := afterLineEnd_append c b []
    simp only [List.append_nil] at after
    rw [List.append_assoc, List.cons_append, apart, after]
    obtain before | later := List.mem_append.mp mem
    · exact ⟨a, List.mem_cons_self, before⟩
    · obtain rfl | later := List.mem_cons.mp later
      · rw [ends] at stays
        cases stays
      · obtain ⟨line, found, inside⟩ :=
          exists_mem_splitlines (mem_afterLineEnd (c := c) later stays) stays
        exact ⟨line, List.mem_cons_of_mem a found, inside⟩
termination_by s.length
decreasing_by
  have shorter := length_afterLineEnd c b
  subst_vars
  simp only [List.length_append, List.length_cons]
  omega

/-- The lines that are not blank, stripped. -/
def filledLines (text : Text) : List Text :=
  ((splitlines text).map (strip isSpace)).filter fun line => line ≠ []

theorem filledLines_crlf_append (s t : Text) :
    filledLines (s ++ crlf ++ t) = filledLines (s ++ crlf) ++ filledLines t := by
  rw [filledLines, splitlines_crlf_append, List.map_append, List.filter_append]
  rfl

theorem splitlines_of_oneLine (line : OneLine s) (filled : s ≠ []) : splitlines s = [s] := by
  induction s with
  | nil => exact absurd rfl filled
  | cons c s ih =>
    rw [splitlines_cons (line c List.mem_cons_self)]
    cases s with
    | nil => rfl
    | cons d s =>
      rw [ih (fun e mem => line e (List.mem_cons_of_mem c mem)) (List.cons_ne_nil d s)]
      rfl

theorem filledLines_of_oneLine (line : OneLine s) (filled : s ≠ [])
    (stripped : strip isSpace s = s) : filledLines (s ++ crlf) = [s] := by
  have alone := splitlines_append_crlf line []
  rw [List.append_nil] at alone
  rw [filledLines, alone, splitlines, List.map_cons, List.map_nil, stripped,
    List.filter_cons_of_pos (by simpa using filled), List.filter_nil]

theorem filledLines_ne_nil {d : Char} (mem : d ∈ s) (stays : isSpace d = false) :
    filledLines (s ++ crlf) ≠ [] := by
  have inLine : isLineEnd d = false := by
    rw [Bool.eq_false_iff]
    intro ends
    rw [isSpace_of_isLineEnd ends] at stays
    cases stays
  obtain ⟨line, found, inside⟩ := exists_mem_splitlines mem inLine
  have kept : d ∈ strip isSpace line := mem_strip inside stays
  refine List.ne_nil_of_mem (List.mem_filter.mpr ⟨List.mem_map_of_mem found, ?_⟩)
  exact decide_eq_true (List.ne_nil_of_mem kept)

theorem one_lt_filledLines (broken : ¬OneLine s) (stripped : strip isSpace s = s) :
    1 < (filledLines (s ++ crlf)).length := by
  obtain ⟨a, c, b, rfl, first, ends⟩ := exists_lineEnd broken
  have space := isSpace_of_isLineEnd ends
  have apart := splitlines_append_lineEnd first ends (b ++ crlf)
  have after := afterLineEnd_append c b []
  simp only [List.append_nil] at after
  have head : strip isSpace a ≠ [] := by
    cases a with
    | nil =>
      rw [(first_strip stripped).1] at space
      cases space
    | cons e a => exact List.ne_nil_of_mem (mem_strip List.mem_cons_self (first_strip stripped).1)
  have last : filledLines (afterLineEnd c b ++ crlf) ≠ [] := by
    have ending : b ≠ [] := by
      rintro rfl
      have final : (strip isSpace (a ++ [c])).getLast? = some c := by
        rw [stripped, List.getLast?_concat]
      rw [last_strip final] at space
      cases space
    have final : (strip isSpace (a ++ c :: b)).getLast? = some (b.getLast ending) := by
      rw [stripped, List.getLast?_append, List.getLast?_cons, List.getLast?_eq_some_getLast ending]
      rfl
    have stays := last_strip final
    refine filledLines_ne_nil (mem_afterLineEnd (List.getLast_mem ending) ?_) stays
    rw [Bool.eq_false_iff]
    intro ends
    rw [isSpace_of_isLineEnd ends] at stays
    cases stays
  have cut : filledLines (a ++ c :: b ++ crlf) =
      strip isSpace a :: filledLines (afterLineEnd c b ++ crlf) := by
    rw [filledLines, List.append_assoc, List.cons_append, apart, after, List.map_cons]
    exact List.filter_cons_of_pos (decide_eq_true head)
  have more := List.length_pos_iff.mpr last
  rw [cut, List.length_cons]
  omega

section Rendered

variable {lines : List Text}

theorem filledLines_flatMap (lines : List Text) :
    filledLines (lines.flatMap fun line => line ++ crlf) =
      lines.flatMap fun line => filledLines (line ++ crlf) := by
  induction lines with
  | nil => rfl
  | cons line lines ih =>
    rw [List.flatMap_cons, filledLines_crlf_append, ih, List.flatMap_cons]

theorem filledLines_eq (h : ∀ line ∈ lines, OneLine line ∧ line ≠ [] ∧ strip isSpace line = line) :
    filledLines (lines.flatMap fun line => line ++ crlf) = lines := by
  rw [filledLines_flatMap]
  induction lines with
  | nil => rfl
  | cons line lines ih =>
    obtain ⟨whole, filled, stripped⟩ := h line List.mem_cons_self
    rw [List.flatMap_cons, filledLines_of_oneLine whole filled stripped,
      ih fun other mem => h other (List.mem_cons_of_mem line mem)]
    rfl

theorem oneLine_of_length_filledLines (h : ∀ line ∈ lines, line ≠ [] ∧ strip isSpace line = line)
    (same : (filledLines (lines.flatMap fun line => line ++ crlf)).length ≤ lines.length) :
    ∀ line ∈ lines, OneLine line := by
  have least : ∀ line : Text, line ≠ [] ∧ strip isSpace line = line →
      1 ≤ (filledLines (line ++ crlf)).length := by
    rintro line ⟨filled, stripped⟩
    by_cases whole : OneLine line
    · rw [filledLines_of_oneLine whole filled stripped, List.length_singleton]
    · exact (one_lt_filledLines whole stripped).le
  rw [filledLines_flatMap] at same
  have atLeast : ∀ lines : List Text, (∀ line ∈ lines, line ≠ [] ∧ strip isSpace line = line) →
      lines.length ≤ (lines.flatMap fun line => filledLines (line ++ crlf)).length := by
    intro lines h
    induction lines with
    | nil => exact le_rfl
    | cons line lines ih =>
      have one := least line (h line List.mem_cons_self)
      have rest := ih fun other mem => h other (List.mem_cons_of_mem line mem)
      rw [List.flatMap_cons, List.length_append, List.length_cons]
      omega
  induction lines with
  | nil => exact fun line mem => absurd mem List.not_mem_nil
  | cons line lines ih =>
    have one := least line (h line List.mem_cons_self)
    have rest := atLeast lines fun other mem => h other (List.mem_cons_of_mem line mem)
    rw [List.flatMap_cons, List.length_append, List.length_cons] at same
    intro other mem
    obtain rfl | mem := List.mem_cons.mp mem
    · by_contra broken
      have two := one_lt_filledLines broken (h other List.mem_cons_self).2
      omega
    · exact ih (fun other mem => h other (List.mem_cons_of_mem line mem)) (by omega) other mem

end Rendered

end Rankuno.Python.Text
