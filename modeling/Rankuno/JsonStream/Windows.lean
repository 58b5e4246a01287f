import Mathlib.Algebra.Order.Group.Nat
import Rankuno.JsonStream.Extraction

/-!
# Elements that straddle windows

The loop over the elements passes separators, values and numbers in turn
(`passes_separators`, `passes_value`, `passes_number`), whatever chunks the file is read
in, and gives the field of each. A value that straddles the end of the window is read once
the window holds all of it. A number is not: it is read as two, and where the second part is
none, the loop stops.
-/

namespace Rankuno.JsonStream

open Python Python.Text

section Rules

variable {windowChars : Nat} {field window unread : Text}

theorem iterElements_of_dropWhile_nil (skipped : window.dropWhile isSeparator = []) :
    iterElements windowChars field window unread =
      if unread.take windowChars = [] then []
      else iterElements windowChars field (unread.take windowChars) (unread.drop windowChars) := by
  rw [iterElements]
  split
  · rfl
  · next c rest shown =>
    rw [skipped] at shown
    cases shown

theorem iterElements_of_dropWhile_cons {c : Char} {rest : Text}
    (shown : window.dropWhile isSeparator = c :: rest) :
    iterElements windowChars field window unread =
      if c = ']' then []
      else match rawDecode (c :: rest) with
        | none =>
          if unread.take windowChars = [] then []
          else iterElements windowChars field (c :: rest ++ unread.take windowChars)
            (unread.drop windowChars)
        | some (element, rest) =>
          (stringField field element).toList ++ iterElements windowChars field rest unread := by
  rw [iterElements]
  split
  · next skipped =>
    rw [skipped] at shown
    cases shown
  · next c' rest' shown' =>
    obtain ⟨rfl, rfl⟩ := List.cons.inj (shown'.symm.trans shown)
    split
    · rfl
    · split
      · next undecoded => rw [undecoded]; rfl
      · next decoded => rw [decoded]

theorem iterElements_nil : iterElements windowChars field [] unread =
      if unread.take windowChars = [] then []
      else iterElements windowChars field (unread.take windowChars) (unread.drop windowChars) :=
  iterElements_of_dropWhile_nil rfl

theorem iterElements_separators {gap : Text} (separators : gap.all isSeparator = true) :
    iterElements windowChars field (gap ++ window) unread =
      iterElements windowChars field window unread := by
  have same : (gap ++ window).dropWhile isSeparator = window.dropWhile isSeparator :=
    List.dropWhile_append_of_pos fun c mem => List.all_eq_true.mp separators c mem
  cases shown : window.dropWhile isSeparator with
  | nil =>
    rw [iterElements_of_dropWhile_nil (same.trans shown), iterElements_of_dropWhile_nil shown]
  | cons c rest =>
    rw [iterElements_of_dropWhile_cons (same.trans shown), iterElements_of_dropWhile_cons shown]

theorem startsItem_no_separator {c : Char} (starts : startsItem c = true) :
    isSeparator c = false ∧ c ≠ ']' := by
  rw [startsItem, Bool.not_eq_true', Bool.or_eq_false_iff, Bool.or_eq_false_iff,
    Bool.or_eq_false_iff] at starts
  obtain ⟨⟨⟨space, comma⟩, bracket⟩, -⟩ := starts
  exact ⟨by rw [isSeparator, space, comma]; rfl, of_decide_eq_false bracket⟩

theorem dropWhile_of_startsItem (starts : StartsItem window) :
    window.dropWhile isSeparator = window := by
  obtain ⟨c, rest, rfl, starts⟩ := starts
  refine List.dropWhile_cons_of_neg ?_
  rw [(startsItem_no_separator starts).1]
  exact Bool.false_ne_true

theorem iterElements_decoded {element : Json} {rest : Text} (starts : StartsItem window)
    (decoded : rawDecode window = some (element, rest)) :
    iterElements windowChars field window unread =
      (stringField field element).toList ++ iterElements windowChars field rest unread := by
  have shown := dropWhile_of_startsItem starts
  obtain ⟨c, tail, rfl, starts⟩ := starts
  rw [iterElements_of_dropWhile_cons shown, if_neg (startsItem_no_separator starts).2, decoded]

theorem iterElements_undecoded (starts : StartsItem window) (undecoded : rawDecode window = none) :
    iterElements windowChars field window unread =
      if unread.take windowChars = [] then []
      else iterElements windowChars field (window ++ unread.take windowChars)
        (unread.drop windowChars) := by
  have shown := dropWhile_of_startsItem starts
  obtain ⟨c, tail, rfl, starts⟩ := starts
  rw [iterElements_of_dropWhile_cons shown, if_neg (startsItem_no_separator starts).2, undecoded]

theorem iterElements_closed {rest : Text} :
    iterElements windowChars field (']' :: rest) unread = [] := by
  have shown : (']' :: rest : Text).dropWhile isSeparator = ']' :: rest :=
    List.dropWhile_cons_of_neg (by decide)
  rw [iterElements_of_dropWhile_cons shown, if_pos rfl]

theorem iterElements_stuck (stuck : Stuck (window ++ unread)) :
    iterElements windowChars field window unread = [] := by
  induction length : unread.length using Nat.strongRecOn generalizing window unread with
  | _ length ih =>
    subst length
    have further (window : Text) (same : Stuck (window ++ unread)) :
        (if unread.take windowChars = [] then []
        else iterElements windowChars field (window ++ unread.take windowChars)
          (unread.drop windowChars)) = [] := by
      split
      · rfl
      · next read =>
        refine ih _ (length_drop_lt read) ?_ rfl
        rwa [List.append_assoc, List.take_append_drop]
    cases window with
    | nil =>
      rw [iterElements_nil]
      exact further [] stuck
    | cons c window =>
      obtain ⟨d, first, begins⟩ := stuck
      have seen : Stuck (c :: window) := ⟨d, first, begins⟩
      rw [iterElements_undecoded (startsItem_of_stuck seen) seen.rawDecode]
      exact further _ ⟨d, first, begins⟩

theorem iterElements_numeral {numeral rest : Text} (h : Numeral numeral) (inert : Inert rest) :
    iterElements windowChars field (numeral ++ rest) unread =
      iterElements windowChars field rest unread := by
  induction length : numeral.length using Nat.strongRecOn generalizing numeral with
  | _ length ih =>
    subst length
    have starts := h.startsItem.append rest
    obtain ⟨n, whole | ⟨numeral', shape, shorter, zero⟩⟩ := h.decode inert
    · rw [iterElements_decoded starts whole]
      rfl
    · rw [iterElements_decoded starts zero]
      exact ih _ shorter shape rfl

end Rules

section Reads

variable {windowChars pos : Nat} {window unread : Text}

/-- A reader at a place in the file. What is unread begins at the end of a chunk, and the
window is a part of one. -/
structure Reading (windowChars pos : Nat) (window unread : Text) : Prop where
  boundary : unread ≠ [] → windowChars ∣ pos + window.length
  fresh : ∀ k, 0 < k → k < window.length → ¬windowChars ∣ pos + k

theorem not_dvd_within {place k : Nat} (boundary : windowChars ∣ place) (positive : 0 < k)
    (inside : k < (unread.take windowChars).length) : ¬windowChars ∣ place + k := by
  intro divides
  have further : windowChars ∣ k := (Nat.dvd_add_right boundary).mp divides
  have := Nat.le_of_dvd positive further
  rw [List.length_take] at inside
  omega

theorem dvd_after {place : Nat} (boundary : windowChars ∣ place)
    (more : unread.drop windowChars ≠ []) :
    windowChars ∣ place + (unread.take windowChars).length := by
  have longer : windowChars < unread.length := by
    by_contra shorter
    exact more (List.drop_eq_nil_of_le (Nat.le_of_not_lt shorter))
  rw [List.length_take, Nat.min_eq_left (Nat.le_of_lt longer)]
  exact (Nat.dvd_add_right boundary).mpr (Nat.dvd_refl _)

theorem Reading.next (boundary : windowChars ∣ pos) :
    Reading windowChars pos (unread.take windowChars) (unread.drop windowChars) where
  boundary := dvd_after boundary
  fresh _ := not_dvd_within boundary

theorem take_ne_nil (positive : 0 < windowChars) (more : unread ≠ []) :
    unread.take windowChars ≠ [] := by
  rw [Ne, List.take_eq_nil_iff, not_or]
  exact ⟨Nat.ne_of_gt positive, more⟩

end Reads

section Passing

variable {windowChars pos : Nat} {field window unread text rest : Text} {values : List Text}

/-- The reader gives some values for a text and goes on behind it, or the file ends before
what follows the text. -/
def Passes (windowChars : Nat) (field : Text) (pos : Nat) (window unread text rest : Text)
    (values : List Text) : Prop :=
  iterElements windowChars field window unread = [] ∧ window ++ unread ≠ text ++ rest ∨
    ∃ window' unread', iterElements windowChars field window unread =
        values ++ iterElements windowChars field window' unread' ∧
      window' ++ unread' <+: rest ∧
      (window ++ unread = text ++ rest → window' ++ unread' = rest) ∧
      Reading windowChars (pos + text.length) window' unread'

theorem window_cases (ahead : window ++ unread <+: text ++ rest) :
    (∃ left, left ≠ [] ∧ text = window ++ left ∧ unread <+: left ++ rest) ∨
      ∃ more, window = text ++ more ∧ more ++ unread <+: rest := by
  obtain ⟨cut, same⟩ := ahead
  rw [List.append_assoc] at same
  rcases List.append_eq_append_iff.mp same with ⟨left, rfl, behind⟩ | ⟨more, rfl, behind⟩
  · by_cases whole : left = []
    · subst whole
      refine .inr ⟨[], ?_, cut, ?_⟩
      · rw [List.append_nil, List.append_nil]
      · rw [List.nil_append, behind, List.nil_append]
    · exact .inl ⟨left, whole, rfl, cut, behind⟩
  · exact .inr ⟨more, rfl, cut, by rw [List.append_assoc, behind]⟩

theorem passes_behind {more : Text} (ahead : more ++ unread <+: rest)
    (boundary : unread ≠ [] → windowChars ∣ pos + (text ++ more).length)
    (fresh : ∀ k, text.length < k → k < (text ++ more).length → ¬windowChars ∣ pos + k)
    (gives : iterElements windowChars field (text ++ more) unread =
      values ++ iterElements windowChars field more unread) :
    Passes windowChars field pos (text ++ more) unread text rest values := by
  refine .inr ⟨more, unread, gives, ahead, fun whole => ?_, fun unfinished => ?_, ?_⟩
  · rw [List.append_assoc] at whole
    exact List.append_cancel_left whole
  · rw [Nat.add_assoc, ← List.length_append]
    exact boundary unfinished
  · intro k positive inside
    rw [Nat.add_assoc]
    refine fresh _ (Nat.lt_add_of_pos_right positive) ?_
    rw [List.length_append]
    omega

theorem Passes.of_next {left : Text} (gives : iterElements windowChars field window unread =
      iterElements windowChars field (unread.take windowChars) (unread.drop windowChars))
    (next : Passes windowChars field (pos + window.length) (unread.take windowChars)
      (unread.drop windowChars) left rest values) :
    Passes windowChars field pos window unread (window ++ left) rest values := by
  rw [Passes, List.take_append_drop] at next
  rcases next with ⟨nothing, differs⟩ | ⟨window', unread', after, ahead, whole, reading⟩
  · refine .inl ⟨gives.trans nothing, fun same => ?_⟩
    rw [List.append_assoc] at same
    exact differs (List.append_cancel_left same)
  · refine .inr ⟨window', unread', gives.trans after, ahead, fun same => ?_, ?_⟩
    · rw [List.append_assoc] at same
      exact whole (List.append_cancel_left same)
    · rw [List.length_append, ← Nat.add_assoc]
      exact reading

theorem Passes.of_longer (gives : iterElements windowChars field window unread =
      iterElements windowChars field (window ++ unread.take windowChars) (unread.drop windowChars))
    (longer : Passes windowChars field pos (window ++ unread.take windowChars)
      (unread.drop windowChars) text rest values) :
    Passes windowChars field pos window unread text rest values := by
  rw [Passes, List.append_assoc, List.take_append_drop] at longer
  rwa [Passes, gives]

theorem append_ne_of_left {left : Text} (some_left : left ≠ []) :
    window ++ [] ≠ window ++ left ++ rest := by
  intro whole
  rw [List.append_nil, List.append_assoc] at whole
  have none_left := List.self_eq_append_right.mp whole
  exact some_left (List.append_eq_nil_iff.mp none_left).1

theorem passes_separators (positive : 0 < windowChars) {gap : Text}
    (separators : gap.all isSeparator = true)
    (ahead : window ++ unread <+: gap ++ rest) (reading : Reading windowChars pos window unread) :
    Passes windowChars field pos window unread gap rest [] := by
  induction length : unread.length using Nat.strongRecOn generalizing window unread gap pos with
  | _ length ih =>
    subst length
    rcases window_cases ahead with ⟨left, some_left, rfl, further⟩ | ⟨more, rfl, further⟩
    · rw [List.all_append, Bool.and_eq_true] at separators
      have skipped : iterElements windowChars field window unread =
          iterElements windowChars field [] unread := by
        have all : iterElements windowChars field (window ++ []) unread =
            iterElements windowChars field [] unread := iterElements_separators separators.1
        rwa [List.append_nil] at all
      by_cases finished : unread = []
      · subst finished
        refine .inl ⟨?_, append_ne_of_left some_left⟩
        rw [skipped, iterElements_nil, List.take_nil, if_pos rfl]
      · have read := take_ne_nil positive finished
        refine .of_next ?_ (ih _ (length_drop_lt read) separators.2 ?_
          (.next (reading.boundary finished)) rfl)
        · rw [skipped, iterElements_nil, if_neg read]
        · rwa [List.take_append_drop]
    · refine passes_behind further reading.boundary (fun k beyond => reading.fresh k ?_)
        (iterElements_separators separators)
      omega

theorem passes_value (positive : 0 < windowChars) {value : Json} (starts : StartsItem text)
    (decodes : ∀ rest, rawDecode (text ++ rest) = some (value, rest))
    (cut : ∀ before after, before ++ after = text → after ≠ [] → rawDecode before = none)
    (ahead : window ++ unread <+: text ++ rest)
    (boundary : unread ≠ [] → windowChars ∣ pos + window.length)
    (fresh : ∀ k, text.length < k → k < window.length → ¬windowChars ∣ pos + k) :
    Passes windowChars field pos window unread text rest (stringField field value).toList := by
  induction length : unread.length using Nat.strongRecOn generalizing window unread with
  | _ length ih =>
    subst length
    rcases window_cases ahead with ⟨left, some_left, rfl, further⟩ | ⟨more, rfl, further⟩
    · have gives : iterElements windowChars field window unread =
          if unread.take windowChars = [] then []
          else iterElements windowChars field (window ++ unread.take windowChars)
            (unread.drop windowChars) := by
        cases window with
        | nil => exact iterElements_nil
        | cons c window =>
          obtain ⟨d, tail, same, starts⟩ := starts
          exact iterElements_undecoded ⟨c, window, rfl, (List.cons.inj same).1 ▸ starts⟩
            (cut _ left rfl some_left)
      by_cases finished : unread = []
      · subst finished
        exact .inl ⟨by rw [gives, List.take_nil, if_pos rfl], append_ne_of_left some_left⟩
      · have read := take_ne_nil positive finished
        have divides := boundary finished
        refine .of_longer (by rw [gives, if_neg read])
          (ih _ (length_drop_lt read) ?_ (fun unfinished => ?_) (fun k beyond inside => ?_) rfl)
        · rwa [List.append_assoc, List.take_append_drop]
        · rw [List.length_append, ← Nat.add_assoc]
          exact dvd_after divides unfinished
        · rw [List.length_append] at beyond inside
          obtain ⟨further, rfl⟩ := Nat.exists_eq_add_of_lt beyond
          have split : pos + (window.length + left.length + further + 1) =
              pos + window.length + (left.length + further + 1) := by omega
          have within : left.length + further + 1 < (unread.take windowChars).length := by omega
          rw [split]
          exact not_dvd_within divides (Nat.succ_pos _) within
    · exact passes_behind further boundary fresh
        (iterElements_decoded (starts.append more) (decodes more))

end Passing

section Numbers

variable {windowChars pos : Nat} {field window unread numeral rest : Text}

/-- The chunks of the file do not end where they break a number. -/
def Intact (windowChars pos : Nat) (number : Text) : Prop :=
  ∀ before after, number = before ++ after → before ≠ [] → after ≠ [] →
    windowChars ∣ pos + before.length → CleanCut before after

variable {left : Text}

theorem iterElements_broken (broken : Broken window left)
    (ahead : unread <+: left ++ rest) : iterElements windowChars field window unread = [] := by
  obtain ⟨-, first, seen, rfl, shape, inert, stuck⟩ := broken
  rw [iterElements_numeral shape inert]
  by_cases finished : seen ++ unread = []
  · obtain ⟨rfl, rfl⟩ := List.append_eq_nil_iff.mp finished
    rw [iterElements_nil, List.take_nil, if_pos rfl]
  · have begins : seen ++ unread <+: seen ++ left ++ rest := by
      rw [List.append_assoc]
      exact (List.prefix_append_right_inj seen).mpr ahead
    exact iterElements_stuck (stuck_of_begins stuck finished begins)

theorem iterElements_cut_off (shape : Numeral (window ++ left))
    (some_left : left ≠ []) : iterElements windowChars field window [] = [] := by
  have finished : iterElements windowChars field [] [] = [] := by
    rw [iterElements_nil, List.take_nil, if_pos rfl]
  by_cases empty : window = []
  · rw [empty, finished]
  · rcases shape.cut empty some_left with ⟨-, -, rfl | first⟩ | broken
    · rw [iterElements_undecoded ⟨'-', [], rfl, rfl⟩ rfl, List.take_nil, if_pos rfl]
    · have drained : iterElements windowChars field (window ++ []) [] =
          iterElements windowChars field [] [] := iterElements_numeral first endsNumber_nil.inert
      rwa [List.append_nil, finished] at drained
    · exact iterElements_broken broken (List.nil_prefix (l := left ++ []))

theorem Intact.append
    (clean : ∀ before after, window ++ left = before ++ after → before ≠ [] → after ≠ [] →
      before.length < window.length → windowChars ∣ pos + before.length → CleanCut before after)
    (between : window ≠ [] → CleanCut window left)
    (behind : Intact windowChars (pos + window.length) left) :
    Intact windowChars pos (window ++ left) := by
  intro before after same some_before some_after divides
  rcases List.append_eq_append_iff.mp same with ⟨middle, rfl, rfl⟩ | ⟨middle, rfl, rfl⟩
  · by_cases no_middle : middle = []
    · subst no_middle
      rw [List.append_nil] at some_before ⊢
      exact between some_before
    · rw [List.length_append, ← Nat.add_assoc] at divides
      have part := behind middle after rfl no_middle some_after divides
      by_cases empty : window = []
      · subst empty
        exact part
      · refine ⟨part.next, .inr ?_⟩
        rw [List.getLast?_append_of_ne_nil _ no_middle]
        rcases part.last with rfl | last
        · obtain ⟨c, first, digit⟩ := (between empty).next
          cases first
          exact absurd digit (by decide)
        · exact last
  · by_cases no_middle : middle = []
    · subst no_middle
      rw [List.append_nil] at between
      exact between some_before
    · refine clean before (middle ++ left) same some_before some_after ?_ divides
      have := List.length_pos_iff.mpr no_middle
      rw [List.length_append]
      omega

theorem Intact.of_append (intact : Intact windowChars pos (window ++ left)) :
    Intact windowChars (pos + window.length) left := by
  intro before after same some_before some_after divides
  subst same
  rw [Nat.add_assoc, ← List.length_append] at divides
  have nonempty : window ++ before ≠ [] := fun empty =>
    some_before (List.append_eq_nil_iff.mp empty).2
  have whole := intact (window ++ before) after (List.append_assoc _ _ _).symm nonempty some_after
    divides
  by_cases empty : window = []
  · subst empty
    exact whole
  · exact whole.of_append empty some_before

theorem passes_number (positive : 0 < windowChars) (shape : Numeral numeral)
    (ends : EndsNumber rest) (ahead : window ++ unread <+: numeral ++ rest)
    (boundary : unread ≠ [] → windowChars ∣ pos + window.length)
    (clean : ∀ before after, numeral = before ++ after → before ≠ [] → after ≠ [] →
      before.length < window.length → windowChars ∣ pos + before.length → CleanCut before after)
    (fresh : ∀ k, numeral.length < k → k < window.length → ¬windowChars ∣ pos + k) :
    Passes windowChars field pos window unread numeral rest [] ∧
        (window ++ unread = numeral ++ rest → Intact windowChars pos numeral) ∨
      iterElements windowChars field window unread = [] ∧ ¬Intact windowChars pos numeral := by
  induction length : unread.length using Nat.strongRecOn
    generalizing window unread numeral pos with
  | _ length ih =>
    subst length
    rcases window_cases ahead with ⟨left, some_left, rfl, further⟩ | ⟨more, rfl, further⟩
    · -- The file ends here, or a chunk.
      by_cases finished : unread = []
      · subst finished
        have ends_early : window ++ [] ≠ window ++ left ++ rest := append_ne_of_left some_left
        exact .inl ⟨.inl ⟨iterElements_cut_off shape some_left, ends_early⟩,
          fun whole => absurd whole ends_early⟩
      · have divides := boundary finished
        have read := take_ne_nil positive finished
        have next : Numeral left → iterElements windowChars field window unread =
            iterElements windowChars field [] unread →
            (window ≠ [] → CleanCut window left) →
            Passes windowChars field pos window unread (window ++ left) rest [] ∧
              (window ++ unread = window ++ left ++ rest →
                Intact windowChars pos (window ++ left)) ∨
            iterElements windowChars field window unread = [] ∧
              ¬Intact windowChars pos (window ++ left) := by
          intro left_shape skipped between
          have gives := skipped.trans (iterElements_nil.trans (if_neg read))
          have rest_ahead : unread.take windowChars ++ unread.drop windowChars <+: left ++ rest := by
            rwa [List.take_append_drop]
          rcases ih _ (length_drop_lt read) left_shape rest_ahead (dvd_after divides)
              (fun before _ _ some_before _ inside here => absurd here
                (not_dvd_within divides (List.length_pos_iff.mpr some_before) inside))
              (fun k beyond inside => not_dvd_within divides (Nat.zero_lt_of_lt beyond) inside)
              rfl with ⟨passes, whole⟩ | ⟨nothing, broken⟩
          · refine .inl ⟨.of_next gives passes, fun same => ?_⟩
            refine .append clean between (whole ?_)
            rw [List.append_assoc] at same
            rw [List.take_append_drop]
            exact List.append_cancel_left same
          · exact .inr ⟨gives.trans nothing, fun intact => broken intact.of_append⟩
        by_cases empty : window = []
        · subst empty
          exact next shape rfl fun nonempty => absurd rfl nonempty
        · rcases shape.cut empty some_left with ⟨cleanly, left_shape, first⟩ | broken
          · rcases first with rfl | first
            · have gives : iterElements windowChars field ['-'] unread =
                  iterElements windowChars field (['-'] ++ unread.take windowChars)
                    (unread.drop windowChars) := by
                rw [iterElements_undecoded ⟨'-', [], rfl, rfl⟩ rfl, if_neg read]
              have same_ahead : ['-'] ++ unread.take windowChars ++ unread.drop windowChars <+:
                  ['-'] ++ left ++ rest := by
                rwa [List.append_assoc, List.take_append_drop]
              have same_boundary : unread.drop windowChars ≠ [] →
                  windowChars ∣ pos + (['-'] ++ unread.take windowChars).length := by
                intro unfinished
                rw [List.length_append, ← Nat.add_assoc]
                exact dvd_after divides unfinished
              have within {k : Nat} (beyond : 1 < k)
                  (inside : k < (['-'] ++ unread.take windowChars).length) :
                  ¬windowChars ∣ pos + k := by
                obtain ⟨further, rfl⟩ := Nat.exists_eq_add_of_lt beyond
                rw [List.length_append, List.length_singleton] at inside
                have shorter : further + 1 < (unread.take windowChars).length := by omega
                have regrouped : pos + (1 + further + 1) = pos + 1 + (further + 1) := by omega
                rw [regrouped]
                exact not_dvd_within divides (Nat.succ_pos _) shorter
              have same_clean : ∀ before after, ['-'] ++ left = before ++ after → before ≠ [] →
                  after ≠ [] → before.length < (['-'] ++ unread.take windowChars).length →
                  windowChars ∣ pos + before.length → CleanCut before after := by
                intro before after same some_before _ inside here
                match before, some_before with
                | [c], _ =>
                  obtain ⟨rfl, rfl⟩ := List.cons.inj same
                  exact cleanly
                | c :: d :: before, _ =>
                  exact absurd here (within (by simp) inside)
              have same_fresh : ∀ k, (['-'] ++ left).length < k →
                  k < (['-'] ++ unread.take windowChars).length → ¬windowChars ∣ pos + k := by
                intro k beyond inside
                rw [List.length_append, List.length_singleton] at beyond
                exact within (by omega) inside
              rcases ih _ (length_drop_lt read) shape same_ahead same_boundary same_clean
                  same_fresh rfl with
                ⟨passes, whole⟩ | ⟨nothing, broken⟩
              · refine .inl ⟨.of_longer gives passes, fun same => whole ?_⟩
                rwa [List.append_assoc, List.take_append_drop]
              · exact .inr ⟨gives.trans nothing, broken⟩
            · refine next left_shape ?_ fun _ => cleanly
              have drained : iterElements windowChars field (window ++ []) unread =
                  iterElements windowChars field [] unread :=
                iterElements_numeral first endsNumber_nil.inert
              rwa [List.append_nil] at drained
          · refine .inr ⟨iterElements_broken broken further, fun intact => ?_⟩
            exact broken.1 (intact window left rfl empty some_left divides)
    · have more_ends : EndsNumber more :=
        EndsNumber.of_prefix ends ((List.prefix_append _ _).trans further)
      refine .inl ⟨passes_behind further boundary fresh
        (iterElements_numeral shape more_ends.inert), ?_⟩
      intro _ before after same some_before some_after divides
      refine clean before after same some_before some_after ?_ divides
      have longer := List.length_pos_iff.mpr some_after
      rw [List.length_append, same, List.length_append]
      omega

end Numbers

section Elements

variable {windowChars pos : Nat} {window unread rest : Text} (field : Text) {style : JsonStyle}
  {level : Nat}

/-- An element is read in one piece, or harmlessly in several. -/
def Survives (windowChars : Nat) (item : Nat × Json) : Prop :=
  ∀ literal, item.2 = .number literal → Intact windowChars item.1 literal.text

theorem passes_element (positive : 0 < windowChars) (element : Json) (ends : EndsNumber rest)
    (ahead : window ++ unread <+: style.dumps level element ++ rest)
    (reading : Reading windowChars pos window unread) :
    Passes windowChars field pos window unread (style.dumps level element) rest
          (stringField field element).toList ∧
        (window ++ unread = style.dumps level element ++ rest →
          Survives windowChars (pos, element)) ∨
      iterElements windowChars field window unread = [] ∧ ¬Survives windowChars (pos, element) := by
  have fresh : ∀ k, (style.dumps level element).length < k → k < window.length →
      ¬windowChars ∣ pos + k := fun k beyond => reading.fresh k (Nat.zero_lt_of_lt beyond)
  cases number : element.isNumber with
  | false =>
    refine .inl ⟨passes_value positive (startsItem_dumps style level element)
      (rawDecode_dumps_append style level number)
      (fun before after => rawDecode_cut style level number) ahead reading.boundary fresh, ?_⟩
    rintro - literal rfl
    cases number
  | true =>
    obtain ⟨literal, rfl⟩ : ∃ literal, element = .number literal := by
      cases element with
      | number literal => exact ⟨literal, rfl⟩
      | _ => cases number
    have survives : Survives windowChars (pos, .number literal) ↔
        Intact windowChars pos literal.text := by
      constructor
      · exact fun survives => survives literal rfl
      · rintro intact other same
        cases same
        exact intact
    rw [survives]
    rw [JsonStyle.dumps] at *
    exact passes_number positive literal.numeral_text ends ahead reading.boundary
      (fun before _ _ some_before _ inside here => absurd here
        (reading.fresh _ (List.length_pos_iff.mpr some_before) inside)) fresh

/-- The reader gives the fields of the elements up to the first that breaks, or fewer if the
file ends before. -/
def Runs (windowChars : Nat) (field : Text) (items : List (Nat × Json)) (window unread text : Text) :
    Prop :=
  ∃ kept dropped, items = kept ++ dropped ∧ iterElements windowChars field window unread =
      kept.filterMap (fun item => stringField field item.2) ∧
    (window ++ unread = text → (∀ item ∈ kept, Survives windowChars item) ∧
      ∀ item ∈ dropped.head?, ¬Survives windowChars item)

variable {field}

theorem runs_nothing {items : List (Nat × Json)} {text : Text}
    (nothing : iterElements windowChars field window unread = [])
    (broken : window ++ unread = text → ∀ item ∈ items.head?, ¬Survives windowChars item) :
    Runs windowChars field items window unread text :=
  ⟨[], items, rfl, nothing, fun same => ⟨fun _ listed => absurd listed List.not_mem_nil,
    broken same⟩⟩

theorem runs_end (positive : 0 < windowChars) {gap : Text} (separators : gap.all isSeparator = true)
    (ahead : window ++ unread <+: gap ++ ']' :: rest)
    (reading : Reading windowChars pos window unread) :
    Runs windowChars field [] window unread (gap ++ ']' :: rest) := by
  refine runs_nothing ?_ fun _ item listed => absurd listed (Option.not_mem_none item)
  have passed : Passes windowChars field pos window unread gap (']' :: rest) [] :=
    passes_separators positive separators ahead reading
  rcases passed with ⟨nothing, -⟩ | ⟨window', unread', gives, closed, -, -⟩
  · exact nothing
  · rw [gives, List.nil_append]
    have bracket {window unread : Text} (some_window : window ≠ [])
        (closed : window ++ unread <+: ']' :: rest) :
        iterElements windowChars field window unread = [] := by
      obtain ⟨c, window, rfl⟩ := List.exists_cons_of_ne_nil some_window
      obtain ⟨more, same⟩ := closed
      rw [(List.cons.inj same).1]
      exact iterElements_closed
    by_cases empty : window' = []
    · subst empty
      rw [iterElements_nil]
      split
      · rfl
      · next read =>
        refine bracket read ?_
        rwa [List.take_append_drop]
    · exact bracket empty closed

theorem runs_cons (positive : 0 < windowChars) {gap : Text}
    (separators : gap.all isSeparator = true)
    {element : Json} {items : List (Nat × Json)} (ends : EndsNumber rest)
    (behind : ∀ window unread, window ++ unread <+: rest →
      Reading windowChars (pos + gap.length + (style.dumps level element).length) window unread →
        Runs windowChars field items window unread rest)
    (ahead : window ++ unread <+: gap ++ (style.dumps level element ++ rest))
    (reading : Reading windowChars pos window unread) :
    Runs windowChars field ((pos + gap.length, element) :: items) window unread
      (gap ++ (style.dumps level element ++ rest)) := by
  have passed : Passes windowChars field pos window unread gap
      (style.dumps level element ++ rest) [] :=
    passes_separators positive separators ahead reading
  rcases passed with ⟨nothing, differs⟩ | ⟨window₁, unread₁, gives₁, ahead₁, whole₁, reading₁⟩
  · exact runs_nothing nothing fun same => absurd same differs
  · rcases passes_element field positive element ends ahead₁ reading₁ with
      ⟨⟨nothing, differs⟩ | ⟨window₂, unread₂, gives₂, ahead₂, whole₂, reading₂⟩, survives⟩ |
        ⟨nothing, broken⟩
    · exact runs_nothing (gives₁.trans nothing) fun same => absurd (whole₁ same) differs
    · obtain ⟨kept, dropped, rfl, gives₃, whole₃⟩ := behind window₂ unread₂ ahead₂ reading₂
      refine ⟨(pos + gap.length, element) :: kept, dropped, rfl, ?_, fun same => ⟨?_, ?_⟩⟩
      · rw [gives₁, gives₂, gives₃, List.filterMap_cons, List.nil_append]
        cases stringField field element <;> rfl
      · intro item listed
        rcases List.mem_cons.mp listed with rfl | listed
        · exact survives (whole₁ same)
        · exact (whole₃ (whole₂ (whole₁ same))).1 item listed
      · exact (whole₃ (whole₂ (whole₁ same))).2
    · refine runs_nothing (gives₁.trans nothing) fun _ item first => ?_
      cases first
      exact broken

theorem separators_of_blank {gap : Text} (blank : gap.all isJsonBlank = true) :
    gap.all isSeparator = true := by
  refine List.all_eq_true.mpr fun c listed => ?_
  have shown := List.all_eq_true.mp blank c listed
  rw [isJsonBlank, Bool.or_eq_true, Bool.or_eq_true, Bool.or_eq_true] at shown
  simp only [decide_eq_true_eq] at shown
  obtain ((rfl | rfl) | rfl) | rfl := shown <;> rfl

theorem separators_between (style : JsonStyle) (level : Nat) :
    (style.itemSeparator ++ style.newlineIndent level).all isSeparator = true := by
  rw [JsonStyle.itemSeparator, List.all_append, List.all_append, List.all_cons,
    separators_of_blank style.blank_beforeComma, separators_of_blank style.blank_afterComma,
    separators_of_blank (style.blank_newlineIndent level)]
  rfl

/-- What follows an element of an array. -/
def behindElement (style : JsonStyle) (level : Nat) (elements : List Json) (rest : Text) : Text :=
  style.following (level + 1) (style.dumpsValues (level + 1) elements) ++
    (style.newlineIndent level ++ ']' :: rest)

theorem behindElement_cons (style : JsonStyle) (level : Nat) (element : Json)
    (elements : List Json) (rest : Text) :
    behindElement style level (element :: elements) rest =
      style.itemSeparator ++ style.newlineIndent (level + 1) ++
        (style.dumps (level + 1) element ++ behindElement style level elements rest) := by
  rw [behindElement, JsonStyle.dumpsValues, following_cons]
  simp only [List.append_assoc]
  rfl

theorem endsNumber_behindElement (style : JsonStyle) (level : Nat) (elements : List Json)
    (rest : Text) : EndsNumber (behindElement style level elements rest) := by
  cases elements with
  | nil =>
    have shown : skipBlanks (behindElement style level [] rest) = ']' :: rest :=
      skipBlanks_newlineIndent closes_array rest
    exact (delimits_of_skipBlanks shown (by decide)).2
  | cons element elements =>
    rw [behindElement, JsonStyle.dumpsValues]
    exact (delimits_of_skipBlanks (skipBlanks_following _ _ _ _ _) (by decide)).2

theorem runs_behind (positive : 0 < windowChars) (elements : List Json)
    (ahead : window ++ unread <+: behindElement style level elements rest)
    (reading : Reading windowChars pos window unread) :
    Runs windowChars field (placeElements style (level + 1)
        (pos + (style.itemSeparator ++ style.newlineIndent (level + 1)).length) elements)
      window unread (behindElement style level elements rest) := by
  induction elements generalizing window unread pos with
  | nil => exact runs_end positive (separators_of_blank (style.blank_newlineIndent level)) ahead reading
  | cons element elements ih =>
    rw [behindElement_cons] at ahead ⊢
    rw [placeElements]
    refine runs_cons positive (separators_between style (level + 1))
      (endsNumber_behindElement style level elements rest) (fun window unread ahead reading => ?_)
      ahead reading
    rw [← Nat.add_assoc]
    exact ih ahead reading

/-- **The elements of an array**, from behind its bracket. -/
theorem runs_elements (positive : 0 < windowChars) (elements : List Json) {body : Text}
    (written : style.dumps level (.array elements) = '[' :: body)
    (ahead : window ++ unread <+: body ++ rest) (reading : Reading windowChars pos window unread) :
    Runs windowChars field (placeElements style (level + 1)
        (pos + (style.newlineIndent (level + 1)).length) elements) window unread (body ++ rest) := by
  cases elements with
  | nil =>
    cases written
    have ended : Runs windowChars field [] window unread ([] ++ ']' :: rest) :=
      runs_end positive rfl ahead reading
    exact ended
  | cons element elements =>
    have shape : body ++ rest = style.newlineIndent (level + 1) ++
        (style.dumps (level + 1) element ++ behindElement style level elements rest) := by
      rw [JsonStyle.dumps, JsonStyle.dumpsValues] at written
      rw [← (List.cons.inj written).2, behindElement]
      simp
    rw [shape] at ahead ⊢
    rw [placeElements]
    refine runs_cons positive (separators_of_blank (style.blank_newlineIndent (level + 1)))
      (endsNumber_behindElement style level elements rest) (fun window unread ahead reading => ?_)
      ahead reading
    rw [← Nat.add_assoc]
    exact runs_behind positive elements ahead reading

end Elements

end Rankuno.JsonStream
