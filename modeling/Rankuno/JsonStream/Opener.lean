import Rankuno.JsonStream.Windows

/-!
# Finding the array

The search for the opener of an array in a window that slides over the file finds the first
one there is (`seekArray_found`), if the carried characters hold what of it stands before
the end of a chunk.
-/

namespace Rankuno.JsonStream

open Python Python.Text

section Search

variable {arrayKey text rest : Text}

/-- An opener: the quoted key, a colon and a bracket, with blanks around the colon. -/
inductive Opener (arrayKey : Text) : Text → Prop where
  | gaps {before after : Text} : before.all isSpace = true → after.all isSpace = true →
      Opener arrayKey ('"' :: (arrayKey ++ '"' :: (before ++ ':' :: (after ++ ['[']))))

theorem dropWhile_eq_cons {p : Char → Bool} {c : Char} (h : text.dropWhile p = c :: rest) :
    ∃ gap, gap.all p = true ∧ text = gap ++ c :: rest :=
  ⟨text.takeWhile p, List.all_takeWhile, by rw [← h, List.takeWhile_append_dropWhile]⟩

theorem dropWhile_append_cons {p : Char → Bool} {c : Char} {gap : Text} (all : gap.all p = true)
    (stops : p c = false) : (gap ++ c :: rest).dropWhile p = c :: rest := by
  rw [List.dropWhile_append_of_pos fun d listed => List.all_eq_true.mp all d listed]
  exact List.dropWhile_cons_of_neg (by rw [stops]; exact Bool.false_ne_true)

theorem openerAt_eq_some : openerAt arrayKey text = some rest ↔
    ∃ opener, Opener arrayKey opener ∧ text = opener ++ rest := by
  have length : (arrayKey.length + 2) = ('"' :: (arrayKey ++ ['"'])).length := by simp
  constructor
  · intro h
    rw [openerAt] at h
    split at h
    · next quoted =>
      obtain ⟨tail, rfl⟩ := List.isPrefixOf_iff_prefix.mp quoted
      rw [length, List.drop_left] at h
      cases colon : tail.dropWhile isSpace with
      | nil =>
        rw [colon] at h
        cases h
      | cons c tail' =>
        rw [colon] at h
        dsimp only at h
        split at h
        · next isColon =>
          cases bracket : tail'.dropWhile isSpace with
          | nil =>
            rw [bracket] at h
            cases h
          | cons d tail'' =>
            rw [bracket] at h
            dsimp only at h
            split at h
            · next isBracket =>
              cases h
              obtain ⟨before, before_blank, rfl⟩ := dropWhile_eq_cons colon
              obtain ⟨after, after_blank, rfl⟩ := dropWhile_eq_cons bracket
              refine ⟨_, .gaps before_blank after_blank, ?_⟩
              rw [isColon, isBracket]
              simp
            · cases h
        · cases h
    · cases h
  · rintro ⟨opener, @⟨before, after, before_blank, after_blank⟩, rfl⟩
    have shape : '"' :: (arrayKey ++ '"' :: (before ++ ':' :: (after ++ ['[']))) ++ rest =
        '"' :: (arrayKey ++ ['"']) ++ (before ++ ':' :: (after ++ '[' :: rest)) := by simp
    rw [openerAt, shape, if_pos (List.isPrefixOf_iff_prefix.mpr (List.prefix_append _ _)), length,
      List.drop_left, dropWhile_append_cons before_blank rfl]
    dsimp only
    rw [if_pos rfl, dropWhile_append_cons after_blank rfl]
    dsimp only
    rw [if_pos rfl]

theorem Opener.found {opener : Text} (h : Opener arrayKey opener) (rest : Text) :
    openerAt arrayKey (opener ++ rest) = some rest := openerAt_eq_some.mpr ⟨opener, h, rfl⟩

theorem Opener.eq_cons {opener : Text} (h : Opener arrayKey opener) :
    ∃ tail, opener = '"' :: tail := by
  obtain @⟨before, after, -, -⟩ := h
  exact ⟨_, rfl⟩

theorem searchOpener_eq_none : searchOpener arrayKey text = none ↔
    ∀ before opener after, text = before ++ (opener ++ after) → ¬Opener arrayKey opener := by
  induction text with
  | nil =>
    refine ⟨fun _ before opener after same h => ?_, fun _ => rfl⟩
    obtain ⟨tail, rfl⟩ := h.eq_cons
    exact absurd same.symm (by simp)
  | cons c text ih =>
    constructor
    · intro nowhere before opener after same h
      rw [searchOpener] at nowhere
      cases before with
      | nil =>
        rw [same, List.nil_append, h.found] at nowhere
        cases nowhere
      | cons d before =>
        cases here : openerAt arrayKey (c :: text) with
        | some rest =>
          rw [here] at nowhere
          cases nowhere
        | none =>
          rw [here] at nowhere
          exact ih.mp nowhere before opener after (List.cons.inj same).2 h
    · intro nowhere
      rw [searchOpener]
      cases here : openerAt arrayKey (c :: text) with
      | some rest =>
        obtain ⟨opener, h, same⟩ := openerAt_eq_some.mp here
        exact absurd h (nowhere [] opener rest same)
      | none =>
        refine ih.mpr fun before opener after same => nowhere (c :: before) opener after ?_
        rw [same]
        rfl

theorem searchOpener_part {before part after : Text}
    (nowhere : searchOpener arrayKey (before ++ (part ++ after)) = none) :
    searchOpener arrayKey part = none := by
  refine searchOpener_eq_none.mpr fun before' opener after' same h => ?_
  refine searchOpener_eq_none.mp nowhere (before ++ before') opener (after' ++ after) ?_ h
  rw [same]
  simp

theorem searchOpener_first {start opener after : Text} (h : Opener arrayKey opener)
    (first : ∀ early late, start = early ++ late → late ≠ [] →
      openerAt arrayKey (late ++ (opener ++ after)) = none) :
    searchOpener arrayKey (start ++ (opener ++ after)) = some after := by
  induction start with
  | nil =>
    obtain ⟨tail, begins⟩ := h.eq_cons
    have found := h.found after
    rw [begins, List.cons_append] at found
    rw [List.nil_append, begins, List.cons_append, searchOpener, found]
  | cons c start ih =>
    have not_here := first [] (c :: start) rfl (List.cons_ne_nil _ _)
    rw [List.cons_append] at not_here ⊢
    rw [searchOpener, not_here]
    refine ih fun early late same => first (c :: early) late ?_
    rw [same]
    rfl

theorem quote_not_mem {before after : Text} (before_blank : before.all isSpace = true)
    (after_blank : after.all isSpace = true) : '"' ∉ before ++ ':' :: (after ++ ['[']) := by
  intro listed
  rcases List.mem_append.mp listed with blank | listed
  · exact absurd (List.all_eq_true.mp before_blank _ blank) (by decide)
  · rcases List.mem_cons.mp listed with same | listed
    · exact absurd same (by decide)
    · rcases List.mem_append.mp listed with blank | listed
      · exact absurd (List.all_eq_true.mp after_blank _ blank) (by decide)
      · exact absurd (List.mem_singleton.mp listed) (by decide)

theorem opener_before {early late rest : Text} (some_early : early ≠ [])
    (found : openerAt arrayKey (early ++ ('"' :: (arrayKey ++ '"' :: late))) = some rest) :
    ∃ opener after, Opener arrayKey opener ∧ early ++ '"' :: arrayKey = opener ++ after := by
  obtain ⟨opener, h, same⟩ := openerAt_eq_some.mp found
  have regrouped : early ++ '"' :: arrayKey ++ '"' :: late = opener ++ rest := by
    rw [← same]
    simp
  rcases List.append_eq_append_iff.mp regrouped with ⟨reached, longer, quote⟩ | ⟨after, same, -⟩
  · cases reached with
    | nil =>
      rw [List.append_nil] at longer
      exact ⟨opener, [], h, by rw [longer, List.append_nil]⟩
    | cons c reached =>
      obtain ⟨rfl, -⟩ := List.cons.inj quote
      obtain @⟨before, after, before_blank, after_blank⟩ := h
      have halves : '"' :: (arrayKey ++ ['"']) ++ (before ++ ':' :: (after ++ ['['])) =
          early ++ '"' :: arrayKey ++ '"' :: reached := by
        rw [← longer]
        simp
      refine absurd ?_ (quote_not_mem before_blank after_blank)
      rcases List.append_eq_append_iff.mp halves with ⟨gap, -, same⟩ | ⟨gap, same, tail⟩
      · rw [same]
        simp
      · have lengths := congrArg List.length same
        have positive := List.length_pos_iff.mpr some_early
        simp only [List.length_append, List.length_cons, List.length_nil] at lengths
        have empty : gap = [] := List.length_eq_zero_iff.mp (by omega)
        rw [empty, List.nil_append] at tail
        rw [← tail]
        exact List.mem_cons_self
  · exact ⟨opener, after, h, same⟩

end Search

section Seek

variable {windowChars : Nat} {arrayKey window unread : Text}

theorem seekArray_of_some {rest : Text} (found : searchOpener arrayKey window = some rest) :
    seekArray windowChars arrayKey window unread = some (rest, unread) := by
  rw [seekArray, found]

theorem seekArray_of_none (nowhere : searchOpener arrayKey window = none) :
    seekArray windowChars arrayKey window unread =
      if unread.take windowChars = [] then none
      else seekArray windowChars arrayKey
        (window.drop (window.length - (arrayKey.length + 16)) ++ unread.take windowChars)
        (unread.drop windowChars) := by
  rw [seekArray, nowhere]
  rfl

theorem seekArray_nowhere (nowhere : searchOpener arrayKey (window ++ unread) = none) :
    seekArray windowChars arrayKey window unread = none := by
  induction length : unread.length using Nat.strongRecOn generalizing window unread with
  | _ length ih =>
    subst length
    have part : searchOpener arrayKey ([] ++ (window ++ unread)) = none := nowhere
    have here : searchOpener arrayKey window = none := searchOpener_part part
    rw [seekArray_of_none here]
    split
    · rfl
    · next read =>
      refine ih _ (length_drop_lt read) ?_ rfl
      rw [List.append_assoc, List.take_append_drop]
      have later : searchOpener arrayKey (window.take (window.length - (arrayKey.length + 16)) ++
          (window.drop (window.length - (arrayKey.length + 16)) ++ unread ++ [])) = none := by
        rwa [List.append_nil, ← List.append_assoc, List.take_append_drop]
      exact searchOpener_part later

/-- The opener of the array at a place is the first in the document, it is written without
escapes, and where a chunk ends in it, the carried characters hold its beginning. -/
structure OpensFirst (windowChars : Nat) (style : JsonStyle) (arrayKey before : Text) : Prop where
  plain : style.escaped arrayKey = arrayKey
  first : searchOpener arrayKey before.dropLast = none
  carried : ∀ place, windowChars ∣ place → place < before.length →
    place + style.keySeparator.length ≤ before.length + 13

theorem opener_written {style : JsonStyle} (plain : style.escaped arrayKey = arrayKey) :
    Opener arrayKey (style.quoted arrayKey ++ (style.keySeparator ++ ['['])) := by
  have space {gap : Text} (blank : gap.all isJsonBlank = true) : gap.all isSpace = true := by
    refine List.all_eq_true.mpr fun c listed => ?_
    have shown := List.all_eq_true.mp blank c listed
    rw [isJsonBlank, Bool.or_eq_true, Bool.or_eq_true, Bool.or_eq_true] at shown
    simp only [decide_eq_true_eq] at shown
    obtain ((rfl | rfl) | rfl) | rfl := shown <;> rfl
  have gaps : Opener arrayKey _ := .gaps (space style.blank_beforeColon) (space style.blank_afterColon)
  rw [JsonStyle.quoted, plain, JsonStyle.keySeparator]
  simpa using gaps

variable {style : JsonStyle} {start before after : Text}

theorem searchOpener_window (opens : OpensFirst windowChars style arrayKey before)
    {seen start : Text}
    (place : before = seen ++ (start ++ (style.quoted arrayKey ++ (style.keySeparator ++ ['[']))))
    (after : Text) :
    searchOpener arrayKey
        (start ++ (style.quoted arrayKey ++ (style.keySeparator ++ ['[']) ++ after)) =
      some after := by
  refine searchOpener_first (opener_written opens.plain) fun early late same some_late => ?_
  cases found : openerAt arrayKey
      (late ++ (style.quoted arrayKey ++ (style.keySeparator ++ ['[']) ++ after)) with
  | none => rfl
  | some rest =>
    have quoted : style.quoted arrayKey ++ (style.keySeparator ++ ['[']) ++ after =
        '"' :: (arrayKey ++ '"' :: (style.keySeparator ++ ('[' :: after))) := by
      rw [JsonStyle.quoted, opens.plain]
      simp
    rw [quoted] at found
    obtain ⟨opener, tail, h, within⟩ := opener_before some_late found
    refine absurd h (searchOpener_eq_none.mp opens.first (seen ++ early) opener
      (tail ++ '"' :: style.keySeparator) ?_)
    have last : before = seen ++ early ++ (opener ++ (tail ++ '"' :: style.keySeparator)) ++
        ['['] := by
      rw [place, same, JsonStyle.quoted, opens.plain]
      have regrouped (more : Text) : late ++ '"' :: (arrayKey ++ more) = opener ++ (tail ++ more) := by
        rw [← List.append_assoc opener, ← within]
        simp
      simp only [List.append_assoc, List.cons_append, List.nil_append, regrouped]
    rw [last, List.dropLast_concat]

/-- **The search stops behind the bracket of the array.** -/
theorem seekArray_found (positive : 0 < windowChars)
    (opens : OpensFirst windowChars style arrayKey before)
    (place : before = start ++ (style.quoted arrayKey ++ (style.keySeparator ++ ['['])))
    {seen : Text} (all : seen ++ (window ++ unread) = before ++ after)
    (early : seen.length ≤ start.length)
    (boundary : unread ≠ [] → windowChars ∣ seen.length + window.length)
    (fresh : ∀ k, before.length < k → k < seen.length + window.length → ¬windowChars ∣ k) :
    ∃ window' unread', seekArray windowChars arrayKey window unread = some (window', unread') ∧
      window' ++ unread' = after ∧ Reading windowChars before.length window' unread' := by
  induction length : unread.length using Nat.strongRecOn generalizing window unread seen with
  | _ length ih =>
    subst length
    have found (more : Text) (reached : seen ++ window = before ++ more)
        (behind : more ++ unread = after) :
        ∃ window' unread', seekArray windowChars arrayKey window unread = some (window', unread') ∧
          window' ++ unread' = after ∧ Reading windowChars before.length window' unread' := by
      have lengths := congrArg List.length reached
      rw [List.length_append, List.length_append] at lengths
      rw [place, List.append_assoc] at reached
      obtain ⟨later, rfl, rfl⟩ : ∃ later, start = seen ++ later ∧
          window = later ++ (style.quoted arrayKey ++ (style.keySeparator ++ ['[']) ++ more) := by
        rcases List.append_eq_append_iff.mp reached with ⟨later, same, tail⟩ | ⟨gap, same, tail⟩
        · exact ⟨later, same, tail⟩
        · rw [same, List.length_append] at early
          have empty : gap = [] := List.length_eq_zero_iff.mp (by omega)
          rw [empty, List.append_nil] at same
          rw [empty, List.nil_append] at tail
          exact ⟨[], by rw [same, List.append_nil], tail.symm⟩
      rw [List.append_assoc] at place
      refine ⟨more, unread, seekArray_of_some (searchOpener_window opens place more), behind,
        fun unfinished => ?_, fun k some_k inside => ?_⟩
      · rw [← lengths]
        exact boundary unfinished
      · exact fresh _ (Nat.lt_add_of_pos_right some_k) (by omega)
    rw [← List.append_assoc] at all
    rcases List.append_eq_append_iff.mp all with ⟨left, ahead, behind⟩ | ⟨more, reached, behind⟩
    · by_cases whole : left = []
      · subst whole
        refine found [] ?_ behind
        rw [ahead, List.append_nil, List.append_nil]
      · have unfinished : unread ≠ [] := by
          rw [behind]
          exact fun empty => whole (List.append_eq_nil_iff.mp empty).1
        have divides := boundary unfinished
        have read := take_ne_nil positive unfinished
        have nowhere : searchOpener arrayKey window = none := by
          have first := opens.first
          rw [ahead, List.dropLast_append_of_ne_nil whole, List.append_assoc] at first
          exact searchOpener_part first
        have length_ahead := congrArg List.length ahead
        have some_left := List.length_pos_iff.mpr whole
        rw [List.length_append, List.length_append] at length_ahead
        have carried := opens.carried _ divides (by omega)
        rw [seekArray_of_none nowhere, if_neg read]
        -- What the carried characters leave out is seen, and no part of the opener.
        generalize out : window.length - (arrayKey.length + 16) = dropped
        have whole_window : window.take dropped ++ window.drop dropped = window :=
          List.take_append_drop _ _
        have total : (seen ++ window.take dropped).length +
            (window.drop dropped ++ unread.take windowChars).length =
              seen.length + window.length + (unread.take windowChars).length := by
          simp only [List.length_append, List.length_take, List.length_drop]
          omega
        have all' : seen ++ window.take dropped ++
            (window.drop dropped ++ unread.take windowChars ++ unread.drop windowChars) =
              before ++ after := by
          rw [List.append_assoc, List.append_assoc, List.take_append_drop,
            ← List.append_assoc (window.take dropped), whole_window, ← List.append_assoc]
          exact all
        have early' : (seen ++ window.take dropped).length ≤ start.length := by
          have opener := congrArg List.length place
          simp only [JsonStyle.quoted, opens.plain, List.length_append, List.length_cons,
            List.length_nil] at opener
          rw [List.length_append, List.length_take]
          omega
        refine ih _ (length_drop_lt read) all' early' (fun more => ?_) (fun k beyond inside => ?_) rfl
        · rw [total]
          exact dvd_after divides more
        · rw [total] at inside
          obtain ⟨further, rfl⟩ := Nat.exists_eq_add_of_lt
            (Nat.lt_trans (by omega : seen.length + window.length < before.length) beyond)
          have within : further + 1 < (unread.take windowChars).length := by omega
          rw [Nat.add_assoc]
          exact not_dvd_within divides (Nat.succ_pos _) within
    · exact found more reached behind.symm

end Seek

end Rankuno.JsonStream
