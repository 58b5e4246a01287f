import Mathlib.Algebra.Field.Basic
import Mathlib.Algebra.Order.BigOperators.Group.List
import Mathlib.Algebra.Order.Field.Basic
import Mathlib.Data.List.MinMax
import Rankuno.Foundation.GroupedSums

/-!
# Weighted votes

Votes name a candidate, how sure they are of it and how much they weigh. A candidate has
the support of its votes, each as sure as it is heavy, and the one with the greatest
support wins; of several it is the one that was named first. Its margin is the part of the
turnout that supports it, a weighted mean.

Who wins does not depend on the order of the votes exactly where one candidate leads
alone, and a further vote for the winner raises the margin exactly where it is at least as
sure as the mean.
-/

universe u v

structure Vote (κ : Type u) (K : Type v) where
  candidate : κ
  confidence : K
  weight : K

namespace WeightedVotes

section Argmax

variable {α : Type u} {β : Type v} [LinearOrder β] {f : α → β} {l : List α} {m : α}

theorem argmax_eq_presentiff : l.argmax f = some m ↔
    ∃ before after, l = before ++ m :: after ∧ (∀ a ∈ before, f a < f m) ∧
      ∀ a ∈ after, f a ≤ f m := by
  induction l with
  | nil => simp
  | cons a l ih =>
    rw [List.argmax_cons]
    constructor
    · intro h
      cases rest : l.argmax f with
      | none =>
        rw [rest] at h
        obtain rfl := Option.some.inj h
        obtain rfl := List.argmax_eq_none.mp rest
        exact ⟨[], [], rfl, by simp, by simp⟩
      | some c =>
        rw [rest] at h
        dsimp only at h
        split at h
        · next greater =>
          obtain rfl := Option.some.inj h
          obtain ⟨before, after, rfl, less, atMost⟩ := ih.mp rest
          exact ⟨a :: before, after, rfl, List.forall_mem_cons.mpr ⟨greater, less⟩, atMost⟩
        · next noLess =>
          obtain rfl := Option.some.inj h
          refine ⟨[], l, rfl, by simp, fun b mem => ?_⟩
          exact (List.le_of_mem_argmax mem rest).trans (not_lt.mp noLess)
    · rintro ⟨before, after, split, less, atMost⟩
      cases before with
      | nil =>
        obtain ⟨rfl, rfl⟩ := List.cons.inj split
        cases rest : l.argmax f with
        | none => rfl
        | some c => exact if_neg (not_lt.mpr (atMost c (List.argmax_mem rest)))
      | cons b before =>
        obtain ⟨rfl, rfl⟩ := List.cons.inj split
        obtain ⟨first, less⟩ := List.forall_mem_cons.mp less
        rw [ih.mpr ⟨before, after, rfl, less, atMost⟩]
        exact if_pos first

end Argmax

theorem exists_perm_map {α β : Type*} {f : α → β} {l : List α} {m : List β}
    (h : (l.map f).Perm m) : ∃ l', l.Perm l' ∧ l'.map f = m := by
  generalize made : l.map f = mapped at h
  induction h generalizing l with
  | nil => exact ⟨l, .refl l, made⟩
  | cons first _ ih =>
    obtain ⟨a, rest, rfl, rfl, rfl⟩ := List.map_eq_cons_iff.mp made
    obtain ⟨rest', moved, rfl⟩ := ih rfl
    exact ⟨a :: rest', moved.cons a, rfl⟩
  | swap first second _ =>
    obtain ⟨a, rest, rfl, rfl, tail⟩ := List.map_eq_cons_iff.mp made
    obtain ⟨b, rest, rfl, rfl, rfl⟩ := List.map_eq_cons_iff.mp tail
    exact ⟨b :: a :: rest, .swap b a rest, rfl⟩
  | trans _ _ ih ih' =>
    obtain ⟨middle, moved, rfl⟩ := ih made
    obtain ⟨last, moved', rfl⟩ := ih' rfl
    exact ⟨last, moved.trans moved', rfl⟩

section Counted

variable {κ : Type u} {K : Type v} [Field K] [LinearOrder K]

/-- Only votes that weigh something take part. -/
def counted (votes : List (Vote κ K)) : List (Vote κ K) := votes.filter fun vote => 0 < vote.weight

/-- The weight that took part. -/
def turnout (votes : List (Vote κ K)) : K := ((counted votes).map Vote.weight).sum

/-- The part of the turnout that this much support is. -/
def margin (votes : List (Vote κ K)) (s : K) : K := min 1 (s / turnout votes)

variable {votes votes' : List (Vote κ K)} {vote : Vote κ K} {s : K}

theorem mem_counted : vote ∈ counted votes ↔ vote ∈ votes ∧ 0 < vote.weight := by
  rw [counted, List.mem_filter, decide_eq_true_iff]

theorem counted_append : counted (votes ++ votes') = counted votes ++ counted votes' :=
  List.filter_append ..

theorem counted_singleton (weighs : 0 < vote.weight) : counted [vote] = [vote] :=
  List.filter_cons_of_pos (decide_eq_true weighs)

theorem counted_perm (h : votes.Perm votes') : (counted votes).Perm (counted votes') := h.filter _

theorem turnout_perm (h : votes.Perm votes') : turnout votes = turnout votes' :=
  ((counted_perm h).map _).sum_eq

theorem counted_append_of_not (light : ¬0 < vote.weight) :
    counted (votes ++ [vote]) = counted votes := by
  rw [counted_append]
  refine (congrArg _ (List.filter_cons_of_neg ?_)).trans (List.append_nil _)
  exact fun h => light (of_decide_eq_true h)

theorem turnout_append (weighs : 0 < vote.weight) :
    turnout (votes ++ [vote]) = turnout votes + vote.weight := by
  rw [turnout, counted_append, counted_singleton weighs, List.map_append, List.sum_append]
  simp [turnout]

theorem turnout_singleton (weighs : 0 < vote.weight) : turnout [vote] = vote.weight := by
  rw [turnout, counted_singleton weighs]
  simp

theorem turnout_pos [IsStrictOrderedRing K] (h : counted votes ≠ []) : 0 < turnout votes := by
  refine List.sum_pos _ (fun weight mem => ?_) (by simpa using h)
  obtain ⟨vote, counts, rfl⟩ := List.mem_map.mp mem
  exact (mem_counted.mp counts).2

end Counted

section Votes

variable {κ : Type u} {K : Type v} [DecidableEq κ] [Field K] [LinearOrder K]

/-- What the votes add up to, by candidate. -/
def standing (votes : List (Vote κ K)) : Dict κ K :=
  GroupedSums.tally ((counted votes).map fun vote => (vote.candidate, vote.confidence * vote.weight))

/-- The first of the candidates with the greatest support. -/
def winner? (votes : List (Vote κ K)) : Option (κ × K) := (standing votes).rows.argmax Prod.snd

def support (votes : List (Vote κ K)) (candidate : κ) : K :=
  (((counted votes).filter fun vote => vote.candidate = candidate).map fun vote =>
    vote.confidence * vote.weight).sum

/-- Somebody voted for it, and nothing has more support. -/
structure Leads (votes : List (Vote κ K)) (candidate : κ) : Prop where
  named : ∃ vote ∈ counted votes, vote.candidate = candidate
  greatest : ∀ vote ∈ counted votes, support votes vote.candidate ≤ support votes candidate

/-- No two candidates share the lead. -/
def SoleLeader (votes : List (Vote κ K)) : Prop :=
  ∀ c d, Leads votes c → Leads votes d → c = d

variable {votes votes' : List (Vote κ K)} {vote : Vote κ K} {c d : κ} {s : K}

theorem get_standing : Dict.get (standing votes) c = some s ↔
    (∃ vote ∈ counted votes, vote.candidate = c) ∧ s = support votes c := by
  have total : (Dict.get (standing votes) c).getD 0 = support votes c := by
    rw [standing, GroupedSums.getD_get_tally, List.filter_map, List.map_map]
    rfl
  have named : (Dict.get (standing votes) c).isSome ↔
      ∃ vote ∈ counted votes, vote.candidate = c := by
    rw [standing, GroupedSums.isSome_get_tally]
    simp
  rw [← named, ← total]
  cases Dict.get (standing votes) c with
  | none => simp
  | some t => simp [eq_comm]

theorem standing_append (weighs : 0 < vote.weight) : standing (votes ++ [vote]) =
    Dict.alter (standing votes) vote.candidate 0 (· + vote.confidence * vote.weight) := by
  rw [standing, counted_append, counted_singleton weighs, List.map_append, List.map_cons,
    List.map_nil, GroupedSums.tally_append_singleton, ← standing]

theorem mem_standing : (c, s) ∈ (standing votes).rows ↔
    (∃ vote ∈ counted votes, vote.candidate = c) ∧ s = support votes c := by
  rw [← Dict.get_eq_some, get_standing]

theorem winner?_eq_none : winner? votes = none ↔ counted votes = [] := by
  rw [winner?, List.argmax_eq_none, List.eq_nil_iff_forall_not_mem, List.eq_nil_iff_forall_not_mem]
  constructor
  · intro absent vote mem
    exact absent (vote.candidate, _) (mem_standing.mpr ⟨⟨vote, mem, rfl⟩, rfl⟩)
  · rintro absent ⟨candidate, total⟩ mem
    obtain ⟨⟨vote, counts, -⟩, -⟩ := mem_standing.mp mem
    exact absent vote counts

theorem winner?_singleton (weighs : 0 < vote.weight) :
    winner? [vote] = some (vote.candidate, vote.confidence * vote.weight) := by
  rw [winner?, standing, counted_singleton weighs]
  change some (vote.candidate, 0 + vote.confidence * vote.weight) = _
  rw [zero_add]

theorem leads_of_winner (h : winner? votes = some (c, s)) :
    Leads votes c ∧ s = support votes c := by
  obtain ⟨named, rfl⟩ := mem_standing.mp (List.argmax_mem h)
  refine ⟨⟨named, fun vote mem => ?_⟩, rfl⟩
  have row : (vote.candidate, support votes vote.candidate) ∈ (standing votes).rows :=
    mem_standing.mpr ⟨⟨vote, mem, rfl⟩, rfl⟩
  exact (List.le_of_mem_argmax row h :)

theorem exists_winner (h : Leads votes c) : ∃ d s, winner? votes = some (d, s) := by
  obtain ⟨vote, mem, -⟩ := h.named
  cases won : winner? votes with
  | none => exact absurd (winner?_eq_none.mp won ▸ mem) List.not_mem_nil
  | some pair => exact ⟨pair.1, pair.2, rfl⟩

/-! ### The order of the votes -/

theorem support_perm (h : votes.Perm votes') : support votes c = support votes' c :=
  (((counted_perm h).filter _).map _).sum_eq

theorem support_of_not_named (h : ¬∃ vote ∈ counted votes, vote.candidate = c) :
    support votes c = 0 := by
  rw [support, List.filter_eq_nil_iff.mpr fun vote mem same => ?_]
  · rfl
  · exact h ⟨vote, mem, of_decide_eq_true same⟩

theorem support_append (weighs : 0 < vote.weight) : support (votes ++ [vote]) vote.candidate =
      support votes vote.candidate + vote.confidence * vote.weight := by
  rw [support, counted_append, counted_singleton weighs, List.filter_append, List.map_append,
    List.sum_append]
  simp [support]

theorem Leads.perm (h : votes.Perm votes') (leads : Leads votes c) : Leads votes' c where
  named := by
    obtain ⟨vote, mem, same⟩ := leads.named
    exact ⟨vote, (counted_perm h).mem_iff.mp mem, same⟩
  greatest vote mem := by
    rw [← support_perm h, ← support_perm h]
    exact leads.greatest vote ((counted_perm h).mem_iff.mpr mem)

theorem SoleLeader.perm (h : votes.Perm votes') (sole : SoleLeader votes) : SoleLeader votes' :=
  fun c d hc hd => sole c d (hc.perm h.symm) (hd.perm h.symm)

theorem SoleLeader.winner? (sole : SoleLeader votes) (leads : Leads votes c) :
    winner? votes = some (c, support votes c) := by
  obtain ⟨d, s, won⟩ := exists_winner leads
  obtain ⟨also, rfl⟩ := leads_of_winner won
  rw [won, sole c d leads also]

variable (votes) in
theorem exists_rows_standing_cons (weighs : 0 < vote.weight) :
    ∃ s rest, (standing (vote :: votes)).rows = (vote.candidate, s) :: rest := by
  have first : counted (vote :: votes) = vote :: counted votes :=
    List.filter_cons_of_pos (decide_eq_true weighs)
  rw [standing, first, List.map_cons]
  exact GroupedSums.exists_rows_tally_cons _ _

theorem exists_perm_winner (h : Leads votes c) :
    ∃ votes', votes'.Perm votes ∧ winner? votes' = some (c, support votes c) := by
  obtain ⟨vote, counts, rfl⟩ := h.named
  obtain ⟨mem, weighs⟩ := mem_counted.mp counts
  obtain ⟨before, after, rfl⟩ := List.append_of_mem mem
  have moved : (vote :: (before ++ after)).Perm (before ++ vote :: after) := List.perm_middle.symm
  obtain ⟨s, rest, rows⟩ := exists_rows_standing_cons (before ++ after) weighs
  obtain ⟨-, rfl⟩ := mem_standing.mp (rows ▸ List.mem_cons_self)
  refine ⟨_, moved, ?_⟩
  rw [← support_perm moved]
  refine argmax_eq_presentiff.mpr ⟨[], rest, rows, by simp, fun row mem => ?_⟩
  obtain ⟨⟨other, counts', same⟩, total⟩ :=
    mem_standing.mp (rows ▸ List.mem_cons_of_mem _ mem : (row.1, row.2) ∈ _)
  rw [total, ← same]
  exact (h.perm moved.symm).greatest other counts'

/-- **The order of the votes decides nothing exactly where one candidate leads alone.** -/
theorem forall_perm_winner_iff : (∀ votes', votes.Perm votes' → winner? votes' = winner? votes) ↔
    SoleLeader votes := by
  constructor
  · intro same c d hc hd
    obtain ⟨first, moved, won⟩ := exists_perm_winner hc
    obtain ⟨second, moved', won'⟩ := exists_perm_winner hd
    rw [same first moved.symm] at won
    rw [same second moved'.symm, won] at won'
    exact (Prod.mk.inj (Option.some.inj won')).1
  · intro sole votes' h
    cases won : winner? votes with
    | none =>
      rw [winner?_eq_none] at won ⊢
      exact (won ▸ counted_perm h).symm.eq_nil
    | some pair =>
      obtain ⟨leads, total⟩ := leads_of_winner won
      rw [(sole.perm h).winner? (leads.perm h), ← support_perm h, ← total]

end Votes

/-! ### The mean -/

section Margin

variable {κ : Type u} {K : Type v} [DecidableEq κ] [Field K] [LinearOrder K]
  [IsStrictOrderedRing K]

variable {votes : List (Vote κ K)} {vote : Vote κ K} {c : κ} {s : K}

theorem support_nonneg (sure : ∀ vote ∈ votes, 0 ≤ vote.confidence) : 0 ≤ support votes c := by
  refine List.sum_nonneg fun share mem => ?_
  obtain ⟨vote, counts, rfl⟩ := List.mem_map.mp mem
  obtain ⟨listed, weighs⟩ := mem_counted.mp (List.mem_of_mem_filter counts)
  exact mul_nonneg (sure vote listed) weighs.le

theorem support_le_turnout (sure : ∀ vote ∈ votes, vote.confidence ≤ 1) :
    support votes c ≤ turnout votes := by
  rw [support, GroupedSums.sum_map_filter, turnout]
  refine List.sum_le_sum fun vote counts => ?_
  obtain ⟨listed, weighs⟩ := mem_counted.mp counts
  split
  · exact mul_le_of_le_one_left weighs.le (sure vote listed)
  · exact weighs.le

theorem margin_eq (sure : ∀ vote ∈ votes, vote.confidence ≤ 1) (present : counted votes ≠ []) :
    margin votes (support votes c) = support votes c / turnout votes :=
  min_eq_right ((div_le_one (turnout_pos present)).mpr (support_le_turnout sure))

/-! ### One more vote -/

variable (vote) in
theorem winner?_append (h : winner? votes = some (vote.candidate, s)) (weighs : 0 < vote.weight)
    (sure : 0 ≤ vote.confidence) :
    winner? (votes ++ [vote]) = some (vote.candidate, s + vote.confidence * vote.weight) := by
  obtain ⟨before, after, rows, less, atMost⟩ := argmax_eq_presentiff.mp h
  have keys := (standing votes).keys_nodup
  rw [rows, List.map_append, List.map_cons, List.nodup_append] at keys
  have known : (Dict.get (standing votes) vote.candidate).isSome := by
    rw [Dict.get_eq_some.mpr (rows ▸ List.mem_append_right _ List.mem_cons_self)]
    rfl
  have step : (standing (votes ++ [vote])).rows = (standing votes).rows.map fun row =>
      if row.1 = vote.candidate then (row.1, row.2 + vote.confidence * vote.weight) else row := by
    rw [standing_append weighs, Dict.rows_alter_of_isSome known]
  have others {part : List (κ × K)} (other : ∀ row ∈ part, row.1 ≠ vote.candidate) :
      (part.map fun row => if row.1 = vote.candidate then
        (row.1, row.2 + vote.confidence * vote.weight) else row) = part :=
    (List.map_congr_left fun row mem => if_neg (other row mem)).trans (List.map_id' _)
  have share : 0 ≤ vote.confidence * vote.weight := mul_nonneg sure weighs.le
  refine argmax_eq_presentiff.mpr ⟨before, after, ?_, fun row mem => ?_, fun row mem => ?_⟩
  · rw [step, rows, List.map_append, List.map_cons, if_pos rfl, others, others]
    · intro row mem same
      exact (List.nodup_cons.mp keys.2.1).1 (List.mem_map.mpr ⟨row, mem, same⟩)
    · intro row mem same
      exact keys.2.2 _ (List.mem_map_of_mem mem) _ List.mem_cons_self same
  · exact (less row mem).trans_le (le_add_of_nonneg_right share)
  · exact (atMost row mem).trans (le_add_of_nonneg_right share)

variable (vote) in
/-- **One more vote for a candidate does not lower its part of the turnout exactly where it is
at least as sure as the mean.** -/
theorem div_le_div_append_iff (weighs : 0 < vote.weight) (present : counted votes ≠ []) :
    support votes vote.candidate / turnout votes ≤
        support (votes ++ [vote]) vote.candidate / turnout (votes ++ [vote]) ↔
      support votes vote.candidate ≤ vote.confidence * turnout votes := by
  have before := turnout_pos present
  rw [support_append weighs, turnout_append weighs,
    div_le_div_iff₀ before (add_pos before weighs), mul_add, add_mul, add_le_add_iff_left,
    mul_right_comm, mul_le_mul_iff_left₀ weighs]

end Margin

end WeightedVotes
