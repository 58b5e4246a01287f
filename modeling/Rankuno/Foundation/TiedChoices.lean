import Mathlib.Data.List.Nodup
import Mathlib.Data.Nat.Find
import Rankuno.Foundation.TieredIndex

/-!
# Choosing among tied candidates

One candidate is picked for each key, and any of the best ones may be. What the picks
claim is looked up look by look, and the first look at which any of them has a claim
decides, as in `TieredIndex`. Whatever is picked, the answer is the same exactly when
nothing can have a claim, or two keys are certain to have the first one together, or one
key is certain to have it alone and under one label.
-/

universe u v w x

namespace TiedChoices

open TieredIndex

variable {α : Type u} {κ : Type v} {ι : Type w} {τ : Type x}

/-- One of the best candidates for each key. -/
structure Selects (key : α → κ) (best : α → Prop) (picked : List α) : Prop where
  nodup : (picked.map key).Nodup
  own : ∀ a ∈ picked, best a
  total : ∀ a, best a → ∃ b ∈ picked, key b = key a

section Decided

variable (claims : ι → α → Bool) (label : ι → τ)

/-- The first look at which anything picked has a claim decides. -/
def decided (picked : List α) : List ι → Verdict α τ
  | [] => .unknown
  | look :: looks =>
    (verdictIn (label look) (picked.filter (claims look))).orElse (decided picked looks)

/-- How many looks pass before the first claim of a candidate. -/
def rank (looks : List ι) (a : α) : Nat := looks.findIdx fun look => claims look a

/-- The label of the look with this number. -/
def labelAt (looks : List ι) (i : Nat) : Option τ := (looks[i]?).map label

variable {claims label} {picked : List α} {looks : List ι} {look : ι} {a : α} {l : τ}

theorem rank_cons_of_claims (h : claims look a = true) : rank claims (look :: looks) a = 0 := by
  rw [rank, List.findIdx_cons, h]
  rfl

theorem rank_cons_of_not (h : claims look a = false) :
    rank claims (look :: looks) a = rank claims looks a + 1 := by
  rw [rank, List.findIdx_cons, h]
  rfl

theorem claims_of_rank_eq_zero (h : rank claims (look :: looks) a = 0) : claims look a = true := by
  cases claimed : claims look a with
  | true => rfl
  | false =>
    rw [rank_cons_of_not claimed] at h
    exact absurd h (Nat.succ_ne_zero _)

theorem labelAt_cons_succ {i : Nat} :
    labelAt label (look :: looks) (i + 1) = labelAt label looks i := rfl

theorem rank_le_length : rank claims looks a ≤ looks.length := List.findIdx_le_length

theorem labelAt_rank_isSome : (labelAt label looks (rank claims looks a)).isSome ↔
    ∃ look ∈ looks, claims look a = true := by
  induction looks with
  | nil => simp [labelAt]
  | cons look looks ih =>
    rw [List.exists_mem_cons_iff]
    cases claimed : claims look a with
    | true => simp [rank_cons_of_claims claimed, labelAt]
    | false => simp [rank_cons_of_not claimed, labelAt_cons_succ, ih]

variable (label looks) in
theorem decided_cons_of_none (none : picked.filter (claims look) = []) :
    decided claims label picked (look :: looks) = decided claims label picked looks ∧
      ∀ a ∈ picked, rank claims (look :: looks) a = rank claims looks a + 1 := by
  refine ⟨?_, fun a mem => rank_cons_of_not ?_⟩
  · rw [decided, none]
    rfl
  · exact Bool.eq_false_iff.mpr (List.filter_eq_nil_iff.mp none a mem)

theorem decided_append {more : List ι} : decided claims label picked (looks ++ more) =
    (decided claims label picked looks).orElse (decided claims label picked more) := by
  induction looks with
  | nil => rfl
  | cons look looks ih => rw [List.cons_append, decided, decided, ih, orElse_assoc]

theorem only_of_filter_eq_singleton {b : α} (first : picked.filter (claims look) = [b]) :
    b ∈ picked ∧ claims look b = true ∧ ∀ c ∈ picked, claims look c = true → c = b := by
  have listing (c : α) : c ∈ picked ∧ claims look c = true ↔ c = b := by
    rw [← List.mem_filter, first, List.mem_singleton]
  exact ⟨((listing b).mpr rfl).1, ((listing b).mpr rfl).2,
    fun c mem claimed => (listing c).mp ⟨mem, claimed⟩⟩

theorem both_of_filter_eq_cons {b c : α} {more : List α} (distinct : picked.Nodup)
    (first : picked.filter (claims look) = b :: c :: more) :
    (b ∈ picked ∧ claims look b = true) ∧ (c ∈ picked ∧ claims look c = true) ∧ b ≠ c := by
  have inside : ∀ d ∈ b :: c :: more, d ∈ picked ∧ claims look d = true :=
    fun d listed => List.mem_filter.mp (first ▸ listed)
  refine ⟨inside b (by simp), inside c (by simp), ?_⟩
  have all := distinct.filter (claims look)
  rw [first] at all
  rintro rfl
  exact (List.nodup_cons.mp all).1 List.mem_cons_self

theorem decided_eq_unknown : decided claims label picked looks = .unknown ↔
    ∀ a ∈ picked, labelAt label looks (rank claims looks a) = none := by
  induction looks with
  | nil => simp [decided, labelAt]
  | cons look looks ih =>
    match first : picked.filter (claims look) with
    | [] =>
      obtain ⟨rest, ranks⟩ := decided_cons_of_none label looks first
      rw [rest, ih]
      refine forall₂_congr fun a mem => ?_
      rw [ranks a mem, labelAt_cons_succ]
    | a :: more =>
      have mem : a ∈ picked.filter (claims look) := first ▸ List.mem_cons_self
      obtain ⟨mem, claimed⟩ := List.mem_filter.mp mem
      have known : decided claims label picked (look :: looks) ≠ .unknown := by
        rw [decided, first]
        cases more with
        | nil => simp [verdictIn, Verdict.orElse]
        | cons b more => simp [verdictIn, Verdict.orElse]
      refine iff_of_false known fun none => ?_
      have here := none a mem
      rw [rank_cons_of_claims claimed] at here
      cases here

theorem decided_ne_unknown : decided claims label picked looks ≠ .unknown ↔
    ∃ a ∈ picked, ∃ look ∈ looks, claims look a = true := by
  rw [Ne, decided_eq_unknown]
  push Not
  refine exists_congr fun a => and_congr_right fun _ => ?_
  rw [← Option.isSome_iff_ne_none]
  exact labelAt_rank_isSome

theorem decided_eq_owned (distinct : picked.Nodup) :
    decided claims label picked looks = .owned a l ↔
      a ∈ picked ∧ labelAt label looks (rank claims looks a) = some l ∧
        ∀ b ∈ picked, b ≠ a → rank claims looks a < rank claims looks b := by
  induction looks with
  | nil => simp [decided, labelAt]
  | cons look looks ih =>
    match first : picked.filter (claims look) with
    | [] =>
      obtain ⟨rest, ranks⟩ := decided_cons_of_none label looks first
      rw [rest, ih]
      refine and_congr_right fun mem => ?_
      rw [ranks a mem, labelAt_cons_succ]
      refine and_congr_right fun _ => forall₂_congr fun b listed => ?_
      rw [ranks b listed, Nat.add_lt_add_iff_right]
    | [b] =>
      obtain ⟨mem, claimed, only⟩ := only_of_filter_eq_singleton first
      rw [decided, first]
      constructor
      · intro h
        cases h
        refine ⟨mem, by rw [rank_cons_of_claims claimed]; rfl, fun c listed other => ?_⟩
        rw [rank_cons_of_claims claimed, Nat.pos_iff_ne_zero]
        exact fun zero => other (only c listed (claims_of_rank_eq_zero zero))
      · rintro ⟨listed, labelled, before⟩
        by_cases same : b = a
        · subst same
          rw [rank_cons_of_claims claimed] at labelled
          cases labelled
          rfl
        · have early := before b mem same
          rw [rank_cons_of_claims claimed] at early
          exact absurd early (Nat.not_lt_zero _)
    | b :: c :: more =>
      obtain ⟨hb, hc, apart⟩ := both_of_filter_eq_cons distinct first
      rw [decided, first]
      refine iff_of_false (fun h => by cases h) ?_
      rintro ⟨listed, -, before⟩
      have early (d : α) (hd : d ∈ picked ∧ claims look d = true) : d = a := by
        by_contra other
        have early := before d hd.1 other
        rw [rank_cons_of_claims hd.2] at early
        exact Nat.not_lt_zero _ early
      exact apart ((early b hb).trans (early c hc).symm)

theorem decided_eq_ambiguous (distinct : picked.Nodup) :
    decided claims label picked looks = .ambiguous ↔
      ∃ a ∈ picked, ∃ b ∈ picked, a ≠ b ∧ rank claims looks b = rank claims looks a ∧
        (labelAt label looks (rank claims looks a)).isSome ∧
        ∀ c ∈ picked, rank claims looks a ≤ rank claims looks c := by
  induction looks with
  | nil => simp [decided, labelAt]
  | cons look looks ih =>
    match first : picked.filter (claims look) with
    | [] =>
      obtain ⟨rest, ranks⟩ := decided_cons_of_none label looks first
      rw [rest, ih]
      refine exists_congr fun a => and_congr_right fun mem => ?_
      refine exists_congr fun b => and_congr_right fun listed => and_congr_right fun _ => ?_
      rw [ranks a mem, ranks b listed, labelAt_cons_succ, Nat.add_right_cancel_iff]
      refine and_congr_right fun _ => and_congr_right fun _ => forall₂_congr fun c among => ?_
      rw [ranks c among, Nat.add_le_add_iff_right]
    | [b] =>
      obtain ⟨mem, claimed, only⟩ := only_of_filter_eq_singleton first
      rw [decided, first]
      refine iff_of_false (fun h => by cases h) ?_
      rintro ⟨c, listed, d, among, apart, same, -, least⟩
      have early := least b mem
      rw [rank_cons_of_claims claimed, Nat.le_zero] at early
      rw [early] at same
      exact apart ((only c listed (claims_of_rank_eq_zero early)).trans
        (only d among (claims_of_rank_eq_zero same)).symm)
    | b :: c :: more =>
      obtain ⟨hb, hc, apart⟩ := both_of_filter_eq_cons distinct first
      rw [decided, first]
      refine iff_of_true rfl ⟨b, hb.1, c, hc.1, apart, ?_, ?_, fun d _ => ?_⟩
      · rw [rank_cons_of_claims hb.2, rank_cons_of_claims hc.2]
      · rw [rank_cons_of_claims hb.2]
        rfl
      · rw [rank_cons_of_claims hb.2]
        exact Nat.zero_le _

theorem exists_look_of_decided (h : decided claims label picked looks = .owned a l) :
    ∃ before look after, looks = before ++ look :: after ∧
      (∀ earlier ∈ before, ∀ b ∈ picked, claims earlier b = false) ∧
      picked.filter (claims look) = [a] ∧ label look = l := by
  induction looks with
  | nil => cases h
  | cons look looks ih =>
    rw [decided] at h
    match first : picked.filter (claims look) with
    | [] =>
      rw [first] at h
      obtain ⟨before, later, after, rfl, unclaimed, sole, labelled⟩ := ih h
      refine ⟨look :: before, later, after, rfl, List.forall_mem_cons.mpr ⟨?_, unclaimed⟩, sole,
        labelled⟩
      exact fun b mem => Bool.eq_false_iff.mpr (List.filter_eq_nil_iff.mp first b mem)
    | [b] =>
      rw [first] at h
      cases h
      exact ⟨[], look, looks, rfl, List.forall_mem_nil _, first, rfl⟩
    | _ :: _ :: _ =>
      rw [first] at h
      cases h

end Decided

theorem exists_least {P : α → Prop} (f : α → Nat) (h : ∃ a, P a) :
    ∃ a, P a ∧ ∀ b, P b → f a ≤ f b := by
  classical
  have values : ∃ n, ∃ a, P a ∧ f a = n := h.imp' f fun a ha => ⟨a, ha, rfl⟩
  obtain ⟨a, ha, same⟩ := Nat.find_spec values
  exact ⟨a, ha, fun b hb => same ▸ Nat.find_min' values ⟨b, hb, rfl⟩⟩

theorem exists_greatest {P : α → Prop} (f : α → Nat) {bound : Nat} (bounded : ∀ a, f a ≤ bound)
    (h : ∃ a, P a) : ∃ a, P a ∧ ∀ b, P b → f b ≤ f a := by
  obtain ⟨a, ha, least⟩ := exists_least (fun a => bound - f a) h
  refine ⟨a, ha, fun b hb => ?_⟩
  have := least b hb
  have := bounded a
  have := bounded b
  omega

section Selects

variable {key : α → κ} {best : α → Prop} {picked : List α} {a : α}

theorem Selects.distinct (h : Selects key best picked) : picked.Nodup := h.nodup.of_map

theorem Selects.eq_of_key (h : Selects key best picked) {b : α} (ha : a ∈ picked)
    (hb : b ∈ picked) (same : key a = key b) : a = b :=
  List.inj_on_of_nodup_map h.nodup ha hb same

theorem exists_selects {all : List α} (finite : ∀ a, best a → a ∈ all) (good : α → Prop)
    (h : ∀ a, best a → ∃ b, best b ∧ key b = key a ∧ good b) :
    ∃ picked, Selects key best picked ∧ ∀ a ∈ picked, good a := by
  suffices listed : ∀ names : List α, ∃ picked : List α, (picked.map key).Nodup ∧
      (∀ a ∈ picked, best a ∧ good a) ∧ ∀ a ∈ names, best a → ∃ b ∈ picked, key b = key a by
    obtain ⟨picked, nodup, own, total⟩ := listed all
    exact ⟨picked, ⟨nodup, fun a mem => (own a mem).1, fun a ha => total a (finite a ha) ha⟩,
      fun a mem => (own a mem).2⟩
  intro names
  induction names with
  | nil => exact ⟨[], List.nodup_nil, List.forall_mem_nil _, List.forall_mem_nil _⟩
  | cons a names ih =>
    obtain ⟨picked, nodup, own, total⟩ := ih
    by_cases new : best a ∧ key a ∉ picked.map key
    · obtain ⟨b, hb, same, fine⟩ := h a new.1
      refine ⟨b :: picked, ?_, List.forall_mem_cons.mpr ⟨⟨hb, fine⟩, own⟩,
        List.forall_mem_cons.mpr ⟨fun _ => ⟨b, List.mem_cons_self, same⟩, fun c mem hc => ?_⟩⟩
      · rw [List.map_cons, List.nodup_cons, same]
        exact ⟨new.2, nodup⟩
      · obtain ⟨d, listed, equal⟩ := total c mem hc
        exact ⟨d, List.mem_cons_of_mem _ listed, equal⟩
    · refine ⟨picked, nodup, own, List.forall_mem_cons.mpr ⟨fun ha => ?_, total⟩⟩
      exact List.mem_map.mp (not_not.mp fun fresh => new ⟨ha, fresh⟩)

theorem Selects.swap [DecidableEq κ] (h : Selects key best picked) (ha : best a) :
    Selects key best (a :: picked.filter fun b => key b ≠ key a) where
  nodup := by
    rw [List.map_cons, List.nodup_cons, List.mem_map]
    refine ⟨?_, h.nodup.sublist (List.filter_sublist.map key)⟩
    rintro ⟨b, mem, same⟩
    simp [same] at mem
  own := List.forall_mem_cons.mpr ⟨ha, fun b mem => h.own b (List.mem_filter.mp mem).1⟩
  total b hb := by
    by_cases same : key a = key b
    · exact ⟨a, List.mem_cons_self, same⟩
    · obtain ⟨c, mem, equal⟩ := h.total b hb
      refine ⟨c, List.mem_cons_of_mem _ (List.mem_filter.mpr ⟨mem, ?_⟩), equal⟩
      rw [equal]
      exact decide_eq_true (Ne.symm same)

variable {all : List α} (finite : ∀ a, best a → a ∈ all)
include finite

theorem forall_selects_exists (P : α → Prop) :
    (∀ picked, Selects key best picked → ∃ a ∈ picked, P a) ↔
      ∃ a, best a ∧ ∀ b, best b → key b = key a → P b := by
  constructor
  · intro h
    by_contra fails
    push Not at fails
    obtain ⟨picked, selects, bad⟩ := exists_selects finite (fun a => ¬P a) fails
    obtain ⟨a, mem, holds⟩ := h picked selects
    exact bad a mem holds
  · rintro ⟨a, ha, holds⟩ picked selects
    obtain ⟨b, mem, same⟩ := selects.total a ha
    exact ⟨b, mem, holds b (selects.own b mem) same⟩

theorem forall_selects_forall [DecidableEq κ] (P : α → Prop) :
    (∀ picked, Selects key best picked → ∀ a ∈ picked, P a) ↔ ∀ a, best a → P a := by
  constructor
  · intro h a ha
    obtain ⟨picked, selects, -⟩ := exists_selects finite (fun _ => True) fun b hb =>
      ⟨b, hb, rfl, trivial⟩
    exact h _ (selects.swap ha) a List.mem_cons_self
  · exact fun h picked selects a mem => h a (selects.own a mem)

end Selects

/-- A verdict on candidates, as one on their keys. -/
def keyed (key : α → κ) : Verdict α τ → Verdict κ τ
  | .unknown => .unknown
  | .ambiguous => .ambiguous
  | .owned a l => .owned (key a) l

section Settled

variable (claims : ι → α → Bool) (label : ι → τ) (key : α → κ) (best : α → Prop)
  (looks : List ι)

/-- Whatever is picked, nothing has a claim, or two keys have the first one together, or one
key has it alone and under one label. -/
inductive Settled : Prop
  | unclaimed (never : ∀ a, best a → labelAt label looks (rank claims looks a) = none)
  | contested (a b : α) (first : best a) (second : best b) (apart : key a ≠ key b)
    (labelled : (labelAt label looks (rank claims looks a)).isSome)
    (together : ∀ c, best c → key c = key a ∨ key c = key b →
      rank claims looks c = rank claims looks a)
    (least : ∀ c, best c → rank claims looks a ≤ rank claims looks c)
  | sole (a : α) (l : τ) (first : best a)
    (labelled : ∀ c, best c → key c = key a → labelAt label looks (rank claims looks c) = some l)
    (before : ∀ c d, best c → best d → key c = key a → key d ≠ key a →
      rank claims looks c < rank claims looks d)

variable {claims label key best looks} {all picked : List α}

variable {verdict : Verdict α τ}

theorem keyed_eq_owned {k : κ} {l : τ} :
    keyed key verdict = .owned k l ↔ ∃ a, verdict = .owned a l ∧ key a = k := by
  cases verdict with
  | unknown => simp [keyed]
  | ambiguous => simp [keyed]
  | owned a l' => simp [keyed, and_comm, eq_comm]

theorem keyed_eq_unknown :
    keyed key verdict = .unknown ↔ verdict = .unknown := by
  cases verdict with
  | unknown => simp [keyed]
  | ambiguous => simp [keyed]
  | owned a l => simp [keyed]

theorem keyed_eq_ambiguous :
    keyed key verdict = .ambiguous ↔ verdict = .ambiguous := by
  cases verdict with
  | unknown => simp [keyed]
  | ambiguous => simp [keyed]
  | owned a l => simp [keyed]

theorem Settled.exists_verdict (h : Settled claims label key best looks) :
    ∃ verdict, ∀ picked, Selects key best picked →
      keyed key (decided claims label picked looks) = verdict := by
  cases h with
  | unclaimed never =>
    refine ⟨.unknown, fun picked selects => keyed_eq_unknown.mpr ?_⟩
    exact decided_eq_unknown.mpr fun a mem => never a (selects.own a mem)
  | contested a b first second apart labelled together least =>
    refine ⟨.ambiguous, fun picked selects => keyed_eq_ambiguous.mpr ?_⟩
    obtain ⟨c, hc, sameC⟩ := selects.total a first
    obtain ⟨d, hd, sameD⟩ := selects.total b second
    have rankC := together c (selects.own c hc) (Or.inl sameC)
    have rankD := together d (selects.own d hd) (Or.inr sameD)
    refine (decided_eq_ambiguous selects.distinct).mpr
      ⟨c, hc, d, hd, ?_, rankD.trans rankC.symm, rankC ▸ labelled, fun e he => ?_⟩
    · rintro rfl
      exact apart (sameC.symm.trans sameD)
    · exact rankC ▸ least e (selects.own e he)
  | sole a l first labelled before =>
    refine ⟨.owned (key a) l, fun picked selects => keyed_eq_owned.mpr ?_⟩
    obtain ⟨c, hc, same⟩ := selects.total a first
    refine ⟨c, (decided_eq_owned selects.distinct).mpr
      ⟨hc, labelled c (selects.own c hc) same, fun d hd other => ?_⟩, same⟩
    refine before c d (selects.own c hc) (selects.own d hd) same fun equal => other ?_
    exact selects.eq_of_key hd hc (equal.trans same.symm)

theorem settled_of_ambiguous [DecidableEq κ] (finite : ∀ a, best a → a ∈ all)
    (h : ∀ picked, Selects key best picked → decided claims label picked looks = .ambiguous) :
    Settled claims label key best looks := by
  obtain ⟨worst, selects, latest⟩ := exists_selects finite
    (fun a => ∀ b, best b → key b = key a → rank claims looks b ≤ rank claims looks a)
    fun a ha => by
      obtain ⟨b, ⟨hb, same⟩, greatest⟩ : ∃ b, (best b ∧ key b = key a) ∧
          ∀ c, best c ∧ key c = key a → rank claims looks c ≤ rank claims looks b :=
        exists_greatest _ (fun _ => rank_le_length) ⟨a, ha, rfl⟩
      exact ⟨b, hb, same, fun c hc equal => greatest c ⟨hc, equal.trans same⟩⟩
  obtain ⟨b, hb, c, hc, apart, same, labelled, first⟩ :=
    (decided_eq_ambiguous selects.distinct).mp (h worst selects)
  obtain ⟨m, hm, least⟩ : ∃ m, best m ∧ ∀ a, best a → rank claims looks m ≤ rank claims looks a :=
    exists_least _ ⟨b, selects.own b hb⟩
  -- With the earliest candidate of all in the place of its key's last one, another key's last
  -- one comes as early.
  obtain ⟨e, he, early⟩ : ∃ e ∈ worst, rank claims looks e ≤ rank claims looks m := by
    have swapped := selects.swap hm
    obtain ⟨d, hd, e, he, other, level, -, earliest⟩ :=
      (decided_eq_ambiguous swapped.distinct).mp (h _ swapped)
    have ahead := earliest m List.mem_cons_self
    rcases List.mem_cons.mp hd with rfl | hd
    · rcases List.mem_cons.mp he with rfl | he
      · exact absurd rfl other
      · exact ⟨e, (List.mem_filter.mp he).1, Nat.le_of_eq level⟩
    · exact ⟨d, (List.mem_filter.mp hd).1, ahead⟩
  have bottom : rank claims looks b = rank claims looks m :=
    Nat.le_antisymm (Nat.le_trans (first e he) early) (least b (selects.own b hb))
  refine .contested b c (selects.own b hb) (selects.own c hc)
    (fun equal => apart (selects.eq_of_key hb hc equal)) labelled ?_ fun d hd => bottom ▸ least d hd
  rintro d hd (equal | equal)
  · exact Nat.le_antisymm (latest b hb d hd equal) (bottom ▸ least d hd)
  · exact Nat.le_antisymm (same ▸ latest c hc d hd equal) (bottom ▸ least d hd)

theorem settled_of_constant [DecidableEq κ] (finite : ∀ a, best a → a ∈ all)
    {verdict : Verdict κ τ} (h : ∀ picked, Selects key best picked →
      keyed key (decided claims label picked looks) = verdict) :
    Settled claims label key best looks := by
  obtain ⟨picks, selects, -⟩ := exists_selects finite (fun _ => True) fun b hb =>
    ⟨b, hb, rfl, trivial⟩
  cases verdict with
  | unknown =>
    refine .unclaimed fun a ha => ?_
    exact decided_eq_unknown.mp (keyed_eq_unknown.mp (h _ (selects.swap ha))) a
      List.mem_cons_self
  | ambiguous =>
    exact settled_of_ambiguous finite fun picked selects =>
      keyed_eq_ambiguous.mp (h picked selects)
  | owned k l =>
    have owner : ∀ picked, Selects key best picked → ∃ a ∈ picked, key a = k ∧
        labelAt label looks (rank claims looks a) = some l ∧
        ∀ b ∈ picked, b ≠ a → rank claims looks a < rank claims looks b := by
      intro picked selects
      obtain ⟨a, owned, same⟩ := keyed_eq_owned.mp (h picked selects)
      obtain ⟨mem, labelled, before⟩ := (decided_eq_owned selects.distinct).mp owned
      exact ⟨a, mem, same, labelled, before⟩
    obtain ⟨a, ha, rfl, -⟩ := owner picks selects
    -- What is picked for the key is the owner.
    have own : ∀ picked, Selects key best picked → ∀ c ∈ picked, key c = key a →
        labelAt label looks (rank claims looks c) = some l ∧
        ∀ b ∈ picked, b ≠ c → rank claims looks c < rank claims looks b := by
      intro picked selects c hc equal
      obtain ⟨d, hd, same, labelled, before⟩ := owner picked selects
      obtain rfl := selects.eq_of_key hc hd (equal.trans same.symm)
      exact ⟨labelled, before⟩
    refine .sole a l (selects.own a ha) (fun c hc equal => ?_) fun c d hc hd equal other => ?_
    · exact (own _ (selects.swap hc) c List.mem_cons_self equal).1
    · have both := (selects.swap hd).swap hc
      refine (own _ both c List.mem_cons_self equal).2 d ?_ fun same => other (same ▸ equal)
      refine List.mem_cons_of_mem _ (List.mem_filter.mpr ⟨List.mem_cons_self, ?_⟩)
      exact decide_eq_true fun same => other (same.trans equal)

end Settled

end TiedChoices
