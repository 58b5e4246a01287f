import Mathlib.Data.List.Basic
import Mathlib.Data.List.Induction

/-!
# Labelled machines and their runs

A `Machine` moves by a partial step function whose label carries every choice
the step makes: who acts, which clock reading it takes, which fault occurs. A
run is a finite list of labels, so a statement about every run quantifies over
every interleaving, and a concrete run can be evaluated.

`Meets` restricts a run step by step: each label is taken from a state that
satisfies a given condition. The rules below turn what one step preserves into
what a whole run preserves, with or without such a condition, and compare the
two: a reflexive and transitive relation holds between all pairs of states a
run passes exactly when each single step respects it.
-/

universe u v w x

/-- A transition system whose labels resolve all nondeterminism. A label that
cannot occur in a state has no successor there. -/
structure Machine (σ : Type u) (α : Type v) where
  step : σ → α → Option σ

namespace Machine

variable {σ : Type u} {α : Type v} (M : Machine σ α)

/-- Take the labels in order; a label without a successor ends the attempt. -/
def run : σ → List α → Option σ
  | s, [] => some s
  | s, a :: as => (M.step s a).bind fun t => run t as

/-- Every label of the run is taken from a state in which `G` allows it. -/
def Meets (G : σ → α → Prop) : σ → List α → Prop
  | _, [] => True
  | s, a :: as => G s a ∧ ∀ t, M.step s a = some t → Meets G t as

instance decidableMeets (G : σ → α → Prop) [∀ s a, Decidable (G s a)] :
    ∀ s as, Decidable (M.Meets G s as)
  | _, [] => isTrue trivial
  | s, a :: as =>
    match h : M.step s a with
    | none =>
      decidable_of_iff (G s a) (by simp [Meets, h])
    | some t =>
      have := decidableMeets G t as
      decidable_of_iff (G s a ∧ M.Meets G t as) (by simp [Meets, h])

/-- `R` relates any state the run passes to any later one. -/
def Relates (R : σ → σ → Prop) (s : σ) (as : List α) : Prop :=
  ∀ pre mid post u v, as = pre ++ mid ++ post → M.run s pre = some u → M.run u mid = some v → R u v

/-- `P` holds in every state the run passes, its first and last included. -/
def Always (P : σ → Prop) (s : σ) (as : List α) : Prop :=
  ∀ pre post u, as = pre ++ post → M.run s pre = some u → P u

/-- `R` relates every state the run passes to the next one. -/
def Stepwise (R : σ → σ → Prop) (s : σ) (as : List α) : Prop :=
  ∀ pre a post u v, as = pre ++ a :: post → M.run s pre = some u → M.step u a = some v → R u v

variable {M}

@[simp] theorem run_nil (s : σ) : M.run s [] = some s := rfl

theorem run_cons (s : σ) (a : α) (as : List α) :
    M.run s (a :: as) = (M.step s a).bind fun t => M.run t as := rfl

theorem run_cons_eq_some {s t : σ} {a : α} {as : List α} :
    M.run s (a :: as) = some t ↔ ∃ u, M.step s a = some u ∧ M.run u as = some t := by
  rw [run_cons, Option.bind_eq_some_iff]

theorem run_append (s : σ) (as bs : List α) :
    M.run s (as ++ bs) = (M.run s as).bind fun t => M.run t bs := by
  induction as generalizing s with
  | nil => rfl
  | cons a as ih =>
    simp only [List.cons_append, run_cons, Option.bind_assoc]
    congr 1
    funext t
    exact ih t

theorem run_append_eq_some {s t : σ} {as bs : List α} :
    M.run s (as ++ bs) = some t ↔ ∃ u, M.run s as = some u ∧ M.run u bs = some t := by
  rw [run_append, Option.bind_eq_some_iff]

@[simp] theorem run_singleton (s : σ) (a : α) : M.run s [a] = M.step s a := by
  simp [run_cons]

section Meets

variable {G H : σ → α → Prop} {s t : σ} {a : α} {as bs : List α}

@[simp] theorem meets_nil : M.Meets G s [] := trivial

theorem Meets.head (h : M.Meets G s (a :: as)) : G s a := h.1

theorem Meets.tail (h : M.Meets G s (a :: as)) (hs : M.step s a = some t) :
    M.Meets G t as := h.2 t hs

theorem Meets.mono (h : M.Meets G s as) (imp : ∀ s a, G s a → H s a) : M.Meets H s as := by
  induction as generalizing s with
  | nil => trivial
  | cons a as ih => exact ⟨imp s a h.1, fun t ht => ih (h.2 t ht)⟩

theorem meets_append : M.Meets G s (as ++ bs) ↔
    M.Meets G s as ∧ ∀ t, M.run s as = some t → M.Meets G t bs := by
  induction as generalizing s with
  | nil => simp
  | cons a as ih =>
    simp only [List.cons_append, Meets, run_cons_eq_some]
    constructor
    · rintro ⟨hg, h⟩
      exact ⟨⟨hg, fun t ht => (ih.mp (h t ht)).1⟩, fun t ⟨u, hu, ht⟩ => (ih.mp (h u hu)).2 t ht⟩
    · rintro ⟨⟨hg, h⟩, hb⟩
      exact ⟨hg, fun t ht => ih.mpr ⟨h t ht, fun v hv => hb v ⟨t, ht, hv⟩⟩⟩

theorem meets_iff : M.Meets G s as ↔
    ∀ pre a post u, as = pre ++ a :: post → M.run s pre = some u → G u a := by
  constructor
  · rintro h pre a post u rfl hu
    exact ((meets_append.mp h).2 u hu).1
  · intro h
    induction as generalizing s with
    | nil => trivial
    | cons a as ih =>
      refine ⟨h [] a as s rfl rfl, fun t ht => ih ?_⟩
      intro pre b post u has hu
      exact h (a :: pre) b post u (by rw [has]; rfl)
        (run_cons_eq_some.mpr ⟨t, ht, hu⟩)

end Meets

theorem Always.first {P : σ → Prop} {s : σ} {as : List α} (h : M.Always P s as) : P s :=
  h [] as s rfl rfl

theorem Always.last {P : σ → Prop} {s t : σ} {as : List α} (h : M.Always P s as)
    (run : M.run s as = some t) : P t :=
  h as [] t (by simp) run

section Invariants

variable {I P : σ → Prop} {G : σ → α → Prop} {s t : σ} {as : List α}

theorem invariant_of_meets (step : ∀ s a t, I s → G s a → M.step s a = some t → I t)
    (init : I s) (meets : M.Meets G s as) (run : M.run s as = some t) : I t := by
  induction as generalizing s with
  | nil =>
    cases run
    exact init
  | cons a as ih =>
    obtain ⟨u, hu, ht⟩ := run_cons_eq_some.mp run
    exact ih (step s a u init meets.1 hu) (meets.tail hu) ht

theorem invariant (step : ∀ s a t, I s → M.step s a = some t → I t)
    (init : I s) (run : M.run s as = some t) : I t := by
  have meets : M.Meets (fun _ _ => True) s as := by simp [meets_iff]
  exact invariant_of_meets (fun s a t hi _ => step s a t hi) init meets run

theorem Meets.of_invariant {H : σ → α → Prop} (meets : M.Meets G s as)
    (step : ∀ s a t, I s → G s a → M.step s a = some t → I t)
    (imp : ∀ s a, I s → G s a → H s a) (init : I s) : M.Meets H s as := by
  induction as generalizing s with
  | nil => trivial
  | cons a as ih =>
    exact ⟨imp s a init meets.1, fun t ht =>
      ih (meets.tail ht) (step s a t init meets.1 ht)⟩

theorem always_of_meets (step : ∀ s a t, I s → G s a → M.step s a = some t → I t)
    (init : I s) (meets : M.Meets G s as) (imp : ∀ u, I u → P u) : M.Always P s as := by
  rintro pre post u rfl hu
  exact imp u (invariant_of_meets step init (meets_append.mp meets).1 hu)

theorem always_of_invariant (step : ∀ s a t, I s → M.step s a = some t → I t)
    (init : I s) (imp : ∀ u, I u → P u) : M.Always P s as := by
  rintro pre post u rfl hu
  exact imp u (invariant step init hu)

theorem trace_invariant {J : List α → σ → Prop}
    (step : ∀ as s a t, J as s → M.step s a = some t → J (as ++ [a]) t)
    (init : J [] s) (run : M.run s as = some t) : J as t := by
  induction as using List.reverseRecOn generalizing t with
  | nil =>
    cases run
    exact init
  | append_singleton as a ih =>
    obtain ⟨u, hu, ha⟩ := run_append_eq_some.mp run
    exact step as u a t (ih hu) (by simpa using ha)

theorem trace_invariant_of_meets {J : List α → σ → Prop}
    (step : ∀ as s a t, J as s → G s a → M.step s a = some t → J (as ++ [a]) t)
    (init : J [] s) (meets : M.Meets G s as) (run : M.run s as = some t) : J as t := by
  induction as using List.reverseRecOn generalizing t with
  | nil =>
    cases run
    exact init
  | append_singleton as a ih =>
    obtain ⟨before, last⟩ := meets_append.mp meets
    obtain ⟨u, hu, ha⟩ := run_append_eq_some.mp run
    exact step as u a t (ih before hu) (last u hu).1 (by simpa using ha)

end Invariants

section Relations

variable {R : σ → σ → Prop} {I : σ → Prop} {G : σ → α → Prop} {s t : σ} {as : List α}

theorem Relates.step (h : M.Relates R s as) {pre post : List α} {a : α} {u v : σ}
    (split : as = pre ++ a :: post) (hu : M.run s pre = some u)
    (hv : M.step u a = some v) : R u v :=
  h pre [a] post u v (by simp [split]) hu (by simpa using hv)

theorem Relates.endpoints {bs : List α} {u v : σ} (h : M.Relates R s (as ++ bs))
    (hu : M.run s as = some u) (hv : M.run s (as ++ bs) = some v) : R u v := by
  obtain ⟨x, hx, hbs⟩ := run_append_eq_some.mp hv
  obtain rfl := Option.some.inj (hu.symm.trans hx)
  exact h as bs [] u v (by simp) hu hbs

/-- A preorder that every guarded step from an invariant state respects relates
all states of a guarded run, in their order. -/
theorem relates_of_meets (refl : ∀ s, R s s) (trans : ∀ {a b c}, R a b → R b c → R a c)
    (keep : ∀ s a t, I s → G s a → M.step s a = some t → I t)
    (step : ∀ s a t, I s → G s a → M.step s a = some t → R s t)
    (init : I s) (meets : M.Meets G s as) : M.Relates R s as := by
  rintro pre mid post u v rfl hu hv
  rw [List.append_assoc] at meets
  obtain ⟨before, rest⟩ := meets_append.mp meets
  have hI : I u := invariant_of_meets keep init before hu
  have hm : M.Meets G u mid := (meets_append.mp (rest u hu)).1
  clear meets before rest hu
  induction mid generalizing u with
  | nil =>
    cases hv
    exact refl _
  | cons a mid ih =>
    obtain ⟨x, hx, hv⟩ := run_cons_eq_some.mp hv
    exact trans (step u a x hI hm.1 hx)
      (ih x hv (keep u a x hI hm.1 hx) (hm.tail hx))

theorem relates_of_invariant (refl : ∀ s, R s s) (trans : ∀ {a b c}, R a b → R b c → R a c)
    (keep : ∀ s a t, I s → M.step s a = some t → I t)
    (step : ∀ s a t, I s → M.step s a = some t → R s t) (init : I s) :
    M.Relates R s as := by
  have meets : M.Meets (fun _ _ => True) s as := by simp [meets_iff]
  exact relates_of_meets refl trans (fun s a t hI _ => keep s a t hI)
    (fun s a t hI _ => step s a t hI) init meets

theorem relates_iff_meets (refl : ∀ s, R s s) (trans : ∀ {a b c}, R a b → R b c → R a c)
    (keep : ∀ s a t, I s → M.step s a = some t → I t)
    (step : ∀ s a t, I s → M.step s a = some t → (R s t ↔ G s a))
    (skip : ∀ s a, M.step s a = none → G s a)
    (init : I s) : M.Relates R s as ↔ M.Meets G s as := by
  constructor
  · intro h
    rw [meets_iff]
    intro pre a post u split hu
    have hI : I u := invariant keep init hu
    cases hv : M.step u a with
    | none => exact skip u a hv
    | some v => exact (step u a v hI hv).mp (h.step split hu hv)
  · intro h
    exact relates_of_meets refl trans (fun s a t hI _ => keep s a t hI)
      (fun s a t hI hG hst => (step s a t hI hst).mpr hG) init h

theorem stepwise_iff_meets (keep : ∀ s a t, I s → M.step s a = some t → I t)
    (step : ∀ s a t, I s → M.step s a = some t → (R s t ↔ G s a))
    (skip : ∀ s a, M.step s a = none → G s a)
    (init : I s) : M.Stepwise R s as ↔ M.Meets G s as := by
  rw [meets_iff]
  constructor
  · intro h pre a post u split hu
    cases hv : M.step u a with
    | none => exact skip u a hv
    | some v => exact (step u a v (invariant keep init hu) hv).mp (h pre a post u v split hu hv)
  · intro h pre a post u v split hu hv
    exact (step u a v (invariant keep init hu) hv).mpr (h pre a post u split hu)

/-- A property holds in every state of a run, and each label of it is lawful,
exactly when each label meets a condition that says when a step keeps the
property and is lawful. -/
theorem always_and_meets_iff {P : σ → Prop} {L : σ → α → Prop}
    (step : ∀ s a t, P s → M.step s a = some t → (P t ∧ L s a ↔ G s a))
    (skip : ∀ s a, M.step s a = none → L s a ∧ G s a)
    (init : P s) : M.Always P s as ∧ M.Meets L s as ↔ M.Meets G s as := by
  constructor
  · rintro ⟨always, lawful⟩
    rw [meets_iff] at lawful ⊢
    intro pre a post u split hu
    cases hv : M.step u a with
    | none => exact (skip u a hv).2
    | some v =>
      have after : M.run s (pre ++ [a]) = some v :=
        run_append_eq_some.mpr ⟨u, hu, by rw [run_singleton, hv]⟩
      refine (step u a v (always pre (a :: post) u split hu) hv).mp ⟨?_, ?_⟩
      · exact always (pre ++ [a]) post v (by simp [split]) after
      · exact lawful pre a post u split hu
  · intro h
    have always : M.Always P s as :=
      always_of_meets (fun s a t hP hG hst => ((step s a t hP hst).mpr hG).1) init h
        fun _ hP => hP
    refine ⟨always, meets_iff.mpr fun pre a post u split hu => ?_⟩
    cases hv : M.step u a with
    | none => exact (skip u a hv).1
    | some v =>
      have hG : G u a := meets_iff.mp h pre a post u split hu
      exact ((step u a v (always pre (a :: post) u split hu) hv).mpr hG).2

theorem always_iff_meets {P : σ → Prop} (step : ∀ s a t, P s → M.step s a = some t → (P t ↔ G s a))
    (skip : ∀ s a, M.step s a = none → G s a)
    (init : P s) : M.Always P s as ↔ M.Meets G s as := by
  have free : M.Meets (fun _ _ => True) s as := by simp [meets_iff]
  rw [← always_and_meets_iff (L := fun _ _ => True)
    (fun s a t hP hst => by rw [and_true, step s a t hP hst])
    (fun s a hst => ⟨trivial, skip s a hst⟩) init]
  exact (and_iff_left free).symm

/-- The same, where that condition needs an invariant of the guarded steps to
say when they keep the property. -/
theorem always_iff_meets_of_invariant {P : σ → Prop}
    (keep : ∀ s a t, I s → G s a → M.step s a = some t → I t)
    (holds : ∀ s, I s → P s)
    (breaks : ∀ s a t, I s → M.step s a = some t → P t → G s a)
    (skip : ∀ s a, M.step s a = none → G s a)
    (init : I s) : M.Always P s as ↔ M.Meets G s as := by
  constructor
  · intro always
    induction as generalizing s with
    | nil => trivial
    | cons a as ih =>
      cases hst : M.step s a with
      | none => exact ⟨skip s a hst, fun t ht => by simp [hst] at ht⟩
      | some t =>
        have rest : M.Always P t as := fun pre post u split hu =>
          always (a :: pre) post u (by rw [split]; rfl)
            (run_cons_eq_some.mpr ⟨t, hst, hu⟩)
        have hG : G s a := breaks s a t init hst rest.first
        refine ⟨hG, fun t' ht' => ?_⟩
        obtain rfl := Option.some.inj (hst.symm.trans ht')
        exact ih (keep s a t init hG hst) rest
  · intro meets
    exact always_of_meets keep init meets holds

/-- A property that only some steps lose, and none regains, holds at the end of a
lawful run exactly when it holds at the start and no step loses it. -/
theorem last_iff_meets {P : σ → Prop} {L : σ → α → Prop}
    (keep : ∀ s a t, I s → L s a → M.step s a = some t → I t)
    (step : ∀ s a t, I s → L s a → M.step s a = some t → (P t ↔ P s ∧ G s a))
    (init : I s) (lawful : M.Meets L s as) (run : M.run s as = some t) :
    P t ↔ P s ∧ M.Meets G s as := by
  induction as generalizing s with
  | nil =>
    cases run
    exact (and_iff_left trivial).symm
  | cons a as ih =>
    obtain ⟨u, hu, ht⟩ := run_cons_eq_some.mp run
    rw [ih (keep s a u init lawful.1 hu) (lawful.tail hu) ht, step s a u init lawful.1 hu,
      and_assoc]
    refine and_congr_right fun _ => and_congr_right fun _ => ?_
    constructor
    · intro rest u' hu'
      obtain rfl := Option.some.inj (hu.symm.trans hu')
      exact rest
    · exact fun rest => rest u hu

/-- A run comes to its end and each step of it is lawful exactly when each label can be taken
lawfully. -/
theorem ends_and_meets_iff {L : σ → α → σ → Prop} :
    (∃ t, M.run s as = some t) ∧ M.Meets (fun u a => ∀ v, M.step u a = some v → L u a v) s as ↔
      M.Meets (fun u a => ∃ v, M.step u a = some v ∧ L u a v) s as := by
  induction as generalizing s with
  | nil => exact ⟨fun _ => trivial, fun _ => ⟨⟨s, rfl⟩, trivial⟩⟩
  | cons a as ih =>
    constructor
    · rintro ⟨⟨t, ends⟩, lawful, rest⟩
      obtain ⟨u, taken, ends⟩ := run_cons_eq_some.mp ends
      refine ⟨⟨u, taken, lawful u taken⟩, fun v taken' => ?_⟩
      obtain rfl := Option.some.inj (taken.symm.trans taken')
      exact ih.mp ⟨⟨t, ends⟩, rest u taken⟩
    · rintro ⟨⟨u, taken, lawful⟩, rest⟩
      obtain ⟨⟨t, ends⟩, later⟩ := ih.mpr (rest u taken)
      refine ⟨⟨t, run_cons_eq_some.mpr ⟨u, taken, ends⟩⟩, fun v taken' => ?_, fun v taken' => ?_⟩
      · obtain rfl := Option.some.inj (taken.symm.trans taken')
        exact lawful
      · obtain rfl := Option.some.inj (taken.symm.trans taken')
        exact later

end Relations

end Machine
