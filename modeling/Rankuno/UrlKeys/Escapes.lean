import Rankuno.Python.QueryRoundTrip
import Rankuno.UrlKeys.Normalize

/-!
# What decoding leaves in place

Decoding the escapes of a path works segment by segment, makes nothing longer and brings
forth no character that has a meaning in a URL.
-/

namespace Rankuno.UrlKeys

open Python Python.Text Python.Urllib

/-- The text begins with the two digits of an escape. -/
def StartsHex (s : Text) : Prop :=
  ∃ a b t, s = a :: b :: t ∧ ((hexDigit? a).isSome && (hexDigit? b).isSome) = true

section Run

variable {waiting : List (Char × Char)} {a b c : Char} {s t : Text}

theorem decodeRun_plain (waiting : List (Char × Char)) (h : c ≠ '%' ∨ ¬StartsHex s) :
    decodeRun waiting (c :: s) = decodeEscapes waiting ++ c :: decodeRun [] s := by
  by_cases escape : c = '%'
  · subst escape
    have digits := h.resolve_left (not_not_intro rfl)
    cases s with
    | nil => rfl
    | cons a s =>
      cases s with
      | nil => rfl
      | cons b s =>
        rw [decodeRun, if_neg fun both => digits ⟨a, b, s, rfl, both⟩]
  · rw [decodeRun]
    rintro a b t rfl
    exact absurd rfl escape

theorem decodeRun_structural (waiting : List (Char × Char))
    (digits : ((hexDigit? a).isSome && (hexDigit? b).isSome) = true)
    (structural : (upperDigit a, upperDigit b) ∈ structuralEscapes) (s : Text) :
    decodeRun waiting ('%' :: a :: b :: s) =
      decodeEscapes waiting ++ '%' :: upperDigit a :: upperDigit b :: decodeRun [] s := by
  rw [decodeRun, if_pos digits, if_pos structural]

theorem decodeRun_waits (waiting : List (Char × Char))
    (digits : ((hexDigit? a).isSome && (hexDigit? b).isSome) = true)
    (plain : (upperDigit a, upperDigit b) ∉ structuralEscapes) (s : Text) :
    decodeRun waiting ('%' :: a :: b :: s) = decodeRun (waiting ++ [(a, b)]) s := by
  rw [decodeRun, if_pos digits, if_neg plain]

theorem decodeRun_induction {motive : List (Char × Char) → Text → Prop}
    (nil : ∀ waiting, motive waiting [])
    (plain : ∀ waiting c s, c ≠ '%' ∨ ¬StartsHex s → motive [] s → motive waiting (c :: s))
    (structural : ∀ waiting a b s, ((hexDigit? a).isSome && (hexDigit? b).isSome) = true →
      (upperDigit a, upperDigit b) ∈ structuralEscapes → motive [] s →
      motive waiting ('%' :: a :: b :: s))
    (waits : ∀ waiting a b s, ((hexDigit? a).isSome && (hexDigit? b).isSome) = true →
      (upperDigit a, upperDigit b) ∉ structuralEscapes → motive (waiting ++ [(a, b)]) s →
      motive waiting ('%' :: a :: b :: s))
    (waiting : List (Char × Char)) (s : Text) : motive waiting s := by
  match s with
  | [] => exact nil waiting
  | c :: s =>
    by_cases escape : c = '%' ∧ StartsHex s
    · obtain ⟨rfl, a, b, t, rfl, digits⟩ := escape
      by_cases meaning : (upperDigit a, upperDigit b) ∈ structuralEscapes
      · exact structural waiting a b t digits meaning
          (decodeRun_induction nil plain structural waits [] t)
      · exact waits waiting a b t digits meaning
          (decodeRun_induction nil plain structural waits _ t)
    · refine plain waiting c s ?_ (decodeRun_induction nil plain structural waits [] s)
      exact not_and_or.mp escape
termination_by s.length

theorem decodeRun_append (escape : c ≠ '%') (digit : hexDigit? c = none)
    (waiting : List (Char × Char)) (s t : Text) :
    decodeRun waiting (s ++ c :: t) = decodeRun waiting s ++ c :: decodeRun [] t := by
  induction waiting, s using decodeRun_induction with
  | nil waiting => exact decodeRun_plain waiting (Or.inl escape)
  | plain waiting d s h ih =>
    have later : d ≠ '%' ∨ ¬StartsHex (s ++ c :: t) := by
      refine h.imp_right fun digits => ?_
      rintro ⟨a, b, u, whole, both⟩
      rw [Bool.and_eq_true] at both
      cases s with
      | nil =>
        rw [← (List.cons.inj whole).1, digit] at both
        cases both.1
      | cons e s =>
        obtain ⟨one, whole⟩ := List.cons.inj whole
        cases s with
        | nil =>
          rw [← (List.cons.inj whole).1, digit] at both
          cases both.2
        | cons f s =>
          rw [← one, ← (List.cons.inj whole).1] at both
          exact digits ⟨e, f, s, rfl, (Bool.and_eq_true _ _).mpr both⟩
    rw [List.cons_append, decodeRun_plain waiting later, ih, decodeRun_plain waiting h,
      List.append_assoc, List.cons_append]
  | structural waiting a b s digits meaning ih =>
    simp only [List.cons_append]
    rw [decodeRun_structural waiting digits meaning, ih,
      decodeRun_structural waiting digits meaning]
    simp only [List.append_assoc, List.cons_append]
  | waits waiting a b s digits meaning ih =>
    simp only [List.cons_append]
    rw [decodeRun_waits waiting digits meaning, ih, decodeRun_waits waiting digits meaning]

/-- The escapes that wait are escapes, and carry no structural meaning. -/
def Waits (waiting : List (Char × Char)) : Prop :=
  ∀ escape ∈ waiting, ((hexDigit? escape.1).isSome && (hexDigit? escape.2).isSome) = true ∧
    (upperDigit escape.1, upperDigit escape.2) ∉ structuralEscapes

theorem Waits.nil : Waits [] := fun _ mem => absurd mem List.not_mem_nil

theorem Waits.append (h : Waits waiting)
    (digits : ((hexDigit? a).isSome && (hexDigit? b).isSome) = true)
    (plain : (upperDigit a, upperDigit b) ∉ structuralEscapes) : Waits (waiting ++ [(a, b)]) := by
  intro escape mem
  obtain mem | one := List.mem_append.mp mem
  · exact h escape mem
  · rw [List.mem_singleton.mp one]
    exact ⟨digits, plain⟩

theorem hexDigit?_eq_some {x : Nat} (h : hexDigit? c = some x) :
    x < 16 ∧ upperDigit c = upperHex x := by
  have all : ∀ n < 128, (hexDigit? (Char.ofNat n)).all
      (fun x => x < 16 ∧ upperDigit (Char.ofNat n) = upperHex x) = true := by decide
  have small : c.toNat < 128 := by
    rw [hexDigit?] at h
    split at h
    · omega
    split at h
    · omega
    split at h
    · omega
    · cases h
  have one := all c.toNat small
  rw [c.ofNat_toNat, h] at one
  exact of_decide_eq_true one

def escapeByte (escape : Char × Char) : UInt8 :=
  UInt8.ofNat (16 * (hexDigit? escape.1).getD 0 + (hexDigit? escape.2).getD 0)

theorem unquoteToBytes_escapes (h : Waits waiting) :
    unquoteToBytes (waiting.flatMap fun escape => ['%', escape.1, escape.2]) =
      waiting.map escapeByte := by
  induction waiting with
  | nil => rfl
  | cons escape waiting ih =>
    have rest : Waits waiting := fun other mem => h other (List.mem_cons_of_mem escape mem)
    obtain ⟨digits, -⟩ := h escape List.mem_cons_self
    rw [Bool.and_eq_true] at digits
    obtain ⟨x, hx⟩ := Option.isSome_iff_exists.mp digits.1
    obtain ⟨y, hy⟩ := Option.isSome_iff_exists.mp digits.2
    rw [List.flatMap_cons]
    simp only [List.cons_append, List.nil_append]
    rw [unquoteToBytes, hx, hy]
    dsimp only
    rw [ih rest, List.map_cons, escapeByte, hx, hy]
    rfl

def cutting : List Char := ['/', '?', '#']

theorem notMem_escapeBytes (h : Waits waiting) (cuts : c ∈ cutting) :
    UInt8.ofNat c.toNat ∉ waiting.map escapeByte := by
  intro mem
  obtain ⟨escape, found, same⟩ := List.mem_map.mp mem
  obtain ⟨digits, plain⟩ := h escape found
  rw [Bool.and_eq_true] at digits
  obtain ⟨x, hx⟩ := Option.isSome_iff_exists.mp digits.1
  obtain ⟨y, hy⟩ := Option.isSome_iff_exists.mp digits.2
  obtain ⟨small_x, upper_x⟩ := hexDigit?_eq_some hx
  obtain ⟨small_y, upper_y⟩ := hexDigit?_eq_some hy
  rw [escapeByte, hx, hy, Option.getD_some, Option.getD_some] at same
  rw [upper_x, upper_y] at plain
  have value : 16 * x + y = c.toNat := by
    have small : c.toNat < 256 := by
      have all : cutting.all fun c => c.toNat < 256 := by decide
      exact of_decide_eq_true (List.all_eq_true.mp all c cuts)
    rw [← Utf8.toNat_ofNat small, ← same, Utf8.toNat_ofNat (by omega)]
  refine plain ?_
  rw [cutting, List.mem_cons, List.mem_cons, List.mem_singleton] at cuts
  obtain rfl | rfl | rfl := cuts
  · obtain ⟨rfl, rfl⟩ : x = 2 ∧ y = 15 := by
      rw [show '/'.toNat = 47 from rfl] at value
      omega
    decide
  · obtain ⟨rfl, rfl⟩ : x = 3 ∧ y = 15 := by
      rw [show '?'.toNat = 63 from rfl] at value
      omega
    decide
  · obtain ⟨rfl, rfl⟩ : x = 2 ∧ y = 3 := by
      rw [show '#'.toNat = 35 from rfl] at value
      omega
    decide

theorem upperDigit_notMem (digit : (hexDigit? a).isSome = true) : upperDigit a ∉ cutting := by
  obtain ⟨x, hx⟩ := Option.isSome_iff_exists.mp digit
  obtain ⟨small, upper⟩ := hexDigit?_eq_some hx
  have all : ∀ x < 16, upperHex x ∉ cutting := by decide
  rw [upper]
  exact all x small

theorem notMem_decodeEscapes (h : Waits waiting) (cuts : c ∈ cutting) :
    c ∉ decodeEscapes waiting := by
  have ascii : c.toNat < 0x80 ∧ c ≠ '\x00' := by
    have all : cutting.all fun c => c.toNat < 0x80 ∧ c ≠ '\x00' := by decide
    exact of_decide_eq_true (List.all_eq_true.mp all c cuts)
  rw [decodeEscapes, unquoteToBytes_escapes h]
  split
  · next decoded read =>
    exact fun mem =>
      notMem_escapeBytes h cuts (Utf8.byte_of_mem_decode read mem ascii.1 ascii.2)
  · intro mem
    obtain ⟨escape, found, mem⟩ := List.mem_flatMap.mp mem
    have digits := (h escape found).1
    rw [Bool.and_eq_true] at digits
    rw [List.mem_cons, List.mem_cons, List.mem_singleton] at mem
    obtain rfl | rfl | rfl := mem
    · exact absurd cuts (by decide)
    · exact upperDigit_notMem digits.1 cuts
    · exact upperDigit_notMem digits.2 cuts

theorem mem_of_mem_decodeRun (h : Waits waiting) (cuts : c ∈ cutting)
    (mem : c ∈ decodeRun waiting s) : c ∈ s := by
  induction waiting, s using decodeRun_induction with
  | nil waiting => exact absurd mem (notMem_decodeEscapes h cuts)
  | plain waiting d s apart ih =>
    rw [decodeRun_plain waiting apart, List.mem_append, List.mem_cons] at mem
    obtain mem | rfl | mem := mem
    · exact absurd mem (notMem_decodeEscapes h cuts)
    · exact List.mem_cons_self
    · exact List.mem_cons_of_mem d (ih .nil mem)
  | structural waiting a b s digits meaning ih =>
    rw [decodeRun_structural waiting digits meaning] at mem
    simp only [List.mem_append, List.mem_cons] at mem
    rw [Bool.and_eq_true] at digits
    obtain mem | rfl | rfl | rfl | mem := mem
    · exact absurd mem (notMem_decodeEscapes h cuts)
    · exact List.mem_cons_self
    · exact absurd cuts (upperDigit_notMem digits.1)
    · exact absurd cuts (upperDigit_notMem digits.2)
    · exact List.mem_cons_of_mem _ (List.mem_cons_of_mem _ (List.mem_cons_of_mem _ (ih .nil mem)))
  | waits waiting a b s digits meaning ih =>
    rw [decodeRun_waits waiting digits meaning] at mem
    exact List.mem_cons_of_mem _ (List.mem_cons_of_mem _ (List.mem_cons_of_mem _
      (ih (h.append digits meaning) mem)))

theorem length_upperEscapes (waiting : List (Char × Char)) :
    (waiting.flatMap fun escape => ['%', upperDigit escape.1, upperDigit escape.2]).length =
      3 * waiting.length := by
  induction waiting with
  | nil => rfl
  | cons escape waiting ih =>
    rw [List.flatMap_cons, List.length_append, ih, List.length_cons, List.length_cons,
      List.length_cons, List.length_nil, List.length_cons]
    omega

theorem length_decodeEscapes (h : Waits waiting) :
    (decodeEscapes waiting).length ≤ 3 * waiting.length := by
  rw [decodeEscapes, unquoteToBytes_escapes h]
  split
  · next decoded read =>
    have bound := Utf8.length_of_decode read
    rw [List.length_map] at bound
    omega
  · exact (length_upperEscapes waiting).le

theorem length_decodeRun (h : Waits waiting) :
    (decodeRun waiting s).length ≤ 3 * waiting.length + s.length := by
  induction waiting, s using decodeRun_induction with
  | nil waiting => exact length_decodeEscapes h
  | plain waiting d s apart ih =>
    have rest := ih .nil
    have first := length_decodeEscapes h
    rw [decodeRun_plain waiting apart, List.length_append, List.length_cons, List.length_cons]
    rw [List.length_nil] at rest
    omega
  | structural waiting a b s digits meaning ih =>
    have rest := ih .nil
    have first := length_decodeEscapes h
    rw [decodeRun_structural waiting digits meaning]
    simp only [List.length_append, List.length_cons, List.length_nil] at rest ⊢
    omega
  | waits waiting a b s digits meaning ih =>
    have rest := ih (h.append digits meaning)
    rw [decodeRun_waits waiting digits meaning]
    simp only [List.length_append, List.length_cons, List.length_nil] at rest ⊢
    omega

end Run

end Rankuno.UrlKeys
