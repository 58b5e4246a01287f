import Mathlib.Algebra.Group.Nat.Defs
import Mathlib.Data.List.Basic
import Rankuno.Python.Quote

/-!
# Reading back what UTF-8 wrote

Every text is read back from its UTF-8 bytes, one character at a time. What is read from
other bytes is no longer than they are, and its ASCII characters stand among them.
-/

namespace Rankuno.Python.Utf8

variable {b : UInt8} {first : Owing}

theorem decodeFrom_ascii (small : b.toNat < 0x80) (bs : List UInt8) :
    decodeFrom none (b :: bs) = some (Char.ofNat b.toNat) :: decodeFrom none bs := by
  rw [decodeFrom, lead, if_pos small]
  rfl

theorem decodeFrom_lead (begins : lead b.toNat = some first) (owes : first.owed ≠ 0)
    (bs : List UInt8) : decodeFrom none (b :: bs) = decodeFrom (some first) bs := by
  rw [decodeFrom, begins]
  exact if_neg owes

theorem decodeFrom_more (fits : first.low ≤ b.toNat ∧ b.toNat ≤ first.high)
    (owes : 1 < first.owed) (bs : List UInt8) :
    decodeFrom (some first) (b :: bs) =
      decodeFrom (some { owed := first.owed - 1, value := first.value * 64 + (b.toNat - 0x80) })
        bs := by
  rw [decodeFrom, if_pos fits, if_neg (by omega)]

theorem decodeFrom_last (fits : first.low ≤ b.toNat ∧ b.toNat ≤ first.high)
    (owes : first.owed = 1) (bs : List UInt8) :
    decodeFrom (some first) (b :: bs) =
      some (Char.ofNat (first.value * 64 + (b.toNat - 0x80))) :: decodeFrom none bs := by
  rw [decodeFrom, if_pos fits, if_pos owes]

theorem decodeFrom_two {b₁ b₂ : UInt8} (owes : first.owed = 2)
    (fits₁ : first.low ≤ b₁.toNat ∧ b₁.toNat ≤ first.high)
    (fits₂ : 0x80 ≤ b₂.toNat ∧ b₂.toNat ≤ 0xbf) (bs : List UInt8) :
    decodeFrom (some first) (b₁ :: b₂ :: bs) =
      some (Char.ofNat ((first.value * 64 + (b₁.toNat - 0x80)) * 64 + (b₂.toNat - 0x80))) ::
        decodeFrom none bs := by
  rw [decodeFrom_more fits₁ (by omega), decodeFrom_last fits₂ (by simp only [owes])]

theorem toNat_ofNat {n : Nat} (small : n < 256) : (UInt8.ofNat n).toNat = n :=
  (UInt8.toNat_ofNat' ..).trans (Nat.mod_eq_of_lt small)

section Scalars

variable {v : Nat}

theorem lead_two (low : 0x7f < v) (high : v ≤ 0x7ff) :
    lead (v / 64 % 0x20 + 0xc0) = some { owed := 1, value := v / 64 } := by
  have bounds : 2 ≤ v / 64 ∧ v / 64 < 0x20 := by omega
  rw [Nat.mod_eq_of_lt bounds.2, lead, if_neg (by omega), if_pos (by omega), Nat.add_sub_cancel]

theorem lead_three (low : 0x7ff < v) (high : v ≤ 0xffff) (scalar : v < 0xd800 ∨ 0xdfff < v) :
    ∃ first, lead (v / 4096 % 0x10 + 0xe0) = some first ∧ first.owed = 2 ∧
      (first.low ≤ v / 64 % 0x40 + 0x80 ∧ v / 64 % 0x40 + 0x80 ≤ first.high) ∧
      first.value = v / 4096 := by
  have bound : v / 4096 < 0x10 := by omega
  rw [Nat.mod_eq_of_lt bound, lead, if_neg (by omega), if_neg (by omega)]
  by_cases overlong : v / 4096 = 0
  · rw [if_pos (by omega)]
    exact ⟨_, rfl, rfl, ⟨by dsimp only; omega, by dsimp only; omega⟩, overlong.symm⟩
  · rw [if_neg (by omega)]
    by_cases surrogates : v / 4096 = 0xd
    · rw [if_pos (by omega)]
      exact ⟨_, rfl, rfl, ⟨by dsimp only; omega, by dsimp only; omega⟩, surrogates.symm⟩
    · rw [if_neg (by omega), if_pos (by omega), Nat.add_sub_cancel]
      exact ⟨_, rfl, rfl, ⟨by dsimp only; omega, by dsimp only; omega⟩, rfl⟩

theorem lead_four (low : 0xffff < v) (high : v < 0x110000) :
    ∃ first, lead (v / 262144 % 0x08 + 0xf0) = some first ∧ first.owed = 3 ∧
      (first.low ≤ v / 4096 % 0x40 + 0x80 ∧ v / 4096 % 0x40 + 0x80 ≤ first.high) ∧
      first.value = v / 262144 := by
  have bound : v / 262144 < 0x08 := by omega
  rw [Nat.mod_eq_of_lt bound, lead, if_neg (by omega), if_neg (by omega), if_neg (by omega),
    if_neg (by omega), if_neg (by omega)]
  by_cases overlong : v / 262144 = 0
  · rw [if_pos (by omega)]
    exact ⟨_, rfl, rfl, ⟨by dsimp only; omega, by dsimp only; omega⟩, overlong.symm⟩
  · rw [if_neg (by omega)]
    by_cases last : v / 262144 = 4
    · rw [if_pos (by omega)]
      exact ⟨_, rfl, rfl, ⟨by dsimp only; omega, by dsimp only; omega⟩, last.symm⟩
    · rw [if_neg (by omega), if_pos (by omega), Nat.add_sub_cancel]
      exact ⟨_, rfl, rfl, ⟨by dsimp only; omega, by dsimp only; omega⟩, rfl⟩

end Scalars

theorem continuation (n : Nat) : 0x80 ≤ (UInt8.ofNat (n % 0x40 + 0x80)).toNat ∧
      (UInt8.ofNat (n % 0x40 + 0x80)).toNat ≤ 0xbf := by
  rw [toNat_ofNat (by omega)]
  omega

theorem toNat_continuation (n : Nat) : (UInt8.ofNat (n % 0x40 + 0x80)).toNat - 0x80 = n % 0x40 := by
  rw [toNat_ofNat (by omega), Nat.add_sub_cancel]

theorem decodeFrom_utf8EncodeChar (c : Char) (bs : List UInt8) :
    decodeFrom none (String.utf8EncodeChar c ++ bs) = some c :: decodeFrom none bs := by
  have scalar : c.toNat < 0xd800 ∨ 0xdfff < c.toNat ∧ c.toNat < 0x110000 := c.valid
  have read (n : Nat) (same : n = c.toNat) : Char.ofNat n = c := same ▸ c.ofNat_toNat
  unfold String.utf8EncodeChar
  rw [show c.val.toNat = c.toNat from rfl]
  generalize c.toNat = v at scalar read
  dsimp only
  by_cases one : v ≤ 0x7f
  · have small : (UInt8.ofNat v).toNat = v := toNat_ofNat (by omega)
    rw [if_pos one, List.cons_append, decodeFrom_ascii (by omega), small, read v rfl,
      List.nil_append]
  rw [if_neg one]
  by_cases two : v ≤ 0x7ff
  · have first : (UInt8.ofNat (v / 64 % 0x20 + 0xc0)).toNat = v / 64 % 0x20 + 0xc0 :=
      toNat_ofNat (by omega)
    have begins := lead_two (Nat.not_le.mp one) two
    rw [← first] at begins
    rw [if_pos two, List.cons_append, List.cons_append, decodeFrom_lead begins Nat.one_ne_zero,
      decodeFrom_last (continuation v) rfl, toNat_continuation, List.nil_append]
    rw [read (v / 64 * 64 + v % 64) (by omega)]
  rw [if_neg two]
  by_cases three : v ≤ 0xffff
  · obtain ⟨first, begins, owes, fits, value⟩ :=
      lead_three (Nat.not_le.mp two) three (scalar.imp_right And.left)
    rw [← toNat_ofNat (show v / 4096 % 0x10 + 0xe0 < 256 by omega)] at begins
    rw [← toNat_ofNat (show v / 64 % 0x40 + 0x80 < 256 by omega)] at fits
    simp only [if_pos three, List.cons_append, List.nil_append]
    rw [decodeFrom_lead begins (by omega), decodeFrom_two owes fits (continuation v),
      toNat_continuation, toNat_continuation, value]
    rw [read ((v / 4096 * 64 + v / 64 % 64) * 64 + v % 64) (by omega)]
  · obtain ⟨first, begins, owes, fits, value⟩ :=
      lead_four (Nat.not_le.mp three) (by omega)
    rw [← toNat_ofNat (show v / 262144 % 0x08 + 0xf0 < 256 by omega)] at begins
    rw [← toNat_ofNat (show v / 4096 % 0x40 + 0x80 < 256 by omega)] at fits
    simp only [if_neg three, List.cons_append, List.nil_append]
    rw [decodeFrom_lead begins (by omega), decodeFrom_more fits (by omega),
      decodeFrom_two (by rw [owes]) (continuation (v / 64)) (continuation v),
      toNat_continuation, toNat_continuation, toNat_continuation, value]
    rw [read (((v / 262144 * 64 + v / 4096 % 64) * 64 + v / 64 % 64) * 64 + v % 64) (by omega)]

theorem decodeFrom_encode (s : Text) : decodeFrom none (encode s) = s.map some := by
  induction s with
  | nil => rfl
  | cons c s ih =>
    rw [encode, List.flatMap_cons, decodeFrom_utf8EncodeChar, List.map_cons]
    exact congrArg _ ih

theorem decodeReplacing_encode (s : Text) : decodeReplacing (encode s) = s := by
  rw [decodeReplacing, decodeFrom_encode, List.map_map]
  exact List.map_id' s

theorem decode_encode (s : Text) : decode (encode s) = some s := by
  rw [decode, decodeFrom_encode]
  induction s with
  | nil => rfl
  | cons c s ih =>
    rw [List.map_cons, List.mapM_cons, ih]
    rfl

theorem encode_append {s t : Text} : encode (s ++ t) = encode s ++ encode t :=
  List.flatMap_append

theorem encode_injective {s t : Text} (same : encode s = encode t) : s = t := by
  rw [← decodeReplacing_encode s, same, decodeReplacing_encode]

/-- Whatever bytes follow, the character that is being read is not ASCII. -/
structure Owing.Wide (first : Owing) : Prop where
  owes : first.owed ≠ 0
  least : 0x80 ≤ (first.value * 64 + (first.low - 0x80)) * 64 ^ (first.owed - 1)

theorem lead_cases {n : Nat} {first : Owing} (h : lead n = some first) :
    n < 0x80 ∧ first = { owed := 0, value := n } ∨ first.Wide := by
  rw [lead] at h
  split at h
  · next ascii => exact Or.inl ⟨ascii, (Option.some.inj h).symm⟩
  split at h
  · cases h
    exact Or.inr ⟨Nat.one_ne_zero, by dsimp only; omega⟩
  split at h
  · cases h
    exact Or.inr ⟨by decide, by decide⟩
  split at h
  · cases h
    exact Or.inr ⟨by decide, by decide⟩
  split at h
  · cases h
    exact Or.inr ⟨Nat.succ_ne_zero _, by dsimp only; omega⟩
  split at h
  · cases h
    exact Or.inr ⟨by decide, by decide⟩
  split at h
  · cases h
    exact Or.inr ⟨by decide, by decide⟩
  split at h
  · cases h
    exact Or.inr ⟨Nat.succ_ne_zero _, by dsimp only; omega⟩
  · cases h

theorem decodeFrom_none_cases (b : UInt8) (bs : List UInt8) :
    decodeFrom none (b :: bs) = none :: decodeFrom none bs ∨ b.toNat < 0x80 ∧
        decodeFrom none (b :: bs) = some (Char.ofNat b.toNat) :: decodeFrom none bs ∨
      ∃ first : Owing, first.Wide ∧ decodeFrom none (b :: bs) = decodeFrom (some first) bs := by
  cases begins : lead b.toNat with
  | none =>
    left
    rw [decodeFrom, begins]
  | some first =>
    obtain ⟨ascii, -⟩ | wide := lead_cases begins
    · exact Or.inr (Or.inl ⟨ascii, decodeFrom_ascii ascii bs⟩)
    · exact Or.inr (Or.inr ⟨first, wide, decodeFrom_lead begins wide.owes bs⟩)

theorem decodeFrom_some_cases {first : Owing} (wide : first.Wide) (b : UInt8) (bs : List UInt8) :
    decodeFrom (some first) (b :: bs) = none :: decodeFrom none (b :: bs) ∨ (∃ n, 0x80 ≤ n ∧
        decodeFrom (some first) (b :: bs) = some (Char.ofNat n) :: decodeFrom none bs) ∨
      ∃ next : Owing, next.Wide ∧
        decodeFrom (some first) (b :: bs) = decodeFrom (some next) bs := by
  by_cases fits : first.low ≤ b.toNat ∧ b.toNat ≤ first.high
  · have grows : first.value * 64 + (first.low - 0x80) ≤ first.value * 64 + (b.toNat - 0x80) := by
      omega
    have least := wide.least
    by_cases last : first.owed = 1
    · rw [last, Nat.sub_self, Nat.pow_zero, Nat.mul_one] at least
      exact Or.inr (Or.inl ⟨_, by omega, decodeFrom_last fits last bs⟩)
    · have owes := wide.owes
      refine Or.inr (Or.inr ⟨_, ⟨?_, ?_⟩, decodeFrom_more fits (by omega) bs⟩)
      · dsimp only
        omega
      · obtain ⟨more, same⟩ : ∃ more, first.owed = more + 2 := ⟨first.owed - 2, by omega⟩
        have power : (64 : Nat) ^ (first.owed - 1) = 64 * 64 ^ more := by
          rw [same, Nat.add_sub_cancel (n := more + 1) (m := 1), Nat.pow_succ, Nat.mul_comm]
        have enough := Nat.le_trans least (Nat.mul_le_mul_right (64 ^ (first.owed - 1)) grows)
        rw [power, ← Nat.mul_assoc] at enough
        dsimp only
        rw [Nat.sub_self, Nat.add_zero, same]
        exact enough
  · left
    conv_lhs => rw [decodeFrom, if_neg fits]
    rw [decodeFrom]

theorem length_decodeFrom_none (bs : List UInt8) : (decodeFrom none bs).length ≤ bs.length ∧
      ∀ first : Owing, first.Wide → (decodeFrom (some first) bs).length ≤ bs.length + 1 := by
  induction bs with
  | nil => exact ⟨Nat.le_refl _, fun first _ => Nat.le_refl _⟩
  | cons b bs ih =>
    have between : (decodeFrom none (b :: bs)).length ≤ (b :: bs).length := by
      obtain step | ⟨-, step⟩ | ⟨first, wide, step⟩ := decodeFrom_none_cases b bs
      · rw [step, List.length_cons, List.length_cons]
        exact Nat.succ_le_succ ih.1
      · rw [step, List.length_cons, List.length_cons]
        exact Nat.succ_le_succ ih.1
      · rw [step, List.length_cons]
        exact ih.2 first wide
    refine ⟨between, fun first wide => ?_⟩
    obtain step | ⟨n, -, step⟩ | ⟨next, wide, step⟩ := decodeFrom_some_cases wide b bs
    · rw [step, List.length_cons]
      exact Nat.succ_le_succ between
    · rw [step, List.length_cons, List.length_cons]
      exact Nat.succ_le_succ (Nat.le_trans ih.1 (Nat.le_succ _))
    · rw [step, List.length_cons]
      exact Nat.le_trans (ih.2 next wide) (Nat.le_succ _)

theorem toNat_of_ofNat {n : Nat} {c : Char} (h : Char.ofNat n = c) (filled : c ≠ '\x00') :
    c.toNat = n := by
  by_cases valid : n.isValidChar
  · rw [← h, Char.ofNat, dif_pos valid]
    rfl
  · refine absurd ?_ filled
    rw [← h, Char.ofNat, dif_neg valid]
    rfl

theorem byte_of_mem_decodeFrom {c : Char} (ascii : c.toNat < 0x80) (filled : c ≠ '\x00')
    (bs : List UInt8) :
    (some c ∈ decodeFrom none bs → UInt8.ofNat c.toNat ∈ bs) ∧
      ∀ first : Owing, first.Wide → some c ∈ decodeFrom (some first) bs →
        UInt8.ofNat c.toNat ∈ bs := by
  induction bs with
  | nil =>
    refine ⟨fun mem => absurd mem List.not_mem_nil, fun first _ mem => ?_⟩
    cases List.mem_singleton.mp mem
  | cons b bs ih =>
    have between : some c ∈ decodeFrom none (b :: bs) → UInt8.ofNat c.toNat ∈ b :: bs := by
      intro mem
      obtain step | ⟨-, step⟩ | ⟨first, wide, step⟩ := decodeFrom_none_cases b bs
      · rw [step, List.mem_cons] at mem
        obtain ⟨⟨⟩⟩ | mem := mem
        exact List.mem_cons_of_mem b (ih.1 mem)
      · rw [step, List.mem_cons] at mem
        obtain same | mem := mem
        · rw [toNat_of_ofNat (Option.some.inj same).symm filled, UInt8.ofNat_toNat]
          exact List.mem_cons_self
        · exact List.mem_cons_of_mem b (ih.1 mem)
      · rw [step] at mem
        exact List.mem_cons_of_mem b (ih.2 first wide mem)
    refine ⟨between, fun first wide mem => ?_⟩
    obtain step | ⟨n, large, step⟩ | ⟨next, wide, step⟩ := decodeFrom_some_cases wide b bs
    · rw [step, List.mem_cons] at mem
      obtain ⟨⟨⟩⟩ | mem := mem
      exact between mem
    · rw [step, List.mem_cons] at mem
      obtain same | mem := mem
      · have value := toNat_of_ofNat (Option.some.inj same).symm filled
        omega
      · exact List.mem_cons_of_mem b (ih.1 mem)
    · rw [step] at mem
      exact List.mem_cons_of_mem b (ih.2 next wide mem)

variable {bytes : List UInt8} {s : Text}

theorem decodeFrom_of_decode (h : decode bytes = some s) : decodeFrom none bytes = s.map some := by
  rw [decode] at h
  generalize decodeFrom none bytes = read at h
  induction read generalizing s with
  | nil =>
    rw [List.mapM_nil] at h
    cases h
    rfl
  | cons c read ih =>
    rw [List.mapM_cons] at h
    cases c with
    | none => cases h
    | some d =>
      cases later : read.mapM fun c => c with
      | none =>
        rw [later] at h
        cases h
      | some rest =>
        rw [later] at h
        cases h
        rw [ih later, List.map_cons]

theorem length_of_decode (h : decode bytes = some s) : s.length ≤ bytes.length := by
  have bound := (length_decodeFrom_none bytes).1
  rwa [decodeFrom_of_decode h, List.length_map] at bound

theorem byte_of_mem_decode (h : decode bytes = some s) {c : Char} (mem : c ∈ s)
    (ascii : c.toNat < 0x80) (filled : c ≠ '\x00') : UInt8.ofNat c.toNat ∈ bytes := by
  refine (byte_of_mem_decodeFrom ascii filled bytes).1 ?_
  rw [decodeFrom_of_decode h]
  exact List.mem_map_of_mem mem

end Rankuno.Python.Utf8
