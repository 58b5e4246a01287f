import Rankuno.Python.Utf8RoundTrip

/-!
# A character is read from its own bytes alone

The decoder reads a character only where the bytes that encode it stand: no other sequence,
overlong or beyond the last code point, is read as one.
-/

namespace Rankuno.Python.Utf8

section Canonical

variable {b : UInt8} {first : Owing} {read : List UInt8} {v : Nat}

/-- The last bytes of a character, each with six bits of its code point. -/
def continuations : Nat → Nat → List UInt8
  | 0, _ => []
  | k + 1, v => UInt8.ofNat (v / 64 ^ k % 0x40 + 0x80) :: continuations k v

/-- The bytes read so far begin each character that the next ones can complete. -/
structure Owing.Begun (first : Owing) (read : List UInt8) : Prop where
  owes : first.owed ≠ 0
  bounds : 0x80 ≤ first.low ∧ first.high ≤ 0xbf
  encodes : ∀ v, (first.value * 64 + (first.low - 0x80)) * 64 ^ (first.owed - 1) ≤ v →
    v < (first.value * 64 + (first.high - 0x80) + 1) * 64 ^ (first.owed - 1) →
      String.utf8EncodeChar (Char.ofNat v) = read ++ continuations first.owed v

theorem toNat_ofNat_scalar (scalar : v < 0xd800 ∨ 0xdfff < v ∧ v < 0x110000) :
    (Char.ofNat v).val.toNat = v := by
  have valid : v.isValidChar := scalar
  rw [Char.ofNat, dif_pos valid]
  rfl

theorem encode_two (low : 0x7f < v) (high : v ≤ 0x7ff) :
    String.utf8EncodeChar (Char.ofNat v) = UInt8.ofNat (v / 64 + 0xc0) :: continuations 1 v := by
  unfold String.utf8EncodeChar
  rw [toNat_ofNat_scalar (Or.inl (by omega))]
  dsimp only
  rw [if_neg (by omega), if_pos high, continuations, continuations, Nat.pow_zero, Nat.div_one,
    Nat.mod_eq_of_lt (show v / 64 < 0x20 by omega)]

theorem encode_three (low : 0x7ff < v) (high : v ≤ 0xffff) (scalar : v < 0xd800 ∨ 0xdfff < v) :
    String.utf8EncodeChar (Char.ofNat v) = UInt8.ofNat (v / 4096 + 0xe0) :: continuations 2 v := by
  unfold String.utf8EncodeChar
  rw [toNat_ofNat_scalar (by omega)]
  dsimp only
  rw [if_neg (by omega), if_neg (by omega), if_pos high, continuations, continuations,
    continuations, Nat.pow_zero, Nat.div_one, Nat.pow_one,
    Nat.mod_eq_of_lt (show v / 4096 < 0x10 by omega)]

theorem encode_four (low : 0xffff < v) (high : v < 0x110000) :
    String.utf8EncodeChar (Char.ofNat v) =
      UInt8.ofNat (v / 262144 + 0xf0) :: continuations 3 v := by
  unfold String.utf8EncodeChar
  rw [toNat_ofNat_scalar (by omega)]
  dsimp only
  rw [if_neg (by omega), if_neg (by omega), if_neg (by omega), continuations, continuations,
    continuations, continuations, Nat.pow_zero, Nat.div_one, Nat.pow_one,
    show (64 : Nat) ^ 2 = 4096 from rfl, Nat.mod_eq_of_lt (show v / 262144 < 0x08 by omega)]

theorem begun_two {value : Nat} (least : 2 ≤ value) (most : value < 0x20) :
    Owing.Begun { owed := 1, value } [UInt8.ofNat (value + 0xc0)] := by
  refine ⟨Nat.one_ne_zero, ⟨Nat.le_refl _, Nat.le_refl _⟩, fun v low high => ?_⟩
  dsimp only at low high
  rw [encode_two (by omega) (by omega), show v / 64 = value by omega]
  rfl

theorem begun_three {low high value : Nat} (bounds : 0x80 ≤ low ∧ high ≤ 0xbf)
    (least : value = 0 → 0xa0 ≤ low) (gap : value = 0xd → high ≤ 0x9f) (most : value < 0x10) :
    Owing.Begun { owed := 2, low, high, value } [UInt8.ofNat (value + 0xe0)] := by
  refine ⟨Nat.succ_ne_zero _, bounds, fun v low high => ?_⟩
  dsimp only at low high
  rw [encode_three (by omega) (by omega) (by omega), show v / 4096 = value by omega]
  rfl

theorem begun_four {low high value : Nat} (bounds : 0x80 ≤ low ∧ high ≤ 0xbf)
    (least : value = 0 → 0x90 ≤ low) (gap : value = 4 → high ≤ 0x8f) (most : value ≤ 4) :
    Owing.Begun { owed := 3, low, high, value } [UInt8.ofNat (value + 0xf0)] := by
  refine ⟨Nat.succ_ne_zero _, bounds, fun v low high => ?_⟩
  dsimp only at low high
  rw [encode_four (by omega) (by omega), show v / 262144 = value by omega]
  rfl

theorem begun_lead (begins : lead b.toNat = some first) (owes : first.owed ≠ 0) :
    first.Begun [b] := by
  have byte : b = UInt8.ofNat b.toNat := UInt8.ofNat_toNat.symm
  generalize b.toNat = n at begins byte
  subst byte
  rw [lead] at begins
  split at begins
  · cases begins
    exact absurd rfl owes
  split at begins
  · next range =>
    obtain ⟨value, rfl⟩ : ∃ value, n = value + 0xc0 := ⟨n - 0xc0, by omega⟩
    cases begins
    rw [Nat.add_sub_cancel]
    exact begun_two (by omega) (by omega)
  split at begins
  · next only =>
    cases begins
    subst only
    exact begun_three (by omega) (by omega) (by omega) (by omega)
  split at begins
  · next only =>
    cases begins
    subst only
    exact begun_three (by omega) (by omega) (by omega) (by omega)
  split at begins
  · next range =>
    obtain ⟨value, rfl⟩ : ∃ value, n = value + 0xe0 := ⟨n - 0xe0, by omega⟩
    cases begins
    rw [Nat.add_sub_cancel]
    exact begun_three (by omega) (by omega) (by omega) (by omega)
  split at begins
  · next only =>
    cases begins
    subst only
    exact begun_four (by omega) (by omega) (by omega) (by omega)
  split at begins
  · next only =>
    cases begins
    subst only
    exact begun_four (by omega) (by omega) (by omega) (by omega)
  split at begins
  · next range =>
    obtain ⟨value, rfl⟩ : ∃ value, n = value + 0xf0 := ⟨n - 0xf0, by omega⟩
    cases begins
    rw [Nat.add_sub_cancel]
    exact begun_four (by omega) (by omega) (by omega) (by omega)
  · cases begins

theorem Owing.Begun.more (begun : first.Begun read)
    (fits : first.low ≤ b.toNat ∧ b.toNat ≤ first.high) (owes : 1 < first.owed) :
    Owing.Begun { owed := first.owed - 1, value := first.value * 64 + (b.toNat - 0x80) }
      (read ++ [b]) := by
  have bounds := begun.bounds
  obtain ⟨k, owed⟩ : ∃ k, first.owed = k + 2 := ⟨first.owed - 2, by omega⟩
  refine ⟨by dsimp only; omega, ⟨Nat.le_refl _, Nat.le_refl _⟩, fun v low high => ?_⟩
  dsimp only at low high ⊢
  rw [owed, Nat.add_sub_cancel (n := k + 1) (m := 1)] at low high ⊢
  rw [Nat.add_sub_cancel (n := k) (m := 1), Nat.sub_self, Nat.add_zero, Nat.mul_assoc,
    ← Nat.pow_succ'] at low
  rw [Nat.add_sub_cancel (n := k) (m := 1)] at high
  have value : v / 64 ^ (k + 1) = first.value * 64 + (b.toNat - 0x80) := by
    refine Nat.div_eq_of_lt_le low ?_
    rw [Nat.pow_succ', ← Nat.mul_assoc]
    refine Nat.lt_of_lt_of_le high (Nat.mul_le_mul_right _ ?_)
    omega
  have encodes := begun.encodes v
  rw [owed, Nat.add_sub_cancel (n := k + 1) (m := 1)] at encodes
  have own : UInt8.ofNat (v / 64 ^ (k + 1) % 0x40 + 0x80) = b := by
    rw [value, show (first.value * 64 + (b.toNat - 0x80)) % 0x40 + 0x80 = b.toNat by omega,
      UInt8.ofNat_toNat]
  rw [encodes, continuations, own, List.append_assoc]
  · rfl
  · exact Nat.le_trans (Nat.mul_le_mul_right _ (by omega)) low
  · refine Nat.lt_of_lt_of_le high ?_
    rw [Nat.pow_succ', ← Nat.mul_assoc]
    exact Nat.mul_le_mul_right _ (by omega)

theorem Owing.Begun.last (begun : first.Begun read)
    (fits : first.low ≤ b.toNat ∧ b.toNat ≤ first.high) (owes : first.owed = 1) :
    String.utf8EncodeChar (Char.ofNat (first.value * 64 + (b.toNat - 0x80))) = read ++ [b] := by
  have bounds := begun.bounds
  have encodes := begun.encodes (first.value * 64 + (b.toNat - 0x80))
  rw [owes, Nat.sub_self, Nat.pow_zero, Nat.mul_one, Nat.mul_one] at encodes
  have own : continuations 1 (first.value * 64 + (b.toNat - 0x80)) = [b] := by
    rw [continuations, continuations, Nat.pow_zero, Nat.div_one,
      show (first.value * 64 + (b.toNat - 0x80)) % 0x40 + 0x80 = b.toNat by omega,
      UInt8.ofNat_toNat]
  rw [encodes (by omega) (by omega), own]

theorem decodeFrom_outside (outside : ¬(first.low ≤ b.toNat ∧ b.toNat ≤ first.high))
    (bs : List UInt8) :
    decodeFrom (some first) (b :: bs) = none :: decodeFrom none (b :: bs) := by
  conv_lhs => rw [decodeFrom, if_neg outside]
  rw [decodeFrom]

theorem encodes_of_decodeFrom {c : Char} {rest : List (Option Char)} (bs : List UInt8) :
    (decodeFrom none bs = some c :: rest →
      ∃ after, bs = String.utf8EncodeChar c ++ after ∧ rest = decodeFrom none after) ∧
    ∀ (first : Owing) (read : List UInt8), first.Begun read →
      decodeFrom (some first) bs = some c :: rest →
        ∃ after, read ++ bs = String.utf8EncodeChar c ++ after ∧ rest = decodeFrom none after := by
  induction bs with
  | nil =>
    refine ⟨fun decoded => ?_, fun first read _ decoded => ?_⟩
    · cases decoded
    · cases decoded
  | cons b bs ih =>
    refine ⟨fun decoded => ?_, fun first read begun decoded => ?_⟩
    · cases begins : lead b.toNat with
      | none =>
        rw [decodeFrom, begins] at decoded
        cases decoded
      | some first =>
        by_cases owes : first.owed = 0
        · obtain ⟨ascii, -⟩ | wide := lead_cases begins
          · rw [decodeFrom_ascii ascii, List.cons.injEq] at decoded
            obtain ⟨same, rfl⟩ := decoded
            refine ⟨bs, ?_, rfl⟩
            cases same
            unfold String.utf8EncodeChar
            rw [toNat_ofNat_scalar (Or.inl (by omega))]
            dsimp only
            rw [if_pos (by omega), UInt8.ofNat_toNat]
            rfl
          · exact absurd owes wide.owes
        · rw [decodeFrom_lead begins owes] at decoded
          exact ih.2 first [b] (begun_lead begins owes) decoded
    · by_cases fits : first.low ≤ b.toNat ∧ b.toNat ≤ first.high
      · by_cases owes : first.owed = 1
        · rw [decodeFrom_last fits owes, List.cons.injEq] at decoded
          obtain ⟨same, rfl⟩ := decoded
          refine ⟨bs, ?_, rfl⟩
          rw [← Option.some.inj same, begun.last fits owes, List.append_assoc]
          rfl
        · have more : 1 < first.owed := by
            have owes' := begun.owes
            omega
          rw [decodeFrom_more fits more] at decoded
          obtain ⟨after, parts, rest_⟩ := ih.2 _ _ (begun.more fits more) decoded
          refine ⟨after, ?_, rest_⟩
          rw [← parts, List.append_assoc]
          rfl
      · rw [decodeFrom_outside fits] at decoded
        cases decoded

theorem eq_encode_append {s : Text} {bs : List UInt8} (here : s <+: decodeReplacing bs)
    (unmarked : Char.ofNat 0xfffd ∉ s) :
    ∃ after, bs = encode s ++ after ∧ decodeReplacing bs = s ++ decodeReplacing after := by
  induction s generalizing bs with
  | nil => exact ⟨bs, rfl, rfl⟩
  | cons c s ih =>
    rw [List.mem_cons, not_or] at unmarked
    obtain ⟨rest, whole⟩ := here
    rw [decodeReplacing] at whole
    cases decoded : decodeFrom none bs with
    | nil =>
      rw [decoded] at whole
      cases whole
    | cons first others =>
      rw [decoded, List.map_cons, List.cons_append, List.cons.injEq] at whole
      obtain ⟨same, tail⟩ := whole
      cases first with
      | none => exact absurd same.symm unmarked.1
      | some d =>
        rw [Option.getD_some] at same
        subst same
        obtain ⟨after, rfl, rfl⟩ := (encodes_of_decodeFrom bs).1 decoded
        obtain ⟨last, rfl, read⟩ := ih ⟨rest, tail⟩ unmarked.2
        refine ⟨last, ?_, ?_⟩
        · exact (List.append_assoc _ _ _).symm
        · rw [decodeReplacing, decodeFrom_utf8EncodeChar, List.map_cons]
          exact congrArg (List.cons c) read

theorem decodeReplacing_encode_append (s : Text) (bs : List UInt8) :
    decodeReplacing (encode s ++ bs) = s ++ decodeReplacing bs := by
  induction s with
  | nil => rfl
  | cons c s ih =>
    rw [encode, List.flatMap_cons, List.append_assoc, decodeReplacing,
      decodeFrom_utf8EncodeChar, List.map_cons]
    exact congrArg (List.cons c) ih

theorem utf8EncodeChar_ascii {c : Char} (ascii : c.toNat < 0x80) :
    String.utf8EncodeChar c = [UInt8.ofNat c.toNat] := by
  unfold String.utf8EncodeChar
  dsimp only
  exact if_pos (Nat.le_of_lt_succ ascii)

end Canonical

end Rankuno.Python.Utf8
