import Mathlib.Data.List.TakeWhile
import Rankuno.Python.Text

/-!
# URL-safe base64

`urlsafe_b64encode` and `urlsafe_b64decode`. The decoder is the lenient one of
`binascii.a2b_base64`: characters outside the alphabet are skipped, padding that
completes a group ends the input, and either alphabet's last two characters are
accepted. It is a machine over the place in the current group of four.
-/

namespace Rankuno.Python

/-- A `bytes` value. -/
abbrev Bytes := List UInt8

namespace Base64

/-- The character of a value below 64. -/
def digit (v : Nat) : Char :=
  if v < 26 then Char.ofNat (v + 65)
  else if v < 52 then Char.ofNat (v + 71)
  else if v < 62 then Char.ofNat (v - 4)
  else if v = 62 then '-'
  else '_'

/-- The value of a character, if it is in one of the two alphabets. -/
def sextet? (c : Char) : Option Nat :=
  if 65 ≤ c.toNat ∧ c.toNat ≤ 90 then some (c.toNat - 65)
  else if 97 ≤ c.toNat ∧ c.toNat ≤ 122 then some (c.toNat - 71)
  else if 48 ≤ c.toNat ∧ c.toNat ≤ 57 then some (c.toNat + 4)
  else if c = '-' ∨ c = '+' then some 62
  else if c = '_' ∨ c = '/' then some 63
  else none

/-- `urlsafe_b64encode`. -/
def encode : Bytes → Text
  | a :: b :: c :: rest =>
    digit (a.toNat / 4) :: digit (a.toNat % 4 * 16 + b.toNat / 16) ::
      digit (b.toNat % 16 * 4 + c.toNat / 64) :: digit (c.toNat % 64) :: encode rest
  | [a, b] =>
    [digit (a.toNat / 4), digit (a.toNat % 4 * 16 + b.toNat / 16), digit (b.toNat % 16 * 4), '=']
  | [a] => [digit (a.toNat / 4), digit (a.toNat % 4 * 16), '=', '=']
  | [] => []

/-- `a2b_base64` from the place `pos` in a group of four, with the bits of the
group not yet given out and the padding seen so far. -/
def decodeFrom : (pos left pads : Nat) → Text → Option Bytes
  | pos, _, _, [] => if pos = 0 then some [] else none
  | pos, left, pads, c :: s =>
    if c = '=' then
      if 2 ≤ pos ∧ 4 ≤ pos + pads + 1 then some []
      else decodeFrom pos left (if 2 ≤ pos then pads + 1 else pads) s
    else
      match sextet? c with
      | none => decodeFrom pos left pads s
      | some v =>
        match pos with
        | 0 => decodeFrom 1 v 0 s
        | 1 => (decodeFrom 2 (v % 16) 0 s).map (UInt8.ofNat (left * 4 + v / 16) :: ·)
        | 2 => (decodeFrom 3 (v % 4) 0 s).map (UInt8.ofNat (left * 16 + v / 4) :: ·)
        | _ => (decodeFrom 0 0 0 s).map (UInt8.ofNat (left * 64 + v) :: ·)

/-- `urlsafe_b64decode` of a text, or nothing when it raises. -/
def decode (s : Text) : Option Bytes := if Text.isAscii s then decodeFrom 0 0 0 s else none

theorem sextet?_digit : ∀ v < 64, sextet? (digit v) = some v := by decide

theorem digit_ne_pad : ∀ v < 64, digit v ≠ '=' := by decide

theorem digit_ne_dot : ∀ v < 64, digit v ≠ '.' := by decide

theorem digit_ascii : ∀ v < 64, (digit v).toNat < 128 := by decide

section Group

variable (left pads v : Nat) (hv : v < 64) (s : Text)

include hv

theorem decodeFrom_first : decodeFrom 0 left pads (digit v :: s) = decodeFrom 1 v 0 s := by
  rw [decodeFrom, if_neg (digit_ne_pad v hv), sextet?_digit v hv]
  rfl

theorem decodeFrom_second : decodeFrom 1 left pads (digit v :: s) =
    (decodeFrom 2 (v % 16) 0 s).map (UInt8.ofNat (left * 4 + v / 16) :: ·) := by
  rw [decodeFrom, if_neg (digit_ne_pad v hv), sextet?_digit v hv]
  rfl

theorem decodeFrom_third : decodeFrom 2 left pads (digit v :: s) =
    (decodeFrom 3 (v % 4) 0 s).map (UInt8.ofNat (left * 16 + v / 4) :: ·) := by
  rw [decodeFrom, if_neg (digit_ne_pad v hv), sextet?_digit v hv]
  rfl

theorem decodeFrom_fourth : decodeFrom 3 left pads (digit v :: s) =
    (decodeFrom 0 0 0 s).map (UInt8.ofNat (left * 64 + v) :: ·) := by
  rw [decodeFrom, if_neg (digit_ne_pad v hv), sextet?_digit v hv]
  rfl

end Group

theorem ofNat_eq {a : UInt8} {n : Nat} (h : n = a.toNat) : UInt8.ofNat n = a := by
  rw [h, UInt8.ofNat_toNat]

theorem decodeFrom_encode (bytes : Bytes) : decodeFrom 0 0 0 (encode bytes) = some bytes := by
  induction bytes using encode.induct with
  | case1 a b c rest ih =>
    have ha := a.toNat_lt
    have hb := b.toNat_lt
    have hc := c.toNat_lt
    rw [encode, decodeFrom_first _ _ _ (by omega), decodeFrom_second _ _ _ (by omega),
      decodeFrom_third _ _ _ (by omega), decodeFrom_fourth _ _ _ (by omega), ih]
    simp only [Option.map_some]
    rw [@ofNat_eq a _ (by omega), @ofNat_eq b _ (by omega), @ofNat_eq c _ (by omega)]
  | case2 a b =>
    have ha := a.toNat_lt
    have hb := b.toNat_lt
    rw [encode, decodeFrom_first _ _ _ (by omega), decodeFrom_second _ _ _ (by omega),
      decodeFrom_third _ _ _ (by omega)]
    simp only [decodeFrom]
    rw [@ofNat_eq a _ (by omega), @ofNat_eq b _ (by omega)]
    rfl
  | case3 a =>
    have ha := a.toNat_lt
    rw [encode, decodeFrom_first _ _ _ (by omega), decodeFrom_second _ _ _ (by omega)]
    simp only [decodeFrom]
    rw [@ofNat_eq a _ (by omega)]
    rfl
  | case4 => rfl

/-- What the text of an encoding is made of: characters of the alphabet, and the
padding that fills its last group. -/
structure Padded (s body : Text) : Prop where
  eq : s = body ++ List.replicate ((4 - body.length % 4) % 4) '='
  digits : ∀ c ∈ body, ∃ v < 64, c = digit v

theorem Padded.group {s body : Text} (h : Padded s body) {v₁ v₂ v₃ v₄ : Nat} (h₁ : v₁ < 64)
    (h₂ : v₂ < 64) (h₃ : v₃ < 64) (h₄ : v₄ < 64) :
    Padded (digit v₁ :: digit v₂ :: digit v₃ :: digit v₄ :: s)
      (digit v₁ :: digit v₂ :: digit v₃ :: digit v₄ :: body) where
  eq := by
    have same : (4 - (body.length + 1 + 1 + 1 + 1) % 4) % 4 = (4 - body.length % 4) % 4 := by
      omega
    simp only [List.length_cons, List.cons_append, same]
    rw [h.eq]
  digits := by
    intro c hc
    simp only [List.mem_cons] at hc
    rcases hc with rfl | rfl | rfl | rfl | hc
    · exact ⟨v₁, h₁, rfl⟩
    · exact ⟨v₂, h₂, rfl⟩
    · exact ⟨v₃, h₃, rfl⟩
    · exact ⟨v₄, h₄, rfl⟩
    · exact h.digits c hc

theorem padded_encode (bytes : Bytes) : ∃ body, Padded (encode bytes) body := by
  induction bytes using encode.induct with
  | case1 a b c rest ih =>
    obtain ⟨body, h⟩ := ih
    have ha := a.toNat_lt
    have hb := b.toNat_lt
    have hc := c.toNat_lt
    exact ⟨_, h.group (by omega) (by omega) (by omega) (by omega)⟩
  | case2 a b =>
    have ha := a.toNat_lt
    have hb := b.toNat_lt
    refine ⟨[digit (a.toNat / 4), digit (a.toNat % 4 * 16 + b.toNat / 16),
      digit (b.toNat % 16 * 4)], rfl, ?_⟩
    intro c hc
    simp only [List.mem_cons, List.not_mem_nil, or_false] at hc
    rcases hc with rfl | rfl | rfl
    · exact ⟨_, by omega, rfl⟩
    · exact ⟨_, by omega, rfl⟩
    · exact ⟨_, by omega, rfl⟩
  | case3 a =>
    have ha := a.toNat_lt
    refine ⟨[digit (a.toNat / 4), digit (a.toNat % 4 * 16)], rfl, ?_⟩
    intro c hc
    simp only [List.mem_cons, List.not_mem_nil, or_false] at hc
    rcases hc with rfl | rfl
    · exact ⟨_, by omega, rfl⟩
    · exact ⟨_, by omega, rfl⟩
  | case4 => exact ⟨[], rfl, by simp⟩

theorem decode_encode (bytes : Bytes) : decode (encode bytes) = some bytes := by
  obtain ⟨body, h⟩ := padded_encode bytes
  have ascii : Text.isAscii (encode bytes) = true := by
    rw [h.eq, Text.isAscii, List.all_eq_true]
    intro c hc
    rcases List.mem_append.mp hc with mem | mem
    · obtain ⟨v, hv, rfl⟩ := h.digits c mem
      exact decide_eq_true (digit_ascii v hv)
    · rw [List.eq_of_mem_replicate mem]
      decide
  rw [decode, if_pos ascii, decodeFrom_encode]

theorem Padded.rstrip {s body : Text} (h : Padded s body) : Text.rstrip (· = '=') s = body := by
  have unpadded : ∀ c ∈ body.reverse, ¬c = '=' := by
    intro c hc
    obtain ⟨v, hv, rfl⟩ := h.digits c (List.mem_reverse.mp hc)
    exact digit_ne_pad v hv
  rw [h.eq, Text.rstrip, List.reverse_append, List.reverse_replicate,
    List.dropWhile_append_of_pos fun c hc => by simp [List.eq_of_mem_replicate hc]]
  rw [List.dropWhile_eq_self_iff.mpr, List.reverse_reverse]
  intro nonempty
  simpa using unpadded _ (List.getElem_mem nonempty)

theorem rstrip_encode (bytes : Bytes) :
    let body := Text.rstrip (· = '=') (encode bytes)
    encode bytes = body ++ List.replicate ((4 - body.length % 4) % 4) '=' := by
  obtain ⟨body, h⟩ := padded_encode bytes
  rw [h.rstrip]
  exact h.eq

theorem digits_rstrip_encode (bytes : Bytes) :
    ∀ c ∈ Text.rstrip (· = '=') (encode bytes), ∃ v < 64, c = digit v := by
  obtain ⟨body, h⟩ := padded_encode bytes
  rw [h.rstrip]
  exact h.digits

end Base64

end Rankuno.Python
