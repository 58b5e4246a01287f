import Mathlib.Data.List.SplitBy
import Rankuno.Python.Partition
import Rankuno.Python.Urllib
import Rankuno.Python.Utf8RoundTrip

/-!
# Reading back what `urlencode` wrote

`parse_qsl` gives back the pairs that `urlencode` was given, whatever their texts.
-/

namespace Rankuno.Python

namespace Text

variable {sep : Char} {s : Text} {parts : List Text}

theorem split_join (filled : parts ≠ []) (apart : ∀ part ∈ parts, sep ∉ part) :
    split sep (join [sep] parts) = parts := by
  induction parts with
  | nil => exact absurd rfl filled
  | cons part parts ih =>
    have first := apart part List.mem_cons_self
    cases parts with
    | nil =>
      have alone : join [sep] [part] = part := List.intercalate_singleton
      rw [alone, split_of_notMem first]
    | cons next more =>
      have whole : join [sep] (part :: next :: more) =
          part ++ sep :: join [sep] (next :: more) := by
        rw [join, List.intercalate_cons_cons, List.append_assoc]
        rfl
      rw [whole, split_append_cons first, ih (List.cons_ne_nil _ _) fun other mem =>
        apart other (List.mem_cons_of_mem part mem)]

end Text

namespace Urllib

open Text

theorem unquoteToBytes_cons {c : Char} (plain : c ≠ '%') (s : Text) :
    unquoteToBytes (c :: s) = UInt8.ofNat c.toNat :: unquoteToBytes s := by
  rw [unquoteToBytes]
  rintro a b t rfl
  exact absurd rfl plain

theorem utf8EncodeChar_ascii {c : Char} (ascii : c.toNat < 128) :
    String.utf8EncodeChar c = [UInt8.ofNat c.toNat] :=
  if_pos (Nat.le_of_lt_succ ascii)

theorem unquoteToBytes_of_plain {s : Text} (ascii : isAscii s = true) (plain : '%' ∉ s) :
    unquoteToBytes s = Utf8.encode s := by
  induction s with
  | nil => rfl
  | cons c s ih =>
    rw [isAscii, List.all_cons, Bool.and_eq_true, decide_eq_true_eq] at ascii
    rw [List.mem_cons, not_or] at plain
    rw [unquoteToBytes_cons (Ne.symm plain.1), ih ascii.2 plain.2, Utf8.encode, Utf8.encode,
      List.flatMap_cons, utf8EncodeChar_ascii ascii.1]
    rfl

theorem unquote_of_isAscii {s : Text} (ascii : isAscii s = true) :
    unquote s = Utf8.decodeReplacing (unquoteToBytes s) := by
  by_cases escapes : '%' ∈ s
  · have run : s.splitBy (fun a b => (a.toNat < 128) == (b.toNat < 128)) = [s] := by
      refine List.splitBy_of_isChain (List.ne_nil_of_mem escapes) ?_
      refine List.isChain_iff_forall_rel_of_append_cons_cons.mpr fun {a b l₁ l₂} whole => ?_
      have small := List.all_eq_true.mp ascii
      rw [beq_iff_eq]
      exact (small a (by simp [whole])).trans (small b (by simp [whole])).symm
    rw [unquote, if_pos escapes, run, List.flatMap_singleton, if_pos ascii]
  · rw [unquote, if_neg escapes, unquoteToBytes_of_plain ascii escapes, Utf8.decodeReplacing_encode]

section Percent

/-- A digit of `'%{:02X}'`. -/
def upperHex (n : Nat) : Char := if n < 10 then Char.ofNat (48 + n) else Char.ofNat (55 + n)

theorem percent_eq (b : UInt8) :
    percent b = ['%', upperHex (b.toNat / 16), upperHex (b.toNat % 16)] := rfl

theorem hexDigit?_upperHex {n : Nat} (small : n < 16) : hexDigit? (upperHex n) = some n := by
  have all : ∀ n < 16, hexDigit? (upperHex n) = some n := by decide
  exact all n small

theorem unquoteToBytes_percent (b : UInt8) (s : Text) :
    unquoteToBytes (percent b ++ s) = b :: unquoteToBytes s := by
  have bound : b.toNat < 256 := b.toNat_lt
  have value : 16 * (b.toNat / 16) + b.toNat % 16 = b.toNat := by omega
  rw [percent_eq]
  simp only [List.cons_append, List.nil_append]
  rw [unquoteToBytes, hexDigit?_upperHex (by omega), hexDigit?_upperHex (by omega)]
  dsimp only
  rw [value, UInt8.ofNat_toNat]

theorem unquoteToBytes_flatMap_percent (bytes : List UInt8) (s : Text) :
    unquoteToBytes (bytes.flatMap percent ++ s) = bytes ++ unquoteToBytes s := by
  induction bytes with
  | nil => rfl
  | cons b bytes ih =>
    rw [List.flatMap_cons, List.append_assoc, unquoteToBytes_percent, ih, List.cons_append]

/-- The characters of what `quote_plus` writes. -/
def isQuotedChar (c : Char) : Bool := isAlwaysSafe c || c = '+' || c = '%'

theorem isQuotedChar_percent (b : UInt8) : ∀ c ∈ percent b, isQuotedChar c = true := by
  have digit : ∀ n < 16, isQuotedChar (upperHex n) = true := by decide
  have bound : b.toNat < 256 := b.toNat_lt
  intro c mem
  rw [percent_eq, List.mem_cons, List.mem_cons, List.mem_singleton] at mem
  obtain rfl | rfl | rfl := mem
  · rfl
  · exact digit _ (by omega)
  · exact digit _ (by omega)

theorem isQuotedChar_quotePlus (s : Text) : ∀ c ∈ quotePlus s, isQuotedChar c = true := by
  intro c mem
  rw [quotePlus] at mem
  obtain ⟨d, -, mem⟩ := List.mem_flatMap.mp mem
  split at mem
  · next safe =>
    rw [List.mem_singleton] at mem
    rw [mem, isQuotedChar, safe]
    rfl
  · split at mem
    · rw [List.mem_singleton] at mem
      rw [mem]
      rfl
    · obtain ⟨b, -, mem⟩ := List.mem_flatMap.mp mem
      exact isQuotedChar_percent b c mem

theorem ascii_of_isQuotedChar {c : Char} (h : isQuotedChar c = true) : c.toNat < 128 := by
  simp only [isQuotedChar, isAlwaysSafe, isAsciiAlpha, isAsciiDigit, Bool.or_eq_true,
    Bool.and_eq_true, decide_eq_true_eq] at h
  by_contra high
  have other : ∀ d : Char, d.toNat < 128 → c ≠ d := by
    rintro d low rfl
    exact high low
  simp only [other '_' (by decide), other '.' (by decide), other '-' (by decide),
    other '~' (by decide), other '+' (by decide), other '%' (by decide), or_false] at h
  omega

theorem plain_of_isQuotedChar {c : Char} (h : isQuotedChar c = true) :
    isSpace c = false ∧ isUnsafeUrlByte c = false ∧ c ∉ ['&', '=', '#'] := by
  have all : ∀ n < 128, isQuotedChar (Char.ofNat n) = true →
      isSpace (Char.ofNat n) = false ∧ isUnsafeUrlByte (Char.ofNat n) = false ∧
        Char.ofNat n ∉ ['&', '=', '#'] := by decide
  have one := all c.toNat (ascii_of_isQuotedChar h)
  rw [c.ofNat_toNat] at one
  exact one h

/-- What `parse_qsl` makes of a field before it decodes it. -/
def spaced (s : Text) : Text := s.map fun c => if c = '+' then ' ' else c

theorem spaced_percent (b : UInt8) : spaced (percent b) = percent b := by
  have digit : ∀ n < 16, upperHex n ≠ '+' := by decide
  have bound : b.toNat < 256 := b.toNat_lt
  rw [percent_eq, spaced, List.map_cons, List.map_cons, List.map_cons, List.map_nil,
    if_neg (by decide), if_neg (digit _ (by omega)), if_neg (digit _ (by omega))]

theorem spaced_flatMap_percent (bytes : List UInt8) :
    spaced (bytes.flatMap percent) = bytes.flatMap percent := by
  rw [spaced, List.map_flatMap]
  exact congrArg (bytes.flatMap ·) (funext spaced_percent)

theorem unquoteToBytes_spaced_quotePlus (s : Text) :
    unquoteToBytes (spaced (quotePlus s)) = Utf8.encode s := by
  induction s with
  | nil => rfl
  | cons c s ih =>
    have whole : quotePlus (c :: s) = quotePlus [c] ++ quotePlus s := by
      rw [quotePlus, List.flatMap_cons, quotePlus, quotePlus, List.flatMap_singleton]
    have parts : spaced (quotePlus (c :: s)) = spaced (quotePlus [c]) ++ spaced (quotePlus s) := by
      rw [whole, spaced, List.map_append]
      rfl
    have bytes : Utf8.encode (c :: s) = String.utf8EncodeChar c ++ Utf8.encode s :=
      List.flatMap_cons
    rw [parts, bytes, ← ih, quotePlus, List.flatMap_singleton]
    by_cases safe : isAlwaysSafe c = true
    · have quoted : isQuotedChar c = true := by rw [isQuotedChar, safe]; rfl
      have plus : c ≠ '+' := by rintro rfl; cases safe
      have escape : c ≠ '%' := by rintro rfl; cases safe
      rw [if_pos safe, utf8EncodeChar_ascii (ascii_of_isQuotedChar quoted), spaced,
        List.map_singleton, if_neg plus, List.singleton_append, unquoteToBytes_cons escape]
      rfl
    · rw [if_neg safe]
      by_cases blank : c = ' '
      · rw [if_pos blank, blank]
        exact unquoteToBytes_cons (by decide) _
      · rw [if_neg blank, spaced_flatMap_percent, unquoteToBytes_flatMap_percent]

theorem isAscii_spaced_quotePlus (s : Text) : isAscii (spaced (quotePlus s)) = true := by
  refine List.all_eq_true.mpr fun c mem => decide_eq_true ?_
  obtain ⟨d, quoted, rfl⟩ := List.mem_map.mp mem
  have small := ascii_of_isQuotedChar (isQuotedChar_quotePlus s d quoted)
  split
  · decide
  · exact small

theorem unquote_spaced_quotePlus (s : Text) : unquote (spaced (quotePlus s)) = s := by
  rw [unquote_of_isAscii (isAscii_spaced_quotePlus s), unquoteToBytes_spaced_quotePlus,
    Utf8.decodeReplacing_encode]

/-- The text of one pair. -/
def pairText (pair : Text × Text) : Text := quotePlus pair.1 ++ '=' :: quotePlus pair.2

theorem notMem_quotePlus {c : Char} (separator : c ∈ ['&', '=', '#']) (s : Text) :
    c ∉ quotePlus s := fun mem =>
  (plain_of_isQuotedChar (isQuotedChar_quotePlus s c mem)).2.2 separator

theorem parseQsl_urlencode (pairs : List (Text × Text)) : parseQsl (urlencode pairs) = pairs := by
  by_cases none_ : pairs = []
  · rw [none_]
    rfl
  · have apart : ∀ part ∈ pairs.map pairText, '&' ∉ part := by
      intro part mem
      obtain ⟨pair, -, rfl⟩ := List.mem_map.mp mem
      rw [pairText, List.mem_append, List.mem_cons, not_or, not_or]
      exact ⟨notMem_quotePlus (by decide) _, by decide, notMem_quotePlus (by decide) _⟩
    have filled : ∀ part ∈ pairs.map pairText, decide (part ≠ []) = true := by
      intro part mem
      obtain ⟨pair, -, rfl⟩ := List.mem_map.mp mem
      exact decide_eq_true (List.append_ne_nil_of_right_ne_nil _ (List.cons_ne_nil _ _))
    have fields : split '&' (urlencode pairs) = pairs.map pairText :=
      split_join (by simpa using none_) apart
    rw [parseQsl, fields, List.filter_eq_self.mpr filled, List.map_map]
    refine (List.map_congr_left fun pair _ => ?_).trans (List.map_id' pairs)
    have cut : partition '=' (pairText pair) = (quotePlus pair.1, some (quotePlus pair.2)) :=
      partition_append_cons (notMem_quotePlus (by decide) _) _
    rw [Function.comp_apply, cut]
    exact Prod.ext (unquote_spaced_quotePlus pair.1) (unquote_spaced_quotePlus pair.2)

end Percent

end Urllib

end Rankuno.Python
