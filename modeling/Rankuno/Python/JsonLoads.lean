import Rankuno.Python.Digits
import Rankuno.Python.JsonRoundTrip
import Rankuno.Python.Utf8RoundTrip

/-!
# Whole JSON documents

`json.loads` of a text, and of bytes, which are UTF-8 unless their first ones say
otherwise. Integers are written without a point, and read as what they are.
-/

namespace Rankuno.Python

open Text

/-- `json.loads` of a text; a `ValueError` is `none`. -/
def loads (text : Text) : Option Json :=
  match rawDecode (skipBlanks text) with
  | some (value, rest) => if skipBlanks rest = [] then some value else none
  | none => none

/-- What `detect_encoding` may take for another encoding than UTF-8: a zero among the first two
bytes, or a first byte of a byte order mark. -/
def isMarked (bytes : List UInt8) : Bool :=
  (bytes.take 2).any (fun b => b = 0) || bytes.head?.any fun b => b = 0xef || b = 0xfe || b = 0xff

/-- `json.loads` of bytes, where `wide` decodes what is marked. -/
def loadsBytes (wide : List UInt8 → Option Text) (bytes : List UInt8) : Option Json :=
  (if isMarked bytes then wide bytes else Utf8.decode bytes).bind loads

theorem loads_dumps (style : JsonStyle) {value : Json} (closed : value.isNumber = false) :
    loads (style.dumps 0 value) = some value := by
  have read := rawDecode_dumps_append style 0 closed []
  rw [List.append_nil] at read
  rw [loads, (startsItem_dumps style 0 value).skipBlanks, read]
  rfl

theorem loadsBytes_encode (wide : List UInt8 → Option Text) (text : Text) :
    loadsBytes wide (Utf8.encode ('{' :: '"' :: text)) = loads ('{' :: '"' :: text) := by
  have unmarked : isMarked (Utf8.encode ('{' :: '"' :: text)) = false := rfl
  rw [loadsBytes, unmarked, if_neg Bool.false_ne_true, Utf8.decode_encode]
  rfl

/-! ## Integers -/

theorem head?_ofNat {n : Nat} (positive : 0 < n) : (ofNat n).head? ≠ some '0' := by
  rw [DecimalDigits.ofNat_eq]
  induction n using Nat.strongRecOn with
  | ind n ih =>
    rw [Nat.toDigits_eq_if (by decide)]
    split
    · next small =>
      have digits : ∀ n < 10, 0 < n → [Nat.digitChar n].head? ≠ some '0' := by decide
      exact digits n small positive
    · next large =>
      rw [List.head?_append_of_ne_nil _ Nat.toDigits_ne_nil]
      exact ih (n / 10) (Nat.div_lt_self positive (by decide))
        (Nat.div_pos (Nat.le_of_not_lt large) (by decide))

theorem sign_shape_int (n : Int) : (if n < 0 then ['-'] else []) = [] ∨
    (if n < 0 then ['-'] else []) = ['-'] := by
  split
  · exact .inr rfl
  · exact .inl rfl

theorem digits_ofNat (n : Nat) : Digits (ofNat n) :=
  ⟨DecimalDigits.ofNat_ne_nil n,
    List.all_eq_true.mpr fun _ mem => DecimalDigits.isAsciiDigit_of_mem_ofNat mem⟩

theorem no_leading_zero_ofNat (n : Nat) : ofNat n = ['0'] ∨ (ofNat n).head? ≠ some '0' := by
  cases n with
  | zero => exact .inl rfl
  | succ n => exact .inr (head?_ofNat (Nat.succ_pos n))

/-- An integer as it is written. -/
def intLiteral (n : Int) : NumberLiteral where
  sign := if n < 0 then ['-'] else []
  whole := ofNat n.natAbs
  fraction := []
  exponent := []
  sign_shape := sign_shape_int n
  whole_shape := digits_ofNat n.natAbs
  no_leading_zero := no_leading_zero_ofNat n.natAbs
  fraction_shape := .none
  exponent_shape := .none

/-- The value of a literal that is an integer. -/
def NumberLiteral.int? (digits : DecimalDigits) (literal : NumberLiteral) : Option Int :=
  if literal.fraction = [] ∧ literal.exponent = [] then
    some (if literal.sign = [] then digits.number literal.whole
      else -(digits.number literal.whole : Int))
  else none

theorem int?_intLiteral (digits : DecimalDigits) (n : Int) :
    (intLiteral n).int? digits = some n := by
  have sign : (intLiteral n).sign = if n < 0 then ['-'] else [] := rfl
  have whole : (intLiteral n).whole = ofNat n.natAbs := rfl
  rw [NumberLiteral.int?, if_pos ⟨rfl, rfl⟩, sign, whole, digits.number_ofNat]
  congr 1
  split
  · next negative =>
    rw [if_neg (List.cons_ne_nil _ _)]
    omega
  · next positive =>
    rw [if_pos rfl]
    omega

end Rankuno.Python
