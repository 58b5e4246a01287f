import Rankuno.Python.Base64
import Rankuno.Python.Json

/-!
# Bytes of a fixed length

What a keyed hash gives, and how such bytes are written in hexadecimal: `bytes.hex`, and
`bytes.fromhex`, which passes over the blanks between two bytes.
-/

namespace Rankuno.Python

open Text

/-- Bytes of a length. -/
abbrev Sized (n : Nat) := {bytes : Bytes // bytes.length = n}

/-- `hmac.new(key, message, sha256).digest()`. -/
abbrev Hmac := Bytes → Bytes → Sized 32

/-- `bytes.hex`. -/
def hex : Bytes → Text
  | [] => []
  | b :: bytes => lowerHex (b.toNat / 16) :: lowerHex (b.toNat % 16) :: hex bytes

/-- The blanks of `Py_ISSPACE`. -/
def isHexBlank (c : Char) : Bool := c.toNat = 32 || 9 ≤ c.toNat && c.toNat ≤ 13

/-- `bytes.fromhex`; a `ValueError` is `none`. -/
def fromHex? : Text → Option Bytes
  | [] => some []
  | [c] => if isHexBlank c then some [] else none
  | c :: d :: s =>
    if isHexBlank c then fromHex? (d :: s)
    else
      match hexDigit? c, hexDigit? d with
      | some high, some low => (fromHex? s).map fun bytes => UInt8.ofNat (16 * high + low) :: bytes
      | _, _ => none

/-- The digits of `bytes.hex`. -/
def isHexDigit (c : Char) : Bool :=
  48 ≤ c.toNat && c.toNat ≤ 57 || 97 ≤ c.toNat && c.toNat ≤ 102

theorem lowerHex_spec : ∀ n < 16, hexDigit? (lowerHex n) = some n ∧
    isHexBlank (lowerHex n) = false ∧ isHexDigit (lowerHex n) = true := by
  decide

variable {bytes : Bytes} {c : Char}

theorem isHexDigit_of_mem_hex (mem : c ∈ hex bytes) : isHexDigit c = true := by
  induction bytes with
  | nil => cases mem
  | cons b bytes ih =>
    have small := b.toNat_lt
    rw [hex, List.mem_cons, List.mem_cons] at mem
    obtain rfl | rfl | later := mem
    · exact (lowerHex_spec _ (by omega)).2.2
    · exact (lowerHex_spec _ (by omega)).2.2
    · exact ih later

theorem fromHex?_hex (bytes : Bytes) : fromHex? (hex bytes) = some bytes := by
  induction bytes with
  | nil => rfl
  | cons b bytes ih =>
    have small := b.toNat_lt
    obtain ⟨high, shown, -⟩ := lowerHex_spec (b.toNat / 16) (by omega)
    obtain ⟨low, -, -⟩ := lowerHex_spec (b.toNat % 16) (by omega)
    rw [hex, fromHex?, shown, if_neg Bool.false_ne_true, high, low]
    dsimp only
    rw [ih, Nat.div_add_mod, UInt8.ofNat_toNat]
    rfl

end Rankuno.Python
