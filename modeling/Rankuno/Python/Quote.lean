import Rankuno.Python.Text

/-!
# UTF-8 and percent-encoding

`bytes.decode` of UTF-8, and `unquote`, `quote_plus`, `parse_qsl` and `urlencode`
of `urllib.parse`. The decoder reads one byte at a time and marks a malformed
sequence where CPython does: before the first byte that cannot follow.
-/

namespace Rankuno.Python

namespace Utf8

/-- The bytes a sequence still owes, the bounds of the next one, and the bits
read so far. -/
structure Owing where
  owed : Nat
  low : Nat := 0x80
  high : Nat := 0xbf
  value : Nat

/-- What a byte between two characters begins. -/
def lead (b : Nat) : Option Owing :=
  if b < 0x80 then some { owed := 0, value := b }
  else if 0xc2 ≤ b ∧ b ≤ 0xdf then some { owed := 1, value := b - 0xc0 }
  else if b = 0xe0 then some { owed := 2, low := 0xa0, value := 0 }
  else if b = 0xed then some { owed := 2, high := 0x9f, value := 0xd }
  else if 0xe1 ≤ b ∧ b ≤ 0xef then some { owed := 2, value := b - 0xe0 }
  else if b = 0xf0 then some { owed := 3, low := 0x90, value := 0 }
  else if b = 0xf4 then some { owed := 3, high := 0x8f, value := 4 }
  else if 0xf1 ≤ b ∧ b ≤ 0xf3 then some { owed := 3, value := b - 0xf0 }
  else none

/-- The characters of a text of bytes, and `none` for a malformed sequence. -/
def decodeFrom : Option Owing → List UInt8 → List (Option Char)
  | none, [] => []
  | some _, [] => [none]
  | state, b :: bs =>
    let begin :=
      match lead b.toNat with
      | none => none :: decodeFrom none bs
      | some first =>
        if first.owed = 0 then some (Char.ofNat first.value) :: decodeFrom none bs
        else decodeFrom (some first) bs
    match state with
    | none => begin
    | some { owed, low, high, value } =>
      if low ≤ b.toNat ∧ b.toNat ≤ high then
        let value := value * 64 + (b.toNat - 0x80)
        if owed = 1 then some (Char.ofNat value) :: decodeFrom none bs
        else decodeFrom (some { owed := owed - 1, value }) bs
      else none :: begin

/-- `bytes.decode('utf-8', 'strict')`. -/
def decode (bytes : List UInt8) : Option Text := (decodeFrom none bytes).mapM fun c => c

/-- `bytes.decode('utf-8', 'replace')`. -/
def decodeReplacing (bytes : List UInt8) : Text :=
  (decodeFrom none bytes).map fun c => c.getD (Char.ofNat 0xfffd)

/-- `str.encode('utf-8')`. -/
def encode (s : Text) : List UInt8 := s.flatMap String.utf8EncodeChar

example : decode (encode "aé‑😀".toList) = some "aé‑😀".toList := by decide

end Utf8

namespace Urllib

open Text

/-- `unquote_to_bytes` of ASCII text. -/
def unquoteToBytes : Text → List UInt8
  | '%' :: a :: b :: s =>
    match hexDigit? a, hexDigit? b with
    | some x, some y => UInt8.ofNat (16 * x + y) :: unquoteToBytes s
    | _, _ => UInt8.ofNat 0x25 :: unquoteToBytes (a :: b :: s)
  | c :: s => UInt8.ofNat c.toNat :: unquoteToBytes s
  | [] => []

/-- `unquote(_, errors='replace')`: each run of ASCII text is decoded. -/
def unquote (s : Text) : Text :=
  if '%' ∈ s then
    (s.splitBy fun a b => (a.toNat < 128) == (b.toNat < 128)).flatMap fun run =>
      if isAscii run then Utf8.decodeReplacing (unquoteToBytes run) else run
  else s

/-- `_ALWAYS_SAFE`. -/
def isAlwaysSafe (c : Char) : Bool :=
  isAsciiAlpha c || isAsciiDigit c || c = '_' || c = '.' || c = '-' || c = '~'

/-- `'%{:02X}'`. -/
def percent (b : UInt8) : Text :=
  let digit (n : Nat) : Char := if n < 10 then Char.ofNat (48 + n) else Char.ofNat (55 + n)
  ['%', digit (b.toNat / 16), digit (b.toNat % 16)]

/-- `quote_plus`. -/
def quotePlus (s : Text) : Text :=
  s.flatMap fun c =>
    if isAlwaysSafe c then [c]
    else if c = ' ' then ['+']
    else (String.utf8EncodeChar c).flatMap percent

/-- `parse_qsl(_, keep_blank_values=True)`. -/
def parseQsl (query : Text) : List (Text × Text) :=
  let field (s : Text) : Text := unquote (s.map fun c => if c = '+' then ' ' else c)
  ((split '&' query).filter fun part => part ≠ []).map fun part =>
    (field (partition '=' part).1, field ((partition '=' part).2.getD []))

/-- `urlencode`. -/
def urlencode (pairs : List (Text × Text)) : Text :=
  join ['&'] (pairs.map fun pair => quotePlus pair.1 ++ '=' :: quotePlus pair.2)

end Urllib

end Rankuno.Python
