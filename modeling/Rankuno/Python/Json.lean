import Rankuno.Python.Text

/-!
# JSON texts

What `json.dumps` writes and what `JSONDecoder.raw_decode` reads. A text is written in the
layout of a `Style`. The decoder is the one of the standard library without its lookup of
keys already seen: it leaves what stands after the value. A lone surrogate is no character
here, so an escape that denotes one is not decoded.

The nesting of a text is bounded by its length, which the recursion of the decoder is on.
-/

namespace Rankuno.Python

open Text

/-! ## Values -/

/-- The literals that are neither numbers nor strings. -/
inductive JsonConstant where
  | null
  | true
  | false
  | nan
  | infinity
  | negativeInfinity
  deriving DecidableEq

def JsonConstant.text : JsonConstant → Text
  | null => "null".toList
  | true => "true".toList
  | false => "false".toList
  | nan => "NaN".toList
  | infinity => "Infinity".toList
  | negativeInfinity => "-Infinity".toList

def jsonConstants : List JsonConstant := [.null, .true, .false, .nan, .infinity, .negativeInfinity]

def Digits (text : Text) : Prop := text ≠ [] ∧ text.all isAsciiDigit

theorem Digits.cons {c : Char} {text : Text} (digit : isAsciiDigit c = true)
    (digits : text.all isAsciiDigit = true) : Digits (c :: text) := by
  refine ⟨List.cons_ne_nil _ _, ?_⟩
  rw [List.all_cons, digit, digits]
  rfl

inductive NumberFraction : Text → Prop where
  | none : NumberFraction []
  | point {digits : Text} : Digits digits → NumberFraction ('.' :: digits)

inductive NumberExponent : Text → Prop where
  | none : NumberExponent []
  | power {e : Char} {sign digits : Text} :
      e = 'e' ∨ e = 'E' → sign = [] ∨ sign = ['+'] ∨ sign = ['-'] → Digits digits →
        NumberExponent (e :: (sign ++ digits))

/-- A number as it is written. -/
structure NumberLiteral where
  sign : Text
  whole : Text
  fraction : Text
  exponent : Text
  sign_shape : sign = [] ∨ sign = ['-']
  whole_shape : Digits whole
  no_leading_zero : whole = ['0'] ∨ whole.head? ≠ some '0'
  fraction_shape : NumberFraction fraction
  exponent_shape : NumberExponent exponent

def NumberLiteral.text (n : NumberLiteral) : Text := n.sign ++ n.whole ++ n.fraction ++ n.exponent

inductive Json where
  | constant (constant : JsonConstant)
  | number (literal : NumberLiteral)
  | string (text : Text)
  | array (values : List Json)
  | object (members : List (Text × Json))

/-! ## Writing -/

/-- `WHITESPACE`. -/
def isJsonBlank (c : Char) : Bool := c = ' ' || c = '\t' || c = '\n' || c = '\r'

/-- The arguments of `dumps` that lay a text out, where the text is JSON. -/
structure JsonStyle where
  ensureAscii : Bool := true
  indent : Option Text := none
  beforeComma : Text := []
  afterComma : Text := [' ']
  beforeColon : Text := []
  afterColon : Text := [' ']
  blank : ∀ gap ∈ [indent.getD [], beforeComma, afterComma, beforeColon, afterColon],
    gap.all isJsonBlank

/-- `item_separator`. -/
def JsonStyle.itemSeparator (style : JsonStyle) : Text :=
  style.beforeComma ++ ',' :: style.afterComma

/-- `key_separator`. -/
def JsonStyle.keySeparator (style : JsonStyle) : Text :=
  style.beforeColon ++ ':' :: style.afterColon

/-- `newline_indent` at a depth. -/
def JsonStyle.newlineIndent (style : JsonStyle) (level : Nat) : Text :=
  match style.indent with
  | none => []
  | some unit => '\n' :: (List.replicate level unit).flatten

/-- What follows the backslash in a short escape, and what it denotes. -/
def shortEscapes : List (Char × Char) :=
  [('"', '"'), ('\\', '\\'), ('b', .ofNat 8), ('f', .ofNat 12), ('n', '\n'), ('r', '\r'),
    ('t', '\t')]

def lowerHex (n : Nat) : Char := .ofNat (if n < 10 then 48 + n else 87 + n)

/-- `'\\u{0:04x}'.format(n)`. -/
def unicodeEscape (n : Nat) : Text :=
  ['\\', 'u', lowerHex (n / 4096 % 16), lowerHex (n / 256 % 16), lowerHex (n / 16 % 16),
    lowerHex (n % 16)]

/-- The replacement of a character in `encode_basestring` or `encode_basestring_ascii`. -/
def escapeChar (ensureAscii : Bool) (c : Char) : Text :=
  match shortEscapes.find? fun escape => escape.2 = c with
  | some escape => ['\\', escape.1]
  | none =>
    if c.toNat < 32 then unicodeEscape c.toNat
    else if !ensureAscii || c.toNat < 127 then [c]
    else if c.toNat < 0x10000 then unicodeEscape c.toNat
    else
      unicodeEscape (0xd800 + (c.toNat - 0x10000) / 1024) ++
        unicodeEscape (0xdc00 + (c.toNat - 0x10000) % 1024)

/-- What stands between the quotes. -/
def JsonStyle.escaped (style : JsonStyle) (text : Text) : Text :=
  text.flatMap (escapeChar style.ensureAscii)

def JsonStyle.quoted (style : JsonStyle) (text : Text) : Text :=
  '"' :: (style.escaped text ++ ['"'])

/-- The items that follow another one. -/
def JsonStyle.following (style : JsonStyle) (level : Nat) (texts : List Text) : Text :=
  texts.flatMap fun text => style.itemSeparator ++ style.newlineIndent level ++ text

/-- The items of an array or an object at a depth, in their brackets. -/
def JsonStyle.bracketed (style : JsonStyle) (level : Nat) (opening closing : Char) :
    List Text → Text
  | [] => [opening, closing]
  | text :: texts =>
    opening :: (style.newlineIndent (level + 1) ++ text ++
      style.following (level + 1) texts ++ style.newlineIndent level ++ [closing])

mutual

/-- `_iterencode`, at a depth. -/
def JsonStyle.dumps (style : JsonStyle) (level : Nat) : Json → Text
  | .constant constant => constant.text
  | .number literal => literal.text
  | .string text => style.quoted text
  | .array values => style.bracketed level '[' ']' (style.dumpsValues (level + 1) values)
  | .object members => style.bracketed level '{' '}' (style.dumpsMembers (level + 1) members)

def JsonStyle.dumpsValues (style : JsonStyle) (level : Nat) : List Json → List Text
  | [] => []
  | value :: values => style.dumps level value :: style.dumpsValues level values

def JsonStyle.dumpsMembers (style : JsonStyle) (level : Nat) : List (Text × Json) → List Text
  | [] => []
  | (key, value) :: members =>
    (style.quoted key ++ style.keySeparator ++ style.dumps level value) ::
      style.dumpsMembers level members

end

/-! ## Reading -/

def skipBlanks (text : Text) : Text := text.dropWhile isJsonBlank

def scanSign (text : Text) : {sign : Text // sign = [] ∨ sign = ['-']} × Text :=
  match text with
  | [] => (⟨[], .inl rfl⟩, [])
  | c :: rest =>
    if c = '-' then (⟨['-'], .inr rfl⟩, rest)
    else (⟨[], .inl rfl⟩, c :: rest)

def scanDigits (text : Text) : Option ({digits : Text // Digits digits} × Text) :=
  if found : text.takeWhile isAsciiDigit = [] then none
  else some (⟨text.takeWhile isAsciiDigit, found, List.all_takeWhile⟩, text.dropWhile isAsciiDigit)

def scanFraction (text : Text) : {fraction : Text // NumberFraction fraction} × Text :=
  match text with
  | [] => (⟨[], .none⟩, [])
  | c :: rest =>
    if c = '.' then
      match scanDigits rest with
      | none => (⟨[], .none⟩, c :: rest)
      | some (digits, rest) => (⟨'.' :: digits.1, .point digits.2⟩, rest)
    else (⟨[], .none⟩, c :: rest)

def scanExponentSign (text : Text) :
    {sign : Text // sign = [] ∨ sign = ['+'] ∨ sign = ['-']} × Text :=
  match text with
  | [] => (⟨[], .inl rfl⟩, [])
  | c :: rest =>
    if c = '+' then (⟨['+'], .inr (.inl rfl)⟩, rest)
    else if c = '-' then (⟨['-'], .inr (.inr rfl)⟩, rest)
    else (⟨[], .inl rfl⟩, c :: rest)

def scanExponent (text : Text) : {exponent : Text // NumberExponent exponent} × Text :=
  match text with
  | [] => (⟨[], .none⟩, [])
  | c :: rest =>
    if power : c = 'e' ∨ c = 'E' then
      let (sign, unsigned) := scanExponentSign rest
      match scanDigits unsigned with
      | none => (⟨[], .none⟩, c :: rest)
      | some (digits, after) =>
        (⟨c :: (sign.1 ++ digits.1), .power power sign.2 digits.2⟩, after)
    else (⟨[], .none⟩, c :: rest)

/-- `NUMBER_RE.match`. -/
def scanNumber (text : Text) : Option (NumberLiteral × Text) :=
  let (sign, text) := scanSign text
  match text with
  | [] => none
  | c :: rest =>
    if zero : c = '0' then
      let (fraction, rest) := scanFraction rest
      let (exponent, rest) := scanExponent rest
      some (⟨sign.1, ['0'], fraction.1, exponent.1, sign.2, ⟨List.cons_ne_nil _ _, rfl⟩,
        .inl rfl, fraction.2, exponent.2⟩, rest)
    else if digit : isAsciiDigit c then
      let (fraction, after) := scanFraction (rest.dropWhile isAsciiDigit)
      let (exponent, after) := scanExponent after
      some (⟨sign.1, c :: rest.takeWhile isAsciiDigit, fraction.1, exponent.1, sign.2,
        .cons digit List.all_takeWhile,
        .inr fun same => zero (Option.some.inj same), fraction.2, exponent.2⟩, after)
    else none

/-- `_decode_uXXXX`. -/
def scanUnit : Text → Option (Nat × Text)
  | a :: b :: c :: d :: rest =>
    match hexDigit? a, hexDigit? b, hexDigit? c, hexDigit? d with
    | some a, some b, some c, some d => some (4096 * a + 256 * b + 16 * c + d, rest)
    | _, _, _, _ => none
  | _ => none

/-- The character of a `\u` escape, after the `u`. -/
def scanUnicode (text : Text) : Option (Char × Text) :=
  match scanUnit text with
  | none => none
  | some (unit, rest) =>
    if 0xd800 ≤ unit ∧ unit ≤ 0xdbff then
      match rest with
      | '\\' :: 'u' :: rest =>
        match scanUnit rest with
        | none => none
        | some (low, rest) =>
          if 0xdc00 ≤ low ∧ low ≤ 0xdfff then
            some (.ofNat (0x10000 + (unit - 0xd800) * 1024 + (low - 0xdc00)), rest)
          else none
      | _ => none
    else if 0xdc00 ≤ unit ∧ unit ≤ 0xdfff then none
    else some (.ofNat unit, rest)

/-- The character of an escape, after the backslash. -/
def scanEscape : Text → Option (Char × Text)
  | [] => none
  | c :: rest =>
    if c = 'u' then scanUnicode rest
    else ((('/', '/') :: shortEscapes).find? fun escape => escape.1 = c).map fun escape =>
      (escape.2, rest)

/-- `scanstring`, after the opening quote, for as many characters. -/
def scanString : Nat → Text → Option (Text × Text)
  | 0, _ => none
  | _ + 1, [] => none
  | fuel + 1, c :: rest =>
    if c = '"' then some ([], rest)
    else if c = '\\' then
      match scanEscape rest with
      | none => none
      | some (char, rest) => (scanString fuel rest).map fun found => (char :: found.1, found.2)
    else if c.toNat < 32 then none
    else (scanString fuel rest).map fun found => (c :: found.1, found.2)

section Items

variable {α : Type}

/-- The loop of `JSONArray` and of `JSONObject`, from an item on. -/
def scanItems (item : Text → Option (α × Text)) (closing : Char) :
    Nat → Text → Option (List α × Text)
  | 0, _ => none
  | fuel + 1, text =>
    match item text with
    | none => none
    | some (value, rest) =>
      match skipBlanks rest with
      | [] => none
      | c :: rest =>
        if c = closing then some ([value], rest)
        else if c = ',' then
          (scanItems item closing fuel (skipBlanks rest)).map fun found =>
            (value :: found.1, found.2)
        else none

/-- `JSONArray` and `JSONObject`, after the opening bracket. -/
def scanBracketed (item : Text → Option (α × Text)) (closing : Char) (text : Text) :
    Option (List α × Text) :=
  match skipBlanks text with
  | [] => none
  | c :: rest =>
    if c = closing then some ([], rest)
    else scanItems item closing (c :: rest).length (c :: rest)

end Items

/-- A member of an object. -/
def scanMember (scanOnce : Text → Option (Json × Text)) : Text → Option ((Text × Json) × Text)
  | [] => none
  | quote :: rest =>
    if quote = '"' then
      match scanString rest.length rest with
      | none => none
      | some (key, rest) =>
        match skipBlanks rest with
        | [] => none
        | c :: rest =>
          if c = ':' then
            (scanOnce (skipBlanks rest)).map fun found => ((key, found.1), found.2)
          else none
    else none

/-- The constant a text starts with. -/
def constantAt (text : Text) : Option JsonConstant :=
  jsonConstants.find? fun constant => constant.text.isPrefixOf text

/-- A constant or a number. -/
def scanLiteral (text : Text) : Option (Json × Text) :=
  match constantAt text with
  | some constant => some (.constant constant, text.drop constant.text.length)
  | none => (scanNumber text).map fun found => (.number found.1, found.2)

/-- `scan_once`, to a depth. -/
def scanOnce : Nat → Text → Option (Json × Text)
  | 0, _ => none
  | _ + 1, [] => none
  | fuel + 1, c :: rest =>
    if c = '"' then
      (scanString rest.length rest).map fun found => (.string found.1, found.2)
    else if c = '{' then
      (scanBracketed (scanMember (scanOnce fuel)) '}' rest).map fun found =>
        (.object found.1, found.2)
    else if c = '[' then
      (scanBracketed (scanOnce fuel) ']' rest).map fun found => (.array found.1, found.2)
    else scanLiteral (c :: rest)

/-- `raw_decode`: the value a text starts with, and what stands after it. -/
def rawDecode (text : Text) : Option (Json × Text) := scanOnce (text.length + 1) text

end Rankuno.Python
