import TrinityCore.Lib.JsonText

/-!
# The JSON reader of route contracts

`BotValidationRouteNativeJson.h`. A text is a list of bytes and the cursor a number; a byte that is
read past the end is a result of its own, and so is a loop that is out of rounds. What `strtod`
makes of a literal is a parameter.
-/

namespace TrinityCore.Bots.RouteNativeJson

open JsonText (isBlank isDigit quote backslash)

/-- What a value of kind `Number` holds. -/
structure Number (D : Type) where
  number : D
  integral : Bool := false
  negative : Bool := false
  deriving DecidableEq, Repr

/-- `Value`, each kind with the fields it uses. -/
abbrev Value (D : Type) := JsonValue (Number D)

/-- Why a text is refused. -/
inductive JsonError where
  | trailingData
  | stringExpected
  | stringControlCharacter
  | stringEscapeTruncated
  | stringEscapeInvalid
  | stringNonAsciiEscape
  | stringUnterminated
  | numberInvalid
  | numberLeadingZero
  | tooDeep
  | truncated
  | duplicateKey
  | colonExpected
  | objectSeparatorExpected
  | arraySeparatorExpected
  | literalInvalid
  deriving DecidableEq, Repr

def JsonError.text : JsonError → String
  | .trailingData => "json_trailing_data"
  | .stringExpected => "json_string_expected"
  | .stringControlCharacter => "json_string_control_character"
  | .stringEscapeTruncated => "json_string_escape_truncated"
  | .stringEscapeInvalid => "json_string_escape_invalid"
  | .stringNonAsciiEscape => "json_string_non_ascii_escape"
  | .stringUnterminated => "json_string_unterminated"
  | .numberInvalid => "json_number_invalid"
  | .numberLeadingZero => "json_number_leading_zero"
  | .tooDeep => "json_too_deep"
  | .truncated => "json_truncated"
  | .duplicateKey => "json_duplicate_key"
  | .colonExpected => "json_colon_expected"
  | .objectSeparatorExpected => "json_object_separator_expected"
  | .arraySeparatorExpected => "json_array_separator_expected"
  | .literalInvalid => "json_literal_invalid"

/-- How reading stops without a value. -/
inductive Stop where
  | fail (error : JsonError)
  | outOfBounds
  | outOfFuel
  deriving DecidableEq, Repr

def maxDepth : Nat := 32

variable {D : Type} (strtod : List UInt8 → D) (text : List UInt8)

/-- `_text[_pos]`. -/
def byteAt (pos : Nat) : Except Stop UInt8 :=
  match text[pos]? with
  | none => .error .outOfBounds
  | some c => .ok c

/-- `while (_pos < _text.size() && p(_text[_pos])) ++_pos`. -/
def scan (p : UInt8 → Bool) (pos : Nat) : Nat := pos + ((text.drop pos).takeWhile p).length

/-- `SkipWhitespace`. -/
def skipWhitespace (pos : Nat) : Nat := scan text isBlank pos

/-- `Consume`, absent where it returns false. -/
def consume (expected : UInt8) (pos : Nat) : Option Nat :=
  if text[pos]? = some expected then some (pos + 1) else none

/-- `ParseLiteral`, absent where it returns false. -/
def parseLiteral (literal : List UInt8) (pos : Nat) : Option Nat :=
  if (text.drop pos).take literal.length = literal then some (pos + literal.length) else none

/-- The escapes of one character. -/
def simpleEscape (escaped : UInt8) : Option UInt8 :=
  if escaped = quote then some quote
  else if escaped = backslash then some backslash
  else if escaped = '/'.toUInt8 then some '/'.toUInt8
  else if escaped = 'b'.toUInt8 then some 0x08
  else if escaped = 'f'.toUInt8 then some 0x0c
  else if escaped = 'n'.toUInt8 then some 0x0a
  else if escaped = 'r'.toUInt8 then some 0x0d
  else if escaped = 't'.toUInt8 then some 0x09
  else none

/-- The loop over the four digits of an escape, `count` of them left. -/
def parseHex : Nat → Nat → Nat → Except Stop (Nat × Nat)
  | 0, pos, value => .ok (value, pos)
  | count + 1, pos, value => do
    let h ← byteAt text pos
    let value := value <<< 4
    if '0'.toUInt8 ≤ h ∧ h ≤ '9'.toUInt8 then
      parseHex count (pos + 1) (value ||| (h.toNat - '0'.toNat))
    else if 'a'.toUInt8 ≤ h ∧ h ≤ 'f'.toUInt8 then
      parseHex count (pos + 1) (value ||| (h.toNat - 'a'.toNat + 10))
    else if 'A'.toUInt8 ≤ h ∧ h ≤ 'F'.toUInt8 then
      parseHex count (pos + 1) (value ||| (h.toNat - 'A'.toNat + 10))
    else .error (.fail .stringEscapeInvalid)

/-- What comes behind a backslash, for the string so far. -/
def parseEscape (pos : Nat) (out : List UInt8) : Except Stop (List UInt8 × Nat) :=
  if text.length ≤ pos then .error (.fail .stringEscapeTruncated)
  else do
    let escaped ← byteAt text pos
    let pos := pos + 1
    match simpleEscape escaped with
    | some c => .ok (out ++ [c], pos)
    | none =>
      if escaped = 'u'.toUInt8 then
        if text.length < pos + 4 then .error (.fail .stringEscapeTruncated)
        else do
          let (value, pos) ← parseHex text 4 pos 0
          if 0x80 ≤ value then .error (.fail .stringNonAsciiEscape)
          else .ok (out ++ [value.toUInt8], pos)
      else .error (.fail .stringEscapeInvalid)

/-- The loop of `ParseString`. -/
def parseCharacters : Nat → Nat → List UInt8 → Except Stop (List UInt8 × Nat)
  | 0, _, _ => .error .outOfFuel
  | fuel + 1, pos, out =>
    if text.length ≤ pos then .error (.fail .stringUnterminated)
    else do
      let c ← byteAt text pos
      let pos := pos + 1
      if c = quote then .ok (out, pos)
      else if c < 0x20 then .error (.fail .stringControlCharacter)
      else if c ≠ backslash then parseCharacters fuel pos (out ++ [c])
      else do
        let (out, pos) ← parseEscape text pos out
        parseCharacters fuel pos out

/-- `ParseString`. -/
def parseString (fuel pos : Nat) : Except Stop (List UInt8 × Nat) :=
  match consume text quote pos with
  | none => .error (.fail .stringExpected)
  | some pos => parseCharacters text fuel pos []

/-- The fraction of `ParseNumber`, and whether there is none. -/
def parseFraction (pos : Nat) : Except Stop (Bool × Nat) :=
  if text[pos]? = some '.'.toUInt8 then
    let fractionStart := pos + 1
    let pos := scan text isDigit fractionStart
    if pos = fractionStart then .error (.fail .numberInvalid) else .ok (false, pos)
  else .ok (true, pos)

/-- The exponent of `ParseNumber`, and whether there is none. -/
def parseExponent (pos : Nat) : Except Stop (Bool × Nat) :=
  if text[pos]? = some 'e'.toUInt8 ∨ text[pos]? = some 'E'.toUInt8 then
    let pos := pos + 1
    let exponentStart :=
      if text[pos]? = some '+'.toUInt8 ∨ text[pos]? = some '-'.toUInt8 then pos + 1 else pos
    let pos := scan text isDigit exponentStart
    if pos = exponentStart then .error (.fail .numberInvalid) else .ok (false, pos)
  else .ok (true, pos)

/-- `ParseNumber`. -/
def parseNumber (start : Nat) : Except Stop (Value D × Nat) := do
  let negative := decide (text[start]? = some '-'.toUInt8)
  let digitsStart := if negative then start + 1 else start
  let pos := scan text isDigit digitsStart
  if pos = digitsStart then .error (.fail .numberInvalid)
  else
    let c ← byteAt text digitsStart
    if c = '0'.toUInt8 ∧ 1 < pos - digitsStart then .error (.fail .numberLeadingZero)
    else
      let (withoutFraction, pos) ← parseFraction text pos
      let (withoutExponent, pos) ← parseExponent text pos
      let literal := (text.drop start).take (pos - start)
      .ok (.number {
        number := strtod literal
        integral := withoutFraction && withoutExponent
        negative := negative }, pos)

mutual

/-- `ParseValue`. -/
def parseValue : Nat → Nat → Nat → Except Stop (Value D × Nat)
  | 0, _, _ => .error .outOfFuel
  | fuel + 1, pos, depth =>
    if maxDepth < depth then .error (.fail .tooDeep)
    else
      let pos := skipWhitespace text pos
      if text.length ≤ pos then .error (.fail .truncated)
      else do
        let c ← byteAt text pos
        if c = '{'.toUInt8 then
          let pos := skipWhitespace text (pos + 1)
          match consume text '}'.toUInt8 pos with
          | some pos => .ok (.object [], pos)
          | none => parseMembers fuel pos depth []
        else if c = '['.toUInt8 then
          let pos := skipWhitespace text (pos + 1)
          match consume text ']'.toUInt8 pos with
          | some pos => .ok (.array [], pos)
          | none => parseItems fuel pos depth []
        else if c = quote then do
          let (out, pos) ← parseString text fuel pos
          .ok (.string out, pos)
        else if c = 't'.toUInt8 ∨ c = 'f'.toUInt8 then
          let value := decide (c = 't'.toUInt8)
          match parseLiteral text
            (if value then JsonText.trueText else JsonText.falseText) pos with
          | some pos => .ok (.bool value, pos)
          | none => .error (.fail .literalInvalid)
        else if c = 'n'.toUInt8 then
          match parseLiteral text JsonText.nullText pos with
          | some pos => .ok (.null, pos)
          | none => .error (.fail .literalInvalid)
        else parseNumber strtod text pos

/-- The loop over the members of an object. -/
def parseMembers : Nat → Nat → Nat → List (List UInt8 × Value D) → Except Stop (Value D × Nat)
  | 0, _, _, _ => .error .outOfFuel
  | fuel + 1, pos, depth, members => do
    let (key, pos) ← parseString text fuel (skipWhitespace text pos)
    if key ∈ members.map Prod.fst then .error (.fail .duplicateKey)
    else
      match consume text ':'.toUInt8 (skipWhitespace text pos) with
      | none => .error (.fail .colonExpected)
      | some pos => do
        let (member, pos) ← parseValue fuel pos (depth + 1)
        let members := members ++ [(key, member)]
        let pos := skipWhitespace text pos
        match consume text '}'.toUInt8 pos with
        | some pos => .ok (.object members, pos)
        | none =>
          match consume text ','.toUInt8 pos with
          | none => .error (.fail .objectSeparatorExpected)
          | some pos => parseMembers fuel pos depth members

/-- The loop over the items of an array. -/
def parseItems : Nat → Nat → Nat → List (Value D) → Except Stop (Value D × Nat)
  | 0, _, _, _ => .error .outOfFuel
  | fuel + 1, pos, depth, items => do
    let (item, pos) ← parseValue fuel pos (depth + 1)
    let items := items ++ [item]
    let pos := skipWhitespace text pos
    match consume text ']'.toUInt8 pos with
    | some pos => .ok (.array items, pos)
    | none =>
      match consume text ','.toUInt8 pos with
      | none => .error (.fail .arraySeparatorExpected)
      | some pos => parseItems fuel pos depth items

end

/-- `Parse`. -/
def parse (fuel : Nat) : Except Stop (Value D) := do
  let (out, pos) ← parseValue strtod text fuel (skipWhitespace text 0) 0
  if skipWhitespace text pos = text.length then .ok out
  else .error (.fail .trailingData)

end TrinityCore.Bots.RouteNativeJson
