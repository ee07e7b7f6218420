import AvroTypes.Json.Value
import AvroTypes.Json.SyntaxError

/-!
# Reading JSON text

One pass over the characters of the text, with a reader for each part of the grammar: words,
numbers, strings, and values.  A reader returns what it read together with what is left, or the
place where it stopped.

Values nest, so their reader takes two bounds.  `depth` is how many brackets may still be opened,
which is a rule of the format: more than `depthLimit` open brackets are an error.  `fuel` only
makes the recursion visible; every step with less of it has less text to read, so the amount that
`Value.ofText` gives is never used up.

* `readWord`, `readNumber`, `readChars` — the parts that do not nest.
* `readValue`, `readElements`, `readMembers` — the parts that do.
* `Value.ofText` — a whole text.
-/

namespace AvroTypes.Json

/-- What a reader answers: something read and the text after it, or why it stopped. -/
abbrev Reading (α : Type) := Except Stop (α × List Char)

/-- The blanks between the tokens of a JSON text. -/
def isJsonBlank (c : Char) : Bool := c = ' ' || c = '\n' || c = '\t' || c = '\r'

/-- The text from its first token on. -/
def skipBlanks (text : List Char) : List Char := text.dropWhile isJsonBlank

/-! ## Words -/

/-- Reads the rest of a word, character by character. -/
def readWord : List Char → List Char → Except Stop (List Char)
  | [], left => .ok left
  | _ :: _, [] => .error (.atEnd .endInValue)
  | w :: word, c :: left =>
    if c = w then readWord word left else .error (.before .expectedWord (c :: left))

/-! ## Numbers

The digits of a number are collected in 64 bits, and those that no longer fit are dropped: one in
front of the point counts as a factor of ten, one behind it for nothing.  A number that is not an
integer is read as the double that its digits and its exponent are scaled to. -/

/-- The greatest exponent a number may spell out. -/
def exponentLimit : Nat := 2147483647

/-- The value of a decimal digit. -/
def digitValue (c : Char) : Nat := c.toNat - '0'.toNat

/-- Reads the digits of an exponent after its first one, `soFar` being what they amount to until
now.  Nothing is returned for the value if it passes the limit; what is left then starts after the
digit that passed it. -/
def readExponentDigits : Nat → List Char → Option Nat × List Char
  | soFar, [] => (some soFar, [])
  | soFar, c :: left =>
    if c.isDigit then
      let next := 10 * soFar + digitValue c
      if exponentLimit < next then (none, left) else readExponentDigits next left
    else (some soFar, c :: left)

/-- The double for `± digits · 10 ^ exponent`, read up to `left`. -/
def finishDouble (negative : Bool) (digits : Nat) (exponent : Int) (left : List Char) :
    Reading Number :=
  match Decimal.scale? negative digits exponent with
  | some bits => .ok (.double bits, left)
  | none => .error (.after .numberTooLarge left)

/-- Reads an exponent from after its letter, for a number whose digits amount to `digits`, the last
of them standing for `10 ^ scale`.  An exponent beyond the limit makes a number zero if it is
negative or the digits are all zero, and is an error otherwise. -/
def readExponent (negative : Bool) (digits : Nat) (scale : Int) (text : List Char) :
    Reading Number :=
  let (minus, unsigned) :=
    match text with
    | '+' :: left => (false, left)
    | '-' :: left => (true, left)
    | left => (false, left)
  match unsigned with
  | [] => .error (.atEnd .endInValue)
  | c :: left =>
    if c.isDigit then
      match readExponentDigits (digitValue c) left with
      | (some size, left) =>
        finishDouble negative digits (if minus then scale - size else scale + size) left
      | (none, left) =>
        if digits = 0 ∨ minus then finishDouble negative 0 0 (left.dropWhile Char.isDigit)
        else .error (.after .numberTooLarge left)
    else .error (.before .invalidNumber (c :: left))

/-- What digits amount to behind those that amount to `soFar`, as long as that fits 64 bits, how
many of them have been taken, and what is left. -/
def collectDigits : Nat → List Char → Nat × Nat × List Char
  | soFar, [] => (soFar, 0, [])
  | soFar, c :: left =>
    if c.isDigit ∧ 10 * soFar + digitValue c < Nat.pow 2 64 then
      let (digits, taken, left) := collectDigits (10 * soFar + digitValue c) left
      (digits, taken + 1, left)
    else (soFar, 0, c :: left)

/-- What a number without fraction and exponent stands for if its digits fit 64 bits: an integer, if
it does so with its sign.  Minus zero is a double, the only kind of number with a signed zero. -/
def finishInteger (negative : Bool) (magnitude : Nat) (left : List Char) : Reading Number :=
  if negative then
    if 0 < magnitude ∧ magnitude ≤ Nat.pow 2 63 then .ok (.integer (-magnitude), left)
    else finishDouble true magnitude 0 left
  else .ok (.integer magnitude, left)

/-- Reads what may follow the integer part of a number, `dropped` of whose digits did not fit. -/
def readFraction (negative : Bool) (digits dropped : Nat) : List Char → Reading Number
  | '.' :: text =>
    if text.head?.any Char.isDigit then
      let (digits, taken, left) := collectDigits digits text
      let scale : Int := dropped - taken
      match left.dropWhile Char.isDigit with
      | 'e' :: left => readExponent negative digits scale left
      | 'E' :: left => readExponent negative digits scale left
      | left => finishDouble negative digits scale left
    else .error (.before (if text.isEmpty then .endInValue else .invalidNumber) text)
  | 'e' :: left => readExponent negative digits dropped left
  | 'E' :: left => readExponent negative digits dropped left
  | left =>
    if dropped = 0 then finishInteger negative digits left
    else finishDouble negative digits dropped left

/-- Reads a number from after its sign.  A zero cannot be followed by another digit. -/
def readUnsigned (negative : Bool) : List Char → Reading Number
  | [] => .error (.atEnd .endInValue)
  | '0' :: left =>
    if left.head?.any Char.isDigit then .error (.before .invalidNumber left)
    else readFraction negative 0 0 left
  | c :: left =>
    if c.isDigit then
      let (digits, _, left) := collectDigits 0 (c :: left)
      readFraction negative digits (left.takeWhile Char.isDigit).length
        (left.dropWhile Char.isDigit)
    else .error (.before .invalidNumber (c :: left))

/-- Reads a number. -/
def readNumber : List Char → Reading Number
  | '-' :: left => readUnsigned true left
  | left => readUnsigned false left

/-! ## Strings -/

/-- The value of a hexadecimal digit. -/
def hexDigit? (c : Char) : Option Nat :=
  if c.isDigit then some (digitValue c)
  else if 'a' ≤ c ∧ c ≤ 'f' then some (c.toNat - 'a'.toNat + 10)
  else if 'A' ≤ c ∧ c ≤ 'F' then some (c.toNat - 'A'.toNat + 10)
  else none

/-- The value of four hexadecimal digits. -/
def hexUnit? (a b c d : Char) : Option Nat := do
  return (((← hexDigit? a) * 16 + (← hexDigit? b)) * 16 + (← hexDigit? c)) * 16 + (← hexDigit? d)

/-- The first unit of a pair. -/
def isLeadingUnit (unit : Nat) : Bool := 0xD800 ≤ unit && unit < 0xDC00

/-- The second unit of a pair. -/
def isTrailingUnit (unit : Nat) : Bool := 0xDC00 ≤ unit && unit < 0xE000

/-- The character that a pair of units stands for. -/
def pairedChar (leading trailing : Nat) : Char :=
  Char.ofNat (0x10000 + (leading - 0xD800) * 0x400 + (trailing - 0xDC00))

/-- What an escape by a single letter stands for. -/
def letterEscape? : Char → Option Char
  | '"' => some '"'
  | '\\' => some '\\'
  | '/' => some '/'
  | 'b' => some '\x08'
  | 'f' => some '\x0c'
  | 'n' => some '\n'
  | 'r' => some '\r'
  | 't' => some '\t'
  | _ => none

/-- Why there are no four hexadecimal digits here: four bytes that are something else, or the
text is over before. -/
def noHexUnit (left : List Char) : Stop :=
  if byteCount left < 4 then .atEnd .endInString else ⟨.invalidEscape, left, 4⟩

/-- Why there is no second unit here. -/
def noTrailingUnit : List Char → Stop
  | '\\' :: 'u' :: left => noHexUnit left
  | ['\\'] => .atEnd .endInString
  | '\\' :: left => .before .unpairedSurrogate left
  | [] => .atEnd .endInString
  | left => .before .unpairedSurrogate left

/-- A character in front of what a reader has read. -/
def Reading.push (c : Char) (reading : Reading (List Char)) : Reading (List Char) :=
  reading.map fun (said, left) => (c :: said, left)

/-- Reads a string from after its opening quote.  Four hexadecimal digits stand for a unit of
UTF-16; a leading unit has to be followed by a trailing one, and the pair is one character. -/
def readChars : List Char → Reading (List Char)
  | [] => .error (.atEnd .endInString)
  | '"' :: left => .ok ([], left)
  | '\\' :: 'u' :: a :: b :: c :: d :: left =>
    match hexUnit? a b c d with
    | none => .error (noHexUnit (a :: b :: c :: d :: left))
    | some unit =>
      if isTrailingUnit unit then .error (.after .loneSurrogate left)
      else if isLeadingUnit unit then
        match left with
        | '\\' :: 'u' :: e :: f :: g :: h :: left =>
          match hexUnit? e f g h with
          | none => .error (noHexUnit (e :: f :: g :: h :: left))
          | some trailing =>
            if isTrailingUnit trailing then (readChars left).push (pairedChar unit trailing)
            else .error (.after .loneSurrogate left)
        | left => .error (noTrailingUnit left)
      else (readChars left).push (Char.ofNat unit)
  | '\\' :: 'u' :: left => .error (noHexUnit left)
  | ['\\'] => .error (.atEnd .endInString)
  | '\\' :: letter :: left =>
    match letterEscape? letter with
    | some c => (readChars left).push c
    | none => .error (.before .invalidEscape (letter :: left))
  | c :: left =>
    if c.toNat < 0x20 then .error (.before .controlCharacter (c :: left))
    else (readChars left).push c

/-! ## Values -/

/-- How many brackets may be open at the same time. -/
def depthLimit : Nat := 127

mutual

/-- Reads a value, blanks before it included. -/
def readValue : (fuel depth : Nat) → List Char → Except Stop (Value × List Char)
  | 0, _, text => .error (.before .endInValue text)
  | fuel + 1, depth, text =>
    match skipBlanks text with
    | [] => .error (.atEnd .endInValue)
    | 'n' :: left => do return (.null, ← readWord ['u', 'l', 'l'] left)
    | 't' :: left => do return (.bool true, ← readWord ['r', 'u', 'e'] left)
    | 'f' :: left => do return (.bool false, ← readWord ['a', 'l', 's', 'e'] left)
    | '"' :: left => do
      let (said, left) ← readChars left
      return (.string (String.ofList said), left)
    | '[' :: left =>
      match depth with
      | 0 => .error (.before .nestedTooDeep ('[' :: left))
      | depth + 1 =>
        match skipBlanks left with
        | [] => .error (.atEnd .endInList)
        | ']' :: left => .ok (.array [], left)
        | left => do
          let (elements, left) ← readElements fuel depth left
          return (.array elements, left)
    | '\x7b' :: left =>
      match depth with
      | 0 => .error (.before .nestedTooDeep ('\x7b' :: left))
      | depth + 1 =>
        match skipBlanks left with
        | [] => .error (.atEnd .endInObject)
        | '\x7d' :: left => .ok (.object [], left)
        | left => do
          let (spelled, left) ← readMembers fuel depth left
          return (.object (ofMembers spelled), left)
    | c :: left =>
      if c = '-' ∨ c.isDigit then do
        let (n, left) ← readNumber (c :: left)
        return (.number n, left)
      else .error (.before .expectedValue (c :: left))

/-- Reads the elements of an array from the first of them on, up to the closing bracket. -/
def readElements : (fuel depth : Nat) → List Char → Except Stop (List Value × List Char)
  | 0, _, text => .error (.before .endInValue text)
  | fuel + 1, depth, text => do
    let (element, left) ← readValue fuel depth text
    match skipBlanks left with
    | [] => .error (.atEnd .endInList)
    | ']' :: left => return ([element], left)
    | ',' :: left =>
      match skipBlanks left with
      | ']' :: left => .error (.before .trailingComma (']' :: left))
      | left =>
        let (elements, left) ← readElements fuel depth left
        return (element :: elements, left)
    | left => .error (.before .expectedListEnd left)

/-- Reads the members of an object from the key of the first of them on, up to the closing
bracket. -/
def readMembers : (fuel depth : Nat) → List Char → Except Stop (List (String × Value) × List Char)
  | 0, _, text => .error (.before .endInValue text)
  | fuel + 1, depth, text =>
    match text with
    | '"' :: left => do
      let (key, left) ← readChars left
      match skipBlanks left with
      | [] => .error (.atEnd .endInObject)
      | ':' :: left =>
        let (value, left) ← readValue fuel depth left
        match skipBlanks left with
        | [] => .error (.atEnd .endInObject)
        | '\x7d' :: left => return ([(String.ofList key, value)], left)
        | ',' :: left =>
          match skipBlanks left with
          | [] => .error (.atEnd .endInValue)
          | '\x7d' :: left => .error (.before .trailingComma ('\x7d' :: left))
          | left =>
            let (members, left) ← readMembers fuel depth left
            return ((String.ofList key, value) :: members, left)
        | left => .error (.before .expectedObjectEnd left)
      | left => .error (.before .expectedColon left)
    | left => .error (.before .keyNotString left)

end

/-- Reads a whole text: one value with nothing but blanks around it. -/
def readText (text : List Char) : Except Stop Value := do
  let (value, left) ← readValue (2 * text.length + 2) depthLimit text
  match skipBlanks left with
  | [] => return value
  | left => .error (.before .trailingCharacters left)

/-- **The value that a JSON text denotes**, or the first mistake in it. -/
def Value.ofText (text : String) : Except SyntaxError Value :=
  (readText text.toList).mapError (Stop.toError text.toList)

end AvroTypes.Json
