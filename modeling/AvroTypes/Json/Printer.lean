import AvroTypes.Json.Value

/-!
# Compact JSON text

A value is printed without blanks.  In a string only the quote, the backslash and the characters
below the space are escaped, so the text of a value never holds a line feed.  A double is printed
as the shortest decimal that reads back, positionally from `0.00001` to sixteen digits before the
point.

* `printString`, `Number.print` — the parts that do not nest.
* `Value.print` — the characters; `Value.compact` — the text.
-/

namespace AvroTypes.Json

/-- How one character is printed inside a string. -/
def printChar (c : Char) : List Char :=
  if c = '"' ∨ c = '\\' then ['\\', c]
  else if c = '\x08' then ['\\', 'b']
  else if c = '\x0c' then ['\\', 'f']
  else if c = '\n' then ['\\', 'n']
  else if c = '\r' then ['\\', 'r']
  else if c = '\t' then ['\\', 't']
  else if c.toNat < 0x20 then
    ['\\', 'u', '0', '0', Nat.digitChar (c.toNat / 16), Nat.digitChar (c.toNat % 16)]
  else [c]

/-- A string with its quotes. -/
def printString (s : String) : List Char := '"' :: s.toList.flatMap printChar ++ ['"']

/-- Doubles are written positionally when their first digit is worth at least `10 ^ -5` and at
most `10 ^ 15`. -/
def doubleStyle : Decimal.Style := ⟨-5, 15⟩

/-- The text of a double; zero keeps its sign. -/
def printDouble (bits : UInt64) : List Char :=
  let double := Decimal.Binary.ofBits bits
  let sign := if double.negative then ['-'] else []
  if double.mantissa = 0 then sign ++ ['0', '.', '0']
  else sign ++ (Decimal.shortest double).write doubleStyle

/-- The text of an integer. -/
def printInteger : Int → List Char
  | .ofNat n => Nat.toDigits 10 n
  | .negSucc n => '-' :: Nat.toDigits 10 (n + 1)

/-- The text of a number. -/
def Number.print : Number → List Char
  | .integer n => printInteger n
  | .double bits => printDouble bits

mutual

/-- The characters of a value. -/
def Value.print : Value → List Char
  | .null => ['n', 'u', 'l', 'l']
  | .bool true => ['t', 'r', 'u', 'e']
  | .bool false => ['f', 'a', 'l', 's', 'e']
  | .number n => n.print
  | .string s => printString s
  | .array elements => '[' :: printElements elements ++ [']']
  | .object members => '\x7b' :: printMembers members ++ ['\x7d']

/-- The elements of an array, separated by commas. -/
def printElements : List Value → List Char
  | [] => []
  | [element] => element.print
  | element :: next :: rest => element.print ++ ',' :: printElements (next :: rest)

/-- The members of an object, separated by commas. -/
def printMembers : List (String × Value) → List Char
  | [] => []
  | [(key, value)] => printString key ++ ':' :: value.print
  | (key, value) :: next :: rest =>
    printString key ++ ':' :: value.print ++ ',' :: printMembers (next :: rest)

end

/-- **The compact text of a value.** -/
def Value.compact (value : Value) : String := String.ofList value.print

end AvroTypes.Json
