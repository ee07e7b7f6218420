/-!
# Errors in JSON text

Reading stops at the first character that cannot be right.  While it goes on, the place is
remembered as what is left of the text and how many bytes of that are counted as read; only the
finished error has a line and a column, both counted in bytes of the UTF-8 form.

* `Mistake` — what can be wrong, with its wording.
* `Stop` — a mistake, and where reading stopped.
* `SyntaxError` — a mistake with its line and column.
-/

namespace AvroTypes.Json

/-- What can be wrong with a JSON text. -/
inductive Mistake where
  | endInValue | endInList | endInObject | endInString
  | expectedColon | expectedListEnd | expectedObjectEnd | expectedValue | expectedWord
  | keyNotString | trailingComma | trailingCharacters
  | controlCharacter | invalidEscape | loneSurrogate | unpairedSurrogate
  | invalidNumber | numberTooLarge | nestedTooDeep
  deriving DecidableEq, Repr

/-- The wording of a mistake. -/
def Mistake.message : Mistake → String
  | .endInValue => "EOF while parsing a value"
  | .endInList => "EOF while parsing a list"
  | .endInObject => "EOF while parsing an object"
  | .endInString => "EOF while parsing a string"
  | .expectedColon => "expected `:`"
  | .expectedListEnd => "expected `,` or `]`"
  | .expectedObjectEnd => "expected `,` or `\x7d`"
  | .expectedValue => "expected value"
  | .expectedWord => "expected ident"
  | .keyNotString => "key must be a string"
  | .trailingComma => "trailing comma"
  | .trailingCharacters => "trailing characters"
  | .controlCharacter => "control character (\\u0000-\\u001F) found while parsing a string"
  | .invalidEscape => "invalid escape"
  | .loneSurrogate => "lone leading surrogate in hex escape"
  | .unpairedSurrogate => "unexpected end of hex escape"
  | .invalidNumber => "invalid number"
  | .numberTooLarge => "number out of range"
  | .nestedTooDeep => "recursion limit exceeded"

/-- Where and why reading stopped. -/
structure Stop where
  /-- What is wrong. -/
  mistake : Mistake
  /-- What is left of the text. -/
  left : List Char
  /-- How many bytes of what is left count as read. -/
  counted : Nat
  deriving DecidableEq, Repr

/-- Reading has stopped before a character that it looked at; at the end of the text there is
none. -/
def Stop.before (mistake : Mistake) (left : List Char) : Stop :=
  ⟨mistake, left, if left.isEmpty then 0 else 1⟩

/-- Reading has stopped after what it has taken. -/
def Stop.after (mistake : Mistake) (left : List Char) : Stop := ⟨mistake, left, 0⟩

/-- The text has ended too early. -/
def Stop.atEnd (mistake : Mistake) : Stop := ⟨mistake, [], 0⟩

/-- The length of a text in bytes. -/
def byteCount (text : List Char) : Nat := text.foldl (fun count c => count + c.utf8Size) 0

/-- A mistake with its place in the text. -/
structure SyntaxError where
  /-- What is wrong. -/
  mistake : Mistake
  /-- One more than the line feeds before the place. -/
  line : Nat
  /-- The bytes between the last line feed and the place. -/
  column : Nat
  deriving DecidableEq, Repr

/-- The line and column reached from the given ones after a number of bytes of a text. -/
def positionAfter (line column : Nat) : Nat → List Char → Nat × Nat
  | 0, _ => (line, column)
  | _ + 1, [] => (line, column)
  | n + 1, c :: rest =>
    if c = '\n' then positionAfter (line + 1) 0 n rest
    else positionAfter line (column + min (n + 1) c.utf8Size) (n + 1 - c.utf8Size) rest

/-- The error of a reader that was given `text` and has stopped. -/
def Stop.toError (text : List Char) (stop : Stop) : SyntaxError :=
  let offset := byteCount text - byteCount stop.left + stop.counted
  let (line, column) := positionAfter 1 0 offset text
  ⟨stop.mistake, line, column⟩

/-- The wording of an error. -/
def SyntaxError.message (error : SyntaxError) : String :=
  s!"{error.mistake.message} at line {error.line} column {error.column}"

end AvroTypes.Json
