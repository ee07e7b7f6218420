/-!
# Trimming, quoting and indentation

The operations on texts that generated code is written with.

Trimming removes blanks: exactly the characters with the Unicode property `White_Space`.  Core's
`Char.isWhitespace` knows four of them only, so the property is written out here as its ranges.

A literal stands between single quotes; inside it a backslash and a single quote are each preceded
by a backslash, and every other character stands for itself.  Escaping is one pass over the text,
so no escape can be escaped again.

Indentation works on whole texts: every line that is not empty gets the padding in front of it,
and an empty line stays empty.  Generated code is built as a list of lines that know how deep they
stand, and only the last step turns depth into characters, so nothing before it can depend on what
one level of indentation looks like.

* `isBlank` — membership in a table of ranges.
* `trimStart`, `trimEnd`, `trim` — blanks removed at one end, or at both.
* `escape`, `quote` — the text between the quotes of a literal, and the whole literal.
* `unquote` — the reader: it starts after the opening quote, takes the character after a backslash
  literally and stops at the first quote that is not escaped.
* `indent` — one level of indentation, on a text.
* `Line` and `deeper` — one level, on laid-out lines.
* `Line.render`, `renderLines` — a line indented once for each level, and the text in which every
  line is ended by a line feed.
-/

namespace AvroTypes.Text

/-! ## Blanks -/

/-- The ranges of `White_Space`, both ends included, in increasing order. -/
def blankRanges : List (Nat × Nat) :=
  [(0x0009, 0x000D), (0x0020, 0x0020), (0x0085, 0x0085), (0x00A0, 0x00A0), (0x1680, 0x1680),
   (0x2000, 0x200A), (0x2028, 0x2029), (0x202F, 0x202F), (0x205F, 0x205F), (0x3000, 0x3000)]

/-- A character lies in one of the ranges of a table. -/
def inRanges (ranges : List (Nat × Nat)) (c : Char) : Bool :=
  ranges.any fun (low, high) => low ≤ c.toNat && c.toNat ≤ high

/-- A character with the property `White_Space`. -/
def isBlank (c : Char) : Bool := inRanges blankRanges c

/-- The text from its first character that is not blank. -/
def trimStart (text : List Char) : List Char := text.dropWhile isBlank

/-- The text up to its last character that is not blank. -/
def trimEnd (text : List Char) : List Char := (text.reverse.dropWhile isBlank).reverse

/-- The text without the blanks at its two ends. -/
def trim (text : List Char) : List Char := trimEnd (trimStart text)

/-! ## Single-quoted literals -/

/-- How one character is written inside a literal. -/
def escapeChar (c : Char) : List Char :=
  if c = '\\' ∨ c = '\'' then ['\\', c] else [c]

/-- A text as it stands between the quotes of a literal. -/
def escape (text : List Char) : List Char := text.flatMap escapeChar

/-- A text as a literal. -/
def quote (text : List Char) : List Char := '\'' :: escape text ++ ['\'']

/-- **Reading a literal** from after its opening quote: what it says and what follows its closing
quote, or nothing if it is never closed. -/
def unquote : List Char → Option (List Char × List Char)
  | [] => none
  | '\'' :: rest => some ([], rest)
  | '\\' :: c :: rest => (unquote rest).map fun (said, left) => (c :: said, left)
  | c :: rest => (unquote rest).map fun (said, left) => (c :: said, left)

/-! ## Lines -/

/-- The lines of a text: what stands between its line feeds.  There is always at least one. -/
def lines (text : List Char) : List (List Char) := text.splitOn '\n'

/-- The text that has the given lines. -/
def unlines (texts : List (List Char)) : List Char := ['\n'].intercalate texts

/-- One line with a padding in front, unless the line is empty. -/
def indentLine (padding line : List Char) : List Char :=
  if line.isEmpty then [] else padding ++ line

/-- **One level of indentation**: the padding goes in front of every line that is not empty. -/
def indent (padding text : List Char) : List Char :=
  unlines ((lines text).map (indentLine padding))

/-- A line of generated code, and how many levels deep it stands. -/
structure Line where
  /-- The number of levels of indentation. -/
  depth : Nat
  /-- What the line says after its indentation. -/
  text : List Char
  deriving DecidableEq, Repr

namespace Line

/-- A line that stands at the outermost level. -/
def flush (text : List Char) : Line := ⟨0, text⟩

/-- An empty line has no indentation to speak of, so it is kept as it is. -/
def deeper (line : Line) : Line :=
  if line.text.isEmpty then line else { line with depth := line.depth + 1 }

/-- The line with its indentation: one application of `indent` for each level. -/
def render (tabulator : List Char) (line : Line) : List Char :=
  Nat.repeat (indent tabulator) line.depth line.text

end Line

/-- A text as lines at the outermost level. -/
def layOut (text : List Char) : List Line := (lines text).map Line.flush

/-- A block of lines one level deeper. -/
def deeper (block : List Line) : List Line := block.map Line.deeper

/-- The text of a list of lines, each ended by a line feed. -/
def renderLines (tabulator : List Char) (block : List Line) : List Char :=
  block.flatMap fun line => line.render tabulator ++ ['\n']

end AvroTypes.Text
