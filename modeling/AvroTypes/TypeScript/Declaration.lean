import AvroTypes.Json.Printer
import AvroTypes.Options
import AvroTypes.Text.Layout
import AvroTypes.TypeScript.TypeText

/-!
# Declarations and their comments

A documentation text becomes a comment in front of a declaration: on one line if the text has one
line, and otherwise line by line behind asterisks.  The end of a comment cannot occur inside it,
since a slash after an asterisk gets a backslash in front.

The declaration of a named type depends on what the type is at its head: an enumeration becomes an
`enum` with one member for each symbol, a record becomes an object type with one property for each
field, and everything else an alias.  A declaration is built as laid-out lines.

Names, symbols and references come from the schema as they are and may hold line feeds, so whatever
contains one of them is split into lines before it is laid out.

* `shield` — a documentation text without any end of a comment.
* `commentLines` — the lines of its comment.
* `aliasLines`, `enumLines`, `recordLines` — the three kinds of declarations.
* `schemaLines` — the constant that holds the schema of a record.
* `declarationLines` — a declaration with its comment.
-/

namespace AvroTypes.TypeScript

open AvroTypes.Text

/-! ## Comments -/

/-- A text in which a backslash parts each asterisk from a slash after it. -/
def shield : List Char → List Char
  | '*' :: '/' :: rest => '*' :: '\\' :: '/' :: shield rest
  | c :: rest => c :: shield rest
  | [] => []

/-- The lines of a documentation text, without blanks around the text and at the ends of its
lines.  A blank text has none. -/
def docLines (doc : List Char) : List (List Char) :=
  let text := shield (trim doc)
  if text.isEmpty then [] else (lines text).map trimEnd

/-- A line of text inside a comment. -/
def starred (line : List Char) : List Char :=
  if line.isEmpty then [' ', '*'] else ' ' :: '*' :: ' ' :: line

/-- **The lines of the comment for a documentation text.** -/
def commentLines (doc : List Char) : List (List Char) :=
  match docLines doc with
  | [] => ["/** */".toList]
  | [line] => ["/** ".toList ++ line ++ " */".toList]
  | several => "/**".toList :: several.map starred ++ [" */".toList]

/-- The laid-out lines of the comment, if there is a documentation text. -/
def layOutDoc (doc : Option String) : List Line :=
  match doc with
  | none => []
  | some text => (commentLines text.toList).map Line.flush

/-! ## Blocks of lines -/

/-- A block of lines with a text after the last one. -/
def followedBy (text : List Char) : List Line → List Line
  | [] => []
  | [last] => [{ last with text := last.text ++ text }]
  | first :: next :: rest => first :: followedBy text (next :: rest)

/-- Blocks of lines in a row, each but the last followed by a comma. -/
def separated : List (List Line) → List Line
  | [] => []
  | [block] => block
  | block :: next :: rest => followedBy [','] block ++ separated (next :: rest)

/-- The identifier that a named type is declared under. -/
def identifierFor (type : NamedType) : List Char := identifierChars type.name.toList

/-! ## Aliases -/

/-- The declaration of an alias. -/
def aliasLines (scope : Scope) (type : NamedType) : List Line :=
  layOut ("type ".toList ++ identifierFor type ++ " = ".toList
    ++ unionText scope type.alternatives ++ [';'])

/-! ## Enumerations -/

/-- A member of an enumeration: the symbol as a key, with the symbol as its value. -/
def memberText (symbol : String) : List Char :=
  propertyKeyChars symbol.toList ++ " = ".toList ++ quote symbol.toList

/-- The lines of a member.  Only the first one is indented; what follows a line feed inside a
literal belongs to the literal. -/
def memberLines (symbol : String) : List Line :=
  match layOut (memberText symbol) with
  | [] => []
  | first :: rest => first.deeper :: rest

/-- The declaration of an enumeration. -/
def enumLines (type : NamedType) : List Line :=
  Line.flush ("enum ".toList ++ identifierFor type) :: Line.flush ['\x7b']
    :: separated ((type.symbols.getD []).map memberLines) ++ [Line.flush ['\x7d', ';']]

/-! ## Records -/

/-- The type of a field.  An enumeration declared in place is written as its symbols. -/
def fieldTypeText (scope : Scope) (field : Field) : List Char :=
  match field.symbols with
  | some symbols =>
    if field.alternatives.all (·.kind = .enum) then literalsText symbols
    else unionText scope field.alternatives
  | none => unionText scope field.alternatives

/-- The property of a field. -/
def propertyText (scope : Scope) (field : Field) : List Char :=
  propertyKeyChars field.name.toList ++ ": ".toList ++ fieldTypeText scope field

/-- The lines of a property with its comment. -/
def propertyLines (scope : Scope) (field : Field) : List Line :=
  deeper (layOutDoc field.doc ++ layOut (propertyText scope field))

/-- The declaration of a record. -/
def recordLines (scope : Scope) (type : NamedType) : List Line :=
  let head := "type ".toList ++ identifierFor type ++ " = ".toList
  if type.fields.isEmpty then [Line.flush (head ++ ['\x7b', '\x7d', ';'])]
  else
    Line.flush (head ++ ['\x7b']) :: separated (type.fields.map (propertyLines scope))
      ++ [Line.flush ['\x7d', ';']]

/-- The constant that holds the schema of a record, after an empty line. -/
def schemaLines (type : NamedType) : List Line :=
  [Line.flush [], Line.flush ("export const ".toList ++ identifierFor type ++ "_SCHEMA = ".toList
    ++ type.schema.print ++ [';'])]

/-! ## Whole declarations -/

/-- Lines with a word in front of the first one. -/
def ledBy (word : List Char) : List Line → List Line
  | [] => []
  | first :: rest => { first with text := word ++ first.text } :: rest

/-- **The declaration of a named type**, with its comment.  A type without alternatives has no
declaration; only an empty line stands for it. -/
def declarationLines (options : Options) (scope : Scope) (type : NamedType) : List Line :=
  match type.alternatives.head? with
  | none => [Line.flush []]
  | some head =>
    let body := match head.kind with
      | .enum => enumLines type
      | .record => recordLines scope type
      | _ => aliasLines scope type
    let constant := if options.exportSchema && head.kind = .record then schemaLines type else []
    layOutDoc type.doc ++ ledBy "export ".toList body ++ constant

end AvroTypes.TypeScript
