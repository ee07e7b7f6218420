import AvroTypes.Types
import AvroTypes.Text.Layout

/-!
# Identifiers of the generated code

Every declaration gets an identifier made from the name in the schema.  Characters that no
identifier may hold are dropped, and the letter after a gap is raised, so that `my-type` becomes
`myType`; digits at the front are dropped last.  What is left may be empty, and different names may
end up with the same identifier.

* `identifierChars`, `identifierOf` — the identifier made from a name.
* `pathChars`, `pathOf` — the same for each part of a dotted name.
* `isReserved` — words that cannot name a declaration.
* `isIdentifier`, `propertyKey` — the name of a property, quoted when it has to be.
-/

namespace AvroTypes.TypeScript

open AvroTypes.Schema (isWordChar segments)

/-- The word characters of a name, each first one after a gap raised to upper case.  The flag says
that a gap has just ended. -/
def joinWords : Bool → List Char → List Char
  | _, [] => []
  | raise, c :: rest =>
    if isWordChar c then (if raise then c.toUpper else c) :: joinWords false rest
    else joinWords true rest

/-- The characters of the identifier made from a name. -/
def identifierChars (name : List Char) : List Char :=
  (joinWords false name).dropWhile Char.isDigit

/-- **The identifier made from a name**; empty if the name has no letter and no underscore. -/
def identifierOf (name : String) : String := String.ofList (identifierChars name.toList)

/-- The characters of the dotted path made from a dotted name. -/
def pathChars (dotted : List Char) : List Char :=
  ['.'].intercalate ((segments dotted).map identifierChars)

/-- The dotted path made from a dotted name, part by part. -/
def pathOf (dotted : String) : String := String.ofList (pathChars dotted.toList)

/-- The words that cannot name a declaration or a namespace. -/
def reservedWords : List String :=
  ["break", "case", "catch", "class", "const", "continue", "debugger", "default", "delete",
   "do", "else", "enum", "export", "extends", "false", "finally", "for", "function", "if",
   "implements", "import", "in", "instanceof", "interface", "let", "new", "null", "package",
   "private", "protected", "public", "return", "static", "super", "switch", "this", "throw",
   "true", "try", "typeof", "var", "void", "while", "with", "yield"]

/-- A word is reserved. -/
def isReserved (word : String) : Bool := reservedWords.contains word

/-- A character that an identifier may hold after its first one. -/
def isIdentifierChar (c : Char) : Bool := isWordChar c || c = '$'

/-- The characters of an identifier: none at the front is a digit. -/
def isIdentifierChars : List Char → Bool
  | [] => false
  | first :: rest => isIdentifierChar first && !first.isDigit && rest.all isIdentifierChar

/-- A text that can stand as an identifier in the generated code. -/
def isIdentifier (text : String) : Bool := isIdentifierChars text.toList

/-- The characters of a property key. -/
def propertyKeyChars (name : List Char) : List Char :=
  if isIdentifierChars name then name else Text.quote name

/-- The key of the property with a given name: the name itself if it is an identifier, and a
literal otherwise. -/
def propertyKey (name : String) : String := String.ofList (propertyKeyChars name.toList)

end AvroTypes.TypeScript
