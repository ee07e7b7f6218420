import AvroTypes.Table.Index
import AvroTypes.TypeScript.Identifier

/-!
# Types as text

A type is written from where it is used: a reference to a type of the same namespace by its
identifier, one to a type of another namespace by its whole path, if declarations stand in blocks
of their namespaces.  Alternatives are separated by bars.

* `Scope` — where a type is written.
* `Scope.referenceText` — a reference.
* `typeText`, `unionText` — a type, and a list of alternatives.
* `literalsText` — the symbols of an enumeration declared in place.
-/

namespace AvroTypes.TypeScript

/-- Where a type is written, and what it can refer to. -/
structure Scope where
  /-- The namespace of the declaration. -/
  space : String
  /-- The types that references can mean. -/
  index : SymbolIndex
  /-- Whether types of other namespaces need their whole path. -/
  qualified : Bool

/-- A reference as seen from a scope.  One that means nothing is written as it stands. -/
def Scope.referenceText (scope : Scope) (reference : String) : List Char :=
  match scope.index.resolve? reference scope.space with
  | none => reference.toList
  | some target =>
    if scope.qualified && target.space ≠ scope.space then pathChars target.fullName.toList
    else identifierChars target.name.toList

/-- What stands between two alternatives. -/
def bar : List Char := [' ', '|', ' ']

mutual

/-- **The text of a type.** -/
def typeText (scope : Scope) : TypeExpr → List Char
  | .of .array elements =>
    Kind.array.display.toList ++ '<' :: bar.intercalate (typeTexts scope elements) ++ ['>']
  | .of (.reference name) _ => scope.referenceText name
  | .of kind _ => kind.display.toList

/-- The texts of a list of alternatives. -/
def typeTexts (scope : Scope) : List TypeExpr → List (List Char)
  | [] => []
  | first :: rest => typeText scope first :: typeTexts scope rest

end

/-- The text of a list of alternatives. -/
def unionText (scope : Scope) (alternatives : List TypeExpr) : List Char :=
  bar.intercalate (typeTexts scope alternatives)

/-- The text of a type that consists of the given symbols. -/
def literalsText (symbols : List String) : List Char :=
  bar.intercalate (symbols.map fun symbol => Text.quote symbol.toList)

end AvroTypes.TypeScript
