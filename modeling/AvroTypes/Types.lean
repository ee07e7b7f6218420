import AvroTypes.Json.Value

/-!
# Names, type expressions and named types

A name is a letter or underscore followed by word characters; a namespace is either empty, the
default one, or names separated by dots.  Only ASCII counts.

A schema denotes a table of named types.  Each has a list of alternatives, which is a single one
unless the type is a union, and a record has fields with alternatives of their own.  Types that
were declared inside other types have been moved out into the table, and what is left at their
place is a reference by name.

* `isWordChar`, `isName`, `isNamespace` — the grammar of names.
* `segments`, `qualify` — a dotted name taken apart, and a name put into a namespace.
* `Kind` — what a type is at its head.
* `TypeExpr` — a kind applied to the alternatives of its elements, which only arrays have.
* `Field`, `NamedType` — the entries of the table.
* `Kind.ofWord` — what a type word stands for.
-/

namespace AvroTypes

/-! ## Names -/

namespace Schema

/-- An ASCII letter, an ASCII digit or the underscore. -/
def isWordChar (c : Char) : Bool := c.isAlphanum || c = '_'

/-- The characters of a name. -/
def isNameChars : List Char → Bool
  | [] => false
  | first :: rest => (first.isAlpha || first = '_') && rest.all isWordChar

/-- The parts of a dotted name; there is always at least one. -/
def segments (dotted : List Char) : List (List Char) := dotted.splitOn '.'

/-- A name: a letter or underscore, then word characters. -/
def isName (text : String) : Bool := isNameChars text.toList

/-- A namespace: empty, or names separated by dots. -/
def isNamespace (text : String) : Bool :=
  text.isEmpty || (segments text.toList).all isNameChars

/-- The full name of something in a namespace; in the default namespace it is the name itself. -/
def qualify (space name : String) : String :=
  if space.isEmpty then name else space ++ "." ++ name

end Schema

/-! ## Types -/

/-- What a type is at its head. -/
inductive Kind where
  | null | boolean | number | string | record | enum | array
  /-- The type with a given name, which need not be declared anywhere. -/
  | reference (name : String)
  deriving DecidableEq, Repr, Inhabited

/-- A type: a kind, and for an array the alternatives of its elements. -/
inductive TypeExpr where
  | of (kind : Kind) (elements : List TypeExpr)
  deriving Repr, BEq, Inhabited

namespace TypeExpr

/-- The kind at the head of a type. -/
def kind : TypeExpr → Kind
  | of kind _ => kind

/-- The alternatives that a type is applied to. -/
def elements : TypeExpr → List TypeExpr
  | of _ elements => elements

/-- A type that is not applied to anything. -/
def plain (kind : Kind) : TypeExpr := of kind []

/-- The array whose elements have the given alternatives. -/
def arrayOf (elements : List TypeExpr) : TypeExpr := of .array elements

end TypeExpr

namespace Kind

/-- **What a word stands for** in the place of a type: one of the built-in kinds, or the type of
that name. -/
def ofWord : String → Kind
  | "null" => .null
  | "boolean" => .boolean
  | "int" => .number
  | "long" => .number
  | "short" => .number
  | "float" => .number
  | "double" => .number
  | "fixed" => .number
  | "string" => .string
  | "bytes" => .string
  | "record" => .record
  | "enum" => .enum
  | "array" => .array
  | name => .reference name

/-- The word for a kind in the generated code; a reference is called by its name. -/
def display : Kind → String
  | null => "null"
  | boolean => "boolean"
  | number => "number"
  | string => "string"
  | record => "record"
  | enum => "enum"
  | array => "Array"
  | reference name => name

/-- A kind that is applied to the alternatives of its elements. -/
def isContainer (kind : Kind) : Bool := kind = array

/-- A kind that needs no declaration. -/
def isBuiltIn : Kind → Bool
  | reference _ => false
  | _ => true

end Kind

/-- A field of a record. -/
structure Field where
  /-- The name of the field. -/
  name : String
  /-- The alternatives of its type. -/
  alternatives : List TypeExpr
  /-- The symbols of an enumeration declared in place. -/
  symbols : Option (List String) := none
  /-- What the schema says about it. -/
  doc : Option String := none
  deriving Repr, BEq

/-- A named type of the table. -/
structure NamedType where
  /-- The name, without its namespace. -/
  name : String
  /-- The namespace; empty for the default one. -/
  space : String
  /-- The alternatives of the type. -/
  alternatives : List TypeExpr
  /-- The symbols of an enumeration. -/
  symbols : Option (List String) := none
  /-- What the schema says about it. -/
  doc : Option String := none
  /-- The node of the schema that declares it. -/
  schema : Json.Value := .null
  /-- The fields of a record. -/
  children : Option (List Field) := none
  deriving Repr, BEq

/-- The name with its namespace. -/
def NamedType.fullName (type : NamedType) : String := Schema.qualify type.space type.name

/-- The fields; only a record has any. -/
def NamedType.fields (type : NamedType) : List Field := type.children.getD []

end AvroTypes
