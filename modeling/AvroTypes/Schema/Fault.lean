import AvroTypes.Json.Printer
import AvroTypes.Json.SyntaxError
import AvroTypes.Text.Visible

/-!
# Faults in a schema

A document that is no schema is refused at its first fault: a cause, and the place it was found at.
A fault is reported relative to the part of the document it was found in, and whoever looked into
that part adds the step that led there.

A place in a JSON document is the list of steps that lead to it from the root: the key of a member
or the index of an element.  Its text is a JSON pointer behind a number sign; in a key a tilde and
a slash are escaped, so each step stays one token of the text.

* `Step`, `Pointer` — places, the outermost step first.
* `Step.token`, `Pointer.text` — how they are written.
* `Mismatch`, `Cause`, `Fault` — what can be wrong, and where.
* `within` — adds a step to the place of a fault.
* `Fault.message` — the wording.
-/

namespace AvroTypes.Schema

/-! ## Pointers into a document -/

/-- One step into a document. -/
inductive Step where
  /-- To the member with a key. -/
  | key (name : String)
  /-- To the element at an index, counted from zero. -/
  | index (i : Nat)
  deriving DecidableEq, Repr

/-- A place in a document. -/
abbrev Pointer := List Step

/-- How one character of a key is written: `~` as `~0` and `/` as `~1`. -/
def escapeTokenChar (c : Char) : List Char :=
  if c = '~' then ['~', '0'] else if c = '/' then ['~', '1'] else [c]

/-- The token of a step. -/
def Step.token : Step → List Char
  | key name => name.toList.flatMap escapeTokenChar
  | index i => Nat.toDigits 10 i

/-- The characters of a pointer after the number sign. -/
def Pointer.chars (pointer : Pointer) : List Char :=
  pointer.flatMap fun step => '/' :: step.token

/-- **The text of a pointer.** -/
def Pointer.text (pointer : Pointer) : String := String.ofList ('#' :: Pointer.chars pointer)

/-! ## Faults -/

/-- What a member of a node has to be. -/
inductive Shape where
  | text | list
  deriving DecidableEq, Repr

/-- The words for a shape. -/
def Shape.describe : Shape → String
  | text => "a string"
  | list => "a sequence"

/-- A value that does not have the shape it should have. -/
structure Mismatch where
  /-- The value that was found. -/
  found : Json.Value
  /-- The shape it should have had. -/
  expected : Shape
  deriving Repr

/-- The words for a value that was found in the place of something else.  Scalars are shown, the
others only named. -/
def describeFound : Json.Value → String
  | .null => "null"
  | .bool b => s!"boolean `{b}`"
  | .number (.integer n) => s!"integer `{String.ofList (Json.printInteger n)}`"
  | .number (.double bits) => s!"floating point `{String.ofList (Json.printDouble bits)}`"
  | .string s => s!"string {Text.showText s}"
  | .array _ => "sequence"
  | .object _ => "map"

/-- The types that have to be declared by a node with further members. -/
inductive Composite where
  | record | enum | array
  deriving DecidableEq, Repr

/-- The word that selects a composite type. -/
def Composite.word : Composite → String
  | record => "record"
  | enum => "enum"
  | array => "array"

/-- The member that a composite type cannot do without. -/
def Composite.member : Composite → String
  | record => "fields"
  | enum => "symbols"
  | array => "items"

/-- What can be wrong with a document. -/
inductive Cause where
  /-- The text is not JSON. -/
  | notJson (error : Json.SyntaxError)
  /-- The document is neither an object nor an array. -/
  | notADocument (found : Json.Kind)
  /-- A node is not an object. -/
  | notANode (found : Json.Kind)
  /-- Something that is no type stands in the place of one. -/
  | notAType (found : Json.Kind)
  /-- A member of a node has the wrong shape. -/
  | wrongShape (mismatch : Mismatch)
  /-- The namespace that applies where none is declared is not one. -/
  | badDefaultNamespace (space : String)
  /-- A declared namespace is not one. -/
  | badNamespace (space : String)
  /-- A node does not say its type. -/
  | missingType
  /-- What a node says is its type is neither a word nor a union nor a node. -/
  | badType (found : Json.Kind)
  /-- A record or an enumeration has no name. -/
  | missingName (type : Composite)
  /-- A composite type lacks the member that says what it is made of. -/
  | missingMember (type : Composite)
  /-- No identifier can be made from a name. -/
  | unusableName (name : String)
  /-- A field of a record has no name. -/
  | unnamedField
  /-- A composite type is mentioned by its word only. -/
  | bareComposite (type : Composite)
  /-- A union has no alternatives. -/
  | emptyUnion
  deriving Repr

/-- The wording of a cause. -/
def Cause.message : Cause → String
  | notJson error => error.message
  | notADocument found =>
    s!"top-level schema must be an object or an array of objects, found {found.describe}"
  | notANode found => s!"expected a schema object, found {found.describe}"
  | notAType found =>
    s!"expected a type name, a union or a schema object, found {found.describe}"
  | wrongShape mismatch =>
    s!"invalid type: {describeFound mismatch.found}, expected {mismatch.expected.describe}"
  | badDefaultNamespace space =>
    s!"default namespace '{space}' must be dot-separated Avro names"
  | badNamespace space => s!"namespace '{space}' must be dot-separated Avro names"
  | missingType => "missing required 'type'"
  | badType found => s!"'type' must be a string, an array or an object, found {found.describe}"
  | missingName type => s!"{type.word} is missing required 'name'"
  | missingMember type => s!"{type.word} is missing required '{type.member}'"
  | unusableName name => s!"name '{name}' has no characters usable in an identifier"
  | unnamedField => "record field is missing required 'name'"
  | bareComposite type => s!"'{type.word}' must be declared as a schema object"
  | emptyUnion => "union must declare at least one alternative"

/-- A cause and its place. -/
structure Fault where
  /-- Where the fault is. -/
  place : Pointer
  /-- What it is. -/
  cause : Cause
  deriving Repr

/-- A fault right here. -/
def Cause.here (cause : Cause) : Fault := ⟨[], cause⟩

/-- A fault one step from here. -/
def Cause.at (cause : Cause) (step : Step) : Fault := ⟨[step], cause⟩

/-- The outcome of looking into a part of a document, its faults seen from outside the part. -/
def within {α : Type} (step : Step) (outcome : Except Fault α) : Except Fault α :=
  outcome.mapError fun fault => { fault with place := step :: fault.place }

/-- The wording of a fault. -/
def Fault.message (fault : Fault) : String :=
  s!"malformed schema at {Pointer.text fault.place}: {fault.cause.message}"

end AvroTypes.Schema
