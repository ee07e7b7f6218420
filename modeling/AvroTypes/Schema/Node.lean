import AvroTypes.Schema.Fault
import AvroTypes.Types

/-!
# Nodes of a schema

A node is an object of a schema document.  Seven of its members mean something; a member that is
`null` counts as absent, and all others are ignored.  What a node is follows from its `type` and is
settled before anything inside it is looked at.

* `Node.mismatch?` — the first member of the wrong shape.
* `Node.name?`, `Node.doc?`, `Node.symbols?` and so on — the members that mean something.
* `Node.spaceIn` — the namespace that applies inside the node.
* `Form`, `Node.form` — what the node is.
-/

namespace AvroTypes.Schema

/-- An object of a schema document, as its members. -/
abbrev Node := Json.Members

/-- What keeps a value from having a shape. -/
def shapeMismatch? : Shape → Json.Value → Option Mismatch
  | .text, .string _ => none
  | .list, .array _ => none
  | shape, value => some ⟨value, shape⟩

/-- What keeps a member from meaning what its key promises.  A name, a namespace and a
documentation are texts, fields and symbols are lists, and each symbol is a text. -/
def memberMismatch? : String → Json.Value → Option Mismatch
  | _, .null => none
  | "name", value => shapeMismatch? .text value
  | "namespace", value => shapeMismatch? .text value
  | "doc", value => shapeMismatch? .text value
  | "fields", value => shapeMismatch? .list value
  | "symbols", .array symbols => symbols.findSome? (shapeMismatch? .text)
  | "symbols", value => shapeMismatch? .list value
  | _, _ => none

/-- What a node is. -/
inductive Form where
  /-- A union or another node stands in its `type`. -/
  | nested
  | record
  | enum (symbols : List String)
  | array
  /-- A type that needs no more than its word: built in, or declared elsewhere. -/
  | word (kind : Kind)
  deriving DecidableEq, Repr

/-- The symbols of an enumeration. -/
def Form.symbols? : Form → Option (List String)
  | enum symbols => some symbols
  | _ => none

namespace Node

/-- The first member, in the order of the document, that has the wrong shape. -/
def mismatch? (node : Node) : Option Mismatch :=
  node.findSome? fun (key, value) => memberMismatch? key value

/-- The text under a key. -/
def text? (node : Node) (key : String) : Option String :=
  match Json.present? node key with
  | some (.string text) => some text
  | _ => none

/-- The list under a key. -/
def list? (node : Node) (key : String) : Option (List Json.Value) :=
  match Json.present? node key with
  | some (.array values) => some values
  | _ => none

/-- The name, unless it is empty. -/
def name? (node : Node) : Option String := (node.text? "name").filter (!·.isEmpty)

/-- The documentation. -/
def doc? (node : Node) : Option String := node.text? "doc"

/-- The symbols of an enumeration. -/
def symbols? (node : Node) : Option (List String) :=
  (node.list? "symbols").map fun values =>
    values.filterMap fun value => match value with
      | .string symbol => some symbol
      | _ => none

/-- **The namespace that applies inside a node**: the one it declares, or else the one around
it. -/
def spaceIn (node : Node) (around : String) : Except Fault String :=
  match node.text? "namespace" with
  | none => .ok around
  | some declared =>
    if isNamespace declared then .ok declared
    else .error ((Cause.badNamespace declared).at (.key "namespace"))

/-- The form of a node whose type is a word.  Records and enumerations have to have a name, and
every composite type the member it is made of. -/
def formOfWord (node : Node) (word : String) : Except Fault Form :=
  match Kind.ofWord word with
  | .record =>
    if node.name?.isNone then .error (Cause.missingName .record).here
    else if (node.list? "fields").isNone then .error (Cause.missingMember .record).here
    else .ok .record
  | .enum =>
    if node.name?.isNone then .error (Cause.missingName .enum).here
    else match node.symbols? with
      | none => .error (Cause.missingMember .enum).here
      | some symbols => .ok (.enum symbols)
  | .array =>
    if (Json.present? node "items").isNone then .error (Cause.missingMember .array).here
    else .ok .array
  | kind => .ok (.word kind)

/-- **What a node is.** -/
def form (node : Node) : Except Fault Form :=
  match Json.present? node "type" with
  | none => .error Cause.missingType.here
  | some (.string word) => node.formOfWord word
  | some (.array _) => .ok .nested
  | some (.object _) => .ok .nested
  | some other => .error ((Cause.badType other.kind).at (.key "type"))

end Node

end AvroTypes.Schema
