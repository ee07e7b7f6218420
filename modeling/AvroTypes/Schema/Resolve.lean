import AvroTypes.Json.Reader
import AvroTypes.Schema.Node
import AvroTypes.TypeScript.Identifier

/-!
# From a document to the table of named types

A schema nests: a type can be declared where it is used.  Resolving takes the nest apart.  Every
node with a name that stands in the place of a type becomes an entry of the table, behind the
entries of the types declared inside it, and a reference by its name takes its place; a node
without a name is replaced by what its type says.  The namespace that applies is handed inward, and
a node that declares one changes it for everything inside.

The recursion follows the document: `resolveType` for a value in the place of a type,
`resolveField` for a field of a record, and the others for the parts of an array or an object.
What a node does with its parts does not recurse and is kept apart, in `Node.content` and
`Node.hoist`.

* `Resolved`, `Content` — what is known after resolving a type, and a node.
* `resolveType` and its companions — the recursion.
* `tableOf`, `tableOfText` — whole documents.
-/

namespace AvroTypes.Schema

/-- A resolved type: its alternatives, and the named types that were declared inside it. -/
structure Resolved where
  /-- The alternatives. -/
  alternatives : List TypeExpr
  /-- The named types, innermost first. -/
  declared : List NamedType
  deriving Repr

/-- A type without declarations inside. -/
def Resolved.plain (kind : Kind) : Resolved := ⟨[.plain kind], []⟩

/-- The alternatives of two types as one list. -/
def Resolved.append (first second : Resolved) : Resolved :=
  ⟨first.alternatives ++ second.alternatives, first.declared ++ second.declared⟩

/-- Resolved fields of a record, and the named types that were declared inside them. -/
structure ResolvedFields where
  /-- The fields. -/
  fields : List Field
  /-- The named types, innermost first. -/
  declared : List NamedType
  deriving Repr

/-- One more field in front. -/
def ResolvedFields.cons (field : Field) (declared : List NamedType) (rest : ResolvedFields) :
    ResolvedFields :=
  ⟨field :: rest.fields, declared ++ rest.declared⟩

/-- A node whose own type has been resolved. -/
structure Content where
  /-- The namespace that applies inside the node. -/
  space : String
  /-- What the node is. -/
  form : Form
  /-- Its type, and the named types declared inside it. -/
  type : Resolved

/-- A word in the place of a type.  The words of composite types stand for nothing alone. -/
def resolveWord (word : String) : Except Fault Resolved :=
  match Kind.ofWord word with
  | .record => .error (Cause.bareComposite .record).here
  | .enum => .error (Cause.bareComposite .enum).here
  | .array => .error (Cause.bareComposite .array).here
  | kind => .ok (.plain kind)

/-- **The type of a node**, given how the members `type` and `items` resolve in a namespace. -/
def Node.content (node : Node) (around : String)
    (type items : String → Except Fault Resolved) : Except Fault Content := do
  if let some mismatch := node.mismatch? then throw (Cause.wrongShape mismatch).here
  let space ← node.spaceIn around
  let form ← node.form
  let resolved ← match form with
    | .nested => within (.key "type") (type space)
    | .array => do
      let elements ← within (.key "items") (items space)
      pure ⟨[.arrayOf elements.alternatives], elements.declared⟩
    | .record => pure (.plain .record)
    | .enum _ => pure (.plain .enum)
    | .word kind => pure (.plain kind)
  return { space, form, type := resolved }

/-- **Moving a node out into the table** if it has a name, given how its fields resolve in a
namespace.  It stands behind everything declared inside it. -/
def Node.hoist (node : Node) (content : Content)
    (fields : String → Except Fault ResolvedFields) : Except Fault Resolved :=
  match node.name? with
  | none => .ok content.type
  | some name => do
    if (TypeScript.identifierOf name).isEmpty then
      throw ((Cause.unusableName name).at (.key "name"))
    let inner ← match content.form with
      | .record => some <$> within (.key "fields") (fields content.space)
      | _ => pure none
    let type : NamedType :=
      { name
        space := content.space
        alternatives := content.type.alternatives
        symbols := content.form.symbols?
        doc := node.doc?
        schema := .object node
        children := inner.map ResolvedFields.fields }
    return { alternatives := [.plain (.reference name)]
             declared := content.type.declared
               ++ (inner.map ResolvedFields.declared).getD [] ++ [type] }

/-- A node as a field of a record. -/
def Node.asField (node : Node) (content : Content) : Except Fault (Field × List NamedType) :=
  match node.name? with
  | none => .error Cause.unnamedField.here
  | some name =>
    .ok ({ name
           alternatives := content.type.alternatives
           symbols := content.form.symbols?
           doc := node.doc? }, content.type.declared)

mutual

/-- **A value in the place of a type**: a word, a union, or a node. -/
def resolveType : Json.Value → (around : String) → Except Fault Resolved
  | .string word, _ => resolveWord word
  | .array [], _ => .error Cause.emptyUnion.here
  | .array (first :: rest), around => resolveUnion (first :: rest) around 0
  | .object node, around => do
    let content ← Node.content node around
      (fun space => resolveMember "type" node space)
      (fun space => resolveMember "items" node space)
    Node.hoist node content fun space => resolveFieldsMember node space
  | other, _ => .error (Cause.notAType other.kind).here

/-- The alternatives of a union from the one at `index` on. -/
def resolveUnion : List Json.Value → (around : String) → (index : Nat) → Except Fault Resolved
  | [], _, _ => .ok ⟨[], []⟩
  | first :: rest, around, index => do
    let alternative ← within (.index index) (resolveType first around)
    return alternative.append (← resolveUnion rest around (index + 1))

/-- The type under a key of a node; an absent member contributes nothing. -/
def resolveMember (key : String) : List (String × Json.Value) → (around : String) →
    Except Fault Resolved
  | [], _ => .ok ⟨[], []⟩
  | (k, value) :: rest, around =>
    if k = key then resolveType value around else resolveMember key rest around

/-- The fields of a node; an absent member contributes nothing. -/
def resolveFieldsMember : List (String × Json.Value) → (around : String) →
    Except Fault ResolvedFields
  | [], _ => .ok ⟨[], []⟩
  | (k, value) :: rest, around =>
    if k = "fields" then
      match value with
      | .array fields => resolveFields fields around 0
      | _ => .ok ⟨[], []⟩
    else resolveFieldsMember rest around

/-- The fields of a record from the one at `index` on. -/
def resolveFields : List Json.Value → (around : String) → (index : Nat) →
    Except Fault ResolvedFields
  | [], _, _ => .ok ⟨[], []⟩
  | first :: rest, around, index => do
    let (field, declared) ← within (.index index) (resolveField first around)
    return (← resolveFields rest around (index + 1)).cons field declared

/-- **A field of a record.**  It has to be a node with a name, but it is no declaration: a record
in this place says nothing about its own fields. -/
def resolveField : Json.Value → (around : String) → Except Fault (Field × List NamedType)
  | .object node, around => do
    let content ← Node.content node around
      (fun space => resolveMember "type" node space)
      (fun space => resolveMember "items" node space)
    Node.asField node content
  | other, _ => .error (Cause.notANode other.kind).here

end

/-- The named types of one schema: a node in the place of a type. -/
def resolveDocument (value : Json.Value) (around : String) :
    Except Fault (List NamedType) :=
  match value with
  | .object node => return (← resolveType (.object node) around).declared
  | other => .error (Cause.notANode other.kind).here

/-- The named types of the schemas of a list from the one at `index` on. -/
def resolveDocuments : List Json.Value → (around : String) → (index : Nat) →
    Except Fault (List NamedType)
  | [], _, _ => .ok []
  | first :: rest, around, index => do
    let declared ← within (.index index) (resolveDocument first around)
    return declared ++ (← resolveDocuments rest around (index + 1))

/-- **The table of named types of a document**, which is one schema or a list of them, with the
namespace that applies where the document declares none. -/
def tableOf (document : Json.Value) (defaultSpace : String) : Except Fault (List NamedType) :=
  if isNamespace defaultSpace then
    match document with
    | .object node => resolveDocument (.object node) defaultSpace
    | .array documents => resolveDocuments documents defaultSpace 0
    | other => .error (Cause.notADocument other.kind).here
  else .error (Cause.badDefaultNamespace defaultSpace).here

/-- The table of named types of a document given as text. -/
def tableOfText (text : String) (defaultSpace : String) : Except Fault (List NamedType) :=
  match Json.Value.ofText text with
  | .ok document => tableOf document defaultSpace
  | .error error => .error (Cause.notJson error).here

end AvroTypes.Schema
