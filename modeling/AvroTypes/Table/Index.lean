import AvroTypes.Types
import Std.Data.HashMap

/-!
# Looking up and grouping named types

A reference is looked up by its text alone and by the namespace it is asked from.  A type with
that full name comes first.  Failing that, the reference is taken for a short name: a type of that
name in the asking namespace is preferred to one elsewhere, and among several the earliest in the
table counts.

The types of a table are grouped by namespace, and each group goes into a file of its own.  Groups
come in the order in which their namespaces first occur, and inside a group the types keep the
order of the table.

* `SymbolIndex` — the two maps, from full names and from short names.
* `SymbolIndex.ofTable` — the index of a table, built in one pass.
* `SymbolIndex.resolve?` — the look-up.
* `Group`, `Group.ofTable` — the groups.
* `fileName` — the file of a namespace.
-/

namespace AvroTypes

/-! ## Looking up -/

/-- An index over a table of named types. -/
structure SymbolIndex where
  /-- The earliest type with each full name. -/
  byFullName : Std.HashMap String NamedType
  /-- The types with each short name, in the order of the table. -/
  byName : Std.HashMap String (List NamedType)

namespace SymbolIndex

/-- The index of the empty table. -/
def empty : SymbolIndex := ⟨∅, ∅⟩

/-- The index of a table that has one more type at its end. -/
def insert (index : SymbolIndex) (type : NamedType) : SymbolIndex :=
  { byFullName := index.byFullName.insertIfNew type.fullName type
    byName := index.byName.insert type.name (index.byName.getD type.name [] ++ [type]) }

/-- The index of a table. -/
def ofTable (table : List NamedType) : SymbolIndex := table.foldl insert empty

/-- **The type that a reference means** when it is asked from a namespace. -/
def resolve? (index : SymbolIndex) (reference space : String) : Option NamedType :=
  match index.byFullName[reference]? with
  | some type => some type
  | none =>
    let candidates := index.byName.getD reference []
    (candidates.find? (·.space = space)).or candidates.head?

end SymbolIndex

/-! ## Grouping -/

/-- The types of one namespace. -/
structure Group where
  /-- The namespace. -/
  space : String
  /-- Its types, in the order of the table. -/
  types : List NamedType

namespace Group

/-- One more type: at the end of the group of its namespace, or in a new group at the end. -/
def insert (type : NamedType) : List Group → List Group
  | [] => [⟨type.space, [type]⟩]
  | group :: rest =>
    if group.space = type.space then { group with types := group.types ++ [type] } :: rest
    else group :: insert type rest

/-- **The groups of a table.** -/
def ofTable (table : List NamedType) : List Group :=
  table.foldl (fun groups type => insert type groups) []

end Group

/-- How one character of a namespace is written in the name of its file. -/
def pathChar (c : Char) : Char := if c = '.' then '/' else c

/-- The file that holds the declarations of a namespace, relative to the output directory: one
directory for each part but the last. -/
def fileName (space : String) : String :=
  if space.isEmpty then "default.ts"
  else String.ofList (space.toList.map pathChar) ++ ".ts"

end AvroTypes
