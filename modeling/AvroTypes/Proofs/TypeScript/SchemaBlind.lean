import AvroTypes.Proofs.Table.Lookup
import AvroTypes.Proofs.Table.Partition
import AvroTypes.Proofs.TypeScript.Assembly
import AvroTypes.Proofs.TypeScript.Scopes

/-!
# What the schemas of a table are for

Every entry of a table carries the node that it comes from.  The constants behind the records show
it, and nothing else looks at it: not the check of the table, not the look-up of references, and no
other part of a declaration.  So if no constants are asked for, two tables that differ in their
schemas only are written alike.

* `NamedType.withSchema` — an entry with another schema.
* `resolve?_withSchema`, `issues_withSchema`, `declarationLines_withSchema` — who does not look at
  it.
* `assemble_withSchema` — **the files do not depend on the schemas.**
-/

namespace AvroTypes

/-- An entry with another schema, which may depend on the entry. -/
def NamedType.withSchema (schema : NamedType → Json.Value) (type : NamedType) : NamedType :=
  { type with schema := schema type }

/-- A group whose types have other schemas. -/
def Group.withSchemas (schema : NamedType → Json.Value) (group : Group) : Group :=
  { group with types := group.types.map (NamedType.withSchema schema) }

variable (schema : NamedType → Json.Value)

/-! ## Tables and groups -/

/-- A reference means the same type, with its new schema. -/
lemma resolve?_withSchema (table : List NamedType) (reference space : String) :
    (SymbolIndex.ofTable (table.map (NamedType.withSchema schema))).resolve? reference space =
      ((SymbolIndex.ofTable table).resolve? reference space).map (NamedType.withSchema schema) := by
  simp only [SymbolIndex.resolve?_ofTable, List.find?_map, Option.map_or]
  rfl

lemma insert_withSchemas (type : NamedType) (groups : List Group) :
    Group.insert (type.withSchema schema) (groups.map (Group.withSchemas schema)) =
      (Group.insert type groups).map (Group.withSchemas schema) := by
  induction groups with
  | nil => rfl
  | cons group rest ih =>
      rw [List.map_cons, Group.insert, Group.insert, ih]
      split_ifs with first second second
      · simp [Group.withSchemas]
      · exact absurd first second
      · exact absurd second first
      · rfl

lemma ofTable_withSchemas (table : List NamedType) :
    Group.ofTable (table.map (NamedType.withSchema schema)) =
      (Group.ofTable table).map (Group.withSchemas schema) := by
  induction table using List.reverseRecOn with
  | nil => rfl
  | append_singleton table type ih =>
      rw [List.map_append, List.map_singleton, Group.ofTable_concat, Group.ofTable_concat, ih,
        insert_withSchemas]

/-! ## The check -/

lemma problemsOfType_withSchema (options : Options) (table : List NamedType) (type : NamedType) :
    problemsOfType options (SymbolIndex.ofTable (table.map (NamedType.withSchema schema)))
        (type.withSchema schema) =
      problemsOfType options (SymbolIndex.ofTable table) type := by
  simp only [problemsOfType, danglingProblems, TypeScript.dangling_eq_filter,
    resolve?_withSchema, Option.isNone_map]
  rfl

lemma issuesOfGroups_withSchemas (options : Options) (earlier : List String)
    (groups : List Group) :
    issuesOfGroups options earlier (groups.map (Group.withSchemas schema)) =
      issuesOfGroups options earlier groups := by
  induction groups generalizing earlier with
  | nil => rfl
  | cons group rest ih =>
      rw [List.map_cons, issuesOfGroups, issuesOfGroups, ih]
      simp only [Group.withSchemas, List.head?_map]
      cases group.types.head? <;> rfl

/-- The check of a table does not look at the schemas. -/
lemma issues_withSchema (options : Options) (table : List NamedType) :
    issues options (SymbolIndex.ofTable (table.map (NamedType.withSchema schema)))
        (table.map (NamedType.withSchema schema)) =
      issues options (SymbolIndex.ofTable table) table := by
  rw [issues, issues, ofTable_withSchemas, issuesOfGroups_withSchemas, List.flatMap_map]
  simp only [problemsOfType_withSchema]
  rfl

namespace TypeScript

/-! ## The declarations -/

lemma referenceText_withSchema (options : Options) (table : List NamedType)
    (space reference : String) :
    (scopeOf options (SymbolIndex.ofTable (table.map (NamedType.withSchema schema)))
        space).referenceText reference =
      (scopeOf options (SymbolIndex.ofTable table) space).referenceText reference := by
  rw [Scope.referenceText, Scope.referenceText, scopeOf, scopeOf, resolve?_withSchema]
  cases (SymbolIndex.ofTable table).resolve? reference space <;> rfl

/-- A declaration without the constant does not show the schema. -/
lemma declarationLines_withSchema {options : Options} (bare : options.exportSchema = false)
    (table : List NamedType) (space : String) (type : NamedType) :
    declarationLines options
        (scopeOf options (SymbolIndex.ofTable (table.map (NamedType.withSchema schema))) space)
        (type.withSchema schema) =
      declarationLines options (scopeOf options (SymbolIndex.ofTable table) space) type := by
  have unseen : ∀ scope, declarationLines options scope (type.withSchema schema) =
      declarationLines options scope type := by
    intro scope
    simp only [declarationLines, bare]
    rfl
  rw [unseen]
  exact declarationLines_congr options fun name _ =>
    referenceText_withSchema schema options table space name

/-- **The files do not depend on the schemas**, as long as no constants show them. -/
theorem assemble_withSchema {options : Options} (bare : options.exportSchema = false)
    (table : List NamedType) :
    assemble options (table.map (NamedType.withSchema schema)) = assemble options table := by
  have files : filesOf options (SymbolIndex.ofTable (table.map (NamedType.withSchema schema)))
        (table.map (NamedType.withSchema schema)) =
      filesOf options (SymbolIndex.ofTable table) table := by
    rw [filesOf, filesOf, ofTable_withSchemas, List.map_map]
    refine List.map_congr_left fun group _ => ?_
    have lines : groupLines options (scopeOf options
          (SymbolIndex.ofTable (table.map (NamedType.withSchema schema))) group.space)
          (group.types.map (NamedType.withSchema schema)) =
        groupLines options (scopeOf options (SymbolIndex.ofTable table) group.space)
          group.types := by
      simp only [groupLines, List.flatMap_map, declarationLines_withSchema schema bare]
    simp only [Function.comp, fileOf, fileLines, Group.withSchemas, lines]
  rw [assemble, assemble, generate, generate, issues_withSchema, files]

end TypeScript

end AvroTypes
