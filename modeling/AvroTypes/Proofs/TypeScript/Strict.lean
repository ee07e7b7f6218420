import AvroTypes.Proofs.Outcome
import AvroTypes.Proofs.Table.Violations
import AvroTypes.Proofs.TypeScript.Declared
import AvroTypes.Proofs.TypeScript.TypeExpressions

/-!
# Writing without anything to fall back on

Two things are written although there is nothing to write: a reference that means nothing is written
as it stands, and a type without alternatives as an empty line.  The strict writer is the same
writer without these two; where the other one falls back it fails, and so does everything around it.
A table that has passed the check with dangling references refused is written by it all the same, so
the other one does not fall back anywhere either.

* `Scope.referenceText?`, `typeText?`, `declarationLines?`, `filesOf?` — **the strict writer.**
* `typeText?_eq_some`, `declarationLines?_eq_some` — where it does not fail.
* `generate_strict` — **a table that is written is written strictly.**
-/

namespace AvroTypes.TypeScript

open AvroTypes.Text

/-! ## The strict writer -/

/-- A reference as seen from a scope, if it means something. -/
def Scope.referenceText? (scope : Scope) (reference : String) : Option (List Char) :=
  (scope.index.resolve? reference scope.space).map fun target =>
    if scope.qualified && target.space ≠ scope.space then pathChars target.fullName.toList
    else identifierChars target.name.toList

mutual

/-- The text of a type, if every reference that is written in it means something. -/
def typeText? (scope : Scope) : TypeExpr → Option (List Char)
  | .of .array elements => do
    return Kind.array.display.toList ++ '<' :: bar.intercalate (← typeTexts? scope elements)
      ++ ['>']
  | .of (.reference name) _ => scope.referenceText? name
  | .of kind _ => some kind.display.toList

/-- The texts of a list of alternatives. -/
def typeTexts? (scope : Scope) : List TypeExpr → Option (List (List Char))
  | [] => some []
  | first :: rest => do return (← typeText? scope first) :: (← typeTexts? scope rest)

end

/-- The text of a list of alternatives. -/
def unionText? (scope : Scope) (alternatives : List TypeExpr) : Option (List Char) :=
  (typeTexts? scope alternatives).map bar.intercalate

/-- The type of a field. -/
def fieldTypeText? (scope : Scope) (field : Field) : Option (List Char) :=
  match field.symbols with
  | some symbols =>
    if field.alternatives.all (·.kind = .enum) then some (literalsText symbols)
    else unionText? scope field.alternatives
  | none => unionText? scope field.alternatives

/-- The lines of a property with its comment. -/
def propertyLines? (scope : Scope) (field : Field) : Option (List Line) :=
  (fieldTypeText? scope field).map (propertyWith field)

/-- The declaration of an alias. -/
def aliasLines? (scope : Scope) (type : NamedType) : Option (List Line) :=
  (unionText? scope type.alternatives).map fun text =>
    layOut ("type ".toList ++ identifierFor type ++ " = ".toList ++ text ++ [';'])

/-- The declaration of a record. -/
def recordLines? (scope : Scope) (type : NamedType) : Option (List Line) :=
  let head := "type ".toList ++ identifierFor type ++ " = ".toList
  (type.fields.mapM (propertyLines? scope)).map fun properties =>
    if type.fields.isEmpty then [Line.flush (head ++ ['\x7b', '\x7d', ';'])]
    else Line.flush (head ++ ['\x7b']) :: separated properties ++ [Line.flush ['\x7d', ';']]

/-- **The declaration of a type, from its one and only alternative.** -/
def declarationLines? (options : Options) (scope : Scope) (type : NamedType) :
    Option (List Line) :=
  match type.alternatives with
  | [only] => do
    let body ← match only.kind with
      | .enum => some (enumLines type)
      | .record => recordLines? scope type
      | _ => aliasLines? scope type
    let constant := if options.exportSchema && only.kind = .record then schemaLines type else []
    return layOutDoc type.doc ++ ledBy "export ".toList body ++ constant
  | _ => none

/-- The declarations of a namespace, an empty line after each. -/
def groupLines? (options : Options) (scope : Scope) (types : List NamedType) :
    Option (List Line) :=
  (types.mapM (declarationLines? options scope)).map fun declarations =>
    declarations.flatMap (· ++ [Line.flush []])

/-- The file of a group. -/
def fileOf? (options : Options) (index : SymbolIndex) (group : Group) : Option OutputFile :=
  (groupLines? options (scopeOf options index group.space) group.types).map fun body =>
    { name := fileName group.space
      content := String.ofList
        (renderLines options.tabulator.toList (blockLines options group.space body)) }

/-- The files of a table, one for each namespace. -/
def filesOf? (options : Options) (index : SymbolIndex) (table : List NamedType) :
    Option (List OutputFile) :=
  (Group.ofTable table).mapM (fileOf? options index)

/-! ## Where it does not fail -/

section

variable {options : Options} {index : SymbolIndex} {scope : Scope}

/-- All these names mean something where they are written. -/
def Scope.Knows (scope : Scope) (names : List String) : Prop :=
  ∀ name ∈ names, (scope.index.resolve? name scope.space).isSome

lemma Scope.Knows.mono {names more : List String} (h : scope.Knows more) (sub : names ⊆ more) :
    scope.Knows names := fun name hname => h name (sub hname)

lemma referenceText?_eq_some {name : String} (h : (scope.index.resolve? name scope.space).isSome) :
    scope.referenceText? name = some (scope.referenceText name) := by
  obtain ⟨target, htarget⟩ := Option.isSome_iff_exists.mp h
  rw [Scope.referenceText?, Scope.referenceText, htarget, Option.map_some]

mutual

/-- **A type whose references all mean something is written strictly.** -/
lemma typeText?_eq_some : ∀ type : TypeExpr, scope.Knows type.references →
    typeText? scope type = some (typeText scope type)
  | .of kind elements => fun h => by
      cases kind with
      | array => rw [typeText?, typeTexts?_eq_some elements h]; rfl
      | reference name => exact referenceText?_eq_some (h name List.mem_cons_self)
      | _ => rfl

/-- The same for a list of alternatives. -/
lemma typeTexts?_eq_some : ∀ alternatives : List TypeExpr,
    scope.Knows (referencesIn alternatives) →
    typeTexts? scope alternatives = some (typeTexts scope alternatives)
  | [] => fun _ => rfl
  | first :: rest => fun h => by
      rw [typeTexts?, typeText?_eq_some first (h.mono (List.subset_append_left _ _)),
        typeTexts?_eq_some rest (h.mono (List.subset_append_right _ _))]
      rfl

end

lemma unionText?_eq_some {alternatives : List TypeExpr}
    (h : scope.Knows (referencesIn alternatives)) :
    unionText? scope alternatives = some (unionText scope alternatives) := by
  rw [unionText?, typeTexts?_eq_some alternatives h]
  rfl

lemma propertyLines?_eq_some {field : Field}
    (h : scope.Knows (referencesIn field.alternatives)) :
    propertyLines? scope field = some (propertyLines scope field) := by
  have written : fieldTypeText? scope field = some (fieldTypeText scope field) := by
    rw [fieldTypeText?, fieldTypeText, unionText?_eq_some h]
    cases field.symbols with
    | none => rfl
    | some symbols =>
        dsimp only
        split_ifs <;> rfl
  rw [propertyLines?, written]
  rfl

lemma recordLines?_eq_some {type : NamedType} (h : scope.Knows type.references) :
    recordLines? scope type = some (recordLines scope type) := by
  have properties : type.fields.mapM (propertyLines? scope) =
      some (type.fields.map (propertyLines scope)) :=
    mapM_eq_some_map fun field hfield => propertyLines?_eq_some <| h.mono fun _ hname =>
      List.mem_append_right _ (List.mem_flatMap.mpr ⟨field, hfield, hname⟩)
  rw [recordLines?, properties]
  rfl

/-- **A type with one alternative, whose references all mean something, is declared strictly.** -/
lemma declarationLines?_eq_some {type : NamedType} (single : type.alternatives.length = 1)
    (h : scope.Knows type.references) :
    declarationLines? options scope type = some (declarationLines options scope type) := by
  have ofAlias : aliasLines? scope type = some (aliasLines scope type) := by
    rw [aliasLines?, unionText?_eq_some (h.mono (List.subset_append_left _ _))]
    rfl
  obtain ⟨only, halternatives⟩ := List.length_eq_one_iff.mp single
  rw [declarationLines?, declarationLines, halternatives, List.head?_cons,
    recordLines?_eq_some h, ofAlias]
  dsimp only
  cases only.kind <;> rfl

end

/-! ## Tables that have passed the check -/

section

variable {options : Options} {table : List NamedType}

/-- What the strict writer needs is what the check of the table has found. -/
lemma declarationLines?_of_issues (deny : options.denyDangling = true)
    (noIssues : issues options (SymbolIndex.ofTable table) table = []) {type : NamedType}
    (htype : type ∈ table) :
    declarationLines? options (scopeOf options (SymbolIndex.ofTable table) type.space) type =
      some (declarationLines options (scopeOf options (SymbolIndex.ofTable table) type.space)
        type) :=
  declarationLines?_eq_some (length_alternatives_of_issues noIssues htype)
    fun _ hname => isSome_resolve?_of_issues deny noIssues htype hname

/-- The file of a group is written strictly if all its types are, each from the namespace of the
group, which is its own. -/
lemma fileOf?_of_issues (deny : options.denyDangling = true)
    (noIssues : issues options (SymbolIndex.ofTable table) table = []) {group : Group}
    (hgroup : group ∈ Group.ofTable table) :
    fileOf? options (SymbolIndex.ofTable table) group =
      some (fileOf options (SymbolIndex.ofTable table) group) := by
  have declared : ∀ type ∈ group.types,
      declarationLines? options (scopeOf options (SymbolIndex.ofTable table) group.space) type =
        some (declarationLines options
          (scopeOf options (SymbolIndex.ofTable table) group.space) type) := by
    intro type htype
    rw [Group.types_of_mem_ofTable hgroup, List.mem_filter, decide_eq_true_iff] at htype
    obtain ⟨htype, hspace⟩ := htype
    rw [← hspace]
    exact declarationLines?_of_issues deny noIssues htype
  rw [fileOf?, groupLines?, mapM_eq_some_map declared, fileOf, fileLines, groupLines,
    Option.map_some, Option.map_some, List.flatMap_map]

/-- **A table that is written is written strictly.**  With dangling references refused, if there are
files then the strict writer yields the same files.  Every type of the table has exactly one
alternative; every reference in it, at any depth of itself and of its fields, means something where
it is written; and its strict declaration stands in the file of its namespace and is not empty,
having a line that declares its identifier. -/
theorem generate_strict (deny : options.denyDangling = true) {files : List OutputFile}
    (h : generate options table = .ok files) :
    filesOf? options (SymbolIndex.ofTable table) table = some files ∧
    ∀ type ∈ table,
      (∃ only, type.alternatives = [only]) ∧
      (∀ name ∈ type.references,
        ((SymbolIndex.ofTable table).resolve? name type.space).isSome) ∧
      ∃ group ∈ Group.ofTable table, type ∈ group.types ∧
        ∃ file ∈ files, file.content.toList = renderLines options.tabulator.toList
            (fileLines options (SymbolIndex.ofTable table) group) ∧
        ∃ declaration,
          declarationLines? options
            (scopeOf options (SymbolIndex.ofTable table) type.space) type = some declaration ∧
          (∃ line ∈ declaration, readIdentifier line.text = some (identifierFor type)) ∧
          ∃ above below, fileLines options (SymbolIndex.ofTable table) group =
            blockLines options type.space (above ++ declaration ++ below) := by
  rw [generate_eq_ok_iff] at h
  obtain ⟨noIssues, rfl⟩ := h
  let index := SymbolIndex.ofTable table
  refine ⟨mapM_eq_some_map fun group => fileOf?_of_issues deny noIssues, fun type htype => ?_⟩
  have single := length_alternatives_of_issues noIssues htype
  obtain ⟨group, hgroup, -, hmem, place⟩ := exists_fileLines options htype
  refine ⟨List.length_eq_one_iff.mp single,
    fun name => isSome_resolve?_of_issues deny noIssues htype,
    group, hgroup, hmem, fileOf options index group, List.mem_map_of_mem hgroup,
    by rw [fileOf, String.toList_ofList], _, declarationLines?_of_issues deny noIssues htype, ?_,
    place⟩
  obtain ⟨line, rest, hlines, reads⟩ := exists_readIdentifier_declarationLines options
    (scopeOf options index type.space) (List.ne_nil_of_length_pos (single ▸ Nat.one_pos))
  exact ⟨line, hlines ▸ List.mem_append_right _ List.mem_cons_self, reads⟩

end

/-- An enumeration in one namespace, and in another one a record and a list of such records, which
the record refers to. -/
def treeTable : List NamedType :=
  [{ name := "Colour", space := "base", alternatives := [.plain .enum], symbols := some ["RED"] },
    { name := "Node", space := "tree", alternatives := [.plain .record]
      children := some
        [{ name := "colour", alternatives := [.plain .null, .plain (.reference "base.Colour")] },
          { name := "children", alternatives := [.arrayOf [.plain (.reference "Nodes")]] }] },
    { name := "Nodes", space := "tree", alternatives := [.arrayOf [.plain (.reference "Node")]] }]

/-- The table is written strictly. -/
theorem generate_strict_tree :
    ∃ files, generate {} treeTable = .ok files ∧
      filesOf? {} (SymbolIndex.ofTable treeTable) treeTable = some files := by
  have noIssues : issues {} (SymbolIndex.ofTable treeTable) treeTable = [] := by
    simp only [issues, problemsOfType, danglingProblems, dangling_eq_filter,
      SymbolIndex.resolve?_ofTable]
    decide +kernel
  have h := generate_eq_ok_iff.mpr ⟨noIssues, rfl⟩
  exact ⟨_, h, (generate_strict rfl h).1⟩

end AvroTypes.TypeScript
