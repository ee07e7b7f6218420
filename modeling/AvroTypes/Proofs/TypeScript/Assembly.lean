import AvroTypes.Proofs.Table.Grouping
import AvroTypes.Proofs.Table.References
import AvroTypes.TypeScript.OutputFile

/-!
# Assembling the output

A table is written if it has no issues, and then every group has its file, or its part of the one
file that everything is merged into.

* `generate_eq_ok_iff`, `assemble_eq_ok_iff` — when a table is written, and what the files are.
* `exists_file_of_assemble`, `exists_infix_of_assemble` — the lines of each group are in the output.
* `length_alternatives_of_issues`, `isSome_resolve?_of_issues` — what the check of the table
  promises for a type.
-/

namespace AvroTypes.TypeScript

open AvroTypes.Text

lemma infix_intercalate {α : Type} {separator part : List α} {parts : List (List α)}
    (h : part ∈ parts) : part <:+: separator.intercalate parts := by
  induction parts with
  | nil => simp at h
  | cons first rest ih =>
      cases rest with
      | nil =>
          obtain rfl := List.mem_singleton.mp h
          simp
      | cons next rest =>
          rw [List.intercalate_cons_cons]
          rcases List.mem_cons.mp h with rfl | h
          · rw [List.append_assoc]
            exact (List.prefix_append _ _).isInfix
          · exact (ih h).trans (List.suffix_append _ _).isInfix

lemma generate_eq_ok_iff {options : Options} {table : List NamedType} {files : List OutputFile} :
    generate options table = .ok files ↔
      issues options (SymbolIndex.ofTable table) table = [] ∧
        files = filesOf options (SymbolIndex.ofTable table) table := by
  rw [generate]
  cases issues options (SymbolIndex.ofTable table) table with
  | nil => simp [eq_comm]
  | cons issue rest => simp

lemma assemble_eq_ok_iff {options : Options} {table : List NamedType} {files : List OutputFile} :
    assemble options table = .ok files ↔
      issues options (SymbolIndex.ofTable table) table = [] ∧
        files = if options.singleFile then
            [merge (filesOf options (SymbolIndex.ofTable table) table)]
          else filesOf options (SymbolIndex.ofTable table) table := by
  rw [assemble, generate]
  cases issues options (SymbolIndex.ofTable table) table with
  | nil =>
      simp only [bind, Except.bind, pure, Except.pure, Except.ok.injEq, true_and]
      exact eq_comm
  | cons issue rest => simp [bind, Except.bind]

/-- The file of a group is among the files, or in the one they are merged into. -/
lemma exists_file_of_assemble {options : Options} {table : List NamedType}
    {files : List OutputFile} (h : assemble options table = .ok files) {group : Group}
    (hgroup : group ∈ Group.ofTable table) :
    ∃ file ∈ files, file.name = (if options.singleFile then mergedName else fileName group.space) ∧
      renderLines options.tabulator.toList
        (fileLines options (SymbolIndex.ofTable table) group) <:+: file.content.toList := by
  obtain ⟨-, rfl⟩ := assemble_eq_ok_iff.mp h
  have hfile : fileOf options (SymbolIndex.ofTable table) group ∈
      filesOf options (SymbolIndex.ofTable table) table := List.mem_map_of_mem hgroup
  have hcontent : (fileOf options (SymbolIndex.ofTable table) group).content.toList =
      renderLines options.tabulator.toList
        (fileLines options (SymbolIndex.ofTable table) group) := by
    rw [fileOf, String.toList_ofList]
  split_ifs
  · refine ⟨_, List.mem_singleton_self _, rfl, ?_⟩
    rw [merge, String.toList_ofList, ← hcontent]
    exact infix_intercalate (List.mem_map_of_mem hfile)
  · exact ⟨_, hfile, rfl, hcontent ▸ List.infix_rfl⟩

/-- The lines of each group are in one of the files. -/
lemma exists_infix_of_assemble {options : Options} {table : List NamedType}
    {files : List OutputFile} (h : assemble options table = .ok files) {group : Group}
    (hgroup : group ∈ Group.ofTable table) :
    ∃ file ∈ files, renderLines options.tabulator.toList
      (fileLines options (SymbolIndex.ofTable table) group) <:+: file.content.toList := by
  obtain ⟨file, hfile, -, hinfix⟩ := exists_file_of_assemble h hgroup
  exact ⟨file, hfile, hinfix⟩

/-- The check of the table finds nothing wrong with a type. -/
lemma problemsOfType_of_issues {options : Options} {index : SymbolIndex} {table : List NamedType}
    (h : issues options index table = []) {type : NamedType} (htype : type ∈ table) :
    problemsOfType options index type = [] := by
  have := (List.append_eq_nil_iff.mp h).1
  simpa using List.flatMap_eq_nil_iff.mp this type htype

/-- A table that can be written has exactly one alternative for each of its types. -/
lemma length_alternatives_of_issues {options : Options} {index : SymbolIndex}
    {table : List NamedType} (h : issues options index table = []) {type : NamedType}
    (htype : type ∈ table) : type.alternatives.length = 1 := by
  by_contra several
  have := problemsOfType_of_issues h htype
  simp [problemsOfType, several] at this

mutual

/-- The dangling references of a type are those of its references that mean nothing. -/
lemma danglingIn_eq_filter (index : SymbolIndex) (space : String) : ∀ type : TypeExpr,
    danglingIn index space type =
      type.references.filter fun name => (index.resolve? name space).isNone
  | .of kind elements => by
      have inside := dangling_eq_filter index space elements
      cases kind with
      | reference name =>
          rw [danglingIn, TypeExpr.references, List.filter_cons, inside]
          split_ifs <;> rfl
      | _ => exact inside

/-- The same for a list of alternatives. -/
lemma dangling_eq_filter (index : SymbolIndex) (space : String) : ∀ alternatives : List TypeExpr,
    dangling index space alternatives =
      (referencesIn alternatives).filter fun name => (index.resolve? name space).isNone
  | [] => rfl
  | first :: rest => by
      rw [dangling, referencesIn, List.filter_append, danglingIn_eq_filter index space first,
        dangling_eq_filter index space rest]

end

/-- A table that can be written refers to nothing that is not in it, unless that is allowed. -/
lemma isSome_resolve?_of_issues {options : Options} {index : SymbolIndex} {table : List NamedType}
    (deny : options.denyDangling = true) (h : issues options index table = []) {type : NamedType}
    (htype : type ∈ table) {name : String} (hname : name ∈ type.references) :
    (index.resolve? name type.space).isSome := by
  have hproblems : danglingProblems index type = [] := by
    have := problemsOfType_of_issues h htype
    simp only [problemsOfType, deny, if_true, List.append_eq_nil_iff] at this
    exact this.2
  simp only [danglingProblems, List.append_eq_nil_iff, List.map_eq_nil_iff,
    List.flatMap_eq_nil_iff, dangling_eq_filter, List.filter_eq_nil_iff,
    Option.isNone_iff_eq_none, ← Option.not_isSome_iff_eq_none, not_not] at hproblems
  rcases List.mem_append.mp hname with hname | hname
  · exact hproblems.1 name hname
  · obtain ⟨field, hfield, hname⟩ := List.mem_flatMap.mp hname
    exact hproblems.2 field hfield name hname

end AvroTypes.TypeScript
