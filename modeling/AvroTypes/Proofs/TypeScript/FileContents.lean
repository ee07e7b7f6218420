import AvroTypes.Proofs.Table.Partition
import AvroTypes.Proofs.Text.Lines
import AvroTypes.Proofs.TypeScript.Declared

/-!
# What the files contain

The lines of a namespace are put together first and written afterwards.  This file says what has
been written in the end: the header of the block, if there is one, then the declarations of the
namespace in the order of the table, each indented as a text of its own with one blank line behind
it, then the end of the block.  Since the groups are the table cut up by namespace, the files have
every declaration of the table once.

* `declarationText`, `headerText`, `footerText` — the pieces of a file.
* `renderLines_blockLines`, `renderLines_groupLines` — how they are put together.
* `fileOf_eq` — the file of a group.
* `generate_partition` — **the files of a table, from the table alone.**
-/

namespace AvroTypes.TypeScript

open AvroTypes.Text

/-! ## The pieces of a file -/

/-- The text of a declaration, before it is indented. -/
def declarationText (options : Options) (scope : Scope) (type : NamedType) : List Char :=
  unlines ((declarationLines options scope type).map (Line.render options.tabulator.toList))

/-- What stands in front of the outermost lines of a namespace. -/
def indentation (options : Options) (space : String) : List Char :=
  if inBlock options space then options.tabulator.toList else []

/-- What opens the file of a namespace: the head of its block, if it has one. -/
def headerText (options : Options) (space : String) : List Char :=
  if inBlock options space then blockHead space ++ ['\n'] else []

/-- What ends the file of a namespace: the end of its block, if it has one. -/
def footerText (options : Options) (space : String) : List Char :=
  if inBlock options space then ['\x7d', '\n'] else []

/-- The text of the declarations of a namespace, each indented, with a blank line behind it. -/
def bodyText (options : Options) (scope : Scope) (types : List NamedType) : List Char :=
  types.flatMap fun type =>
    indent (indentation options scope.space) (declarationText options scope type) ++ ['\n', '\n']

/-! ## Putting them together -/

/-- **The lines of a namespace are written as the lines inside it, indented, between the two ends of
the block.** -/
theorem renderLines_blockLines (options : Options) (space : String) (body : List Line) :
    renderLines options.tabulator.toList (blockLines options space body) =
      headerText options space
        ++ indent (indentation options space) (renderLines options.tabulator.toList body)
        ++ footerText options space := by
  rw [blockLines, headerText, footerText, indentation]
  split_ifs
  · simp [renderLines_deeper]
  · simp [indent_no_padding]

lemma declarationLines_ne_nil (options : Options) (scope : Scope) (type : NamedType) :
    declarationLines options scope type ≠ [] := by
  by_cases none : type.alternatives = []
  · simp [declarationLines, none]
  · obtain ⟨first, rest, hlines, -⟩ := exists_readIdentifier_declarationLines options scope none
    simp [hlines]

/-- The declarations of a namespace are written one after another, each with a blank line behind
it. -/
lemma renderLines_groupLines (options : Options) (scope : Scope) (types : List NamedType) :
    renderLines options.tabulator.toList (groupLines options scope types) =
      types.flatMap fun type => declarationText options scope type ++ ['\n', '\n'] := by
  induction types with
  | nil => rfl
  | cons first rest ih =>
      have written := renderLines_eq_unlines options.tabulator.toList
        (declarationLines_ne_nil options scope first)
      rw [groupLines, List.flatMap_cons, renderLines_append, renderLines_append, written,
        List.flatMap_cons, ← ih, declarationText, groupLines]
      simp

/-- Indenting the declarations of a namespace together is indenting each of them. -/
lemma indent_groupLines (options : Options) (scope : Scope) (types : List NamedType) :
    indent (indentation options scope.space)
        (renderLines options.tabulator.toList (groupLines options scope types)) =
      bodyText options scope types := by
  rw [renderLines_groupLines, bodyText]
  induction types with
  | nil => rfl
  | cons first rest ih =>
      rw [List.flatMap_cons, List.flatMap_cons, ← ih, List.append_assoc, List.cons_append,
        List.singleton_append, indent_append, indent_cons]
      simp

/-- **The file of a group.** -/
theorem fileOf_eq (options : Options) (index : SymbolIndex) (group : Group) :
    fileOf options index group =
      { name := fileName group.space
        content := String.ofList (headerText options group.space
          ++ bodyText options (scopeOf options index group.space) group.types
          ++ footerText options group.space) } := by
  rw [fileOf, fileLines, renderLines_blockLines]
  exact congrArg (fun body => OutputFile.mk _ (String.ofList (_ ++ body ++ _)))
    (indent_groupLines options (scopeOf options index group.space) group.types)

/-! ## The files of a table -/

/-- **The files of a table are the table, cut up by namespace.**  If a table is written, there is
one file for each of its namespaces, in the order in which these are first seen, called by the file
name of the namespace.  It contains the header of the namespace, then the declarations of exactly
the types of the namespace, in the order of the table, each indented and followed by one blank line,
then the footer.  So the groups are a stable partition of the table: together they have its types,
each as often as the table has it, and none changes places with another one of its namespace.  When
all files are to be merged, the one file has the same contents with two line feeds between them. -/
theorem generate_partition {options : Options} {table : List NamedType} {files : List OutputFile}
    (h : generate options table = .ok files) :
    files = (spacesOf table).map (fun space =>
      { name := fileName space
        content := String.ofList (headerText options space
          ++ bodyText options (scopeOf options (SymbolIndex.ofTable table) space)
            (table.filter (·.space = space))
          ++ footerText options space) }) ∧
    (spacesOf table).Nodup ∧
    (∀ space, space ∈ spacesOf table ↔ ∃ type ∈ table, type.space = space) ∧
    Group.ofTable table =
      (spacesOf table).map (fun space => ⟨space, table.filter (·.space = space)⟩) ∧
    ((Group.ofTable table).flatMap Group.types).Perm table ∧
    (options.singleFile = true → assemble options table = .ok
      [{ name := "index.ts", content := "\n\n".intercalate (files.map OutputFile.content) }]) := by
  obtain ⟨noIssues, rfl⟩ := generate_eq_ok_iff.mp h
  refine ⟨?_, Group.nodup_spacesOf table, fun space => mem_spacesOf, Group.ofTable_eq_map table,
    Group.perm_flatMap_types table, fun merged => ?_⟩
  · rw [filesOf, Group.ofTable_eq_map, List.map_map]
    exact List.map_congr_left fun space _ => fileOf_eq _ _ _
  · refine assemble_eq_ok_iff.mpr ⟨noIssues, ?_⟩
    rw [if_pos merged, merge, mergedName]
    congr 2
    apply String.toList_injective
    rw [String.toList_ofList, String.toList_intercalate, List.map_map]
    rfl

/-- Types of three namespaces, mixed. -/
def mixedTable : List NamedType :=
  [{ name := "One", space := "b", alternatives := [.plain .string] },
    { name := "Two", space := "a", alternatives := [.plain .null] },
    { name := "Three", space := "b", alternatives := [.arrayOf [.plain .number]] },
    { name := "Four", space := "", alternatives := [.plain .boolean] }]

/-- The table becomes three files, in the order `b`, `a`, default, the first with two
declarations. -/
theorem generate_partition_mixed :
    ∃ files, generate {} mixedTable = .ok files ∧
      files.map OutputFile.name = ["b.ts", "a.ts", "default.ts"] ∧
      (files.head?.map OutputFile.content) = some
        ("export namespace b \x7b\n\texport type One = string;\n\n" ++
          "\texport type Three = Array<number>;\n\n\x7d\n") := by
  have noIssues : issues {} (SymbolIndex.ofTable mixedTable) mixedTable = [] := by decide +kernel
  have h := generate_eq_ok_iff.mpr ⟨noIssues, rfl⟩
  obtain ⟨hfiles, -⟩ := generate_partition h
  refine ⟨_, h, ?_, ?_⟩
  · rw [hfiles, List.map_map]
    decide +kernel
  · rw [hfiles]
    decide +kernel

end AvroTypes.TypeScript
