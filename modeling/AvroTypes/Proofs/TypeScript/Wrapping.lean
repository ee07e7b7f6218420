import AvroTypes.Proofs.TypeScript.FileContents
import AvroTypes.Proofs.TypeScript.Independence

/-!
# What blocks of namespaces change

With namespace blocks a file is wrapped and indented, and references to other namespaces are written
as paths.  Where no reference leaves its namespace the second makes no difference, and then the file
of a namespace is the file without blocks, indented as a whole, between the head and the end of its
block.  Blocks only add to what the check of a table can find, so a table that is written with them
is written without.

* `KeepsToItself` — no reference leads into another namespace.
* `agreeOn_bare`, `groupLines_bare` — **then blocks do not change the declarations.**
* `OutputFile.wrapped`, `fileOf_wrapped` — a file as the content of a block.
* `generate_wrapped` — **the files with blocks are the files without, wrapped.**
-/

namespace AvroTypes

/-- The options with namespace blocks. -/
def Options.blocked (options : Options) : Options := { options with namespaceBlocks := true }

/-- The options without namespace blocks. -/
def Options.bare (options : Options) : Options := { options with namespaceBlocks := false }

/-- Without blocks there is less to keep to. -/
lemma Sound.bare {options : Options} {table : List NamedType} (h : Sound options.blocked table) :
    Sound options.bare table :=
  ⟨h.names, h.single, h.closed, nofun, h.files⟩

namespace TypeScript

open AvroTypes.Text

/-- **No reference leads into another namespace.** -/
def KeepsToItself (table : List NamedType) : Prop :=
  ∀ type ∈ table, ∀ name ∈ type.references, ∀ target,
    (SymbolIndex.ofTable table).resolve? name type.space = some target → target.space = type.space

section

variable {options : Options} {index : SymbolIndex} {group : Group}

/-! ## Declarations -/

/-- A reference that does not leave its namespace is written alike with blocks and without. -/
lemma agreeOn_bare {space : String} {names : List String}
    (home : ∀ name ∈ names, ∀ target, index.resolve? name space = some target →
      target.space = space) :
    (scopeOf options.blocked index space).AgreeOn (scopeOf options.bare index space) names := by
  intro name hname
  have home := home name hname
  simp only [Scope.referenceText, scopeOf]
  cases hmeans : index.resolve? name space with
  | none => rfl
  | some target => simp [home target hmeans]

/-- **The declarations of a namespace are the same** with blocks and without, before anything is put
around them. -/
lemma groupLines_bare (home : ∀ type ∈ group.types, ∀ name ∈ type.references, ∀ target,
      index.resolve? name group.space = some target → target.space = group.space) :
    groupLines options.blocked (scopeOf options.blocked index group.space) group.types =
      groupLines options.bare (scopeOf options.bare index group.space) group.types :=
  List.flatMap_congr fun type htype =>
    congrArg (· ++ [Line.flush []])
      (declarationLines_congr options.blocked (agreeOn_bare (home type htype)))

/-! ## Files -/

/-- A file as the block of a namespace: the line that opens the block, the content one level deeper,
and the line that ends it.  The default namespace has no block. -/
def OutputFile.wrapped (tabulator space : String) (file : OutputFile) : OutputFile :=
  if space.isEmpty then file
  else
    { file with
      content := String.ofList (blockHead space ++ '\n' ::
        indent tabulator.toList file.content.toList ++ ['\x7d', '\n']) }

/-- **The file of a namespace with blocks is its file without, wrapped.** -/
lemma fileOf_wrapped (home : ∀ type ∈ group.types, ∀ name ∈ type.references, ∀ target,
      index.resolve? name group.space = some target → target.space = group.space) :
    fileOf options.blocked index group =
      OutputFile.wrapped options.tabulator group.space (fileOf options.bare index group) := by
  let body := groupLines options.bare (scopeOf options.bare index group.space) group.types
  have without : fileLines options.bare index group = body := by
    rw [fileLines, blockLines, inBlock]
    rfl
  have within : fileLines options.blocked index group =
      blockLines options.blocked group.space body := by rw [fileLines, groupLines_bare home]
  have block : inBlock options.blocked group.space = !group.space.isEmpty := rfl
  have written := renderLines_blockLines options.blocked group.space body
  rw [headerText, indentation, footerText, block] at written
  rw [OutputFile.wrapped, fileOf, fileOf, without, within, written]
  cases group.space.isEmpty with
  | true => simp [indent_no_padding, Options.bare, Options.blocked]
  | false => simp [Options.bare, Options.blocked]

end

/-- **Blocks of namespaces only wrap and indent.**  If no reference of a table leads into another
namespace, and the table is written with namespace blocks, then it is written without them too, both
times with one file for each namespace, called alike, in the order in which the namespaces are first
seen.  The file of the default namespace is the same; that of every other one is, with blocks, the
line that opens its block, the file without blocks one level deeper, and the line that ends it. -/
theorem generate_wrapped {options : Options} {table : List NamedType} {files : List OutputFile}
    (home : KeepsToItself table) (h : generate options.blocked table = .ok files) :
    ∃ plain, generate options.bare table = .ok plain ∧
      files.map OutputFile.name = (spacesOf table).map fileName ∧
      plain.map OutputFile.name = (spacesOf table).map fileName ∧
      files = List.zipWith (OutputFile.wrapped options.tabulator) (spacesOf table) plain := by
  obtain ⟨sound, rfl⟩ := generate_eq_ok_iff_sound.mp h
  refine ⟨_, generate_eq_ok_iff_sound.mpr ⟨sound.bare, rfl⟩, map_name_fileOf _ _ table,
    map_name_fileOf _ _ table, ?_⟩
  rw [filesOf, filesOf, ← Group.spaces_ofTable, Group.spaces, List.zipWith_map_left,
    List.zipWith_map_right, List.zipWith_self]
  refine List.map_congr_left fun group hgroup => fileOf_wrapped fun type htype => ?_
  rw [Group.types_of_mem_ofTable hgroup, List.mem_filter, decide_eq_true_iff] at htype
  obtain ⟨htype, hspace⟩ := htype
  exact hspace ▸ home type htype

/-- A type of the default namespace, and two of another, one of which refers to the other. -/
def homelyTable : List NamedType :=
  [{ name := "Count", space := "", alternatives := [.plain .number] },
    { name := "Item", space := "a.b", alternatives := [.plain .string]
      doc := some "One\n\ntext." },
    { name := "Items", space := "a.b", alternatives := [.arrayOf [.plain (.reference "Item")]] }]

/-- The reference stays inside its namespace, so the file of the namespace is the one without
blocks, wrapped, and the file of the default namespace is the same. -/
theorem generate_wrapped_homely :
    KeepsToItself homelyTable ∧
    ∃ files plain, generate ({} : Options).blocked homelyTable = .ok files ∧
      generate ({} : Options).bare homelyTable = .ok plain ∧
      files.map OutputFile.name = ["default.ts", "a/b.ts"] ∧
      files = List.zipWith (OutputFile.wrapped "\t") ["", "a.b"] plain := by
  have home : KeepsToItself homelyTable := by
    simp only [KeepsToItself, SymbolIndex.resolve?_ofTable]
    decide +kernel
  have noIssues : issues ({} : Options).blocked (SymbolIndex.ofTable homelyTable)
      homelyTable = [] := by
    simp only [issues, problemsOfType, danglingProblems, dangling_eq_filter,
      SymbolIndex.resolve?_ofTable]
    decide +kernel
  have h := generate_eq_ok_iff.mpr ⟨noIssues, rfl⟩
  obtain ⟨plain, without, names, -, wrapped⟩ := generate_wrapped home h
  exact ⟨home, _, plain, h, without, names.trans (by decide +kernel),
    wrapped.trans (by rw [show spacesOf homelyTable = ["", "a.b"] by decide])⟩

end TypeScript

end AvroTypes
