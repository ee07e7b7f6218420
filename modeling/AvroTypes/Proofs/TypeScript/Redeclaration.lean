import AvroTypes.Json.Printer
import AvroTypes.Proofs.TypeScript.ExportedNames

/-!
# Names that are declared twice

Different types can be declared under one name.  An identifier is made from a name by leaving
characters out, so `tree-node` and `treeNode` come to the same one, and the constant behind a record
has a name that another type may have already.  The check of a table looks for words that are
reserved and for files that are written twice, but not for this.  Here it is said exactly when it
happens: which declarations come to stand in the same block, or in the same file outside all blocks,
and which of those export the same name.

* `LandsIn`, `landing` — where the output declares a type, and what the options have to do with it.
* `landing_eq_iff` — the namespaces whose types land together.
* `Exports`, `exports_iff` — the names that a declaration exports.
* `redeclares_iff` — when two types land together and export the same name.
* `redeclares_iff_of_filesOfText` — **the same for the types of a text.**
* `redeclares_hyphen` — two types of one namespace that are declared under the same name.
-/

namespace AvroTypes.TypeScript

open AvroTypes.Text
open AvroTypes.Schema (isName isNamespace)

/-! ## Where declarations land -/

/-- Where a declaration stands: the file, and the name of the block in it, if there is one. -/
structure Landing where
  /-- The name of the file. -/
  file : String
  /-- The name of the block. -/
  block : Option (List Char)

/-- Lines stand around others as a block of some name, or they are just these. -/
inductive StandsIn : Option (List Char) → (body lines : List Line) → Prop
  | outside {body : List Line} : StandsIn none body body
  | block {opening closing : Line} {body : List Line} {name : List Char}
      (reads : readNamespace opening.text = some name) :
      StandsIn (some name) body (opening :: deeper body ++ [closing])

/-- **Where the output declares a type**: the file has the lines of its namespace in it, and in
these the declaration stands in the block, or in none. -/
def LandsIn (options : Options) (files : List OutputFile) (table : List NamedType)
    (type : NamedType) (landing : Landing) : Prop :=
  ∃ file ∈ files, file.name = landing.file ∧ ∃ group ∈ Group.ofTable table, type ∈ group.types ∧
    renderLines options.tabulator.toList
      (fileLines options (SymbolIndex.ofTable table) group) <:+: file.content.toList ∧
    ∃ above below, StandsIn landing.block
      (above ++ declarationLines options (scopeOf options (SymbolIndex.ofTable table) type.space)
        type ++ below)
      (fileLines options (SymbolIndex.ofTable table) group)

/-- The name of the block of a namespace, if it has one. -/
def blockOf (options : Options) (space : String) : Option (List Char) :=
  if inBlock options space then some (pathChars space.toList) else none

/-- The file and the block of a namespace. -/
def landing (options : Options) (space : String) : Landing where
  file := if options.singleFile then mergedName else fileName space
  block := blockOf options space

lemma standsIn_blockLines (options : Options) (space : String) (body : List Line) :
    StandsIn (blockOf options space) body (blockLines options space body) := by
  rw [blockLines, blockOf]
  split_ifs
  · exact .block (readNamespace_blockHead space)
  · exact .outside

/-- Every type lands in the file and the block of its namespace. -/
lemma landsIn_landing {options : Options} {table : List NamedType} {files : List OutputFile}
    (h : assemble options table = .ok files) {type : NamedType} (htype : type ∈ table) :
    LandsIn options files table type (landing options type.space) := by
  obtain ⟨group, hgroup, hspace, hmem, above, below, hlines⟩ := exists_fileLines options htype
  obtain ⟨file, hfile, hname, hinfix⟩ := exists_file_of_assemble h hgroup
  have hlanding : file.name = (landing options type.space).file := by rw [hname, hspace, landing]
  refine ⟨file, hfile, hlanding, group, hgroup, hmem, hinfix, above, below, ?_⟩
  exact hlines ▸ standsIn_blockLines options type.space _

/-- Where there are blocks, the name of the block, or its absence, tells namespaces apart. -/
lemma space_eq_of_blockOf_eq {options : Options} (blocks : options.namespaceBlocks = true)
    {space space' : String} (valid : isNamespace space = true) (valid' : isNamespace space' = true)
    (h : blockOf options space = blockOf options space') : space = space' := by
  rw [blockOf, blockOf, pathChars_of_isNamespace valid, pathChars_of_isNamespace valid'] at h
  split_ifs at h with named named' default'
  · exact String.toList_injective (Option.some.inj h)
  · have empty : space = "" := by simpa [inBlock, blocks] using named
    have empty' : space' = "" := by simpa [inBlock, blocks] using default'
    rw [empty, empty']

section

variable {options : Options} {table : List NamedType} {type other : NamedType}

/-- **Types of different namespaces land together only if there are no blocks and everything is
merged.** -/
lemma landing_eq_iff (sound : Sound options table) (htype : type ∈ table) (hother : other ∈ table)
    (valid : isNamespace type.space = true) (valid' : isNamespace other.space = true) :
    landing options type.space = landing options other.space ↔
      type.space = other.space ∨
        options.namespaceBlocks = false ∧ options.singleFile = true := by
  constructor
  · intro together
    have file := congrArg Landing.file together
    have block := congrArg Landing.block together
    cases single : options.singleFile with
    | false =>
        refine .inl (sound.files single type htype other hother ?_)
        simpa [landing, single] using file
    | true =>
        cases blocks : options.namespaceBlocks with
        | false => exact .inr ⟨rfl, rfl⟩
        | true => exact .inl (space_eq_of_blockOf_eq blocks valid valid' block)
  · rintro (same | ⟨noBlocks, single⟩)
    · rw [same]
    · simp [landing, blockOf, inBlock, noBlocks, single]

end

/-! ## What declarations export -/

/-- The lines of a declaration, as deep as they stand in their file. -/
def linesInFile (options : Options) (table : List NamedType) (type : NamedType) : List Line :=
  let lines :=
    declarationLines options (scopeOf options (SymbolIndex.ofTable table) type.space) type
  if inBlock options type.space then deeper lines else lines

/-- **The names that the declaration of a type exports**, read in everything that is written for
it. -/
def Exports (options : Options) (table : List NamedType) (type : NamedType) (name : List Char) :
    Prop :=
  ∃ keyword, ⟨keyword, name⟩ ∈
    exportsIn (renderLines options.tabulator.toList (linesInFile options table type))

lemma mem_ownExports_iff {options : Options} {type : NamedType} {name : List Char} :
    (∃ keyword, ⟨keyword, name⟩ ∈ ownExports options type) ↔
      name = identifierFor type ∨ HasConstant options type ∧ name = constantFor type := by
  rw [ownExports]
  split_ifs with asked <;> simp [asked, exists_or]

/-- **A declaration exports the identifier of its type, and the name of its constant.** -/
lemma exports_iff {options : Options} {table : List NamedType}
    (plainly : WrittenPlainly options table) (sound : Sound options table) {type : NamedType}
    (htype : type ∈ table) (wellFormed : type.WellFormed) {name : List Char} :
    Exports options table type name ↔
      name = identifierFor type ∨ HasConstant options type ∧ name = constantFor type := by
  let lines :=
    declarationLines options (scopeOf options (SymbolIndex.ofTable table) type.space) type
  have exported : ExportingLines (ownExports options type) (textsOf lines) :=
    exportingLines_declarationLines plainly htype wellFormed
      (isLegal_identifierFor sound htype wellFormed)
  have tidy : Tidy lines := tidy_declarationLines _ _ _
  have inFile : textsOf (linesInFile options table type) = textsOf lines ∧
      Tidy (linesInFile options table type) := by
    rw [linesInFile]
    split_ifs
    · exact ⟨textsOf_deeper lines, tidy.deeper⟩
    · exact ⟨rfl, tidy⟩
  have written := margined_renderLines plainly.tabulator fun line hline =>
    (inFile.2 line hline).flat
  rw [Exports, (exported _ (inFile.1 ▸ written)).exportsIn_eq, mem_ownExports_iff]

/-! ## Declaring a name again -/

/-- **Two types declare a name twice**: they land together, and their declarations export the same
name. -/
def Redeclares (options : Options) (table : List NamedType) (type other : NamedType) : Prop :=
  landing options type.space = landing options other.space ∧
    ∃ name, Exports options table type name ∧ Exports options table other name

section

variable {options : Options} {table : List NamedType} {type other : NamedType}

/-- **When two types declare a name twice**: they have the same identifier, or the constant of one
is called like the other.  Two constants are called alike only if their types are. -/
lemma redeclares_iff (plainly : WrittenPlainly options table) (sound : Sound options table)
    (htype : type ∈ table) (hother : other ∈ table) (wellFormed : type.WellFormed)
    (wellFormed' : other.WellFormed) :
    Redeclares options table type other ↔
      (type.space = other.space ∨
        options.namespaceBlocks = false ∧ options.singleFile = true) ∧
      (identifierFor type = identifierFor other ∨
        HasConstant options type ∧ constantFor type = identifierFor other ∨
        HasConstant options other ∧ constantFor other = identifierFor type) := by
  rw [Redeclares, landing_eq_iff sound htype hother wellFormed.space wellFormed'.space]
  refine and_congr_right fun _ => ?_
  simp only [exports_iff plainly sound htype wellFormed,
    exports_iff plainly sound hother wellFormed']
  constructor
  · rintro ⟨name, rfl | ⟨asked, rfl⟩, same | ⟨asked', same⟩⟩
    · exact .inl same
    · exact .inr (.inr ⟨asked', same.symm⟩)
    · exact .inr (.inl ⟨asked, same⟩)
    · exact .inl (List.append_cancel_right same)
  · rintro (same | ⟨asked, same⟩ | ⟨asked, same⟩)
    · exact ⟨_, .inl rfl, .inl same⟩
    · exact ⟨_, .inr ⟨asked, rfl⟩, .inl same⟩
    · exact ⟨_, .inl rfl, .inr ⟨asked, same.symm⟩⟩

/-- A name is its own identifier. -/
lemma identifierFor_of_isName (h : isName type.name = true) :
    identifierFor type = type.name.toList := identifierChars_of_isNameChars h

/-- Types of different full names in one namespace have different names. -/
lemma name_ne_of_fullName_ne (different : type.fullName ≠ other.fullName)
    (home : type.space = other.space) : type.name ≠ other.name := by
  intro same
  exact different (by rw [NamedType.fullName, NamedType.fullName, home, same])

/-- Types with proper names in one namespace have different identifiers, so only the constants are
left. -/
lemma redeclares_iff_of_isName (plainly : WrittenPlainly options table)
    (sound : Sound options table) (htype : type ∈ table) (hother : other ∈ table)
    (wellFormed : type.WellFormed) (wellFormed' : other.WellFormed)
    (different : type.fullName ≠ other.fullName) (named : isName type.name = true)
    (named' : isName other.name = true)
    (apart : options.namespaceBlocks = true ∨ options.singleFile = false) :
    Redeclares options table type other ↔
      type.space = other.space ∧
      (HasConstant options type ∧ other.name = type.name ++ "_SCHEMA" ∨
        HasConstant options other ∧ type.name = other.name ++ "_SCHEMA") := by
  have noMerge : ¬ (options.namespaceBlocks = false ∧ options.singleFile = true) := by
    rintro ⟨noBlocks, single⟩
    simp [noBlocks, single] at apart
  have called : ∀ first second : String, first.toList ++ "_SCHEMA".toList = second.toList ↔
      second = first ++ "_SCHEMA" := fun first second => by
    rw [← String.toList_append, String.toList_inj, eq_comm]
  rw [redeclares_iff plainly sound htype hother wellFormed wellFormed', constantFor, constantFor,
    identifierFor_of_isName named, identifierFor_of_isName named', called, called,
    or_iff_left noMerge]
  refine and_congr_right fun home => or_iff_right fun same => ?_
  exact name_ne_of_fullName_ne different home (String.toList_injective same)

end

/-- **When the output of a text declares a name twice.**  Every type of the table lands in the file
and the block of its namespace.  Two types land together if they are of one namespace, or of any two
if there are no blocks and everything is merged.  If everything is written plainly, two types that
are called differently declare a name twice exactly if they land together and either their names
come to the same identifier or the constant behind one of them is called like the other.  Proper
names never come to the same identifier, so between types with proper names, unless namespaces are
thrown together, only the constants are left. -/
theorem redeclares_iff_of_filesOfText {options : Options} {text : String}
    {files : List OutputFile} (h : Conversion.filesOfText options text = .ok files) :
    ∃ table, Conversion.tableOfText options text = .ok table ∧
      assemble options table = .ok files ∧
      (∀ type ∈ table, LandsIn options files table type (landing options type.space)) ∧
      (∀ type ∈ table, ∀ other ∈ table,
        landing options type.space = landing options other.space ↔
          type.space = other.space ∨
            options.namespaceBlocks = false ∧ options.singleFile = true) ∧
      (WrittenPlainly options table →
        ∀ type ∈ table, ∀ other ∈ table, type.fullName ≠ other.fullName →
          (Redeclares options table type other ↔
            (type.space = other.space ∨
              options.namespaceBlocks = false ∧ options.singleFile = true) ∧
            (identifierFor type = identifierFor other ∨
              HasConstant options type ∧ constantFor type = identifierFor other ∨
              HasConstant options other ∧ constantFor other = identifierFor type)) ∧
          (isName type.name = true → isName other.name = true →
            (options.namespaceBlocks = true ∨ options.singleFile = false) →
            (Redeclares options table type other ↔
              type.space = other.space ∧
              (HasConstant options type ∧ other.name = type.name ++ "_SCHEMA" ∨
                HasConstant options other ∧ type.name = other.name ++ "_SCHEMA")))) := by
  obtain ⟨-, table, htable, hassemble⟩ := Conversion.filesOfText_eq_ok_iff.mp h
  obtain ⟨document, -, hentries⟩ := Conversion.tableOfText_eq_ok_iff.mp htable
  have sound := issues_eq_nil_iff.mp (assemble_eq_ok_iff.mp hassemble).1
  have wellFormed := Schema.cumulative_wellFormed.tableOf hentries
  refine ⟨table, htable, hassemble, fun type htype => landsIn_landing hassemble htype,
    fun type htype other hother => ?_,
    fun plainly type htype other hother different => ⟨?_, fun named named' apart => ?_⟩⟩
  · exact landing_eq_iff sound htype hother (wellFormed type htype).space
      (wellFormed other hother).space
  · exact redeclares_iff plainly sound htype hother (wellFormed type htype)
      (wellFormed other hother)
  · exact redeclares_iff_of_isName plainly sound htype hother (wellFormed type htype)
      (wellFormed other hother) different named named' apart

/-- Two types of one namespace, the second of which is called `treeNode`. -/
def twinDocument (name : String) : Json.Value :=
  .array [.object [("name", .string name), ("namespace", .string "a"), ("type", .string "int")],
    .object [("name", .string "treeNode"), ("namespace", .string "a"), ("type", .string "string")]]

/-- Their text. -/
def twinText (name : String) : String := (twinDocument name).compact

/-- The entry of the first one. -/
def numberEntry (name : String) : NamedType :=
  { name, space := "a", alternatives := [.plain .number]
    schema := .object
      [("name", .string name), ("namespace", .string "a"), ("type", .string "int")] }

/-- The entry of the second one. -/
def treeNodeEntry : NamedType :=
  { name := "treeNode", space := "a", alternatives := [.plain .string]
    schema := .object
      [("name", .string "treeNode"), ("namespace", .string "a"), ("type", .string "string")] }

/-- Their table. -/
def twinTable (name : String) : List NamedType := [numberEntry name, treeNodeEntry]

/-- With an underscore the two types are declared under different names. -/
theorem not_redeclares_underscore :
    ∃ files, Conversion.filesOfText {} (twinText "tree_node") = .ok files ∧
      WrittenPlainly {} (twinTable "tree_node") ∧
      ¬ Redeclares {} (twinTable "tree_node") (numberEntry "tree_node") treeNodeEntry := by
  have htable : Conversion.tableOfText {} (twinText "tree_node") = .ok (twinTable "tree_node") :=
    Conversion.tableOfText_eq_ok_iff.mpr ⟨twinDocument "tree_node", by cbv, by rfl⟩
  have hfiles := Conversion.filesOfText_of_issues rfl rfl htable (by decide +kernel)
  have plainly : WrittenPlainly {} (twinTable "tree_node") := by
    refine ⟨List.all_eq_true.mp (by decide), fun type htype name hname _ => ?_, by decide⟩
    have none : ∀ type ∈ twinTable "tree_node", type.references = [] := by decide
    exact absurd (none type htype ▸ hname) List.not_mem_nil
  obtain ⟨table, htable', -, -, -, each⟩ := redeclares_iff_of_filesOfText hfiles
  obtain rfl := Except.ok.inj (htable.symm.trans htable')
  have proper := (each plainly (numberEntry "tree_node") List.mem_cons_self treeNodeEntry
    (List.mem_cons_of_mem _ List.mem_cons_self) (by decide +kernel)).2
    (by decide +kernel) (by decide +kernel) (.inl rfl)
  refine ⟨_, hfiles, plainly, fun redeclares => ?_⟩
  rcases (proper.mp redeclares).2 with ⟨⟨-, record⟩, -⟩ | ⟨⟨-, record⟩, -⟩
  · exact absurd record (by decide)
  · exact absurd record (by decide)

/-- **With a hyphen they are declared under the same name**, which stands twice in the block. -/
theorem redeclares_hyphen :
    Conversion.filesOfText {} (twinText "tree-node") =
      .ok [{ name := "a.ts", content := "export namespace a \x7b\n" ++
        "\texport type treeNode = number;\n\n\texport type treeNode = string;\n\n\x7d\n" }] ∧
    Conversion.tableOfText {} (twinText "tree-node") = .ok (twinTable "tree-node") ∧
    (numberEntry "tree-node").fullName ≠ treeNodeEntry.fullName ∧
    Redeclares {} (twinTable "tree-node") (numberEntry "tree-node") treeNodeEntry := by
  have htable : Conversion.tableOfText {} (twinText "tree-node") = .ok (twinTable "tree-node") :=
    Conversion.tableOfText_eq_ok_iff.mpr ⟨twinDocument "tree-node", by cbv, by rfl⟩
  refine ⟨?_, htable, by decide +kernel, rfl, "treeNode".toList, ⟨"type".toList, ?_⟩,
    ⟨"type".toList, ?_⟩⟩
  · rw [Conversion.filesOfText_of_issues rfl rfl htable (by decide +kernel)]
    exact congrArg Except.ok (by decide +kernel)
  · decide +kernel
  · decide +kernel

end AvroTypes.TypeScript
