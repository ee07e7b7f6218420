import AvroTypes.Proofs.TypeScript.LegalNames
import AvroTypes.Proofs.TypeScript.QuietCode
import AvroTypes.Proofs.TypeScript.Tabulators

/-!
# The names that a file exports

A type name that means nothing is written as it stands, and if it holds a line feed, what follows
that can be a declaration.  So can a tabulator, or the rest of a string that is broken off by a line
feed.  In a table in which all of these are plain, code exports what it seems to: each type its
identifier, each record the constant with its schema, and each block its namespace.

What is exported is read off the whole text of a file, so it has to be shown for every piece of it
that it exports nothing else, and for every seam that nothing is exported across it.

* `WrittenPlainly` — nothing that is written as it stands can be taken for code.
* `exportingLines_declarationLines`, `exporting_fileOf` — **what a declaration and a file export.**
* `exists_group_of_exportsIn` — the same for the output, merged or not.
* `IsLegalExport` — what may be exported.
* `legal_of_filesOfText` — **every name that the output of a text declares is legal**, and if the
  text is written plainly, every name that it exports.
* `illegal_class` — an output that exports a reserved word, by each of the three ways.
-/

namespace AvroTypes.TypeScript

open AvroTypes.Text
open AvroTypes.Schema (isNamespace segments Site Reached)

/-! ## Declarations -/

/-- The strings of the schema that are written as keys and as literals. -/
def stringsIn (type : NamedType) : List String :=
  type.symbols.getD [] ++ type.fields.flatMap fun field => field.name :: field.symbols.getD []

/-- **Everything that is written as it stands is written plainly**: the tabulator is blank,
references that mean nothing are plain, and what stands in literals is on one line. -/
structure WrittenPlainly (options : Options) (table : List NamedType) : Prop where
  tabulator : ∀ c ∈ options.tabulator.toList, isSpacing c = true
  references : ∀ type ∈ table, ∀ name ∈ type.references,
    (SymbolIndex.ofTable table).resolve? name type.space = none → IsPlain name.toList
  strings : ∀ type ∈ table, ∀ string ∈ stringsIn type, OnOneLine string

/-- The declaration of a type is followed by the constant with its schema. -/
def HasConstant (options : Options) (type : NamedType) : Prop :=
  options.exportSchema = true ∧ type.alternatives.head?.map TypeExpr.kind = some .record

instance (options : Options) (type : NamedType) : Decidable (HasConstant options type) :=
  inferInstanceAs (Decidable (_ ∧ _))

/-- The name of the constant of a type. -/
def constantFor (type : NamedType) : List Char := identifierFor type ++ "_SCHEMA".toList

/-- The word that a type is declared by. -/
def keywordFor (type : NamedType) : List Char :=
  if type.alternatives.head?.map TypeExpr.kind = some .enum then "enum".toList else "type".toList

/-- What the declaration of a type exports: its identifier, and the name of its constant. -/
def ownExports (options : Options) (type : NamedType) : List Export :=
  ⟨keywordFor type, identifierFor type⟩ ::
    if HasConstant options type then [⟨"const".toList, constantFor type⟩] else []

section

variable {options : Options} {scope : Scope} {type : NamedType}

/-- The head of a declaration of a type. -/
lemma exporting_typeHead (declarable : Declarable (identifierFor type)) {text : List Char}
    (h : Exporting [] ("= ".toList ++ text)) :
    Exporting [⟨"type".toList, identifierFor type⟩]
      ("export ".toList ++ ("type ".toList ++ identifierFor type ++ " = ".toList ++ text)) := by
  have head : Exporting [⟨"type".toList, identifierFor type⟩]
      ("export ".toList ++ "type".toList ++ ' ' :: identifierFor type ++ [' ']) :=
    exporting_header (by decide) declarable (by decide)
  simpa using head.append h

lemma exporting_equals : Exporting [] "= ".toList :=
  (exporting_mark (by decide)).after (exporting_blank (by decide))

lemma exportingLines_aliasLines (declarable : Declarable (identifierFor type))
    (types : AreTypes type.alternatives)
    (plain : PlainlyReferring scope (referencesIn type.alternatives)) :
    ExportingLines [⟨"type".toList, identifierFor type⟩]
      (textsOf (ledBy "export ".toList (aliasLines scope type))) := by
  have union : Exporting [] ("= ".toList ++ (unionText scope type.alternatives ++ [';'])) :=
    exporting_equals.after ((quiet_unionText plain).append (.mark (by decide) [])
      (exporting_mark (by decide)))
  have flat : '\n' ∉ "type ".toList ++ identifierFor type ++ " = ".toList ++
      unionText scope type.alternatives ++ [';'] := by
    have noBreak : '\n' ∉ unionText scope type.alternatives := by
      rw [mem_unionText_iff (by decide) types.each]
      rintro ⟨name, hname, unknown, hmem⟩
      exact (plain name hname unknown).oneLine hmem
    simp [lineFeed_not_mem_identifierFor, noBreak]
  have texts : textsOf (ledBy "export ".toList (aliasLines scope type)) =
      ["export ".toList ++ ("type ".toList ++ identifierFor type ++ " = ".toList ++
        (unionText scope type.alternatives ++ [';']))] := by
    rw [aliasLines, layOut, lines, List.splitOn_eq_singleton flat]
    simp [textsOf, ledBy, Line.flush]
  rw [texts]
  exact (exporting_typeHead declarable union).line

/-- What is put between braces. -/
lemma exportingLines_braces {exports : List Export} {head : List (List Char)} {block : List Line}
    (hhead : ExportingLines exports head) (hblock : QuietLines (textsOf block)) :
    ExportingLines exports (head ++ textsOf block ++ [['\x7d', ';']]) := by
  have closing : ExportingLines [] [['\x7d', ';']] :=
    ((exporting_mark (by decide)).after (exporting_mark (by decide))).line
  rw [List.append_assoc, ← List.append_nil exports]
  exact hhead.append (hblock.append (.mark (by decide) _) closing)

lemma exportingLines_enumLines (declarable : Declarable (identifierFor type))
    (symbols : ∀ symbol ∈ type.symbols.getD [], OnOneLine symbol) :
    ExportingLines [⟨"enum".toList, identifierFor type⟩]
      (textsOf (ledBy "export ".toList (enumLines type))) := by
  have head : ExportingLines [⟨"enum".toList, identifierFor type⟩]
      ["export ".toList ++ "enum".toList ++ ' ' :: identifierFor type] :=
    exportingLines_singleton (exporting_header (by decide) declarable (by decide))
  have brace : ExportingLines [] [['\x7b']] := (exporting_mark (by decide)).line
  have members : QuietLines (textsOf (separated ((type.symbols.getD []).map memberLines))) :=
    quietLines_separated (List.forall_mem_map.mpr fun symbol hsymbol =>
      quietBlock_memberLines (symbols symbol hsymbol))
  have whole := exportingLines_braces (head.append brace) members
  simpa [enumLines, ledBy, textsOf, Line.flush] using whole

lemma exportingLines_recordLines (declarable : Declarable (identifierFor type))
    (properties : ∀ field ∈ type.fields, QuietBlock (propertyLines scope field)) :
    ExportingLines [⟨"type".toList, identifierFor type⟩]
      (textsOf (ledBy "export ".toList (recordLines scope type))) := by
  have opens : Exporting [] ("= ".toList ++ ['\x7b']) :=
    exporting_equals.after (exporting_mark (by decide))
  rw [recordLines]
  split_ifs
  · have closes : Exporting [] ['\x7d', ';'] :=
      (exporting_mark (by decide)).after (exporting_mark (by decide))
    have line := (exporting_typeHead declarable (opens.after closes)).line
    simpa [ledBy, textsOf, Line.flush] using line
  · have fields : QuietLines (textsOf (separated (type.fields.map (propertyLines scope)))) :=
      quietLines_separated (List.forall_mem_map.mpr properties)
    have whole := exportingLines_braces (exporting_typeHead declarable opens).line fields
    simpa [ledBy, textsOf, Line.flush] using whole

lemma exportingLines_schemaLines (declarable : Declarable (constantFor type)) :
    ExportingLines [⟨"const".toList, constantFor type⟩] (textsOf (schemaLines type)) := by
  have head : Exporting [⟨"const".toList, constantFor type⟩]
      ("export ".toList ++ "const".toList ++ ' ' :: constantFor type ++ [' ']) :=
    exporting_header (by decide) declarable (by decide)
  have value : Exporting [] ("= ".toList ++ (type.schema.print ++ [';'])) :=
    exporting_equals.after ((quiet_print type.schema).append (.mark (by decide) [])
      (exporting_mark (by decide)))
  have empty : ExportingLines [] [[]] := exporting_nil.line
  simpa [schemaLines, textsOf, Line.flush, constantFor] using empty.append (head.append value).line

end

lemma IsLegal.declarable {name : List Char} (h : IsLegal name) : Declarable name where
  word := fun c hc => by
    simp [isWordPart, isIdentifierChar, (Schema.isWordChar_of_isNameChars h.shape).2 c hc]
  nonempty := by
    rintro rfl
    exact absurd h.shape (by decide)
  other := by
    rintro rfl
    exact absurd h.free (by decide)

section

variable {options : Options} {table : List NamedType} {type : NamedType}

/-- **What a declaration exports**: the identifier of its type and the name of its constant, and
nothing else. -/
theorem exportingLines_declarationLines (plainly : WrittenPlainly options table)
    (htype : type ∈ table) (wellFormed : type.WellFormed) (legal : IsLegal (identifierFor type)) :
    ExportingLines (ownExports options type)
      (textsOf (declarationLines options
        (scopeOf options (SymbolIndex.ofTable table) type.space) type)) := by
  let scope := scopeOf options (SymbolIndex.ofTable table) type.space
  have ofAlternatives : PlainlyReferring scope (referencesIn type.alternatives) :=
    fun name hname => plainly.references type htype name (List.mem_append_left _ hname)
  have ofField {field : Field} (hfield : field ∈ type.fields) :
      PlainlyReferring scope (referencesIn field.alternatives) := fun name hname =>
    plainly.references type htype name
      (List.mem_append_right _ (List.mem_flatMap.mpr ⟨field, hfield, hname⟩))
  have symbols : ∀ symbol ∈ type.symbols.getD [], OnOneLine symbol := fun symbol hsymbol =>
    plainly.strings type htype symbol (List.mem_append_left _ hsymbol)
  have ofName {field : Field} (hfield : field ∈ type.fields) :
      ∀ string ∈ field.name :: field.symbols.getD [], OnOneLine string := fun string hstring =>
    plainly.strings type htype string
      (List.mem_append_right _ (List.mem_flatMap.mpr ⟨field, hfield, hstring⟩))
  have properties : ∀ field ∈ type.fields, QuietBlock (propertyLines scope field) := by
    intro field hfield
    obtain ⟨name, inline⟩ := List.forall_mem_cons.mp (ofName hfield)
    exact quietBlock_propertyLines (wellFormed.fields field hfield) (ofField hfield) name inline
  have doc := exportingLines_layOutDoc type.doc
  have declarable := legal.declarable
  rcases wellFormed.alternatives.forms with isRecord | isEnum | areTypes
  · have constant : ExportingLines
        (if HasConstant options type then [⟨"const".toList, constantFor type⟩] else [])
        (textsOf (if options.exportSchema then schemaLines type else [])) := by
      have asked : HasConstant options type ↔ options.exportSchema = true := by
        simp [HasConstant, isRecord, TypeExpr.plain, TypeExpr.kind]
      simp only [asked]
      split_ifs
      · exact exportingLines_schemaLines legal.constant.declarable
      · exact exportingLines_nil
    have body := exportingLines_recordLines declarable properties
    simpa [ownExports, keywordFor, declarationLines, isRecord, TypeExpr.plain, TypeExpr.kind]
      using (doc.append body).append constant
  · have body := exportingLines_enumLines declarable symbols
    simpa [ownExports, keywordFor, HasConstant, declarationLines, isEnum, TypeExpr.plain,
      TypeExpr.kind] using doc.append body
  · obtain ⟨head, others, halternatives⟩ := List.exists_cons_of_ne_nil areTypes.nonempty
    obtain ⟨noRecord, noEnum⟩ := (areTypes.each head (by simp [halternatives])).kind_ne
    have lines : declarationLines options scope type =
        layOutDoc type.doc ++ ledBy "export ".toList (aliasLines scope type) := by
      simp [declarationLines, halternatives, noRecord]
    have body := exportingLines_aliasLines declarable areTypes ofAlternatives
    rw [lines]
    simpa [ownExports, keywordFor, HasConstant, halternatives, noRecord, noEnum]
      using doc.append body

/-! ## Files -/

/-- What the file of a group exports: its namespace, if it has a block, and what its declarations
export. -/
def groupExports (options : Options) (group : Group) : List Export :=
  (if inBlock options group.space then [⟨"namespace".toList, pathChars group.space.toList⟩] else [])
    ++ group.types.flatMap (ownExports options)

lemma exportingLines_groupLines {scope : Scope} {types : List NamedType}
    (each : ∀ type ∈ types, ExportingLines (ownExports options type)
      (textsOf (declarationLines options scope type))) :
    ExportingLines (types.flatMap (ownExports options))
      (textsOf (groupLines options scope types)) := by
  induction types with
  | nil => exact exportingLines_nil
  | cons first rest ih =>
      obtain ⟨hfirst, hrest⟩ := List.forall_mem_cons.mp each
      have empty : ExportingLines [] [[]] := exporting_nil.line
      simpa [groupLines, textsOf, Line.flush] using (hfirst.append empty).append (ih hrest)

lemma blockHead_eq (space : String) : blockHead space =
    "export ".toList ++ "namespace".toList ++ ' ' :: pathChars space.toList ++ [' ']
      ++ ['\x7b'] := by
  unfold blockHead
  simp

lemma exportingLines_blockLines {space : String} {exports : List Export} {body : List Line}
    (declarable : inBlock options space = true → Declarable (pathChars space.toList))
    (h : ExportingLines exports (textsOf body)) :
    ExportingLines
      ((if inBlock options space then [⟨"namespace".toList, pathChars space.toList⟩] else [])
        ++ exports)
      (textsOf (blockLines options space body)) := by
  by_cases inside : inBlock options space = true
  · have head : Exporting [⟨"namespace".toList, pathChars space.toList⟩]
        ("export ".toList ++ "namespace".toList ++ ' ' :: pathChars space.toList ++ [' ']) :=
      exporting_header (by decide) (declarable inside) (by decide)
    have opening : ExportingLines [⟨"namespace".toList, pathChars space.toList⟩]
        [blockHead space] := by
      have brace : Exporting [] ['\x7b'] := exporting_mark (by decide)
      rw [blockHead_eq]
      exact (head.append brace).line
    have closing : ExportingLines [] [['\x7d']] := (exporting_mark (by decide)).line
    have inner : ExportingLines exports (textsOf (deeper body)) := textsOf_deeper body ▸ h
    have texts : textsOf (blockLines options space body) =
        [blockHead space] ++ textsOf (deeper body) ++ [['\x7d']] := by
      rw [blockLines, if_pos inside]
      simp [textsOf, Line.flush]
    rw [if_pos inside, texts, ← List.append_nil (_ ++ exports)]
    exact (opening.append inner).append closing
  · rw [if_neg inside, blockLines, if_neg inside]
    exact h

/-- A namespace that has a block can be declared. -/
lemma declarable_space (sound : Sound options table) {type : NamedType}
    (inside : inBlock options type.space = true) (htype : type ∈ table)
    (valid : Schema.isNamespace type.space = true) : Declarable (pathChars type.space.toList) := by
  simp only [inBlock, Bool.and_eq_true, Bool.not_eq_true', String.isEmpty_eq_false_iff] at inside
  have legal := isLegal_segments sound inside.1 htype valid inside.2
  rw [pathChars_of_isNamespace valid]
  refine ⟨fun c hc => ?_, by simpa using inside.2, fun same => ?_⟩
  · exact isWordPart_of_mem_pathChars (pathChars_of_isNamespace valid ▸ hc)
  · have noDot : segments type.space.toList = ["export".toList] := by
      rw [same]
      decide
    exact absurd (legal "export".toList (by simp [noDot])).free (by decide)

/-- **What the file of a group exports**, and that it exports nothing else. -/
theorem exporting_fileOf (plainly : WrittenPlainly options table) (sound : Sound options table)
    (wellFormed : ∀ type ∈ table, type.WellFormed) {group : Group}
    (hgroup : group ∈ Group.ofTable table) :
    Exporting (groupExports options group)
      (fileOf options (SymbolIndex.ofTable table) group).content.toList := by
  have types : ∀ type ∈ group.types, type ∈ table ∧ type.space = group.space := by
    intro type htype
    rw [Group.types_of_mem_ofTable hgroup] at htype
    simpa using htype
  have each : ∀ type ∈ group.types, ExportingLines (ownExports options type)
      (textsOf (declarationLines options
        (scopeOf options (SymbolIndex.ofTable table) group.space) type)) := by
    intro type htype
    obtain ⟨hmem, hspace⟩ := types type htype
    rw [← hspace]
    exact exportingLines_declarationLines plainly hmem (wellFormed type hmem)
      (isLegal_identifierFor sound hmem (wellFormed type hmem))
  obtain ⟨first, rest, -, hfirst, hspace⟩ := Group.exists_head_of_mem_ofTable hgroup
  have declarable : inBlock options group.space = true →
      Declarable (pathChars group.space.toList) := fun inside => by
    rw [← hspace] at inside ⊢
    exact declarable_space sound inside hfirst (wellFormed first hfirst).space
  have whole := exportingLines_blockLines declarable (exportingLines_groupLines each)
  rw [fileOf, String.toList_ofList]
  exact whole _ (margined_renderLines plainly.tabulator fun line hline =>
    (tidy_fileLines options _ group line hline).flat)

lemma Exporting.exportsIn_eq {exports : List Export} {text : List Char}
    (h : Exporting exports text) : exportsIn text = exports := by
  simpa [exportsIn, exportsOf, Mode.read, Mode.finish] using h []

/-- Contents with line feeds between them. -/
lemma exporting_contents {α : Type} {exports : α → List Export} {content : α → List Char}
    {list : List α} (each : ∀ a ∈ list, Exporting (exports a) (content a)) :
    Exporting (list.flatMap exports) (['\n', '\n'].intercalate (list.map content)) := by
  have between : Exporting [] ['\n', '\n'] := exporting_blanks (List.all_eq_true.mp (by decide))
  induction list with
  | nil => exact exporting_nil
  | cons first rest ih =>
      obtain ⟨hfirst, hrest⟩ := List.forall_mem_cons.mp each
      cases rest with
      | nil => simpa using hfirst
      | cons next rest =>
          have below := ih hrest
          rw [List.map_cons, List.map_cons, List.intercalate_cons_cons, List.append_assoc]
          simpa using hfirst.append (between.after below)

/-- **What the output exports**, all of it. -/
theorem exists_group_of_exportsIn (plainly : WrittenPlainly options table)
    (wellFormed : ∀ type ∈ table, type.WellFormed) {files : List OutputFile}
    (h : assemble options table = .ok files) {file : OutputFile} (hfile : file ∈ files)
    {found : Export} (hfound : found ∈ exportsIn file.content.toList) :
    ∃ group ∈ Group.ofTable table, found ∈ groupExports options group := by
  obtain ⟨noIssues, hfiles⟩ := assemble_eq_ok_iff.mp h
  have each : ∀ group ∈ Group.ofTable table, Exporting (groupExports options group)
      (fileOf options (SymbolIndex.ofTable table) group).content.toList :=
    fun _ => exporting_fileOf plainly (issues_eq_nil_iff.mp noIssues) wellFormed
  split_ifs at hfiles
  · subst hfiles
    obtain rfl := List.mem_singleton.mp hfile
    have whole :
        exportsIn (merge (filesOf options (SymbolIndex.ofTable table) table)).content.toList =
          (Group.ofTable table).flatMap (groupExports options) := by
      rw [merge, String.toList_ofList, filesOf, List.map_map]
      exact (exporting_contents each).exportsIn_eq
    exact List.mem_flatMap.mp (whole ▸ hfound)
  · rw [hfiles, filesOf] at hfile
    obtain ⟨group, hgroup, rfl⟩ := List.mem_map.mp hfile
    exact ⟨group, hgroup, (each group hgroup).exportsIn_eq ▸ hfound⟩

/-- **What may be exported**: the block of a namespace of the table, called by the namespace as it
stands, each part of which is legal, and a type, an enumeration or a constant by a legal name. -/
inductive IsLegalExport (options : Options) (table : List NamedType) : Export → Prop
  | block {group : Group} (blocks : options.namespaceBlocks = true)
      (isGroup : group ∈ Group.ofTable table)
      (legal : ∀ part ∈ segments group.space.toList, IsLegal part) :
      IsLegalExport options table ⟨"namespace".toList, group.space.toList⟩
  | name {keyword name : List Char}
      (declares : keyword ∈ ["type".toList, "enum".toList, "const".toList])
      (legal : IsLegal name) : IsLegalExport options table ⟨keyword, name⟩

/-- What the declaration of a type exports is legal. -/
lemma isLegalExport_of_mem_ownExports {found : Export} (legal : IsLegal (identifierFor type))
    (h : found ∈ ownExports options type) : IsLegalExport options table found := by
  rcases List.mem_cons.mp h with rfl | h
  · refine .name ?_ legal
    rw [keywordFor]
    split_ifs <;> simp
  · split_ifs at h
    · obtain rfl := List.mem_singleton.mp h
      exact .name (by simp) legal.constant
    · exact absurd h List.not_mem_nil

lemma isLegalExport_of_mem_groupExports (sound : Sound options table)
    (wellFormed : ∀ type ∈ table, type.WellFormed) {group : Group}
    (hgroup : group ∈ Group.ofTable table) {found : Export}
    (h : found ∈ groupExports options group) : IsLegalExport options table found := by
  rcases List.mem_append.mp h with h | h
  · split_ifs at h with inside
    · obtain rfl := List.mem_singleton.mp h
      obtain ⟨first, rest, -, hfirst, hspace⟩ := Group.exists_head_of_mem_ofTable hgroup
      have valid := (wellFormed first hfirst).space
      simp only [inBlock, Bool.and_eq_true, Bool.not_eq_true', String.isEmpty_eq_false_iff]
        at inside
      rw [← hspace] at inside ⊢
      rw [pathChars_of_isNamespace valid, hspace]
      exact .block inside.1 hgroup (hspace ▸ isLegal_segments sound inside.1 hfirst valid inside.2)
    · exact absurd h List.not_mem_nil
  · obtain ⟨type, htype, h⟩ := List.mem_flatMap.mp h
    rw [Group.types_of_mem_ofTable hgroup] at htype
    have hmem := List.mem_of_mem_filter htype
    exact isLegalExport_of_mem_ownExports
      (isLegal_identifierFor sound hmem (wellFormed type hmem)) h

end

/-! ## The output of a text -/

/-- **The names that the output of a text declares are legal**, and if everything is written plainly
it exports no others.  The files are those of the table of the text.  In them stand the lines of
each group, in a block that is called by the namespace exactly as it is declared around each type of
the group, or inherited there; and every declaration of the group, and the constant that may follow
it, declares a legal name.  Strings of the schema that are not plain can put anything between
these. -/
theorem legal_of_filesOfText {options : Options} {text : String} {files : List OutputFile}
    (h : Conversion.filesOfText options text = .ok files) :
    ∃ document table, Json.Value.ofText text = .ok document ∧
      Schema.tableOf document options.defaultNamespace = .ok table ∧
      assemble options table = .ok files ∧
      (∀ group ∈ Group.ofTable table,
        (∃ file ∈ files, renderLines options.tabulator.toList
          (fileLines options (SymbolIndex.ofTable table) group) <:+: file.content.toList) ∧
        HeadedLegally options group.space
          (groupLines options (scopeOf options (SymbolIndex.ofTable table) group.space) group.types)
          (fileLines options (SymbolIndex.ofTable table) group) ∧
        ∀ type ∈ group.types,
          (∃ place around, ∃ node : Schema.Node, node.name? = some type.name ∧
            Reached Site.Visits document options.defaultNamespace place
              ⟨.type, .object node, around⟩ ∧
            group.space = node.spaceInside around) ∧
          DeclaredLegally (scopeOf options (SymbolIndex.ofTable table) group.space) type
            (declarationLines options (scopeOf options (SymbolIndex.ofTable table) group.space)
              type)) ∧
      (WrittenPlainly options table → ∀ file ∈ files, ∀ found ∈ exportsIn file.content.toList,
        IsLegalExport options table found) := by
  obtain ⟨-, table, htable, hassemble⟩ := Conversion.filesOfText_eq_ok_iff.mp h
  obtain ⟨document, hdocument, htable⟩ := Conversion.tableOfText_eq_ok_iff.mp htable
  have sound := issues_eq_nil_iff.mp (assemble_eq_ok_iff.mp hassemble).1
  have wellFormed := Schema.cumulative_wellFormed.tableOf htable
  refine ⟨document, table, hdocument, htable, hassemble, fun group hgroup => ⟨?_, ?_, ?_⟩,
    fun plainly file hfile found hfound => ?_⟩
  · exact exists_infix_of_assemble hassemble hgroup
  · obtain ⟨first, rest, -, hfirst, hspace⟩ := Group.exists_head_of_mem_ofTable hgroup
    rw [fileLines, ← hspace]
    exact headedLegally_blockLines sound hfirst (wellFormed first hfirst).space _
  · intro type htype
    rw [Group.types_of_mem_ofTable hgroup, List.mem_filter, decide_eq_true_iff] at htype
    obtain ⟨htype, hspace⟩ := htype
    obtain ⟨place, site, reached, registers⟩ := Reached.of_mem_table htable htype
    refine ⟨?_, declaredLegally_declarationLines sound htype (wellFormed type htype) _⟩
    cases registers.declares with
    | intro name space schema => exact ⟨place, _, _, name, reached, hspace ▸ space⟩
  · obtain ⟨group, hgroup, hfound⟩ :=
      exists_group_of_exportsIn plainly wellFormed hassemble hfile hfound
    exact isLegalExport_of_mem_groupExports sound wellFormed hgroup hfound

/-- A record with a hyphen in its name, in a namespace with two parts.  Its field has a type that is
not declared anywhere. -/
def hyphenDocument : Json.Value :=
  .object [("type", .string "record"), ("name", .string "tree-node"), ("namespace", .string "a.b"),
    ("fields", .array [.object [("name", .string "left"), ("type", .string "c.export.leaf-1")]])]

/-- Its text. -/
def hyphenText : String := hyphenDocument.compact

/-- Its entry. -/
def hyphenEntry : NamedType :=
  { name := "tree-node", space := "a.b", alternatives := [.plain .record]
    children := some
      [{ name := "left", alternatives := [.plain (.reference "c.export.leaf-1")] }]
    schema := hyphenDocument }

/-- The reference is plain, so the output exports nothing but a block that is called `a.b` and the
record in it, by legal names. -/
theorem legal_hyphen :
    ∃ files, Conversion.filesOfText aliasOptions hyphenText = .ok files ∧
      WrittenPlainly aliasOptions [hyphenEntry] ∧
      (∀ file ∈ files, ∀ found ∈ exportsIn file.content.toList,
        IsLegalExport aliasOptions [hyphenEntry] found) ∧
      let index := SymbolIndex.ofTable [hyphenEntry]
      let scope := scopeOf aliasOptions index "a.b"
      HeadedLegally aliasOptions "a.b" (groupLines aliasOptions scope [hyphenEntry])
        (fileLines aliasOptions index ⟨"a.b", [hyphenEntry]⟩) ∧
      DeclaredLegally scope hyphenEntry (declarationLines aliasOptions scope hyphenEntry) := by
  have htable : Conversion.tableOfText aliasOptions hyphenText = .ok [hyphenEntry] :=
    Conversion.tableOfText_eq_ok_iff.mpr ⟨hyphenDocument, by cbv, by rfl⟩
  have noIssues : issues aliasOptions (SymbolIndex.ofTable [hyphenEntry]) [hyphenEntry] = [] := by
    decide +kernel
  have hfiles := Conversion.filesOfText_of_issues rfl rfl htable noIssues
  obtain ⟨document, table, hdocument, htable', -, groups, exported⟩ := legal_of_filesOfText hfiles
  obtain rfl := Except.ok.inj
    (htable.symm.trans (Conversion.tableOfText_eq_ok_iff.mpr ⟨document, hdocument, htable'⟩))
  have plainly : WrittenPlainly aliasOptions [hyphenEntry] := by
    refine ⟨List.all_eq_true.mp (by decide), fun type htype name hname _ => ?_, by decide⟩
    obtain rfl := List.mem_singleton.mp htype
    obtain rfl := List.mem_singleton.mp hname
    exact isPlain_of_all (by decide)
  obtain ⟨-, headed, declared⟩ := groups ⟨"a.b", [hyphenEntry]⟩ List.mem_cons_self
  exact ⟨_, hfiles, plainly, exported plainly, headed, (declared hyphenEntry List.mem_cons_self).2⟩

/-- A reference that means nothing, with a declaration in it. -/
def smugglingReference : String := "number;\nexport type class = string"

/-- The entry of a type that stands for it. -/
def smugglingEntry : NamedType :=
  { name := "R", space := "a", alternatives := [.plain (.reference smugglingReference)]
    schema := holderDocument smugglingReference }

/-- What is written for it. -/
def smuggledContent : String :=
  "export namespace a \x7b\n\texport type R = number;\n" ++
    "\texport type class = string;\n\n\x7d\n"

/-- The reference is written as it stands. -/
lemma filesOf_smugglingEntry :
    filesOf aliasOptions (SymbolIndex.ofTable [smugglingEntry]) [smugglingEntry] =
      [⟨"a.ts", smuggledContent⟩] := by
  let index := SymbolIndex.ofTable [smugglingEntry]
  let scope := scopeOf aliasOptions index "a"
  have unknown : scope.index.resolve? smugglingReference scope.space = none := by
    change (SymbolIndex.ofTable [smugglingEntry]).resolve? smugglingReference "a" = none
    rw [SymbolIndex.resolve?_ofTable]
    decide +kernel
  have text : unionText scope smugglingEntry.alternatives = smugglingReference.toList := by
    simp [unionText, typeTexts, typeText, TypeExpr.plain, smugglingEntry, Scope.referenceText,
      unknown]
  have lines : fileLines aliasOptions index ⟨"a", [smugglingEntry]⟩ =
      blockLines aliasOptions "a"
        (ledBy "export ".toList (aliasLines scope smugglingEntry) ++ [Line.flush []]) := by
    simp [fileLines, groupLines, declarationLines, smugglingEntry, TypeExpr.plain, TypeExpr.kind,
      scope, layOutDoc]
  have groups : Group.ofTable [smugglingEntry] = [⟨"a", [smugglingEntry]⟩] := by rfl
  rw [filesOf, groups, List.map_cons, fileOf, lines, aliasLines, text]
  decide +kernel

/-- A tabulator with a declaration in it. -/
def declaringOptions : Options := { tabulator := "export type class;" }

/-- The entry of a number type. -/
def numericEntry : NamedType :=
  { name := "R", space := "a", alternatives := [.plain .number], schema := holderDocument "int" }

/-- An enumeration with a declaration on a line of its symbol. -/
def declaringEnum : Json.Value :=
  .object [("type", .string "enum"), ("name", .string "E"),
    ("symbols", .array [.string "\nexport type class = string;\n"])]

/-- Its entry. -/
def declaringEntry : NamedType :=
  { name := "E", space := "", alternatives := [.plain .enum]
    symbols := some ["\nexport type class = string;\n"], schema := declaringEnum }

/-- **A name that is not legal can be exported**: by a reference that means nothing, by the
tabulator, and by a symbol with line feeds in it. -/
theorem illegal_class :
    ¬ IsLegal "class".toList ∧
    (Conversion.filesOfText aliasOptions (holderDocument smugglingReference).compact =
        .ok [⟨"a.ts", smuggledContent⟩] ∧
      ⟨"type".toList, "class".toList⟩ ∈ exportsIn smuggledContent.toList) ∧
    (∃ content, Conversion.filesOfText declaringOptions (holderDocument "int").compact =
        .ok [⟨"a.ts", content⟩] ∧
      content = "export namespace a \x7b\nexport type class;export type R = number;\n\n\x7d\n" ∧
      ⟨"type".toList, "class".toList⟩ ∈ exportsIn content.toList) ∧
    ∃ content, Conversion.filesOfText {} declaringEnum.compact = .ok [⟨"default.ts", content⟩] ∧
      content = "export enum E\n\x7b\n\t'\nexport type class = string;\n' = '\n" ++
        "export type class = string;\n'\n\x7d;\n\n" ∧
      ⟨"type".toList, "class".toList⟩ ∈ exportsIn content.toList := by
  refine ⟨fun legal => absurd legal.free (by decide), ⟨?_, by decide +kernel⟩,
    ⟨_, ?_, rfl, by decide +kernel⟩, ⟨_, ?_, rfl, by decide +kernel⟩⟩
  · have hfiles : Conversion.filesOfText aliasOptions (holderDocument smugglingReference).compact =
        .ok (filesOf aliasOptions (SymbolIndex.ofTable [smugglingEntry]) [smugglingEntry]) :=
      Conversion.filesOfText_of_document rfl rfl (by cbv) (by rfl) (by decide +kernel)
    rw [hfiles, filesOf_smugglingEntry]
  · have hfiles : Conversion.filesOfText declaringOptions (holderDocument "int").compact =
        .ok (filesOf declaringOptions (SymbolIndex.ofTable [numericEntry]) [numericEntry]) :=
      Conversion.filesOfText_of_document rfl rfl (by cbv) (by rfl) (by decide +kernel)
    rw [hfiles]
    exact congrArg Except.ok (by decide +kernel)
  · have hfiles : Conversion.filesOfText {} declaringEnum.compact =
        .ok (filesOf {} (SymbolIndex.ofTable [declaringEntry]) [declaringEntry]) :=
      Conversion.filesOfText_of_document rfl rfl (by cbv) (by rfl) (by decide +kernel)
    rw [hfiles]
    exact congrArg Except.ok (by decide +kernel)

end AvroTypes.TypeScript
