import AvroTypes.Proofs.TypeScript.Assembly
import AvroTypes.Proofs.TypeScript.Paths
import Mathlib.Data.List.TakeWhile

/-!
# Where the output declares a type

The name that a declaration has for the rest of the output is what can be read there: the name
behind `export namespace` in the line that opens the block around it, and the identifier behind
`export type` or `export enum` in the first line after its comment.  This file says where these two
lines are, and what they say.

* `readNamespace`, `readIdentifier` — the two readers.
* `IsBody`, `exists_isBody_declarationLines` — the parts of a declaration.
* `exists_readIdentifier_declarationLines` — the line of the identifier.
* `Encloses`, `encloses_blockLines` — the block.
* `DeclaredAt`, `declaredAt_of_mem` — **every type of a table that can be written is declared in
  the output.**
-/

namespace AvroTypes.TypeScript

open AvroTypes.Text
open AvroTypes.Schema (isWordChar)

/-! ## Reading -/

/-- The name of the namespace whose block a line opens. -/
def readNamespace (line : List Char) : Option (List Char) :=
  ("export namespace ".toList.isPrefixOf? line).map (List.takeWhile (· != ' '))

/-- The identifier that a line declares. -/
def readIdentifier (line : List Char) : Option (List Char) :=
  (("export type ".toList.isPrefixOf? line).or ("export enum ".toList.isPrefixOf? line)).map
    (List.takeWhile isWordChar)

lemma isPrefixOf?_append {α : Type} [BEq α] [LawfulBEq α] (first second : List α) :
    first.isPrefixOf? (first ++ second) = some second :=
  List.isPrefixOf?_eq_some_iff_append_eq.mpr rfl

lemma readNamespace_blockHead (space : String) :
    readNamespace (blockHead space) = some (pathChars space.toList) := by
  have noBlank : ∀ c ∈ pathChars space.toList, (c != ' ') = true := by
    intro c hc
    rcases isWordChar_or_dot_of_mem_pathChars hc with word | rfl
    · refine bne_iff_ne.mpr ?_
      rintro rfl
      exact absurd word (by decide)
    · rfl
  unfold readNamespace blockHead
  rw [List.append_assoc, isPrefixOf?_append, Option.map_some,
    List.takeWhile_append_of_pos noBlank]
  simp

lemma readIdentifier_type (name rest : List Char) :
    readIdentifier ("export type ".toList ++ (identifierChars name ++ ' ' :: rest)) =
      some (identifierChars name) := by
  rw [readIdentifier, isPrefixOf?_append, Option.some_or, Option.map_some,
    List.takeWhile_append_of_pos fun _ => isWordChar_of_mem_identifierChars]
  simp [show isWordChar ' ' = false by decide]

lemma readIdentifier_enum (name : List Char) :
    readIdentifier ("export enum ".toList ++ identifierChars name) =
      some (identifierChars name) := by
  have noType : "export type ".toList.isPrefixOf? ("export enum ".toList ++ identifierChars name) =
      none := by simp [List.isPrefixOf?]
  have all : (identifierChars name).takeWhile isWordChar = identifierChars name :=
    List.takeWhile_eq_self_iff.mpr fun _ => isWordChar_of_mem_identifierChars
  rw [readIdentifier, noType, isPrefixOf?_append, Option.none_or, Option.map_some, all]

/-! ## The line of the identifier -/

lemma layOut_append {text : List Char} (h : '\n' ∉ text) (rest : List Char) :
    ∃ first others, layOut (text ++ rest) = Line.flush (text ++ first) :: others := by
  obtain ⟨first, others, hrest⟩ := List.exists_cons_of_ne_nil (List.splitOn_ne_nil '\n' rest)
  refine ⟨first, others.map Line.flush, ?_⟩
  have split : lines (text ++ rest) = (text ++ first) :: others := by
    induction text with
    | nil => exact hrest
    | cons c text ih =>
        obtain ⟨new, h⟩ := not_or.mp (List.mem_cons.not.mp h)
        have other : (c == '\n') = false := beq_eq_false_iff_ne.mpr (Ne.symm new)
        have := ih h
        simp only [lines] at this ⊢
        rw [List.cons_append, List.splitOn_cons_eq_if_modifyHead, this, other]
        rfl
  rw [layOut, split, List.map_cons]

/-- A line names what is declared: behind `type`, with a blank after it, or behind `enum`. -/
inductive Names (identifier : List Char) : List Char → Prop
  | type (rest : List Char) : Names identifier ("type ".toList ++ identifier ++ ' ' :: rest)
  | enum : Names identifier ("enum ".toList ++ identifier)

lemma Names.readIdentifier {name line : List Char} (h : Names (identifierChars name) line) :
    TypeScript.readIdentifier ("export ".toList ++ line) = some (identifierChars name) := by
  cases h with
  | type rest => simpa using readIdentifier_type name rest
  | enum => simpa using readIdentifier_enum name

/-- The body of a declaration opens with a line that names what is declared. -/
def OpensWith (identifier : List Char) (body : List Line) : Prop :=
  ∃ first others, body = Line.flush first :: others ∧ Names identifier first

lemma opensWith_type (identifier rest : List Char) (others : List Line) :
    OpensWith identifier
      (Line.flush ("type ".toList ++ identifier ++ " = ".toList ++ rest) :: others) := by
  refine ⟨_, _, rfl, ?_⟩
  have named : Names identifier _ := .type ("= ".toList ++ rest)
  simpa using named

lemma opensWith_aliasLines (scope : Scope) (type : NamedType) :
    OpensWith (identifierFor type) (aliasLines scope type) := by
  have oneLine : '\n' ∉ "type ".toList ++ identifierFor type ++ " = ".toList := by
    have : '\n' ∉ identifierFor type := not_mem_identifierChars (by decide)
    simp [this]
  obtain ⟨first, others, hlines⟩ :=
    layOut_append oneLine (unionText scope type.alternatives ++ [';'])
  rw [aliasLines, List.append_assoc, hlines]
  exact opensWith_type _ first others

lemma opensWith_enumLines (type : NamedType) :
    OpensWith (identifierFor type) (enumLines type) := ⟨_, _, rfl, .enum⟩

lemma opensWith_recordLines (scope : Scope) (type : NamedType) :
    OpensWith (identifierFor type) (recordLines scope type) := by
  rw [recordLines]
  split_ifs
  · exact opensWith_type _ _ _
  · exact opensWith_type _ _ _

/-- The body of the declaration of a type, before `export` is put in front of it. -/
inductive IsBody (scope : Scope) (type : NamedType) : List Line → Prop
  | enum : IsBody scope type (enumLines type)
  | record : IsBody scope type (recordLines scope type)
  | typeAlias : IsBody scope type (aliasLines scope type)

lemma IsBody.opensWith {scope : Scope} {type : NamedType} {body : List Line}
    (h : IsBody scope type body) : OpensWith (identifierFor type) body := by
  cases h with
  | enum => exact opensWith_enumLines type
  | record => exact opensWith_recordLines scope type
  | typeAlias => exact opensWith_aliasLines scope type

/-- **A declaration is its comment, a body behind a word, and for a record the constant with its
schema** if schemas are asked for. -/
lemma exists_isBody_declarationLines (options : Options) (scope : Scope) {type : NamedType}
    {head : TypeExpr} (h : type.alternatives.head? = some head) :
    ∃ body constant, IsBody scope type body ∧
      constant = (if options.exportSchema && head.kind = .record then schemaLines type else []) ∧
      declarationLines options scope type =
        layOutDoc type.doc ++ ledBy "export ".toList body ++ constant := by
  rw [declarationLines, h]
  refine ⟨_, _, ?_, rfl, rfl⟩
  split
  · exact .enum
  · exact .record
  · exact .typeAlias

/-- **The first line of a declaration after its comment declares the identifier.** -/
theorem exists_readIdentifier_declarationLines (options : Options) (scope : Scope)
    {type : NamedType} (h : type.alternatives ≠ []) :
    ∃ first rest, declarationLines options scope type = layOutDoc type.doc ++ first :: rest ∧
      readIdentifier first.text = some (identifierFor type) := by
  obtain ⟨head, others, halternatives⟩ := List.exists_cons_of_ne_nil h
  obtain ⟨body, constant, isBody, -, hlines⟩ :=
    exists_isBody_declarationLines options scope (halternatives ▸ List.head?_cons)
  obtain ⟨first, rest, rfl, names⟩ := isBody.opensWith
  exact ⟨{ Line.flush first with text := "export ".toList ++ first }, rest ++ constant,
    by simp [hlines, ledBy, Line.flush], names.readIdentifier⟩

/-! ## The block -/

/-- **How the lines of a namespace stand around its declarations**: they open a block that is called
by some name, or for the default namespace there is no block.  The name with a dot, or nothing, is
what the declarations are reached through from elsewhere. -/
inductive Encloses : (space : String) → (lines body : List Line) → (header : List Char) → Prop
  | bare {body : List Line} : Encloses "" body body []
  | block {space : String} {opening closing : Line} {body : List Line} {name : List Char}
      (named : space.isEmpty = false) (reads : readNamespace opening.text = some name) :
      Encloses space (opening :: deeper body ++ [closing]) body (name ++ ['.'])

lemma Encloses.unique {space : String} {lines body body' : List Line} {header header' : List Char}
    (h : Encloses space lines body header) (h' : Encloses space lines body' header') :
    header = header' := by
  cases h with
  | bare =>
      cases h' with
      | bare => rfl
      | block named _ => simp at named
  | block named reads =>
      generalize hlines : _ :: _ ++ [_] = lines at h'
      cases h' with
      | bare => simp at named
      | block _ reads' =>
          obtain ⟨rfl, -⟩ := List.cons.inj hlines
          rw [Option.some.inj (reads.symm.trans reads')]

lemma encloses_blockLines {options : Options} (blocks : options.namespaceBlocks = true)
    (space : String) (body : List Line) :
    Encloses space (blockLines options space body) body (pathPrefix space) := by
  rw [blockLines, pathPrefix, inBlock]
  cases hspace : space.isEmpty with
  | true =>
      obtain rfl := String.isEmpty_iff.mp hspace
      simpa [blocks] using Encloses.bare
  | false =>
      simpa [blocks] using Encloses.block hspace (readNamespace_blockHead space)

/-! ## The output -/

/-- **Where the output declares a type.**  One of the files has the lines of its namespace in it,
around declarations among which is that of the type; the name of the block and the identifier are
read off. -/
structure DeclaredAt (options : Options) (files : List OutputFile) (table : List NamedType)
    (type : NamedType) (header identifier : List Char) : Prop where
  place : ∃ file ∈ files, ∃ group ∈ Group.ofTable table, group.space = type.space ∧
    renderLines options.tabulator.toList
      (fileLines options (SymbolIndex.ofTable table) group) <:+: file.content.toList ∧
    ∃ above below, Encloses type.space (fileLines options (SymbolIndex.ofTable table) group)
      (above ++ declarationLines options (scopeOf options (SymbolIndex.ofTable table) type.space)
        type ++ below) header
  line : ∃ first rest,
    declarationLines options (scopeOf options (SymbolIndex.ofTable table) type.space) type =
      layOutDoc type.doc ++ first :: rest ∧
    readIdentifier first.text = some identifier

/-- There is only one place where the output declares a type. -/
lemma DeclaredAt.unique {options : Options} {files : List OutputFile} {table : List NamedType}
    {type : NamedType} {header header' identifier identifier' : List Char}
    (h : DeclaredAt options files table type header identifier)
    (h' : DeclaredAt options files table type header' identifier') :
    header = header' ∧ identifier = identifier' := by
  constructor
  · obtain ⟨-, -, group, hgroup, hspace, -, _, _, encloses⟩ := h.place
    obtain ⟨-, -, group', hgroup', hspace', -, _, _, encloses'⟩ := h'.place
    obtain rfl := Group.eq_of_space_eq hgroup hgroup' (hspace.trans hspace'.symm)
    exact encloses.unique encloses'
  · obtain ⟨first, rest, hlines, reads⟩ := h.line
    obtain ⟨first', rest', hlines', reads'⟩ := h'.line
    obtain ⟨rfl, -⟩ := List.cons.inj (List.append_cancel_left (hlines.symm.trans hlines'))
    exact Option.some.inj (reads.symm.trans reads')

/-- The declaration of a type stands among those of its group. -/
lemma groupLines_split (options : Options) (scope : Scope) (before after : List NamedType)
    (type : NamedType) :
    groupLines options scope (before ++ type :: after) =
      groupLines options scope before ++ declarationLines options scope type ++
        (Line.flush [] :: groupLines options scope after) := by
  simp [groupLines, List.append_assoc]

/-- The lines of the group of a type, around the declaration of the type. -/
lemma exists_fileLines (options : Options) {table : List NamedType} {type : NamedType}
    (htype : type ∈ table) :
    ∃ group ∈ Group.ofTable table, group.space = type.space ∧ type ∈ group.types ∧
      ∃ above below, fileLines options (SymbolIndex.ofTable table) group =
        blockLines options type.space (above ++
          declarationLines options (scopeOf options (SymbolIndex.ofTable table) type.space) type ++
          below) := by
  obtain ⟨group, hgroup, hspace, hmem⟩ := Group.exists_mem_ofTable htype
  obtain ⟨before, after, htypes⟩ := List.append_of_mem hmem
  refine ⟨group, hgroup, hspace, hmem, ?_⟩
  rw [fileLines, htypes, hspace, groupLines_split]
  exact ⟨_, _, rfl⟩

/-- **Every type of a table that can be written is declared in the output**: in the block of its
namespace, by the identifier made from its name. -/
theorem declaredAt_of_mem {options : Options} (blocks : options.namespaceBlocks = true)
    {table : List NamedType} {files : List OutputFile} (h : assemble options table = .ok files)
    {type : NamedType} (htype : type ∈ table) :
    DeclaredAt options files table type (pathPrefix type.space) (identifierFor type) where
  place := by
    obtain ⟨group, hgroup, hspace, -, above, below, hlines⟩ := exists_fileLines options htype
    obtain ⟨file, hfile, hinfix⟩ := exists_infix_of_assemble h hgroup
    refine ⟨file, hfile, group, hgroup, hspace, hinfix, above, below, ?_⟩
    exact hlines ▸ encloses_blockLines blocks _ _
  line := by
    have single := length_alternatives_of_issues (assemble_eq_ok_iff.mp h).1 htype
    exact exists_readIdentifier_declarationLines _ _ (List.ne_nil_of_length_pos (by omega))

end AvroTypes.TypeScript
