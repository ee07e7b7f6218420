import AvroTypes.Proofs.Conversion.Success
import AvroTypes.Proofs.Schema.Grammar
import AvroTypes.Proofs.Schema.WellFormed
import AvroTypes.Proofs.Table.Violations
import AvroTypes.Proofs.TypeScript.Declared
import AvroTypes.Proofs.TypeScript.FileNames

/-!
# The names that the output declares

A name that is declared has to be legal: a letter or an underscore, then word characters, and none
of the reserved words.  Three things go into this.  An identifier that is made from a name consists
of word characters and starts with no digit, so it has the right shape unless it is empty, and an
entry of a table never has an empty one.  The check of the table has refused reserved words, and the
name of a constant, with what it ends in, is none.  And a namespace consists of names already, so
the path that is made from it is the namespace as it stands.

* `isNameChars_identifierChars`, `pathChars_of_isNamespace` — identifiers and paths that are names.
* `IsLegal` — **the names that can be declared.**
* `exportedName?` — the name that a line declares.
* `HeadedLegally`, `DeclaredLegally` — the lines of a namespace, and those of a declaration.
* `headedLegally_blockLines`, `declaredLegally_declarationLines` — **a table that has passed the
  check is written so.**
-/

namespace AvroTypes.TypeScript

open AvroTypes.Text
open AvroTypes.Schema (isWordChar isNameChars isNamespace segments Site Reached)

/-! ## Identifiers and paths that are names -/

/-- **An identifier that is not empty is a name**: it starts with no digit. -/
lemma isNameChars_identifierChars {name : List Char} (h : identifierChars name ≠ []) :
    isNameChars (identifierChars name) = true := by
  obtain ⟨first, rest, hchars⟩ := List.exists_cons_of_ne_nil h
  have words : ∀ c ∈ first :: rest, isWordChar c = true := fun c hc =>
    isWordChar_of_mem_identifierChars (hchars ▸ hc)
  have noDigit : first.isDigit = false := by
    have stops : ((identifierChars name).head h).isDigit = false := List.head_dropWhile_not _ h
    simpa only [hchars, List.head_cons] using stops
  rw [hchars, isNameChars, List.all_eq_true.mpr fun c hc => words c (List.mem_cons_of_mem _ hc)]
  have letter := (Schema.isDigit_eq_false_iff (words first List.mem_cons_self)).mp noDigit
  simpa [Schema.IsLetter] using letter

lemma joinWords_of_all {name : List Char} (h : ∀ c ∈ name, isWordChar c = true) :
    joinWords false name = name := by
  induction name with
  | nil => rfl
  | cons first rest ih =>
      obtain ⟨hfirst, hrest⟩ := List.forall_mem_cons.mp h
      rw [joinWords, if_pos hfirst, if_neg Bool.false_ne_true, ih hrest]

/-- **A name is its own identifier.** -/
lemma identifierChars_of_isNameChars {name : List Char} (h : isNameChars name = true) :
    identifierChars name = name := by
  have words := (Schema.isWordChar_of_isNameChars h).2
  rw [identifierChars, joinWords_of_all words]
  cases name with
  | nil => rfl
  | cons first rest =>
      have letter : Schema.IsLetter first := by
        simpa [isNameChars, Schema.IsLetter] using (Bool.and_eq_true_iff.mp h).1
      have noDigit := (Schema.isDigit_eq_false_iff (words first List.mem_cons_self)).mpr letter
      rw [List.dropWhile_cons_of_neg (by simp [noDigit])]

/-- **A namespace is its own path.** -/
lemma pathChars_of_isNamespace {space : String} (h : isNamespace space = true) :
    pathChars space.toList = space.toList := by
  rw [isNamespace, Bool.or_eq_true] at h
  rcases h with default | names
  · obtain rfl := String.isEmpty_iff.mp default
    rfl
  · have same : (segments space.toList).map identifierChars = segments space.toList :=
      (List.map_congr_left fun part hpart =>
        identifierChars_of_isNameChars (List.all_eq_true.mp names part hpart)).trans
        (List.map_id' _)
    rw [pathChars, same, segments, List.intercalate_splitOn]

/-! ## Legal names -/

/-- **A name that can be declared**: a letter or an underscore, then word characters, and none of
the reserved words. -/
structure IsLegal (name : List Char) : Prop where
  shape : isNameChars name = true
  free : isReserved (String.ofList name) = false

/-- What ends like the name of a constant is no reserved word. -/
lemma not_isReserved_constant (name : List Char) :
    isReserved (String.ofList (name ++ "_SCHEMA".toList)) = false := by
  have noWord : ∀ word ∈ reservedWords, ¬ "_SCHEMA".toList <:+ word.toList := by decide
  simp only [isReserved, List.contains_eq_mem, decide_eq_false_iff_not]
  intro reserved
  exact noWord _ reserved (by simp)

lemma IsLegal.constant {name : List Char} (h : IsLegal name) :
    IsLegal (name ++ "_SCHEMA".toList) where
  shape := by
    have shape := h.shape
    cases name with
    | nil => simp [isNameChars] at shape
    | cons first rest =>
        rw [isNameChars, Bool.and_eq_true] at shape
        rw [List.cons_append, isNameChars, shape.1, List.all_append, shape.2]
        decide
  free := not_isReserved_constant name

section

variable {options : Options} {table : List NamedType}

/-- The identifier of a type is legal if the table keeps to the rules. -/
lemma isLegal_identifierFor (sound : Sound options table) {type : NamedType}
    (htype : type ∈ table) (wellFormed : type.WellFormed) : IsLegal (identifierFor type) where
  shape := isNameChars_identifierChars (by simpa [identifierOf] using wellFormed.name.2)
  free := sound.names type htype

/-- The parts of a namespace are legal if the table keeps to the rules and there are blocks. -/
lemma isLegal_segments (sound : Sound options table) (blocks : options.namespaceBlocks = true)
    {type : NamedType} (htype : type ∈ table) (valid : isNamespace type.space = true)
    (named : type.space ≠ "") : ∀ part ∈ segments type.space.toList, IsLegal part := by
  intro part hpart
  have noDefault : type.space.isEmpty = false := by simpa using named
  rw [isNamespace, noDefault, Bool.false_or] at valid
  exact ⟨List.all_eq_true.mp valid part hpart, sound.segments blocks type htype part hpart⟩

end

/-! ## What lines declare -/

/-- The words that a name is declared by. -/
def exportWords : List (List Char) :=
  ["export type ".toList, "export enum ".toList, "export const ".toList]

/-- The name that a line declares: what stands behind one of the words, up to the next blank. -/
def exportedName? (line : List Char) : Option (List Char) :=
  exportWords.findSome? fun word =>
    (word.isPrefixOf? line).map (List.takeWhile (· != ' '))

/-- A name that ends at a blank or with its line is read as it stands. -/
lemma exportedName?_append {word : List Char} (hword : word ∈ exportWords) {name rest : List Char}
    (words : ∀ c ∈ name, isWordChar c = true) (ends : rest = [] ∨ ∃ more, rest = ' ' :: more) :
    exportedName? (word ++ (name ++ rest)) = some name := by
  have noBlank : ∀ c ∈ name, (c != ' ') = true := by
    intro c hc
    refine bne_iff_ne.mpr ?_
    rintro rfl
    exact absurd (words _ hc) (by decide)
  have reads : (name ++ rest).takeWhile (· != ' ') = name := by
    rw [List.takeWhile_append_of_pos noBlank]
    rcases ends with rfl | ⟨more, rfl⟩ <;> simp
  simp only [exportWords, List.mem_cons, List.not_mem_nil, or_false] at hword
  rcases hword with rfl | rfl | rfl <;>
    simp [exportedName?, exportWords, List.isPrefixOf?, reads]

lemma Names.exportedName? {name line : List Char} (h : Names name line)
    (words : ∀ c ∈ name, isWordChar c = true) :
    TypeScript.exportedName? ("export ".toList ++ line) = some name := by
  cases h with
  | type rest =>
      have word : "export type ".toList ∈ exportWords := by decide
      simpa using exportedName?_append word words (.inr ⟨rest, rfl⟩)
  | enum =>
      have word : "export enum ".toList ∈ exportWords := by decide
      simpa using exportedName?_append word words (.inl rfl)

/-- The constant of a type has the name of the type with an ending. -/
lemma exists_schemaLines (type : NamedType) :
    ∃ line, schemaLines type = [Line.flush [], line] ∧
      exportedName? line.text = some (identifierFor type ++ "_SCHEMA".toList) := by
  refine ⟨_, rfl, ?_⟩
  have words : ∀ c ∈ identifierFor type ++ "_SCHEMA".toList, isWordChar c = true := by
    intro c hc
    rcases List.mem_append.mp hc with hc | hc
    · exact isWordChar_of_mem_identifierChars hc
    · have ending : "_SCHEMA".toList.all isWordChar = true := by decide
      exact List.all_eq_true.mp ending c hc
  have word : "export const ".toList ∈ exportWords := by decide
  simpa [Line.flush] using
    exportedName?_append word words (.inr ⟨"= ".toList ++ type.schema.print ++ [';'], rfl⟩)

/-! ## What the output declares -/

/-- **The lines of a namespace around its declarations**: with blocks there is one, unless it is the
default namespace; it is called by the namespace as it stands, each part of which is legal. -/
inductive HeadedLegally (options : Options) (space : String) (body : List Line) :
    List Line → Prop
  | bare (noBlock : options.namespaceBlocks = false ∨ space = "") :
      HeadedLegally options space body body
  | block {opening closing : Line} (blocks : options.namespaceBlocks = true)
      (reads : readNamespace opening.text = some space.toList)
      (legal : ∀ part ∈ segments space.toList, IsLegal part) :
      HeadedLegally options space body (opening :: deeper body ++ [closing])

/-- **The lines that a declaration declares its names in**: after its comment comes the body, behind
the word `export`, whose first line declares a legal name; the constant with the schema, if there is
one, declares one too.  Nothing is said of the rest of the body, which holds strings of the schema:
the right-hand side of an alias, or what stands between the braces. -/
inductive DeclaredLegally (scope : Scope) (type : NamedType) : List Line → Prop
  | intro {body rest constant : List Line} {first : Line} {name : List Char}
      (isBody : IsBody scope type body) (opens : ledBy "export ".toList body = first :: rest)
      (reads : exportedName? first.text = some name) (legal : IsLegal name)
      (constants : constant = [] ∨ ∃ line name, constant = [Line.flush [], line] ∧
        constant = schemaLines type ∧ exportedName? line.text = some name ∧ IsLegal name) :
      DeclaredLegally scope type (layOutDoc type.doc ++ first :: rest ++ constant)

section

variable {options : Options} {table : List NamedType}

/-- The lines of a group whose namespace is that of some entry. -/
lemma headedLegally_blockLines (sound : Sound options table) {type : NamedType}
    (htype : type ∈ table) (valid : isNamespace type.space = true) (body : List Line) :
    HeadedLegally options type.space body (blockLines options type.space body) := by
  rw [blockLines]
  split_ifs with inside
  · simp only [inBlock, Bool.and_eq_true, Bool.not_eq_true', String.isEmpty_eq_false_iff] at inside
    refine .block inside.1 ?_ (isLegal_segments sound inside.1 htype valid inside.2)
    exact pathChars_of_isNamespace valid ▸ readNamespace_blockHead type.space
  · refine .bare ?_
    by_contra block
    simp only [not_or, Bool.not_eq_false] at block
    exact inside (by simp [inBlock, block])

/-- The lines of a declaration in a table that keeps to the rules. -/
lemma declaredLegally_declarationLines (sound : Sound options table) {type : NamedType}
    (htype : type ∈ table) (wellFormed : type.WellFormed) (scope : Scope) :
    DeclaredLegally scope type (declarationLines options scope type) := by
  have legal := isLegal_identifierFor sound htype wellFormed
  obtain ⟨head, others, halternatives⟩ := List.exists_cons_of_ne_nil wellFormed.nonempty
  obtain ⟨body, constant, isBody, hconstant, hlines⟩ :=
    exists_isBody_declarationLines options scope (halternatives ▸ List.head?_cons)
  obtain ⟨first, others, rfl, names⟩ := isBody.opensWith
  have reads := names.exportedName? fun c hc => isWordChar_of_mem_identifierChars hc
  rw [hlines]
  refine .intro isBody rfl reads legal ?_
  rw [hconstant]
  split_ifs
  · obtain ⟨line, hline, reads⟩ := exists_schemaLines type
    exact .inr ⟨line, _, hline, rfl, reads, legal.constant⟩
  · exact .inl rfl

end

end AvroTypes.TypeScript
