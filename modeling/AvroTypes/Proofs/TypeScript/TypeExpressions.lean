import AvroTypes.Json.Printer
import AvroTypes.Proofs.Conversion.Success
import AvroTypes.Proofs.Schema.WellFormed
import AvroTypes.Proofs.TypeScript.Assembly
import AvroTypes.Proofs.TypeScript.Paths
import AvroTypes.Proofs.TypeScript.ReferenceText

/-!
# The type expressions of the output

Types are written in two places, behind the name of an alias and behind the key of a property.  With
dangling references refused every one of these texts is put together, by bars and `Array<…>`, from
the words of the built-in types, the literals of symbols, and names of types that the output
declares, unless it is the type of a field that is declared in its own place as a record, or as an
enumeration without symbols.  Such a field has nothing to be written with: the first becomes a bare
`record`, which is the name of nothing, and the second an empty text.

* `IsExpression`, `IsLeaf`, `Expresses` — what type expressions look like.
* `isExpression_unionText`, `expresses_fieldTypeText_iff` — the two places.
* `Written` — the body of a declaration, around the type expressions in it.
* `written_of_filesOfText` — **the type expressions of the whole output.**
-/

namespace AvroTypes.TypeScript

open AvroTypes.Text

/-! ## Expressions as texts -/

/-- **A type expression** over some leaves.  No part of it is empty. -/
inductive IsExpression (leaf : List Char → Prop) : List Char → Prop
  | leaf {text : List Char} (isLeaf : leaf text) (nonempty : text ≠ []) : IsExpression leaf text
  | array {elements : List Char} (inside : IsExpression leaf elements) :
      IsExpression leaf ("Array<".toList ++ elements ++ ['>'])
  | union {first rest : List Char} (hfirst : IsExpression leaf first)
      (hrest : IsExpression leaf rest) : IsExpression leaf (first ++ bar ++ rest)

lemma IsExpression.ne_nil {leaf : List Char → Prop} {text : List Char}
    (h : IsExpression leaf text) : text ≠ [] := by
  cases h with
  | leaf _ nonempty => exact nonempty
  | array _ => simp
  | union _ _ => simp [bar]

/-- Alternatives are an expression if each of them is and there is one. -/
lemma IsExpression.intercalate {leaf : List Char → Prop} {texts : List (List Char)}
    (nonempty : texts ≠ []) (each : ∀ text ∈ texts, IsExpression leaf text) :
    IsExpression leaf (bar.intercalate texts) := by
  induction texts with
  | nil => exact absurd rfl nonempty
  | cons first rest ih =>
      have hfirst := each first List.mem_cons_self
      cases rest with
      | nil => simpa using hfirst
      | cons next rest =>
          rw [List.intercalate_cons_cons]
          refine .union hfirst (ih (by simp) fun text htext => ?_)
          exact each text (List.mem_cons_of_mem _ htext)

/-- The words of the built-in types. -/
def builtInWords : List String := ["null", "boolean", "number", "string"]

/-- **The leaves of a type expression** in a namespace: a built-in type, a literal of one of the
symbols, or the name of a type of the table that one of the references means. -/
inductive IsLeaf (table : List NamedType) (space : String) (references symbols : List String) :
    List Char → Prop
  | builtIn {word : String} (known : word ∈ builtInWords) :
      IsLeaf table space references symbols word.toList
  | literal {symbol : String} (listed : symbol ∈ symbols) :
      IsLeaf table space references symbols (quote symbol.toList)
  | name {reference : String} {target : NamedType} {text : List Char}
      (written : reference ∈ references)
      (means : (SymbolIndex.ofTable table).resolve? reference space = some target)
      (known : target ∈ table)
      (spelled : text = identifierFor target ∨ text = pathChars target.fullName.toList) :
      IsLeaf table space references symbols text

/-- **Texts that express a type**, given by its alternatives and the symbols that go with them, in a
namespace: expressions over nothing but what the type itself brings along. -/
def Expresses (table : List NamedType) (space : String) (alternatives : List TypeExpr)
    (symbols : Option (List String)) : List Char → Prop :=
  IsExpression (IsLeaf table space (referencesIn alternatives) (symbols.getD []))

/-! ## The text of a type -/

lemma typeTexts_eq_map (scope : Scope) (alternatives : List TypeExpr) :
    typeTexts scope alternatives = alternatives.map (typeText scope) := by
  induction alternatives with
  | nil => rfl
  | cons first rest ih => rw [typeTexts, ih, List.map_cons]

lemma pathChars_ne_nil {name : List Char} (h : identifierChars name ≠ []) :
    pathChars name ≠ [] := by
  by_cases dotted : '.' ∈ name
  · obtain ⟨first, second, rfl⟩ := List.append_of_mem dotted
    simp [pathChars_append]
  · rwa [pathChars_of_not_mem dotted]

section

variable {options : Options} {table : List NamedType} {space : String}
  {references symbols : List String}

/-- A reference that means something is written from the name of what it means. -/
lemma exists_referenceText {name : String}
    (means : ((SymbolIndex.ofTable table).resolve? name space).isSome) :
    ∃ target ∈ table, (SymbolIndex.ofTable table).resolve? name space = some target ∧
      ((scopeOf options (SymbolIndex.ofTable table) space).referenceText name =
          identifierFor target ∨
        (scopeOf options (SymbolIndex.ofTable table) space).referenceText name =
          pathChars target.fullName.toList) := by
  obtain ⟨target, htarget⟩ := Option.isSome_iff_exists.mp means
  refine ⟨target, mem_of_resolve? htarget, htarget, ?_⟩
  simp only [Scope.referenceText, scopeOf, htarget]
  exact (ite_eq_or_eq _ _ _).symm

/-- What it is written as is not empty. -/
lemma referenceText_ne_nil (wellFormed : ∀ type ∈ table, type.WellFormed) {name : String}
    (means : ((SymbolIndex.ofTable table).resolve? name space).isSome) :
    (scopeOf options (SymbolIndex.ofTable table) space).referenceText name ≠ [] := by
  obtain ⟨target, known, -, spelled⟩ := exists_referenceText means
  have identifier : identifierFor target ≠ [] := by
    simpa [identifierFor, identifierOf] using (wellFormed target known).name.2
  have path : pathChars target.fullName.toList ≠ [] := by
    rw [NamedType.fullName, pathChars_qualify]
    exact List.append_ne_nil_of_right_ne_nil _ (pathChars_ne_nil identifier)
  rcases spelled with spelled | spelled
  · rwa [spelled]
  · rwa [spelled]

/-- A reference that means something is an expression. -/
lemma isExpression_referenceText (wellFormed : ∀ type ∈ table, type.WellFormed) {name : String}
    (hname : name ∈ references)
    (means : ((SymbolIndex.ofTable table).resolve? name space).isSome) :
    IsExpression (IsLeaf table space references symbols)
      ((scopeOf options (SymbolIndex.ofTable table) space).referenceText name) := by
  obtain ⟨target, known, htarget, spelled⟩ := exists_referenceText means
  exact .leaf (.name hname htarget known spelled) (referenceText_ne_nil wellFormed means)

/-- Alternatives are written as an expression if each of them is, given its own references. -/
lemma IsExpression.unionText {leaf : List Char → Prop} {scope : Scope}
    {alternatives : List TypeExpr} (nonempty : alternatives ≠ [])
    (written : referencesIn alternatives ⊆ references)
    (each : ∀ type ∈ alternatives, type.references ⊆ references →
      IsExpression leaf (typeText scope type)) :
    IsExpression leaf (unionText scope alternatives) := by
  rw [TypeScript.unionText, typeTexts_eq_map]
  refine .intercalate (by simpa using nonempty) fun text htext => ?_
  obtain ⟨type, htype, rfl⟩ := List.mem_map.mp htext
  exact each type htype (List.Subset.trans (references_subset_referencesIn htype) written)

/-- **A type is written as an expression** if all its references mean something. -/
theorem isExpression_typeText (wellFormed : ∀ type ∈ table, type.WellFormed) {type : TypeExpr}
    (h : type.WellFormed) (written : type.references ⊆ references)
    (means : ∀ name ∈ references, ((SymbolIndex.ofTable table).resolve? name space).isSome) :
    IsExpression (IsLeaf table space references symbols)
      (typeText (scopeOf options (SymbolIndex.ofTable table) space) type) := by
  induction h with
  | @plain kind simple =>
      have word : ∀ word ∈ builtInWords,
          IsExpression (IsLeaf table space references symbols) word.toList := by
        intro word known
        have nonempty : ∀ word ∈ builtInWords, word.toList ≠ [] := by decide
        exact .leaf (.builtIn known) (nonempty word known)
      cases kind with
      | null => exact word "null" (by decide)
      | boolean => exact word "boolean" (by decide)
      | number => exact word "number" (by decide)
      | string => exact word "string" (by decide)
      | record => exact absurd rfl simple.noRecord
      | enum => exact absurd rfl simple.noEnum
      | array => exact absurd rfl simple.noArray
      | reference name =>
          have hname : name ∈ references := written (by simp [TypeExpr.plain, TypeExpr.references])
          exact isExpression_referenceText wellFormed hname (means name hname)
  | arrayOf nonempty _ ih => exact .array (.unionText nonempty written ih)

/-- **Alternatives that are types are written as an expression.** -/
theorem isExpression_unionText (wellFormed : ∀ type ∈ table, type.WellFormed)
    {alternatives : List TypeExpr} (h : AreTypes alternatives)
    (written : referencesIn alternatives ⊆ references)
    (means : ∀ name ∈ references, ((SymbolIndex.ofTable table).resolve? name space).isSome) :
    IsExpression (IsLeaf table space references symbols)
      (unionText (scopeOf options (SymbolIndex.ofTable table) space) alternatives) :=
  .unionText h.nonempty written fun type htype written =>
    isExpression_typeText wellFormed (h.each type htype) written means

end

/-! ## The type of a field -/

/-- An enumeration declared in the place of a field is written as its symbols. -/
lemma fieldTypeText_enum (scope : Scope) (name : String) (symbols : List String)
    (doc : Option String) :
    fieldTypeText scope ⟨name, [.plain .enum], some symbols, doc⟩ = literalsText symbols := by
  simp [fieldTypeText, TypeExpr.plain, TypeExpr.kind]

/-- A field that its own type cannot be written for: it is declared in its place as a record, or as
an enumeration without symbols. -/
def Unwritable (field : Field) : Prop :=
  field.alternatives = [.plain .record] ∨ field.symbols = some []

/-- The word for a record does not express it: there is no reference and no symbol. -/
lemma not_expresses_record {table : List NamedType} {space : String} :
    ¬ Expresses table space [.plain .record] none "record".toList := by
  intro h
  rw [Expresses] at h
  generalize htext : "record".toList = text at h
  cases h with
  | leaf isLeaf _ =>
      cases isLeaf with
      | builtIn known =>
          obtain rfl := String.toList_inj.mp htext
          exact absurd known (by decide)
      | literal listed => simp at listed
      | name written => exact absurd written List.not_mem_nil
  | array _ => simp at htext
  | union _ _ =>
      have : '|' ∈ "record".toList := by simp [htext, bar]
      exact absurd this (by decide)

/-- **The type of a field is written as an expression unless it cannot be written.** -/
theorem expresses_fieldTypeText_iff {options : Options} {table : List NamedType} {space : String}
    (wellFormed : ∀ type ∈ table, type.WellFormed) {field : Field}
    (together : GoTogether field.alternatives field.symbols)
    (means : ∀ name ∈ referencesIn field.alternatives,
      ((SymbolIndex.ofTable table).resolve? name space).isSome) :
    Expresses table space field.alternatives field.symbols
        (fieldTypeText (scopeOf options (SymbolIndex.ofTable table) space) field) ↔
      ¬ Unwritable field := by
  obtain ⟨name, alternatives, symbols, doc⟩ := field
  dsimp only at together means
  cases together with
  | record =>
      refine iff_of_false ?_ (not_not_intro (.inl rfl))
      exact not_expresses_record
  | enum symbols =>
      rw [fieldTypeText_enum, literalsText]
      cases symbols with
      | nil => exact iff_of_false (fun h => h.ne_nil rfl) (not_not_intro (.inr rfl))
      | cons first rest =>
          refine iff_of_true (.intercalate (by simp) fun text htext => ?_)
            (by simp [Unwritable, TypeExpr.plain])
          obtain ⟨symbol, hsymbol, rfl⟩ := List.mem_map.mp htext
          exact .leaf (.literal hsymbol) (by simp [quote])
  | types areTypes =>
      have noRecord := areTypes.ne_plain fun simple => simple.noRecord rfl
      exact iff_of_true (isExpression_unionText wellFormed areTypes (List.Subset.refl _) means)
        (by simp [Unwritable, noRecord])

/-! ## The body of a declaration -/

/-- The lines of a property with some text as its type. -/
def propertyWith (field : Field) (expression : List Char) : List Line :=
  deeper (layOutDoc field.doc
    ++ layOut (propertyKeyChars field.name.toList ++ ": ".toList ++ expression))

/-- **The body of a declaration around the type expressions in it**: one in that of an alias, one
for each property in that of a record, and none in that of an enumeration. -/
inductive Written (type : NamedType) (ofAlias : List Char → Prop)
    (ofField : Field → List Char → Prop) : List Line → Prop
  | enum (isEnum : type.symbols.isSome) : Written type ofAlias ofField (enumLines type)
  | typeAlias {expression : List Char} (noEnum : type.symbols = none)
      (noRecord : type.children = none) (expresses : ofAlias expression) :
      Written type ofAlias ofField
        (layOut ("type ".toList ++ identifierFor type ++ " = ".toList ++ expression ++ [';']))
  | empty (noFields : type.children = some []) :
      Written type ofAlias ofField
        [Line.flush ("type ".toList ++ identifierFor type ++ " = ".toList ++ ['\x7b', '\x7d', ';'])]
  | record {first : Field} {rest : List Field} {expressions : List (List Char)}
      (fields : type.children = some (first :: rest))
      (each : List.Forall₂ ofField (first :: rest) expressions) :
      Written type ofAlias ofField
        (Line.flush ("type ".toList ++ identifierFor type ++ " = ".toList ++ ['\x7b']) ::
          separated (List.zipWith propertyWith (first :: rest) expressions)
            ++ [Line.flush ['\x7d', ';']])

/-- What stands as the type of a property expresses it, unless it is unwritable. -/
def PropertyOf (table : List NamedType) (space : String) (field : Field)
    (expression : List Char) : Prop :=
  Expresses table space field.alternatives field.symbols expression ↔ ¬ Unwritable field

section

variable {options : Options} {table : List NamedType} {type : NamedType}

/-- The body of the declaration of a record. -/
lemma written_recordLines (wellFormed : ∀ type ∈ table, type.WellFormed) (htype : type ∈ table)
    (isRecord : type.children.isSome)
    (means : ∀ name ∈ type.references,
      ((SymbolIndex.ofTable table).resolve? name type.space).isSome) :
    Written type (Expresses table type.space type.alternatives type.symbols)
      (PropertyOf table type.space)
      (recordLines (scopeOf options (SymbolIndex.ofTable table) type.space) type) := by
  let scope := scopeOf options (SymbolIndex.ofTable table) type.space
  have each : ∀ field ∈ type.fields,
      PropertyOf table type.space field (fieldTypeText scope field) := fun field hfield =>
    expresses_fieldTypeText_iff wellFormed ((wellFormed type htype).fields field hfield)
      fun name hname => means name
        (List.mem_append_right _ (List.mem_flatMap.mpr ⟨field, hfield, hname⟩))
  obtain ⟨fields, hchildren⟩ := Option.isSome_iff_exists.mp isRecord
  have hfields : type.fields = fields := by rw [NamedType.fields, hchildren, Option.getD_some]
  rw [hfields] at each
  rw [recordLines, hfields]
  cases fields with
  | nil => exact .empty hchildren
  | cons first rest =>
      have properties : (first :: rest).map (propertyLines scope) = List.zipWith propertyWith
          (first :: rest) ((first :: rest).map (fieldTypeText scope)) := by
        rw [List.zipWith_map_right, List.zipWith_self]
        rfl
      rw [List.isEmpty_cons, if_neg Bool.false_ne_true]
      exact properties ▸ .record hchildren (List.forall₂_map_right_iff.mpr
        (List.forall₂_same.mpr each))

/-- **The declaration of a type** has its comment, its body behind a word, and for a record the
constant with its schema. -/
theorem written_declarationLines (wellFormed : ∀ type ∈ table, type.WellFormed)
    (htype : type ∈ table) (single : type.alternatives.length = 1)
    (means : ∀ name ∈ type.references,
      ((SymbolIndex.ofTable table).resolve? name type.space).isSome) :
    ∃ body constant,
      declarationLines options (scopeOf options (SymbolIndex.ofTable table) type.space) type =
        layOutDoc type.doc ++ ledBy "export ".toList body ++ constant ∧
      (constant = [] ∨ constant = schemaLines type) ∧
      Written type (Expresses table type.space type.alternatives type.symbols)
        (PropertyOf table type.space) body := by
  let scope := scopeOf options (SymbolIndex.ofTable table) type.space
  have entry := wellFormed type htype
  have together := entry.alternatives
  obtain ⟨head, halternatives⟩ := List.length_eq_one_iff.mp single
  rw [declarationLines, halternatives, List.head?_cons]
  refine ⟨_, _, rfl, (ite_eq_or_eq _ _ _).symm, ?_⟩
  rw [halternatives] at together
  generalize hsymbols : type.symbols = symbols at together ⊢
  cases together with
  | record =>
      have body : Written type _ _ (recordLines scope type) :=
        written_recordLines wellFormed htype (entry.children.mpr halternatives) means
      rwa [halternatives, hsymbols] at body
  | enum symbols => exact .enum (entry.symbols.mpr halternatives)
  | types areTypes =>
      have head_ne := (areTypes.each head List.mem_cons_self).kind_ne
      have noRecord : type.children = none := by
        rw [← Option.not_isSome_iff_eq_none, entry.children, halternatives]
        exact areTypes.ne_plain fun simple => simple.noRecord rfl
      have expresses : Expresses table type.space [head] none (unionText scope [head]) :=
        isExpression_unionText wellFormed areTypes (List.Subset.refl _) fun name hname =>
          means name (List.mem_append_left _ (halternatives ▸ hname))
      split
      · next isEnum => exact absurd isEnum head_ne.2
      · next isRecord => exact absurd isRecord head_ne.1
      · rw [aliasLines, halternatives]
        exact .typeAlias hsymbols noRecord expresses

end

/-! ## The output -/

/-- **The type expressions of the output.**  With dangling references refused, the files of a text
are those of its table, the lines of every type stand in one of them, and what these lines hold
beside names, comments, members and schemas are type expressions: of the type itself if it is an
alias, and of each of its fields if it is a record.  Only the types of fields that are unwritable
are none. -/
theorem written_of_filesOfText {options : Options} (deny : options.denyDangling = true)
    {text : String} {files : List OutputFile}
    (h : Conversion.filesOfText options text = .ok files) :
    ∃ table, Conversion.tableOfText options text = .ok table ∧
      assemble options table = .ok files ∧
      ∀ type ∈ table,
        (∃ file ∈ files, ∃ group ∈ Group.ofTable table, group.space = type.space ∧
          type ∈ group.types ∧ renderLines options.tabulator.toList
            (fileLines options (SymbolIndex.ofTable table) group) <:+: file.content.toList) ∧
        ∃ body constant,
          declarationLines options (scopeOf options (SymbolIndex.ofTable table) type.space) type =
            layOutDoc type.doc ++ ledBy "export ".toList body ++ constant ∧
          (constant = [] ∨ constant = schemaLines type) ∧
          Written type (Expresses table type.space type.alternatives type.symbols)
            (PropertyOf table type.space) body := by
  obtain ⟨-, table, htable, hassemble⟩ := Conversion.filesOfText_eq_ok_iff.mp h
  obtain ⟨document, -, hdocument⟩ := Conversion.tableOfText_eq_ok_iff.mp htable
  have noIssues := (assemble_eq_ok_iff.mp hassemble).1
  refine ⟨table, htable, hassemble, fun type htype => ⟨?_, ?_⟩⟩
  · obtain ⟨group, hgroup, hspace, hmem⟩ := Group.exists_mem_ofTable htype
    obtain ⟨file, hfile, hinfix⟩ := exists_infix_of_assemble hassemble hgroup
    exact ⟨file, hfile, group, hgroup, hspace, hmem, hinfix⟩
  · exact written_declarationLines (Schema.cumulative_wellFormed.tableOf hdocument) htype
      (length_alternatives_of_issues noIssues htype)
      fun name hname => isSome_resolve?_of_issues deny noIssues htype hname

/-- A record with one field. -/
def oneFieldDocument (field : Json.Value) : Json.Value :=
  .object [("type", .string "record"), ("name", .string "R"), ("fields", .array [field])]

/-- Its text. -/
def oneFieldText (field : Json.Value) : String := (oneFieldDocument field).compact

/-- Its entry, from what the resolver makes of the field. -/
def oneFieldEntry (value : Json.Value) (field : Field) : NamedType :=
  { name := "R", space := "", alternatives := [.plain .record], children := some [field]
    schema := oneFieldDocument value }

/-- Options under which schemas are not repeated. -/
def bareOptions : Options := { exportSchema := false }

/-- A field that may hold records of the same kind as the one it is in. -/
def linksNode : Json.Value :=
  .object [("name", .string "links"), ("type", .array [.string "null",
    .object [("type", .string "array"), ("items", .string "R")]])]

/-- What the resolver makes of it. -/
def linksField : Field :=
  { name := "links", alternatives := [.plain .null, .arrayOf [.plain (.reference "R")]] }

/-- The array of references is written as an expression. -/
theorem written_links :
    (∃ files, Conversion.filesOfText bareOptions (oneFieldText linksNode) = .ok files) ∧
    ∃ body constant,
      declarationLines bareOptions
          (scopeOf bareOptions (SymbolIndex.ofTable [oneFieldEntry linksNode linksField]) "")
          (oneFieldEntry linksNode linksField) =
        ledBy "export ".toList body ++ constant ∧
      Written (oneFieldEntry linksNode linksField)
        (Expresses [oneFieldEntry linksNode linksField] "" [.plain .record] none)
        (PropertyOf [oneFieldEntry linksNode linksField] "") body := by
  let table := [oneFieldEntry linksNode linksField]
  have htable : Conversion.tableOfText bareOptions (oneFieldText linksNode) = .ok table :=
    Conversion.tableOfText_eq_ok_iff.mpr ⟨oneFieldDocument linksNode, by cbv, by rfl⟩
  have hresolve : (SymbolIndex.ofTable table).resolve? "R" "" =
      some (oneFieldEntry linksNode linksField) := by
    rw [SymbolIndex.resolve?_ofTable]
    rfl
  have noDangling : danglingProblems (SymbolIndex.ofTable table)
      (oneFieldEntry linksNode linksField) = [] := by
    have nothing : dangling (SymbolIndex.ofTable table) "" linksField.alternatives = [] := by
      rw [dangling_eq_filter, List.filter_eq_nil_iff]
      intro name hname
      obtain rfl : name = "R" := List.mem_singleton.mp hname
      simp [hresolve]
    rw [danglingProblems, NamedType.fields]
    simp [oneFieldEntry, nothing, dangling, danglingIn, TypeExpr.plain]
  have hissues : issues bareOptions (SymbolIndex.ofTable table) table = [] := by
    rw [issues, List.flatMap_cons, problemsOfType, noDangling]
    decide +kernel
  have hfiles := Conversion.filesOfText_of_issues rfl rfl htable hissues
  obtain ⟨table', htable', -, each⟩ := written_of_filesOfText rfl hfiles
  obtain rfl := Except.ok.inj (htable.symm.trans htable')
  obtain ⟨-, body, constant, lines, -, written⟩ := each _ List.mem_cons_self
  exact ⟨⟨_, hfiles⟩, body, constant, lines, written⟩

/-- A field that is declared in its place as a record. -/
def innerNode : Json.Value :=
  .object [("name", .string "f"), ("type", .string "record"), ("fields", .array [])]

/-- What the resolver makes of it. -/
def innerField : Field := { name := "f", alternatives := [.plain .record] }

/-- **A record in the place of a field is written as a bare word** that names nothing, although
dangling references are refused. -/
theorem written_bare :
    Conversion.filesOfText bareOptions (oneFieldText innerNode) =
      .ok [⟨"default.ts", "export type R = \x7b\n\tf: record\n\x7d;\n\n"⟩] ∧
    Conversion.tableOfText bareOptions (oneFieldText innerNode) =
      .ok [oneFieldEntry innerNode innerField] ∧
    bareOptions.denyDangling = true ∧
    fieldTypeText
        (scopeOf bareOptions (SymbolIndex.ofTable [oneFieldEntry innerNode innerField]) "")
        innerField = "record".toList ∧
    ¬ Expresses [oneFieldEntry innerNode innerField] "" innerField.alternatives innerField.symbols
      "record".toList := by
  have htable : Conversion.tableOfText bareOptions (oneFieldText innerNode) =
      .ok [oneFieldEntry innerNode innerField] :=
    Conversion.tableOfText_eq_ok_iff.mpr ⟨oneFieldDocument innerNode, by cbv, by rfl⟩
  refine ⟨?_, htable, rfl, rfl, not_expresses_record⟩
  rw [Conversion.filesOfText_of_issues rfl rfl htable (by decide +kernel)]
  exact congrArg Except.ok (by decide +kernel)

end AvroTypes.TypeScript
