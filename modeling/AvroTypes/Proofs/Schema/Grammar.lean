import AvroTypes.Proofs.Schema.Resolution
import AvroTypes.Proofs.TypeScript.Paths
import Mathlib.Data.List.TakeWhile

/-!
# The grammar of schemas

Which documents have a table.  Resolving refuses a document at many places and in some order; what
it accepts has neither, and is a grammar with two kinds of places.  A node in the place of a type
may do without a name, and a record there has fields that are schemas too.  A node in the place of
a field has to have a name, any one, and a record there need not say more than that it has fields.

* `HasLetter`, `isEmpty_identifierOf_iff` — the names that identifiers can be made from.
* `Valid`, `IsSchema` — **the grammar.**
* `valid_of_resolveType` — whatever resolves keeps to it, by induction over the resolution.
* `Valid.exists_resolves` — whatever keeps to it resolves, by induction over the grammar.
* `exists_tableOf_iff` — **the documents that have a table.**
-/

namespace AvroTypes.Schema

open AvroTypes.Json (Value lookup? present?)

/-! ## Names of types -/

/-- A letter or an underscore. -/
def IsLetter (c : Char) : Prop := c.isAlpha = true ∨ c = '_'

/-- A name with a letter or an underscore in it. -/
def HasLetter (name : String) : Prop := ∃ c ∈ name.toList, IsLetter c

lemma isWordChar_of_isLetter {c : Char} (h : IsLetter c) : isWordChar c = true := by
  rcases h with alpha | rfl
  · simp [isWordChar, Char.isAlphanum, alpha]
  · decide

/-- A word character is a digit or else a letter: there are only the ASCII ones to try. -/
lemma isDigit_eq_false_iff {c : Char} (h : isWordChar c = true) :
    c.isDigit = false ↔ IsLetter c := by
  have ascii : ∀ n < 128, isWordChar (Char.ofNat n) = true →
      ((Char.ofNat n).isDigit = false ↔ (Char.ofNat n).isAlpha = true ∨ Char.ofNat n = '_') := by
    decide +kernel
  simpa [IsLetter] using ascii c.toNat (TypeScript.toNat_lt_of_isWordChar h) (by simpa using h)

lemma isDigit_toUpper {c : Char} (h : isWordChar c = true) : c.toUpper.isDigit = c.isDigit := by
  have ascii : ∀ n < 128, isWordChar (Char.ofNat n) = true →
      (Char.ofNat n).toUpper.isDigit = (Char.ofNat n).isDigit := by decide +kernel
  simpa using ascii c.toNat (TypeScript.toNat_lt_of_isWordChar h) (by simpa using h)

/-- Joining the words of a name drops no letter and makes none. -/
lemma exists_mem_joinWords_iff {raise : Bool} {name : List Char} :
    (∃ c ∈ TypeScript.joinWords raise name, c.isDigit = false) ↔ ∃ c ∈ name, IsLetter c := by
  induction name generalizing raise with
  | nil => simp [TypeScript.joinWords]
  | cons first rest ih =>
      rw [TypeScript.joinWords]
      by_cases word : isWordChar first = true
      · have raised : (if raise then first.toUpper else first).isDigit = first.isDigit := by
          split_ifs
          · exact isDigit_toUpper word
          · rfl
        rw [if_pos word]
        simp only [List.mem_cons, exists_eq_or_imp, raised, isDigit_eq_false_iff word, ih]
      · have noLetter : ¬ IsLetter first := fun letter => word (isWordChar_of_isLetter letter)
        rw [if_neg word, ih]
        simp only [List.mem_cons, exists_eq_or_imp, noLetter, false_or]

/-- **An identifier can be made from exactly the names with a letter.** -/
theorem isEmpty_identifierOf_iff {name : String} :
    (TypeScript.identifierOf name).isEmpty = false ↔ HasLetter name := by
  rw [HasLetter, ← @exists_mem_joinWords_iff false]
  simp [TypeScript.identifierOf, TypeScript.identifierChars, List.dropWhile_eq_nil_iff]

/-! ## The grammar -/

/-- The name of a node is not empty. -/
def Node.HasName (node : Node) : Prop :=
  ∃ name, lookup? node "name" = some (.string name) ∧ name ≠ ""

/-- What the name of a node has to be like: in the place of a type fit for an identifier, unless it
is empty, and in the place of a field not empty. -/
def Node.NameFits (node : Node) : Role → Prop
  | .type => ∀ name, lookup? node "name" = some (.string name) → name ≠ "" → HasLetter name
  | .field => node.HasName

/-- What a node has to be like whatever its type is. -/
structure Node.Fits (node : Node) (role : Role) : Prop where
  shapes : node.HasShapes
  space : ∀ space, lookup? node "namespace" = some (.string space) → isNamespace space = true
  name : node.NameFits role

/-- **The grammar of schemas**, for the places of types and for those of fields. -/
inductive Valid : Role → Value → Prop
  /-- A word is a type unless it is that of a composite one. -/
  | word {word : String} (simple : word ∉ compositeWords) : Valid .type (.string word)
  /-- A union has alternatives. -/
  | union {alternatives : List Value} (nonempty : alternatives ≠ [])
      (each : ∀ alternative ∈ alternatives, Valid .type alternative) :
      Valid .type (.array alternatives)
  /-- A node with a union or another node as its type. -/
  | nested {role : Role} {node : Node} {type : Value} (fits : node.Fits role)
      (found : lookup? node "type" = some type) (noWord : ∀ word, type ≠ .string word)
      (valid : Valid .type type) : Valid role (.object node)
  /-- A node with a word as its type. -/
  | plain {role : Role} {node : Node} {word : String} (fits : node.Fits role)
      (found : lookup? node "type" = some (.string word)) (simple : word ∉ compositeWords) :
      Valid role (.object node)
  /-- An array with its elements. -/
  | array {role : Role} {node : Node} {items : Value} (fits : node.Fits role)
      (found : lookup? node "type" = some (.string "array"))
      (listed : lookup? node "items" = some items) (valid : Valid .type items) :
      Valid role (.object node)
  /-- An enumeration with its symbols. -/
  | enum {role : Role} {node : Node} {symbols : List Value} (fits : node.Fits role)
      (found : lookup? node "type" = some (.string "enum")) (named : node.HasName)
      (listed : lookup? node "symbols" = some (.array symbols)) : Valid role (.object node)
  /-- A record in the place of a type, with its fields. -/
  | record {node : Node} {fields : List Value} (fits : node.Fits .type)
      (found : lookup? node "type" = some (.string "record")) (named : node.HasName)
      (listed : lookup? node "fields" = some (.array fields))
      (each : ∀ field ∈ fields, Valid .field field) : Valid .type (.object node)
  /-- A record in the place of a field, whose own fields can be anything. -/
  | recordField {node : Node} {fields : List Value} (fits : node.Fits .field)
      (found : lookup? node "type" = some (.string "record")) (named : node.HasName)
      (listed : lookup? node "fields" = some (.array fields)) : Valid .field (.object node)

/-- **The documents**: a node in the place of a type, or a list of them. -/
inductive IsSchema : Value → Prop
  | one {node : Node} (valid : Valid .type (.object node)) : IsSchema (.object node)
  | several {documents : List Value}
      (each : ∀ document ∈ documents, ∃ node, document = .object node ∧ Valid .type document) :
      IsSchema (.array documents)

/-! ## What resolves keeps to the grammar -/

lemma isSome_name?_iff {node : Node} : node.name?.isSome ↔ node.HasName := by
  simp only [Option.isSome_iff_exists, name?_eq_some_iff, Node.HasName]

lemma space_of_spaceIn {node : Node} {around space : String} (h : node.spaceIn around = .ok space)
    {declared : String} (found : lookup? node "namespace" = some (.string declared)) :
    isNamespace declared = true := by
  rw [Node.spaceIn, text?_eq_some_iff.mpr found] at h
  by_contra invalid
  simp [invalid] at h

section

variable {parts : Value → String → Resolved → Prop} {role : Role} {node : Node} {around : String}
  {content : Content}

/-- A node with a content keeps to the grammar if its parts do, its name fits, and so do its fields
if they count. -/
lemma Node.Opened.valid (h : node.Opened parts around content)
    (ofPart : ∀ {value space resolved}, parts value space resolved → Valid .type value)
    (name : node.NameFits role)
    (fields : role = .type → content.form = .record → ∀ values,
      node.list? "fields" = some values → ∀ field ∈ values, Valid .field field) :
    Valid role (.object node) := by
  have shapes := mismatch?_eq_none_iff.mp h.contains.shapes
  have fits : node.Fits role := ⟨shapes, fun _ => space_of_spaceIn h.contains.space, name⟩
  have made := h.made
  have looks := looks_of_form h.contains.form
  cases hform : content.form with
  | nested =>
      rw [hform] at made looks
      obtain ⟨value, found, part⟩ := made
      obtain ⟨value', found', noWord⟩ := looks
      obtain rfl := Option.some.inj (found.symm.trans found')
      exact .nested fits (lookup?_of_present? found) noWord (ofPart part)
  | word kind =>
      rw [hform] at looks
      obtain ⟨word, hword, rfl, noRecord, noEnum, noArray⟩ := looks
      exact .plain fits (text?_eq_some_iff.mp hword)
        (isSimple_ofWord_iff.mp ⟨noRecord, noEnum, noArray⟩)
  | array =>
      rw [hform] at made looks
      obtain ⟨value, elements, found, part, -⟩ := made
      exact .array fits (text?_eq_some_iff.mp looks.1) (lookup?_of_present? found) (ofPart part)
  | enum symbols =>
      rw [hform] at looks
      have listed := symbols?_of_form (h.contains.form.trans (congrArg _ hform))
      exact .enum fits (text?_eq_some_iff.mp looks.1) (isSome_name?_iff.mp looks.2)
        (lookup?_of_present? (present?_of_symbols? shapes listed))
  | record =>
      rw [hform] at looks
      obtain ⟨hword, named, values, listed⟩ := looks
      have found := text?_eq_some_iff.mp hword
      cases role with
      | type =>
          exact .record fits found (isSome_name?_iff.mp named) (list?_eq_some_iff.mp listed)
            (fields rfl hform values listed)
      | field =>
          exact .recordField fits found (isSome_name?_iff.mp named) (list?_eq_some_iff.mp listed)

end

/-- A node that is a field keeps to the grammar if its parts do. -/
lemma IsFieldOf.valid {parts : Value → String → Resolved → Prop}
    (ofPart : ∀ {value space resolved}, parts value space resolved → Valid .type value)
    {space : String} {value : Value} {part : Field × List NamedType}
    (h : IsFieldOf parts space value part) : Valid .field value := by
  obtain ⟨node, content, rfl, opened, hfield⟩ := h
  obtain ⟨name, hname, -⟩ := asField_eq_ok_iff.mp hfield
  exact opened.valid ofPart ⟨name, name?_eq_some_iff.mp hname⟩ (by simp)

/-- **Whatever resolves keeps to the grammar.** -/
theorem valid_of_resolveType {value : Value} {around : String} {resolved : Resolved}
    (h : resolveType value around = .ok resolved) : Valid .type value := by
  refine resolveType_induction (motive := fun value _ _ => Valid .type value)
    (fun h resolution => ?_) h
  cases resolution with
  | word simple => exact .word simple
  | union nonempty each =>
      refine .union nonempty fun alternative halternative => ?_
      obtain ⟨i, found⟩ := List.getElem?_of_mem halternative
      obtain ⟨_, -, -, ih⟩ := exists_of_forall₂_left each found
      exact ih
  | @unnamed node _ content unnamed opened =>
      refine opened.valid (fun part => part.2) (fun name found nonempty => ?_) fun _ record => ?_
      · simp [name?_eq_some_iff.mpr ⟨found, nonempty⟩] at unnamed
      · have looks := looks_of_form opened.contains.form
        simp [record, Node.Looks, unnamed] at looks
  | @named node _ name content inner named usable opened keeps =>
      refine opened.valid (fun part => part.2) (fun other found nonempty => ?_) ?_
      · obtain rfl := Option.some.inj (named.symm.trans (name?_eq_some_iff.mpr ⟨found, nonempty⟩))
        exact isEmpty_identifierOf_iff.mp usable
      · intro _ record values listed field hfield
        rw [record] at keeps
        obtain ⟨values', parts, listed', hparts, -⟩ := keeps
        obtain rfl := Option.some.inj (listed.symm.trans listed')
        obtain ⟨i, found⟩ := List.getElem?_of_mem hfield
        obtain ⟨_, -, isField⟩ := exists_of_forall₂_left hparts found
        exact isField.valid fun part => part.2

/-! ## What keeps to the grammar resolves -/

lemma exists_forall₂ {α β : Type} {R : α → β → Prop} {as : List α} (h : ∀ a ∈ as, ∃ b, R a b) :
    ∃ bs, List.Forall₂ R as bs := by
  induction as with
  | nil => exact ⟨[], .nil⟩
  | cons a as ih =>
      obtain ⟨b, hb⟩ := h a List.mem_cons_self
      obtain ⟨bs, hbs⟩ := ih fun a' ha' => h a' (List.mem_cons_of_mem _ ha')
      exact ⟨b :: bs, .cons hb hbs⟩

section

variable {role : Role} {node : Node}

lemma Node.Fits.exists_spaceIn (h : node.Fits role) (around : String) :
    ∃ space, node.spaceIn around = .ok space := by
  rw [Node.spaceIn]
  cases declared : node.text? "namespace" with
  | none => exact ⟨around, rfl⟩
  | some space => exact ⟨space, by simp [h.space space (text?_eq_some_iff.mp declared)]⟩

/-- A node with a content resolves in a role that its name fits, given its fields if they count. -/
lemma Node.NameFits.exists_resolves {around : String} {content : Content} (h : node.NameFits role)
    (contains : node.ContainsResolved around content)
    (fields : role = .type → content.form = .record →
      ∃ resolved, resolveFieldsMember node content.space = .ok resolved) :
    ∃ resolved, Site.Resolves ⟨role, .object node, around⟩ resolved := by
  cases role with
  | type =>
      suffices ∃ resolved,
          node.hoist content (fun space => resolveFieldsMember node space) = .ok resolved by
        obtain ⟨resolved, hoisted⟩ := this
        exact ⟨resolved, .type (resolveType_object_eq_ok_iff.mpr ⟨content, contains, hoisted⟩)⟩
      simp only [hoist_eq_ok_iff]
      cases hname : node.name? with
      | none => exact ⟨content.type, .inl ⟨rfl, rfl⟩⟩
      | some name =>
          obtain ⟨found, nonempty⟩ := name?_eq_some_iff.mp hname
          have usable := isEmpty_identifierOf_iff.mpr (h name found nonempty)
          have inner : ∃ inner,
              content.form.Inner (resolveFieldsMember node content.space) inner := by
            cases hform : content.form with
            | record =>
                obtain ⟨resolved, hresolved⟩ := fields rfl hform
                exact ⟨some resolved, resolved, hresolved, rfl⟩
            | _ => exact ⟨none, rfl⟩
          obtain ⟨inner, hinner⟩ := inner
          exact ⟨_, .inr ⟨name, inner, rfl, usable, hinner, rfl⟩⟩
  | field =>
      obtain ⟨name, found, nonempty⟩ := h
      have hname := name?_eq_some_iff.mpr ⟨found, nonempty⟩
      have hfield : node.asField content = .ok _ := asField_eq_ok_iff.mpr ⟨name, hname, rfl, rfl⟩
      exact ⟨_, .field (resolveField_object_eq_ok_iff.mpr ⟨content, contains, hfield⟩)⟩

/-- **A node that fits resolves** once its form is known, its type can be made, and its fields
resolve if they count. -/
theorem Node.Fits.exists_resolves (h : node.Fits role) {form : Form}
    (hform : node.form = .ok form)
    (typed : ∀ space, ∃ type,
      form.Typed (resolveMember "type" node space) (resolveMember "items" node space) type)
    (fields : role = .type → form = .record → ∀ space,
      ∃ resolved, resolveFieldsMember node space = .ok resolved) (around : String) :
    ∃ resolved, Site.Resolves ⟨role, .object node, around⟩ resolved := by
  obtain ⟨space, hspace⟩ := h.exists_spaceIn around
  obtain ⟨type, htype⟩ := typed space
  have contains : node.ContainsResolved around ⟨space, form, type⟩ :=
    ⟨mismatch?_eq_none_iff.mpr h.shapes, hspace, hform, htype⟩
  exact h.name.exists_resolves contains fun isType record => fields isType record space

/-! ### The forms -/

variable {values : List Value} {value : Value}

lemma form_of_valid (valid : Valid .type value) (noWord : ∀ word, value ≠ .string word)
    (found : present? node "type" = some value) : node.form = .ok .nested := by
  rw [Node.form, found]
  cases valid with
  | word => exact absurd rfl (noWord _)
  | _ => rfl

lemma form_of_array (found : lookup? node "type" = some (.string "array"))
    (listed : present? node "items" = some value) : node.form = .ok .array := by
  rw [form_of_text? (text?_eq_some_iff.mpr found)]
  simp [Node.formOfWord, Kind.ofWord, listed]

lemma form_of_enum (found : lookup? node "type" = some (.string "enum")) (named : node.HasName)
    (listed : lookup? node "symbols" = some (.array values)) :
    ∃ symbols, node.form = .ok (.enum symbols) := by
  obtain ⟨name, hname⟩ := Option.isSome_iff_exists.mp (isSome_name?_iff.mpr named)
  rw [form_of_text? (text?_eq_some_iff.mpr found)]
  simp [Node.formOfWord, Kind.ofWord, hname, Node.symbols?, list?_eq_some_iff.mpr listed]

lemma form_of_record (found : lookup? node "type" = some (.string "record"))
    (named : node.HasName) (listed : lookup? node "fields" = some (.array values)) :
    node.form = .ok .record := by
  obtain ⟨name, hname⟩ := Option.isSome_iff_exists.mp (isSome_name?_iff.mpr named)
  rw [form_of_text? (text?_eq_some_iff.mpr found)]
  simp [Node.formOfWord, Kind.ofWord, hname, list?_eq_some_iff.mpr listed]

end

lemma Valid.ne_null {role : Role} {value : Value} (h : Valid role value) : value ≠ .null := by
  rintro rfl
  cases h

/-- **Whatever keeps to the grammar resolves**, whatever namespace is around it. -/
theorem Valid.exists_resolves {role : Role} {value : Value} (h : Valid role value) :
    ∀ around, ∃ resolved, Site.Resolves ⟨role, value, around⟩ resolved := by
  induction h with
  | word simple =>
      intro around
      exact ⟨_, .type (resolveWord_eq_ok_iff.mpr ⟨simple, rfl⟩)⟩
  | union nonempty each ih =>
      intro around
      obtain ⟨parts, hparts⟩ := exists_forall₂
        (R := fun value part => resolveType value around = .ok part) fun alternative hmem => by
          obtain ⟨part, ⟨hpart⟩⟩ := ih alternative hmem around
          exact ⟨part, hpart⟩
      exact ⟨_, .type (resolveType_array_eq_ok_iff.mpr
        ⟨nonempty, resolveUnion_eq_ok_iff.mpr ⟨parts, hparts, rfl⟩⟩)⟩
  | nested fits found noWord valid ih =>
      have present := present?_of_lookup? found valid.ne_null
      refine fits.exists_resolves (form_of_valid valid noWord present) (fun space => ?_) (by simp)
      obtain ⟨resolved, ⟨hresolved⟩⟩ := ih space
      exact ⟨resolved, (resolveMember_of_present? present space).trans hresolved⟩
  | plain fits found simple =>
      have hform := (form_of_text? (text?_eq_some_iff.mpr found)).trans
        (formOfWord_of_isSimple (isSimple_ofWord_iff.mpr simple))
      exact fits.exists_resolves hform (fun _ => ⟨_, rfl⟩) (by simp)
  | array fits found listed valid ih =>
      have present := present?_of_lookup? listed valid.ne_null
      refine fits.exists_resolves (form_of_array found present) (fun space => ?_) (by simp)
      obtain ⟨elements, ⟨helements⟩⟩ := ih space
      exact ⟨_, elements, (resolveMember_of_present? present space).trans helements, rfl⟩
  | enum fits found named listed =>
      obtain ⟨symbols, hform⟩ := form_of_enum found named listed
      exact fits.exists_resolves hform (fun _ => ⟨_, rfl⟩) (by simp)
  | record fits found named listed each ih =>
      refine fits.exists_resolves (form_of_record found named listed) (fun _ => ⟨_, rfl⟩)
        fun _ _ space => ?_
      obtain ⟨parts, hparts⟩ := exists_forall₂
        (R := fun value part => resolveField value space = .ok part) fun field hmem => by
          obtain ⟨_, hfield⟩ := ih field hmem space
          cases hfield with
          | field h => exact ⟨_, h⟩
      exact ⟨_, (resolveFieldsMember_of_list? (list?_eq_some_iff.mpr listed) _).trans
        (resolveFields_eq_ok_iff.mpr ⟨parts, hparts, rfl⟩)⟩
  | recordField fits found named listed =>
      exact fits.exists_resolves (form_of_record found named listed) (fun _ => ⟨_, rfl⟩) (by simp)

/-! ## Documents -/

lemma exists_resolveDocument_iff {document : Value} {space : String} :
    (∃ table, resolveDocument document space = .ok table) ↔
      ∃ node, document = .object node ∧ Valid .type document := by
  simp only [resolveDocument_eq_ok_iff]
  constructor
  · rintro ⟨_, node, resolved, rfl, hresolved, -⟩
    exact ⟨node, rfl, valid_of_resolveType hresolved⟩
  · rintro ⟨node, rfl, valid⟩
    obtain ⟨resolved, ⟨hresolved⟩⟩ := valid.exists_resolves space
    exact ⟨_, node, resolved, rfl, hresolved, rfl⟩

/-- **The documents that have a table** are those that keep to the grammar, given a namespace. -/
theorem exists_tableOf_iff {document : Value} {space : String} :
    (∃ table, tableOf document space = .ok table) ↔
      isNamespace space = true ∧ IsSchema document := by
  simp only [tableOf_eq_ok_iff]
  constructor
  · rintro ⟨table, valid, hdocument | ⟨documents, tables, rfl, htables, -⟩⟩
    · obtain ⟨node, rfl, hvalid⟩ := exists_resolveDocument_iff.mp ⟨table, hdocument⟩
      exact ⟨valid, .one hvalid⟩
    · refine ⟨valid, .several fun document hmem => ?_⟩
      obtain ⟨i, found⟩ := List.getElem?_of_mem hmem
      obtain ⟨part, -, hpart⟩ := exists_of_forall₂_left htables found
      exact exists_resolveDocument_iff.mp ⟨part, hpart⟩
  · rintro ⟨valid, schema⟩
    cases schema with
    | one hvalid =>
        obtain ⟨table, htable⟩ := exists_resolveDocument_iff.mpr ⟨_, rfl, hvalid⟩
        exact ⟨table, valid, .inl htable⟩
    | several each =>
        obtain ⟨tables, htables⟩ := exists_forall₂ fun document hmem =>
          exists_resolveDocument_iff.mpr (each document hmem)
        exact ⟨tables.flatten, valid, .inr ⟨_, tables, rfl, htables, rfl⟩⟩

end AvroTypes.Schema
