import AvroTypes.Proofs.Outcome
import AvroTypes.Schema.Resolve
import Mathlib.Data.List.Forall2
import Mathlib.Tactic.Lemma

/-!
# What a successful resolution consists of

Resolving is a chain of steps each of which can fail.  This file takes the chains apart: for every
resolver there is one lemma that says what it means that it succeeds, and nothing else unfolds a
resolver.

* `Node.Looks` and `looks_of_form` — the form of a node.
* `Node.Contains` and `content_eq_ok_iff` — the type of a node.
* `Node.entry`, `hoist_eq_ok_iff`, `asField_eq_ok_iff` — what becomes of a node.
* `resolveType_object_eq_ok_iff`, `resolveUnion_eq_ok_iff` and their companions — the recursion.
-/

namespace AvroTypes.Schema

open AvroTypes.Json (Value Members lookup? present?)

lemma within_eq_ok_iff {α : Type} {step : Step} {outcome : Except Fault α} {a : α} :
    within step outcome = .ok a ↔ outcome = .ok a := mapError_eq_ok_iff

lemma within_eq_error {α : Type} {step : Step} {outcome : Except Fault α}
    {fault : Fault} :
    within step outcome = .error fault ↔
      ∃ own, outcome = .error own ∧ fault = { own with place := step :: own.place } :=
  mapError_eq_error_iff

/-! ## Members of a node -/

lemma lookup?_of_present? {members : Members} {key : String} {value : Value}
    (h : present? members key = some value) : lookup? members key = some value := by
  rw [present?] at h
  split at h
  · simp at h
  · exact h

lemma present?_of_text? {node : Node} {key text : String} (h : node.text? key = some text) :
    present? node key = some (.string text) := by
  rw [Node.text?] at h
  split at h
  · next found => rw [found, Option.some.inj h]
  · simp at h

lemma present?_of_list? {node : Node} {key : String} {values : List Value}
    (h : node.list? key = some values) : present? node key = some (.array values) := by
  rw [Node.list?] at h
  split at h
  · next found => rw [found, Option.some.inj h]
  · simp at h

lemma mem_of_lookup? {members : Members} {key : String} {value : Value}
    (h : lookup? members key = some value) : (key, value) ∈ members := by
  obtain ⟨before, after, rfl, -⟩ := List.lookup_eq_some_iff.mp h
  simp

/-- The namespace that applies inside a node: the one it declares, or else the one around it. -/
def Node.spaceInside (node : Node) (around : String) : String :=
  (node.text? "namespace").getD around

lemma spaceIn_eq_ok {node : Node} {around space : String} (h : node.spaceIn around = .ok space) :
    space = node.spaceInside around := by
  rw [Node.spaceIn] at h
  rw [Node.spaceInside]
  split at h
  · next absent => rw [absent]; exact (Except.ok.inj h).symm
  · next declared found =>
      split_ifs at h
      rw [found]
      exact (Except.ok.inj h).symm

lemma isNamespace_of_spaceIn {node : Node} {around space : String}
    (h : node.spaceIn around = .ok space) (valid : isNamespace around = true) :
    isNamespace space = true := by
  rw [Node.spaceIn] at h
  split at h
  · exact Except.ok.inj h ▸ valid
  · split_ifs at h with declared
    exact Except.ok.inj h ▸ declared

/-! ## The form of a node -/

/-- What a node has to look like to be of a form. -/
def Node.Looks (node : Node) : Form → Prop
  | .nested => ∃ value, present? node "type" = some value ∧ ∀ word, value ≠ .string word
  | .record => node.text? "type" = some "record" ∧ node.name?.isSome ∧
      ∃ fields, node.list? "fields" = some fields
  | .enum _ => node.text? "type" = some "enum" ∧ node.name?.isSome
  | .array => node.text? "type" = some "array" ∧ ∃ value, present? node "items" = some value
  | .word kind => ∃ word, node.text? "type" = some word ∧ Kind.ofWord word = kind ∧
      kind ≠ .record ∧ kind ≠ .enum ∧ kind ≠ .array

lemma text?_of_present? {node : Node} {key text : String}
    (h : present? node key = some (.string text)) : node.text? key = some text := by
  simp [Node.text?, h]

/-- Only its own word stands for a composite type. -/
lemma word_of_composite (word : String) :
    (Kind.ofWord word = .record → word = "record") ∧ (Kind.ofWord word = .enum → word = "enum") ∧
      (Kind.ofWord word = .array → word = "array") := by
  unfold Kind.ofWord
  split <;> simp

lemma looks_of_formOfWord {node : Node} {word : String} {form : Form}
    (hword : node.text? "type" = some word) (h : node.formOfWord word = .ok form) :
    node.Looks form := by
  obtain ⟨hrecord, henum, harray⟩ := word_of_composite word
  rw [Node.formOfWord] at h
  split at h
  · next kind =>
      split_ifs at h with hname hfields
      obtain rfl := Except.ok.inj h
      obtain ⟨fields, hfields⟩ := Option.ne_none_iff_exists'.mp (by simpa using hfields)
      exact ⟨by rw [hword, hrecord kind], Option.isSome_iff_ne_none.mpr (by simpa using hname),
        fields, hfields⟩
  · next kind =>
      split_ifs at h with hname
      split at h
      · simp at h
      · obtain rfl := Except.ok.inj h
        exact ⟨by rw [hword, henum kind], Option.isSome_iff_ne_none.mpr (by simpa using hname)⟩
  · next kind =>
      split_ifs at h with hitems
      obtain rfl := Except.ok.inj h
      obtain ⟨value, hvalue⟩ := Option.ne_none_iff_exists'.mp (by simpa using hitems)
      exact ⟨by rw [hword, harray kind], value, hvalue⟩
  · next noRecord noEnum noArray =>
      obtain rfl := Except.ok.inj h
      exact ⟨word, hword, rfl, noRecord, noEnum, noArray⟩

theorem looks_of_form {node : Node} {form : Form} (h : node.form = .ok form) :
    node.Looks form := by
  rw [Node.form] at h
  split at h
  · simp at h
  · next found => exact looks_of_formOfWord (text?_of_present? found) h
  · next found =>
      obtain rfl := Except.ok.inj h
      exact ⟨_, found, by simp⟩
  · next found =>
      obtain rfl := Except.ok.inj h
      exact ⟨_, found, by simp⟩
  · simp at h

lemma form_eq_nested {node : Node} {form : Form} {value : Value} (h : node.form = .ok form)
    (found : present? node "type" = some value) (noWord : ∀ word, value ≠ .string word) :
    form = .nested := by
  rw [Node.form, found] at h
  cases value with
  | string word => exact absurd rfl (noWord word)
  | array alternatives => exact (Except.ok.inj h).symm
  | object members => exact (Except.ok.inj h).symm
  | _ => simp at h

lemma form_eq_array {node : Node} {form : Form} (h : node.form = .ok form)
    (word : node.text? "type" = some "array") : form = .array := by
  rw [Node.form, present?_of_text? word] at h
  simp only [Node.formOfWord, Kind.ofWord] at h
  split_ifs at h
  exact (Except.ok.inj h).symm

lemma form_eq_record {node : Node} {form : Form} (h : node.form = .ok form)
    (word : node.text? "type" = some "record") : form = .record := by
  rw [Node.form, present?_of_text? word] at h
  simp only [Node.formOfWord, Kind.ofWord] at h
  split_ifs at h
  exact (Except.ok.inj h).symm

/-! ## The type of a node -/

/-- How the type of a node follows from its form and from how its members resolve. -/
def Form.Typed (type items : Except Fault Resolved) (resolved : Resolved) : Form → Prop
  | .nested => type = .ok resolved
  | .array => ∃ elements, items = .ok elements ∧
      resolved = ⟨[.arrayOf elements.alternatives], elements.declared⟩
  | .record => resolved = .plain .record
  | .enum _ => resolved = .plain .enum
  | .word kind => resolved = .plain kind

/-- What it takes for a node to have a content: members of the right shapes, a namespace, a form,
and a type of that form. -/
structure Node.Contains (node : Node) (around : String)
    (type items : String → Except Fault Resolved) (content : Content) : Prop where
  shapes : node.mismatch? = none
  space : node.spaceIn around = .ok content.space
  form : node.form = .ok content.form
  typed : content.form.Typed (type content.space) (items content.space) content.type

theorem content_eq_ok_iff {node : Node} {around : String}
    {type items : String → Except Fault Resolved} {content : Content} :
    node.content around type items = .ok content ↔ node.Contains around type items content := by
  constructor
  · intro h
    rw [Node.content] at h
    split at h
    · simp [bind, Except.bind, throw, throwThe, MonadExceptOf.throw] at h
    · next shapes =>
        have absent : node.mismatch? = none := Option.eq_none_iff_forall_ne_some.mpr shapes
        simp only [bind_eq_ok_iff, pure, Except.pure] at h
        obtain ⟨space, hspace, form, hform, h⟩ := h
        cases form <;> simp only [bind_eq_ok_iff, within_eq_ok_iff, Except.ok.injEq] at h
        case nested =>
          obtain ⟨resolved, htype, rfl⟩ := h
          exact ⟨absent, hspace, hform, htype⟩
        case array =>
          obtain ⟨elements, hitems, _, rfl, rfl⟩ := h
          exact ⟨absent, hspace, hform, elements, hitems, rfl⟩
        all_goals
          obtain ⟨_, rfl, rfl⟩ := h
          exact ⟨absent, hspace, hform, rfl⟩
  · rintro ⟨shapes, hspace, hform, htype⟩
    obtain ⟨space, form, resolved⟩ := content
    dsimp only at hspace hform htype
    simp only [Node.content, shapes, hspace, hform, bind_eq_ok_iff, pure, Except.pure]
    refine ⟨space, rfl, form, rfl, ?_⟩
    cases form <;> simp only [bind_eq_ok_iff, within_eq_ok_iff]
    case nested => exact ⟨resolved, htype, rfl⟩
    case array =>
      obtain ⟨elements, hitems, rfl⟩ := htype
      exact ⟨elements, hitems, _, rfl, rfl⟩
    all_goals
      obtain rfl : resolved = _ := htype
      exact ⟨_, rfl, rfl⟩

/-! ## What becomes of a node -/

/-- The entry of the table for a node with a name: what it contains, and the fields of a record. -/
def Node.entry (node : Node) (name : String) (content : Content) (inner : Option ResolvedFields) :
    NamedType :=
  { name
    space := content.space
    alternatives := content.type.alternatives
    symbols := content.form.symbols?
    doc := node.doc?
    schema := .object node
    children := inner.map ResolvedFields.fields }

/-- The fields that a node of a form goes on to resolve: those of a record, and no others. -/
def Form.Inner (fields : Except Fault ResolvedFields) (inner : Option ResolvedFields) : Form → Prop
  | .record => ∃ resolved, fields = .ok resolved ∧ inner = some resolved
  | _ => inner = none

/-- A node without a name is replaced by its type, and one with a name by a reference. -/
theorem hoist_eq_ok_iff {node : Node} {content : Content}
    {fields : String → Except Fault ResolvedFields} {resolved : Resolved} :
    node.hoist content fields = .ok resolved ↔
      (node.name? = none ∧ resolved = content.type) ∨
      ∃ name inner, node.name? = some name ∧ (TypeScript.identifierOf name).isEmpty = false ∧
        content.form.Inner (fields content.space) inner ∧
        resolved = ⟨[.plain (.reference name)], content.type.declared
          ++ (inner.map ResolvedFields.declared).getD [] ++ [node.entry name content inner]⟩ := by
  rw [Node.hoist]
  cases hname : node.name? with
  | none => simpa using eq_comm
  | some name =>
      simp only [reduceCtorEq, false_and, false_or, Option.some.injEq]
      split_ifs with hempty
      · -- the check of the name is the only step before the fields
        constructor
        · intro h
          simp [bind, Except.bind, throw, throwThe, MonadExceptOf.throw] at h
        · rintro ⟨_, _, rfl, hname, -⟩
          simp [hempty] at hname
      · obtain ⟨space, form, type⟩ := content
        cases form
        case record =>
          cases hfields : fields space <;>
            simp [Form.Inner, Node.entry, hempty, within, Except.mapError, bind, Except.bind, pure,
              Except.pure, Functor.map, Except.map]
          exact eq_comm
        all_goals
          simp [Form.Inner, Node.entry, hempty, pure, Except.pure, bind, Except.bind]
          exact eq_comm

/-- A node as a field is nothing but its type under its name. -/
theorem asField_eq_ok_iff {node : Node} {content : Content} {field : Field}
    {declared : List NamedType} :
    node.asField content = .ok (field, declared) ↔
      ∃ name, node.name? = some name ∧ declared = content.type.declared ∧
        field = { name, alternatives := content.type.alternatives,
                  symbols := content.form.symbols?, doc := node.doc? } := by
  rw [Node.asField]
  cases node.name? <;> simp [eq_comm, and_comm]

/-! ## The recursion -/

lemma resolveMember_eq (key : String) (members : Members) (around : String) :
    resolveMember key members around =
      match lookup? members key with
      | none => .ok ⟨[], []⟩
      | some value => resolveType value around := by
  induction members with
  | nil => rfl
  | cons member rest ih =>
      obtain ⟨k, value⟩ := member
      by_cases h : k = key
      · simp [resolveMember, lookup?, h]
      · have hne : (key == k) = false := by simpa using Ne.symm h
        rw [resolveMember, if_neg h, ih, lookup?, lookup?, List.lookup_cons, hne]

lemma resolveMember_of_present? {key : String} {node : Node} {value : Value}
    (h : present? node key = some value) (around : String) :
    resolveMember key node around = resolveType value around := by
  rw [resolveMember_eq, lookup?_of_present? h]

lemma resolveFieldsMember_of_list? {node : Node} {fields : List Value}
    (h : node.list? "fields" = some fields) (around : String) :
    resolveFieldsMember node around = resolveFields fields around 0 := by
  have hlookup := lookup?_of_present? (present?_of_list? h)
  clear h
  induction node with
  | nil => simp [lookup?] at hlookup
  | cons member rest ih =>
      obtain ⟨k, value⟩ := member
      by_cases h : k = "fields"
      · subst h
        obtain rfl : value = .array fields := by simpa [lookup?] using hlookup
        simp [resolveFieldsMember]
      · have hne : ("fields" == k) = false := by simpa using Ne.symm h
        unfold resolveFieldsMember
        rw [if_neg h]
        exact ih (by simpa [lookup?, List.lookup_cons, hne] using hlookup)

/-- The content of a node of a document, whose members resolve as the document says. -/
abbrev Node.ContainsResolved (node : Node) (around : String) (content : Content) : Prop :=
  node.Contains around (fun space => resolveMember "type" node space)
    (fun space => resolveMember "items" node space) content

theorem resolveType_object_eq_ok_iff {node : Node} {around : String} {resolved : Resolved} :
    resolveType (.object node) around = .ok resolved ↔
      ∃ content, node.ContainsResolved around content ∧
        node.hoist content (fun space => resolveFieldsMember node space) = .ok resolved := by
  rw [resolveType, bind_eq_ok_iff]
  simp only [content_eq_ok_iff]

theorem resolveField_object_eq_ok_iff {node : Node} {around : String}
    {part : Field × List NamedType} :
    resolveField (.object node) around = .ok part ↔
      ∃ content, node.ContainsResolved around content ∧ node.asField content = .ok part := by
  rw [resolveField, bind_eq_ok_iff]
  simp only [content_eq_ok_iff]

/-- A union resolves by its alternatives, one after the other. -/
theorem resolveUnion_eq_ok_iff {alternatives : List Value} {around : String} {index : Nat}
    {resolved : Resolved} :
    resolveUnion alternatives around index = .ok resolved ↔
      ∃ parts, List.Forall₂ (fun value part => resolveType value around = .ok part)
          alternatives parts ∧
        resolved = ⟨parts.flatMap Resolved.alternatives, parts.flatMap Resolved.declared⟩ := by
  induction alternatives generalizing index resolved with
  | nil =>
      simp only [resolveUnion, List.forall₂_nil_left_iff, exists_eq_left, Except.ok.injEq]
      exact eq_comm
  | cons first rest ih =>
      simp only [resolveUnion, bind_eq_ok_iff, within_eq_ok_iff, pure, Except.pure, ih,
        Except.ok.injEq]
      constructor
      · rintro ⟨part, hpart, _, ⟨parts, hparts, rfl⟩, rfl⟩
        exact ⟨part :: parts, .cons hpart hparts, by simp [Resolved.append]⟩
      · rintro ⟨parts, hparts, rfl⟩
        cases hparts with
        | cons hpart hparts => exact ⟨_, hpart, _, ⟨_, hparts, rfl⟩, by simp [Resolved.append]⟩

theorem resolveType_array_eq_ok_iff {alternatives : List Value} {around : String}
    {resolved : Resolved} :
    resolveType (.array alternatives) around = .ok resolved ↔
      alternatives ≠ [] ∧ resolveUnion alternatives around 0 = .ok resolved := by
  cases alternatives <;> simp [resolveType]

/-- The fields of a record resolve one after the other. -/
theorem resolveFields_eq_ok_iff {fields : List Value} {around : String} {index : Nat}
    {resolved : ResolvedFields} :
    resolveFields fields around index = .ok resolved ↔
      ∃ parts, List.Forall₂ (fun value part => resolveField value around = .ok part)
          fields parts ∧
        resolved = ⟨parts.map Prod.fst, parts.flatMap Prod.snd⟩ := by
  induction fields generalizing index resolved with
  | nil =>
      simp only [resolveFields, List.forall₂_nil_left_iff, exists_eq_left, Except.ok.injEq]
      exact eq_comm
  | cons first rest ih =>
      simp only [resolveFields, bind_eq_ok_iff, within_eq_ok_iff, pure, Except.pure, ih,
        Except.ok.injEq, Prod.exists]
      constructor
      · rintro ⟨field, declared, hpart, _, ⟨parts, hparts, rfl⟩, rfl⟩
        exact ⟨(field, declared) :: parts, .cons hpart hparts, by simp [ResolvedFields.cons]⟩
      · rintro ⟨parts, hparts, rfl⟩
        cases hparts with
        | cons hpart hparts =>
            exact ⟨_, _, hpart, _, ⟨_, hparts, rfl⟩, by simp [ResolvedFields.cons]⟩

/-- The documents of a list resolve one after the other, each as a node in the place of a type. -/
theorem resolveDocuments_eq_ok_iff {documents : List Value} {around : String} {index : Nat}
    {table : List NamedType} :
    resolveDocuments documents around index = .ok table ↔
      ∃ tables, List.Forall₂ (fun document part => resolveDocument document around = .ok part)
          documents tables ∧ table = tables.flatten := by
  induction documents generalizing index table with
  | nil =>
      simp only [resolveDocuments, List.forall₂_nil_left_iff, exists_eq_left, Except.ok.injEq]
      exact eq_comm
  | cons first rest ih =>
      simp only [resolveDocuments, bind_eq_ok_iff, within_eq_ok_iff, pure, Except.pure, ih,
        Except.ok.injEq]
      constructor
      · rintro ⟨declared, hdeclared, _, ⟨tables, htables, rfl⟩, rfl⟩
        exact ⟨declared :: tables, .cons hdeclared htables, by simp⟩
      · rintro ⟨tables, htables, rfl⟩
        cases htables with
        | cons hdeclared htables => exact ⟨_, hdeclared, _, ⟨_, htables, rfl⟩, by simp⟩

lemma resolveDocument_eq_ok_iff {document : Value} {around : String} {table : List NamedType} :
    resolveDocument document around = .ok table ↔
      ∃ node resolved, document = .object node ∧
        resolveType (.object node) around = .ok resolved ∧ table = resolved.declared := by
  cases document with
  | object node =>
      simp only [resolveDocument, bind_eq_ok_iff, pure, Except.pure, Except.ok.injEq]
      constructor
      · rintro ⟨resolved, hresolved, rfl⟩
        exact ⟨node, resolved, rfl, hresolved, rfl⟩
      · rintro ⟨_, resolved, hsame, hresolved, rfl⟩
        obtain rfl := Value.object.inj hsame
        exact ⟨resolved, hresolved, rfl⟩
  | _ => simp [resolveDocument]

/-- **A document is one schema, or a list of them**, in a namespace that is one. -/
theorem tableOf_eq_ok_iff {document : Value} {around : String} {table : List NamedType} :
    tableOf document around = .ok table ↔ isNamespace around = true ∧
      (resolveDocument document around = .ok table ∨ ∃ documents tables,
        document = .array documents ∧
        List.Forall₂ (fun document part => resolveDocument document around = .ok part)
          documents tables ∧ table = tables.flatten) := by
  unfold tableOf
  split_ifs with valid
  · cases document with
    | array documents => simp [valid, resolveDocuments_eq_ok_iff, resolveDocument]
    | _ => simp [valid, resolveDocument]
  · simp [valid]

end AvroTypes.Schema
