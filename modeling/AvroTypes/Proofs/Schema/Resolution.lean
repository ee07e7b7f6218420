import AvroTypes.Proofs.Schema.Hoisting
import AvroTypes.Proofs.Schema.Members

/-!
# Induction over a resolution

A value resolves in one of four ways: as a word, as a union, as a node that is replaced by its type,
or as a node that is moved out.  In each way the outcome is put together from what smaller values
resolve to, and it does not matter where in the document they stand.  `Resolution` is one such
step, with a relation for the smaller values as its parameter, so an induction over a resolution
has a single step to make and gets its hypotheses in the place of that relation.

A table comes about in two ways only: lists of entries are put together, and a node that is moved
out adds its entry to those declared inside it.  What is kept in both is `Cumulative`, and holds of
every table.

* `Form.MadeOf`, `Node.Opened`, `Form.Keeps` — the parts of a node, each with what it resolves to.
* `Resolution`, `resolution_of_resolveType` — **one step.**
* `resolveType_induction` — **all of them.**
* `MovesOut`, `Cumulative`, `Cumulative.tableOf` — **the same for tables.**
-/

namespace AvroTypes.Schema

open AvroTypes.Json (Value lookup? present?)

/-- A value resolves in a namespace. -/
abbrev ResolvesTo (value : Value) (space : String) (resolved : Resolved) : Prop :=
  resolveType value space = .ok resolved

section

variable (parts : Value → String → Resolved → Prop)

/-- How the type of a node of some form is made, given what the parts of the node are related to. -/
def Form.MadeOf (node : Node) (space : String) (type : Resolved) : Form → Prop
  | .nested => ∃ value, present? node "type" = some value ∧ parts value space type
  | .array => ∃ value elements, present? node "items" = some value ∧ parts value space elements ∧
      type = ⟨[.arrayOf elements.alternatives], elements.declared⟩
  | .record => type = .plain .record
  | .enum _ => type = .plain .enum
  | .word kind => type = .plain kind

/-- **A node with a content**, and how its type is made. -/
structure Node.Opened (node : Node) (around : String) (content : Content) : Prop where
  contains : node.ContainsResolved around content
  made : content.form.MadeOf parts node content.space content.type

/-- A field of a record and what it declares, from the node that stands there. -/
def IsFieldOf (space : String) (value : Value) (part : Field × List NamedType) : Prop :=
  ∃ (node : Node) (content : Content), value = .object node ∧
    node.Opened parts space content ∧ node.asField content = .ok part

/-- The fields that go with a node of some form: those of a record, one for each that is listed. -/
def Form.Keeps (node : Node) (space : String) (inner : Option ResolvedFields) : Form → Prop
  | .record => ∃ values fields, node.list? "fields" = some values ∧
      List.Forall₂ (IsFieldOf parts space) values fields ∧
      inner = some ⟨fields.map Prod.fst, fields.flatMap Prod.snd⟩
  | _ => inner = none

/-- **One step of a resolution**: what a value resolves to, given what its parts are related to. -/
inductive Resolution : Value → String → Resolved → Prop
  /-- A word that is a type. -/
  | word {word around : String} (simple : word ∉ compositeWords) :
      Resolution (.string word) around (.plain (Kind.ofWord word))
  /-- The alternatives of a union, one after the other. -/
  | union {alternatives : List Value} {around : String} {resolved : List Resolved}
      (nonempty : alternatives ≠ [])
      (each : List.Forall₂ (fun value part => parts value around part) alternatives resolved) :
      Resolution (.array alternatives) around
        ⟨resolved.flatMap Resolved.alternatives, resolved.flatMap Resolved.declared⟩
  /-- A node without a name. -/
  | unnamed {node : Node} {around : String} {content : Content} (unnamed : node.name? = none)
      (opened : node.Opened parts around content) :
      Resolution (.object node) around content.type
  /-- A node with a name, which is moved out. -/
  | named {node : Node} {around name : String} {content : Content} {inner : Option ResolvedFields}
      (named : node.name? = some name) (usable : (TypeScript.identifierOf name).isEmpty = false)
      (opened : node.Opened parts around content)
      (fields : content.form.Keeps parts node content.space inner) :
      Resolution (.object node) around ⟨[.plain (.reference name)], content.type.declared
        ++ (inner.map ResolvedFields.declared).getD [] ++ [node.entry name content inner]⟩

end

/-! ## One step -/

lemma Node.ContainsResolved.opened {node : Node} {around : String} {content : Content}
    (h : node.ContainsResolved around content) : node.Opened ResolvesTo around content := by
  refine ⟨h, ?_⟩
  have typed := h.typed
  have looks := looks_of_form h.form
  cases hform : content.form with
  | nested =>
      rw [hform] at typed looks
      obtain ⟨value, found, -⟩ := looks
      exact ⟨value, found, (resolveMember_of_present? found _).symm.trans typed⟩
  | array =>
      rw [hform] at typed looks
      obtain ⟨-, value, found⟩ := looks
      obtain ⟨elements, hitems, htype⟩ := typed
      exact ⟨value, elements, found, (resolveMember_of_present? found _).symm.trans hitems, htype⟩
  | _ =>
      rw [hform] at typed
      exact typed

lemma isFieldOf_of_resolveField {value : Value} {space : String} {part : Field × List NamedType}
    (h : resolveField value space = .ok part) : IsFieldOf ResolvesTo space value part := by
  cases value with
  | object node =>
      obtain ⟨content, hcontent, hfield⟩ := resolveField_object_eq_ok_iff.mp h
      exact ⟨node, content, rfl, hcontent.opened, hfield⟩
  | _ => simp [resolveField] at h

lemma keeps_of_inner {node : Node} {around : String} {content : Content}
    {inner : Option ResolvedFields} (h : node.ContainsResolved around content)
    (hinner : content.form.Inner (resolveFieldsMember node content.space) inner) :
    content.form.Keeps ResolvesTo node content.space inner := by
  have looks := looks_of_form h.form
  cases hform : content.form with
  | record =>
      rw [hform] at hinner looks
      obtain ⟨resolved, hresolved, rfl⟩ := hinner
      obtain ⟨-, -, values, listed⟩ := looks
      rw [resolveFieldsMember_of_list? listed] at hresolved
      obtain ⟨fields, hfields, rfl⟩ := resolveFields_eq_ok_iff.mp hresolved
      exact ⟨values, fields, listed, hfields.imp fun _ _ => isFieldOf_of_resolveField, rfl⟩
  | _ =>
      rw [hform] at hinner
      exact hinner

/-- **Whatever resolves makes one step**, to parts that resolve. -/
theorem resolution_of_resolveType {value : Value} {around : String} {resolved : Resolved}
    (h : resolveType value around = .ok resolved) :
    Resolution ResolvesTo value around resolved := by
  cases value with
  | string word =>
      rw [resolveType, resolveWord_eq_ok_iff] at h
      obtain ⟨simple, rfl⟩ := h
      exact .word simple
  | array alternatives =>
      obtain ⟨nonempty, hunion⟩ := resolveType_array_eq_ok_iff.mp h
      obtain ⟨parts, hparts, rfl⟩ := resolveUnion_eq_ok_iff.mp hunion
      exact .union nonempty hparts
  | object node =>
      obtain ⟨content, hcontent, hoisted⟩ := resolveType_object_eq_ok_iff.mp h
      rcases hoist_eq_ok_iff.mp hoisted with
        ⟨hname, rfl⟩ | ⟨name, inner, hname, usable, hinner, rfl⟩
      · exact .unnamed hname hcontent.opened
      · exact .named hname usable hcontent.opened (keeps_of_inner hcontent hinner)
  | _ => simp [resolveType] at h

/-! ## Smaller parts -/

section

variable {parts parts' : Value → String → Resolved → Prop}

lemma Node.Opened.mono {node : Node} {around : String} {content : Content}
    (h : node.Opened parts around content)
    (imp : ∀ value space resolved, sizeOf value < sizeOf node → parts value space resolved →
      parts' value space resolved) :
    node.Opened parts' around content := by
  refine ⟨h.contains, ?_⟩
  have made := h.made
  cases hform : content.form with
  | nested =>
      rw [hform] at made
      obtain ⟨value, found, part⟩ := made
      exact ⟨value, found, imp _ _ _ (sizeOf_lt_of_present? found) part⟩
  | array =>
      rw [hform] at made
      obtain ⟨value, elements, found, part, htype⟩ := made
      exact ⟨value, elements, found, imp _ _ _ (sizeOf_lt_of_present? found) part, htype⟩
  | _ =>
      rw [hform] at made
      exact made

lemma Form.Keeps.mono {form : Form} {node : Node} {space : String} {inner : Option ResolvedFields}
    (h : form.Keeps parts node space inner)
    (imp : ∀ value space resolved, sizeOf value < sizeOf node → parts value space resolved →
      parts' value space resolved) :
    form.Keeps parts' node space inner := by
  cases form with
  | record =>
      obtain ⟨values, fields, listed, hfields, rfl⟩ := h
      refine ⟨values, fields, listed, ?_, rfl⟩
      have hlist := sizeOf_lt_of_present? (present?_of_list? listed)
      refine (List.forall₂_iff_zip.mpr ⟨hfields.length_eq, ?_⟩)
      intro value field hmem
      obtain ⟨member, content, rfl, opened, hfield⟩ := (List.forall₂_iff_zip.mp hfields).2 hmem
      refine ⟨member, content, rfl, opened.mono fun value space resolved smaller => ?_, hfield⟩
      have hmember := List.sizeOf_lt_of_mem (List.of_mem_zip hmem).1
      simp only [Value.object.sizeOf_spec, Value.array.sizeOf_spec] at hmember hlist
      exact imp _ _ _ (by omega)
  | _ => exact h

/-- The parts of a step are smaller than what makes it. -/
lemma Resolution.mono {value : Value} {around : String} {resolved : Resolved}
    (h : Resolution parts value around resolved)
    (imp : ∀ part space resolved, sizeOf part < sizeOf value → parts part space resolved →
      parts' part space resolved) :
    Resolution parts' value around resolved := by
  cases h with
  | word simple => exact .word simple
  | @union alternatives _ resolved nonempty each =>
      refine .union nonempty <| List.forall₂_iff_zip.mpr
        ⟨each.length_eq, fun {value part} hmem => ?_⟩
      have smaller := List.sizeOf_lt_of_mem (List.of_mem_zip hmem).1
      refine imp _ _ _ ?_ ((List.forall₂_iff_zip.mp each).2 hmem)
      simp only [Value.array.sizeOf_spec]
      omega
  | unnamed hname opened =>
      refine .unnamed hname (opened.mono fun part space resolved smaller => imp _ _ _ ?_)
      simp only [Value.object.sizeOf_spec]
      omega
  | named hname usable opened fields =>
      refine .named hname usable (opened.mono fun part space resolved smaller => imp _ _ _ ?_)
        (fields.mono fun part space resolved smaller => imp _ _ _ ?_)
      · simp only [Value.object.sizeOf_spec]
        omega
      · simp only [Value.object.sizeOf_spec]
        omega

end

/-- **Induction over a resolution.**  Whatever holds of a value that resolves as soon as it holds of
its parts, holds of every value that resolves. -/
theorem resolveType_induction {motive : Value → String → Resolved → Prop}
    (step : ∀ {value around resolved}, resolveType value around = .ok resolved →
      Resolution (fun part space resolved => ResolvesTo part space resolved ∧
        motive part space resolved) value around resolved → motive value around resolved)
    {value : Value} {around : String} {resolved : Resolved}
    (h : resolveType value around = .ok resolved) : motive value around resolved := by
  induction hsize : sizeOf value using Nat.strongRecOn generalizing value around resolved with
  | _ size ih =>
      refine step h ((resolution_of_resolveType h).mono ?_)
      intro part space resolved smaller hpart
      exact ⟨hpart, ih _ (hsize ▸ smaller) hpart rfl⟩

/-! ## Tables -/

lemma spaceIn_self {node : Node} {around space : String} (h : node.spaceIn around = .ok space) :
    node.spaceIn space = .ok space := by
  rw [Node.spaceIn] at h ⊢
  split at h
  · rfl
  · exact h

/-- **A node resolves the same once its own namespace is around it.** -/
theorem resolveType_self {node : Node} {around space : String} {resolved : Resolved}
    (hspace : node.spaceIn around = .ok space)
    (h : resolveType (.object node) around = .ok resolved) :
    resolveType (.object node) space = .ok resolved := by
  obtain ⟨content, contains, hoisted⟩ := resolveType_object_eq_ok_iff.mp h
  obtain rfl := Except.ok.inj (hspace.symm.trans contains.space)
  exact resolveType_object_eq_ok_iff.mpr
    ⟨content, ⟨contains.shapes, spaceIn_self hspace, contains.form, contains.typed⟩, hoisted⟩

/-- **A node is moved out as an entry** of the table, behind what is declared inside it.  It
resolves to that on its own as well, in the namespace of the entry. -/
structure MovesOut (node : Node) (inside : List NamedType) (type : NamedType) : Prop where
  schema : type.schema = .object node
  named : node.name? = some type.name
  space : isNamespace type.space = true
  resolves : resolveType (.object node) type.space =
    .ok ⟨[.plain (.reference type.name)], inside ++ [type]⟩

/-- The entry is made from what the parts of the node resolve to. -/
lemma MovesOut.entry {node : Node} {inside : List NamedType} {type : NamedType}
    (h : MovesOut node inside type) :
    (TypeScript.identifierOf type.name).isEmpty = false ∧
      ∃ content inner, node.Opened ResolvesTo type.space content ∧
        content.form.Keeps ResolvesTo node content.space inner ∧
        type = node.entry type.name content inner := by
  have resolution := resolution_of_resolveType h.resolves
  generalize hresolved : Resolved.mk _ _ = resolved at resolution
  cases resolution with
  | unnamed unnamed _ => simp [h.named] at unnamed
  | @named _ _ name content inner named usable opened fields =>
      obtain rfl := Option.some.inj (h.named.symm.trans named)
      obtain ⟨-, hentry⟩ := List.append_inj' (Resolved.mk.inj hresolved).2 rfl
      exact ⟨usable, content, inner, opened, fields, (List.cons.inj hentry).1⟩

/-- **A property that lists of entries keep** when they are put together and when a node is moved
out. -/
structure Cumulative (P : List NamedType → Prop) : Prop where
  nil : P []
  append : ∀ {first second : List NamedType}, P first → P second → P (first ++ second)
  push : ∀ {node : Node} {inside : List NamedType} {type : NamedType},
    MovesOut node inside type → P inside → P (inside ++ [type])

namespace Cumulative

variable {P : List NamedType → Prop} {parts : Value → String → Resolved → Prop} {node : Node}

lemma flatMap (keeps : Cumulative P) {α : Type} {lists : List α} {entries : α → List NamedType}
    (h : ∀ part ∈ lists, P (entries part)) : P (lists.flatMap entries) := by
  induction lists with
  | nil => exact keeps.nil
  | cons first rest ih =>
      rw [List.flatMap_cons]
      exact keeps.append (h first List.mem_cons_self)
        (ih fun part hpart => h part (List.mem_cons_of_mem _ hpart))

lemma opened (keeps : Cumulative P) {around : String} {content : Content}
    (h : node.Opened parts around content)
    (ofPart : ∀ {value resolved}, parts value content.space resolved → P resolved.declared) :
    P content.type.declared := by
  have made := h.made
  cases hform : content.form with
  | nested =>
      rw [hform] at made
      obtain ⟨value, -, part⟩ := made
      exact ofPart part
  | array =>
      rw [hform] at made
      obtain ⟨value, elements, -, part, htype⟩ := made
      rw [htype]
      show P elements.declared
      exact ofPart part
  | _ =>
      rw [hform] at made
      rw [show content.type = _ from made]
      exact keeps.nil

lemma fields (keeps : Cumulative P) {form : Form} {space : String} {inner : Option ResolvedFields}
    (h : form.Keeps parts node space inner) (valid : isNamespace space = true)
    (ofPart : ∀ {value space resolved}, parts value space resolved → isNamespace space = true →
      P resolved.declared) : P ((inner.map ResolvedFields.declared).getD []) := by
  cases form with
  | record =>
      obtain ⟨values, fields, -, hfields, rfl⟩ := h
      refine keeps.flatMap fun ⟨field, declared⟩ hpart => ?_
      obtain ⟨i, value, -, member, content, -, opened, hfield⟩ :=
        exists_of_forall₂_right hfields hpart
      obtain ⟨-, -, rfl, -⟩ := asField_eq_ok_iff.mp hfield
      have inside := isNamespace_of_spaceIn opened.contains.space valid
      exact keeps.opened opened fun part => ofPart part inside
  | _ =>
      obtain rfl : inner = none := h
      exact keeps.nil

/-- What a value declares.  A node that is moved out comes right behind what is declared in its type
and in its fields. -/
theorem resolveType (keeps : Cumulative P) {value : Value} {around : String} {resolved : Resolved}
    (h : resolveType value around = .ok resolved) (valid : isNamespace around = true) :
    P resolved.declared := by
  revert valid
  refine resolveType_induction
    (motive := fun _ around resolved => isNamespace around = true → P resolved.declared)
    (fun h resolution valid => ?_) h
  cases resolution with
  | word => exact keeps.nil
  | union _ each =>
      refine keeps.flatMap fun part hpart => ?_
      obtain ⟨_, _, -, -, ih⟩ := exists_of_forall₂_right each hpart
      exact ih valid
  | unnamed _ opened =>
      have inside := isNamespace_of_spaceIn opened.contains.space valid
      exact keeps.opened opened fun part => part.2 inside
  | named hname _ opened fields =>
      have inside := isNamespace_of_spaceIn opened.contains.space valid
      have before := keeps.append (keeps.opened opened fun part => part.2 inside)
        (keeps.fields fields inside fun part => part.2)
      exact keeps.push ⟨rfl, hname, inside, resolveType_self opened.contains.space h⟩ before

/-- **What lists of entries keep holds of every table.** -/
theorem tableOf (keeps : Cumulative P) {document : Value} {around : String}
    {table : List NamedType} (h : tableOf document around = .ok table) : P table := by
  obtain ⟨valid, h⟩ := tableOf_eq_ok_iff.mp h
  have one : ∀ {document : Value} {part : List NamedType},
      resolveDocument document around = .ok part → P part := by
    intro document part hdocument
    obtain ⟨node, resolved, -, hresolved, rfl⟩ := resolveDocument_eq_ok_iff.mp hdocument
    exact keeps.resolveType hresolved valid
  rcases h with hdocument | ⟨documents, tables, -, htables, rfl⟩
  · exact one hdocument
  · rw [← List.flatMap_id]
    refine keeps.flatMap fun part hpart => ?_
    obtain ⟨_, _, -, hdocument⟩ := exists_of_forall₂_right htables hpart
    exact one hdocument

end Cumulative

end AvroTypes.Schema
