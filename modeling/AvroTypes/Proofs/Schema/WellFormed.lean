import AvroTypes.Proofs.Schema.Resolution

/-!
# Well-formed entries

What everything behind the resolvers relies on.  A type that stands among alternatives is never a
record or an enumeration, since those have names and are moved out; they are found only where the
node that declares them is looked at itself, in its own entry or as a field, and then they stand
alone.  Whatever an entry says about its node stands in the document as it does in the entry.

* `TypeExpr.WellFormed`, `AreTypes`, `GoTogether` — types, alternatives, and alternatives with
  symbols.
* `NamedType.IsSpelledBy` — an entry and the node that it comes from.
* `areTypes_of_resolveType` — the alternatives of a type.
* `wellFormed_of_mem_table` — **every entry of a table is well formed.**
-/

namespace AvroTypes

open AvroTypes.Json (Value lookup? present?)

/-! ## Types -/

/-- **A type as it can stand among alternatives.**  An array has elements and nothing else has any.
Records and enumerations are nowhere in it. -/
inductive TypeExpr.WellFormed : TypeExpr → Prop
  | plain {kind : Kind} (simple : kind.IsSimple) : WellFormed (.plain kind)
  | arrayOf {elements : List TypeExpr} (nonempty : elements ≠ [])
      (each : ∀ element ∈ elements, WellFormed element) : WellFormed (.arrayOf elements)

/-- Alternatives that are types; there is at least one. -/
structure AreTypes (alternatives : List TypeExpr) : Prop where
  nonempty : alternatives ≠ []
  each : ∀ type ∈ alternatives, type.WellFormed

/-- **Alternatives and the symbols that go with them.**  A record stands alone, and so does an
enumeration, which is the only one to have symbols. -/
inductive GoTogether : List TypeExpr → Option (List String) → Prop
  | record : GoTogether [.plain .record] none
  | enum (symbols : List String) : GoTogether [.plain .enum] (some symbols)
  | types {alternatives : List TypeExpr} (areTypes : AreTypes alternatives) :
      GoTogether alternatives none

lemma not_wellFormed_of_not_isSimple {kind : Kind} (h : ¬ kind.IsSimple) :
    ¬ (TypeExpr.plain kind).WellFormed := by
  intro wellFormed
  generalize htype : TypeExpr.plain kind = type at wellFormed
  cases wellFormed with
  | plain simple =>
      obtain ⟨rfl, -⟩ := TypeExpr.of.inj htype
      exact h simple
  | arrayOf nonempty _ => exact nonempty (TypeExpr.of.inj htype).2.symm

lemma TypeExpr.WellFormed.kind_ne {type : TypeExpr} (h : type.WellFormed) :
    type.kind ≠ .record ∧ type.kind ≠ .enum := by
  cases h with
  | plain simple => exact ⟨simple.noRecord, simple.noEnum⟩
  | arrayOf _ _ => exact ⟨Kind.noConfusion, Kind.noConfusion⟩

lemma AreTypes.ne_plain {alternatives : List TypeExpr} (h : AreTypes alternatives) {kind : Kind}
    (composite : ¬ kind.IsSimple) : alternatives ≠ [.plain kind] := by
  rintro rfl
  exact not_wellFormed_of_not_isSimple composite (h.each _ List.mem_cons_self)

lemma GoTogether.ne_nil {alternatives : List TypeExpr} {symbols : Option (List String)}
    (h : GoTogether alternatives symbols) : alternatives ≠ [] := by
  cases h with
  | record => simp
  | enum => simp
  | types areTypes => exact areTypes.nonempty

lemma GoTogether.forms {alternatives : List TypeExpr} {symbols : Option (List String)}
    (h : GoTogether alternatives symbols) :
    alternatives = [.plain .record] ∨ alternatives = [.plain .enum] ∨ AreTypes alternatives := by
  cases h with
  | record => exact .inl rfl
  | enum => exact .inr (.inl rfl)
  | types areTypes => exact .inr (.inr areTypes)

lemma GoTogether.isSome_iff {alternatives : List TypeExpr} {symbols : Option (List String)}
    (h : GoTogether alternatives symbols) : symbols.isSome ↔ alternatives = [.plain .enum] := by
  cases h with
  | record => simp [TypeExpr.plain]
  | enum => simp
  | types areTypes => simpa using areTypes.ne_plain fun simple => simple.noEnum rfl

/-! ## Entries -/

/-- A field and what stands in the document for it: a node with its name and its documentation. -/
def Field.IsSpelledBy (field : Field) (value : Value) : Prop :=
  ∃ node : Schema.Node, value = .object node ∧
    lookup? node "name" = some (.string field.name) ∧ field.name ≠ "" ∧
    present? node "doc" = field.doc.map .string

/-- **An entry and the node that it comes from.** -/
structure NamedType.IsSpelledBy (type : NamedType) (node : Schema.Node) : Prop where
  name : lookup? node "name" = some (.string type.name)
  doc : present? node "doc" = type.doc.map .string
  symbols : ∀ symbols, type.symbols = some symbols →
    lookup? node "symbols" = some (.array (symbols.map .string))
  children : ∀ fields, type.children = some fields → ∃ values,
    lookup? node "fields" = some (.array values) ∧ List.Forall₂ Field.IsSpelledBy fields values

/-- **What can be relied on in an entry of a table.** -/
structure NamedType.WellFormed (type : NamedType) : Prop where
  space : Schema.isNamespace type.space = true
  name : type.name ≠ "" ∧ TypeScript.identifierOf type.name ≠ ""
  nonempty : type.alternatives ≠ []
  children : type.children.isSome ↔ type.alternatives = [.plain .record]
  symbols : type.symbols.isSome ↔ type.alternatives = [.plain .enum]
  alternatives : GoTogether type.alternatives type.symbols
  fields : ∀ field ∈ type.fields, GoTogether field.alternatives field.symbols
  spelled : ∃ node, type.schema = .object node ∧ type.IsSpelledBy node

namespace Schema

/-! ## The alternatives of a type -/

section

variable {parts : Value → String → Resolved → Prop} {node : Node} {around : String}
  {content : Content}

/-- The type of a node is made of types, unless the node itself is a record or an enumeration. -/
lemma Node.Opened.areTypes (h : node.Opened parts around content)
    (ofPart : ∀ {value space resolved}, parts value space resolved →
      AreTypes resolved.alternatives)
    (noRecord : content.form ≠ .record) (noEnum : ∀ symbols, content.form ≠ .enum symbols) :
    AreTypes content.type.alternatives := by
  have made := h.made
  have looks := looks_of_form h.contains.form
  cases hform : content.form with
  | nested =>
      rw [hform] at made
      obtain ⟨value, -, part⟩ := made
      exact ofPart part
  | array =>
      rw [hform] at made
      obtain ⟨value, elements, -, part, htype⟩ := made
      have inner := ofPart part
      rw [htype]
      exact ⟨by simp, by simpa using .arrayOf inner.nonempty inner.each⟩
  | record => exact absurd hform noRecord
  | enum symbols => exact absurd hform (noEnum symbols)
  | word kind =>
      rw [hform] at made looks
      obtain ⟨word, -, -, noRecord, noEnum, noArray⟩ := looks
      rw [show content.type = _ from made]
      refine ⟨by simp [Resolved.plain], ?_⟩
      simpa [Resolved.plain] using .plain ⟨noRecord, noEnum, noArray⟩

/-- The type of a node and its symbols go together. -/
lemma Node.Opened.goTogether (h : node.Opened parts around content)
    (ofPart : ∀ {value space resolved}, parts value space resolved →
      AreTypes resolved.alternatives) :
    GoTogether content.type.alternatives content.form.symbols? := by
  have made := h.made
  have areTypes := h.areTypes ofPart
  cases hform : content.form with
  | record =>
      rw [hform] at made
      rw [show content.type = _ from made]
      exact .record
  | enum symbols =>
      rw [hform] at made
      rw [show content.type = _ from made]
      exact .enum symbols
  | _ => exact .types (areTypes (by simp [hform]) (by simp [hform]))

end

/-- **The alternatives of a type are types.**  A node without a name is none that would have to be
declared, and a node with one leaves a reference. -/
theorem areTypes_of_resolveType {value : Value} {around : String} {resolved : Resolved}
    (h : resolveType value around = .ok resolved) : AreTypes resolved.alternatives := by
  refine resolveType_induction
    (motive := fun _ _ resolved => AreTypes resolved.alternatives) (fun h resolution => ?_) h
  cases resolution with
  | word simple =>
      refine ⟨by simp [Resolved.plain], ?_⟩
      simpa [Resolved.plain] using .plain (isSimple_ofWord_iff.mpr simple)
  | @union alternatives around parts nonempty each =>
      constructor
      · obtain ⟨first, rest, rfl⟩ := List.exists_cons_of_ne_nil nonempty
        cases each with
        | cons head _ => simp [head.2.nonempty]
      · intro type htype
        obtain ⟨part, hpart, htype⟩ := List.mem_flatMap.mp htype
        obtain ⟨_, _, -, -, ih⟩ := exists_of_forall₂_right each hpart
        exact ih.each type htype
  | unnamed unnamed opened =>
      have looks := looks_of_form opened.contains.form
      refine opened.areTypes (fun part => part.2) (fun record => ?_) (fun symbols enum => ?_)
      · simp [record, Node.Looks, unnamed] at looks
      · simp [enum, Node.Looks, unnamed] at looks
  | named =>
      exact ⟨by simp, by simpa using .plain ⟨by simp, by simp, by simp⟩⟩

/-! ## The entry of a node -/

/-- A field is spelled by its node, and its alternatives go with its symbols. -/
lemma IsFieldOf.isSpelledBy {space : String} {value : Value} {part : Field × List NamedType}
    (h : IsFieldOf ResolvesTo space value part) :
    part.1.IsSpelledBy value ∧ GoTogether part.1.alternatives part.1.symbols := by
  obtain ⟨node, content, rfl, opened, hfield⟩ := h
  obtain ⟨field, declared⟩ := part
  obtain ⟨name, hname, -, rfl⟩ := asField_eq_ok_iff.mp hfield
  have shapes := mismatch?_eq_none_iff.mp opened.contains.shapes
  obtain ⟨hlookup, nonempty⟩ := name?_eq_some_iff.mp hname
  refine ⟨⟨node, rfl, hlookup, nonempty, present?_eq_map_text? shapes (by simp [textKeys])⟩, ?_⟩
  exact opened.goTogether areTypes_of_resolveType

section

variable {node : Node} {around : String} {content : Content} {inner : Option ResolvedFields}

/-- A node has fields if it is a record, and no others have the alternatives of one. -/
lemma Node.Opened.isSome_iff (h : node.Opened ResolvesTo around content)
    (keeps : content.form.Keeps ResolvesTo node content.space inner) :
    inner.isSome ↔ content.type.alternatives = [.plain .record] := by
  have together := h.goTogether areTypes_of_resolveType
  have areTypes := h.areTypes areTypes_of_resolveType
  have made := h.made
  cases hform : content.form with
  | record =>
      rw [hform] at keeps made
      obtain ⟨_, _, -, -, rfl⟩ := keeps
      simp [show content.type = _ from made, Resolved.plain]
  | enum symbols =>
      rw [hform] at keeps made
      simp [show inner = none from keeps, show content.type = _ from made, Resolved.plain,
        TypeExpr.plain]
  | _ =>
      rw [hform] at keeps
      simp only [show inner = none from keeps, Option.isSome_none, Bool.false_eq_true, false_iff]
      exact (areTypes (by simp [hform]) (by simp [hform])).ne_plain fun simple =>
        simple.noRecord rfl

/-- The fields that are kept with a node are those that its document lists. -/
lemma Form.Keeps.isSpelledBy {form : Form} {space : String}
    (h : form.Keeps ResolvesTo node space inner) {fields : List Field}
    (hfields : inner.map ResolvedFields.fields = some fields) :
    (∃ values, lookup? node "fields" = some (.array values) ∧
        List.Forall₂ Field.IsSpelledBy fields values) ∧
      ∀ field ∈ fields, GoTogether field.alternatives field.symbols := by
  cases form with
  | record =>
      obtain ⟨values, parts, listed, hparts, rfl⟩ := h
      obtain rfl : parts.map Prod.fst = fields := by simpa using hfields
      refine ⟨⟨values, lookup?_of_present? (present?_of_list? listed), ?_⟩, fun field hfield => ?_⟩
      · rw [List.forall₂_map_left_iff]
        exact hparts.flip.imp fun _ _ part => (IsFieldOf.isSpelledBy part).1
      · obtain ⟨part, hpart, rfl⟩ := List.mem_map.mp hfield
        obtain ⟨_, _, -, isField⟩ := exists_of_forall₂_right hparts hpart
        exact (IsFieldOf.isSpelledBy isField).2
  | _ =>
      obtain rfl : inner = none := h
      simp at hfields

/-- The entry of a node says what the node says. -/
lemma Node.Opened.entry_isSpelledBy {name : String} (h : node.Opened ResolvesTo around content)
    (named : node.name? = some name)
    (keeps : content.form.Keeps ResolvesTo node content.space inner) :
    (node.entry name content inner).IsSpelledBy node where
  name := (name?_eq_some_iff.mp named).1
  doc := present?_eq_map_text? (mismatch?_eq_none_iff.mp h.contains.shapes) (by simp [textKeys])
  symbols := by
    intro symbols hsymbols
    have hform : content.form = .enum symbols := by
      cases hform : content.form <;> simp [Node.entry, hform, Form.symbols?] at hsymbols
      rw [hsymbols]
    have shapes := mismatch?_eq_none_iff.mp h.contains.shapes
    exact lookup?_of_present? (present?_of_symbols? shapes
      (symbols?_of_form (h.contains.form.trans (congrArg _ hform))))
  children := fun fields hfields => (keeps.isSpelledBy hfields).1

end

/-- **A node that is moved out has a well-formed entry.** -/
theorem MovesOut.wellFormed {node : Node} {inside : List NamedType} {type : NamedType}
    (h : MovesOut node inside type) : type.WellFormed := by
  obtain ⟨usable, content, inner, opened, keeps, hentry⟩ := h.entry
  have together := opened.goTogether areTypes_of_resolveType
  have spelled := opened.entry_isSpelledBy h.named keeps
  have children : type.children = inner.map ResolvedFields.fields :=
    congrArg NamedType.children hentry
  have alternatives : type.alternatives = content.type.alternatives :=
    congrArg NamedType.alternatives hentry
  have symbols : type.symbols = content.form.symbols? := congrArg NamedType.symbols hentry
  rw [← hentry] at spelled
  rw [← alternatives, ← symbols] at together
  constructor
  case space => exact h.space
  case name => exact ⟨(name?_eq_some_iff.mp h.named).2, by simpa using usable⟩
  case nonempty => exact together.ne_nil
  case children => rw [children, alternatives, Option.isSome_map, opened.isSome_iff keeps]
  case symbols => exact together.isSome_iff
  case alternatives => exact together
  case fields =>
    intro field hfield
    cases hinner : inner.map ResolvedFields.fields with
    | none => simp [NamedType.fields, children, hinner] at hfield
    | some fields =>
        refine (keeps.isSpelledBy hinner).2 field ?_
        simpa [NamedType.fields, children, hinner] using hfield
  case spelled => exact ⟨node, h.schema, spelled⟩

/-- Entries are well formed when they are moved out, and stay so. -/
theorem cumulative_wellFormed : Cumulative fun table => ∀ type ∈ table, type.WellFormed where
  nil := by simp
  append := fun h h' type htype => (List.mem_append.mp htype).elim (h type) (h' type)
  push := by
    intro node inside type moved h other hother
    rcases List.mem_append.mp hother with hother | hother
    · exact h other hother
    · obtain rfl := List.mem_singleton.mp hother
      exact moved.wellFormed

/-- **Every entry of a table is well formed.** -/
theorem wellFormed_of_mem_table {document : Value} {around : String} {table : List NamedType}
    (h : tableOf document around = .ok table) : ∀ type ∈ table, type.WellFormed :=
  cumulative_wellFormed.tableOf h

/-- The record with the enumeration behind a union and an array has a well-formed entry. -/
theorem wellFormed_nestingEntry :
    tableOf (.object nestingNode) "" = .ok [enumEntry, nestingEntry] ∧ nestingEntry.WellFormed := by
  have htable : tableOf (.object nestingNode) "" = .ok [enumEntry, nestingEntry] := by rfl
  exact ⟨htable, wellFormed_of_mem_table htable nestingEntry (by simp)⟩

end Schema

end AvroTypes
