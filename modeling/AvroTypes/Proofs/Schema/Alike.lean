import AvroTypes.Proofs.Schema.Hoisting
import AvroTypes.Proofs.Schema.Members

/-!
# Documents that resolve alike

Two documents can differ and still resolve to the same table.  To show it, one says which places of
the two are alike, and that whatever is alike has the same shape and has parts that are alike.  This
file makes tables out of that: alike documents have tables that are equal but for the schemas that
the entries carry, or both are refused, at the same place and in the same words.

What is alike is a relation between places that every statement takes as a parameter.  Each resolver
has one lemma, which compares two runs of it under the assumption that the runs for the parts agree;
the recursion is closed by an induction on the size of what stands at the first place.

* `Fault.SameReport`, `ResolveAlike` — faults that read the same, and outcomes that agree.
* `Resembles`, `Node.Resembles.form` — nodes that look the same have the same form.
* `Node.Matches`, `Site.Corresponds` — **one step: the same shape, and alike parts.**
* `NamedType.Mirrors` — an entry and its counterpart.
* `Node.Corresponds.content`, `Node.Matches.hoist`, `resolveUnion_alike` and their companions — the
  resolvers one by one.
* `resolvesAlike_of_alike`, `tableOf_alike`, `tableOf_alike_map` — **what is alike resolves alike.**
-/

namespace AvroTypes.Schema

open AvroTypes.Json (Value Members lookup? present?)

/-! ## Faults -/

/-- Two faults are reported alike: at the same place, and in the same words. -/
structure Fault.SameReport (fault fault' : Fault) : Prop where
  place : fault.place = fault'.place
  cause : fault.cause.message = fault'.cause.message

lemma Fault.SameReport.refl (fault : Fault) : fault.SameReport fault := ⟨rfl, rfl⟩

lemma Fault.SameReport.message {fault fault' : Fault} (h : fault.SameReport fault') :
    fault.message = fault'.message := by
  unfold Fault.message
  rw [h.place, h.cause]

section

variable {α α' : Type} {results : α → α' → Prop}

/-- Two resolutions agree. -/
abbrev ResolveAlike (results : α → α' → Prop) : Except Fault α → Except Fault α' → Prop :=
  Agree Fault.SameReport results

lemma agree_within (step : Step) {outcome : Except Fault α} {outcome' : Except Fault α'}
    (h : ResolveAlike results outcome outcome') :
    ResolveAlike results (within step outcome) (within step outcome') :=
  h.mapError fun _ _ same => ⟨by simp [same.place], same.cause⟩

lemma agree_of_eq {outcome outcome' : Except Fault α} (h : outcome = outcome') :
    ResolveAlike (fun a a' => a = a' ∧ outcome = .ok a) outcome outcome' := by
  subst h
  cases outcome with
  | ok a => exact .ok ⟨rfl, rfl⟩
  | error fault => exact .error (.refl fault)

end

/-! ## Looking the same -/

/-- Two values that look the same from outside: they are equal, or both are lists or both nodes. -/
inductive Resembles : Value → Value → Prop
  | same (value : Value) : Resembles value value
  | lists (values values' : List Value) : Resembles (.array values) (.array values')
  | nodes (node node' : Node) : Resembles (.object node) (.object node')

lemma Resembles.kind {value value' : Value} (h : Resembles value value') :
    value.kind = value'.kind := by
  cases h <;> rfl

/-- Members that look the same are the same text, or both are none. -/
lemma text?_of_resembles {node node' : Node} {key : String}
    (h : Option.Rel Resembles (present? node key) (present? node' key)) :
    node.text? key = node'.text? key := by
  rw [Node.text?, Node.text?]
  generalize present? node key = found, present? node' key = found' at h
  cases h with
  | none => rfl
  | some resembles => cases resembles <;> rfl

/-- The keys of the members that say what a node is.  With the namespace they are all that mean
something. -/
def describingKeys : List String := ["name", "doc", "type", "fields", "symbols", "items"]

/-- **Two nodes look the same**: each member that says what a node is stands in both or in neither,
and looks the same. -/
structure Node.Resembles (node node' : Node) : Prop where
  members : ∀ key ∈ describingKeys,
    Option.Rel Schema.Resembles (present? node key) (present? node' key)
  symbols : node.symbols? = node'.symbols?

namespace Node.Resembles

variable {node node' : Node}

lemma text? (h : node.Resembles node') {key : String} (describing : key ∈ describingKeys) :
    node.text? key = node'.text? key :=
  text?_of_resembles (h.members key describing)

lemma name? (h : node.Resembles node') : node.name? = node'.name? := by
  rw [Node.name?, Node.name?, h.text? (by simp [describingKeys])]

/-- **Nodes that look the same have the same form.** -/
theorem form (h : node.Resembles node') : node.form = node'.form := by
  have fields : (node.list? "fields").isNone = (node'.list? "fields").isNone := by
    have members := h.members "fields" (by simp [describingKeys])
    rw [Node.list?, Node.list?]
    generalize present? node "fields" = found, present? node' "fields" = found' at members
    cases members with
    | none => rfl
    | some resembles => cases resembles <;> rfl
  have items : (present? node "items").isNone = (present? node' "items").isNone := by
    have members := h.members "items" (by simp [describingKeys])
    generalize present? node "items" = found, present? node' "items" = found' at members
    cases members with
    | none => rfl
    | some _ => rfl
  have ofWord : node.formOfWord = node'.formOfWord := by
    funext word
    rw [Node.formOfWord, Node.formOfWord, h.name?, fields, items, h.symbols]
  have members := h.members "type" (by simp [describingKeys])
  rw [Node.form, Node.form, ofWord]
  generalize present? node "type" = found, present? node' "type" = found' at members
  cases members with
  | none => rfl
  | some resembles => cases resembles <;> rfl

end Node.Resembles

/-! ## One step -/

section

variable (alike : Site → Site → Prop)

/-- What two nodes with members of the right shapes have in common: what they say about themselves
is the same, and their parts are alike. -/
structure Node.Matches (role : Role) (node node' : Node) (around around' : String) : Prop where
  space : node.spaceIn around = node'.spaceIn around'
  form : node.form = node'.form
  name : node.name? = node'.name?
  doc : node.doc? = node'.doc?
  type : ∀ {space value}, node.spaceIn around = .ok space → present? node "type" = some value →
    ∃ value', present? node' "type" = some value' ∧
      alike ⟨.type, value, space⟩ ⟨.type, value', space⟩
  items : ∀ {space value}, node.spaceIn around = .ok space → node.text? "type" = some "array" →
    present? node "items" = some value →
    ∃ value', present? node' "items" = some value' ∧
      alike ⟨.type, value, space⟩ ⟨.type, value', space⟩
  fields : ∀ {space values}, role = .type → node.spaceIn around = .ok space →
    node.text? "type" = some "record" → node.list? "fields" = some values →
    ∃ values', node'.list? "fields" = some values' ∧
      List.Forall₂ (fun value value' => alike ⟨.field, value, space⟩ ⟨.field, value', space⟩)
        values values'

/-- Two nodes that are refused alike for the shapes of their members, or match. -/
structure Node.Corresponds (role : Role) (node node' : Node) (around around' : String) : Prop where
  shapes : (node.mismatch?.map fun mismatch => (Cause.wrongShape mismatch).message) =
    node'.mismatch?.map fun mismatch => (Cause.wrongShape mismatch).message
  rest : node.mismatch? = none → node.Matches alike role node' around around'

/-- **One step of a correspondence**: what stands at two places has the same shape, and its parts
are alike. -/
inductive Site.Corresponds : Site → Site → Prop
  | word {word around around' : String} :
      Corresponds ⟨.type, .string word, around⟩ ⟨.type, .string word, around'⟩
  | union {alternatives alternatives' : List Value} {around around' : String}
      (each : List.Forall₂ (fun value value' =>
        alike ⟨.type, value, around⟩ ⟨.type, value', around'⟩) alternatives alternatives') :
      Corresponds ⟨.type, .array alternatives, around⟩ ⟨.type, .array alternatives', around'⟩
  | node {role : Role} {node node' : Node} {around around' : String}
      (h : node.Corresponds alike role node' around around') :
      Corresponds ⟨role, .object node, around⟩ ⟨role, .object node', around'⟩
  | refused {role : Role} {value value' : Value} {around around' : String}
      (kind : value.kind = value'.kind) (noNode : value.kind ≠ .object)
      (noType : role = .type → value.kind ≠ .string ∧ value.kind ≠ .array) :
      Corresponds ⟨role, value, around⟩ ⟨role, value', around'⟩

variable {alike} in
/-- **What looks the same corresponds** if its parts do. -/
lemma Site.corresponds_of_resembles {role : Role} {value value' : Value} {around around' : String}
    (h : Resembles value value')
    (union : ∀ {values values'}, role = .type → value = .array values → value' = .array values' →
      List.Forall₂ (fun value value' => alike ⟨.type, value, around⟩ ⟨.type, value', around'⟩)
        values values')
    (node : ∀ {node node' : Node}, value = .object node → value' = .object node' →
      node.Corresponds alike role node' around around') :
    Site.Corresponds alike ⟨role, value, around⟩ ⟨role, value', around'⟩ := by
  cases h with
  | nodes => exact .node (node rfl rfl)
  | lists =>
      cases role with
      | type => exact .union (union rfl rfl rfl)
      | field => exact .refused rfl (by simp [Value.kind]) (by simp)
  | same value =>
      cases value with
      | object members => exact .node (node rfl rfl)
      | array values =>
          cases role with
          | type => exact .union (union rfl rfl rfl)
          | field => exact .refused rfl (by simp [Value.kind]) (by simp)
      | string word =>
          cases role with
          | type => exact .word
          | field => exact .refused rfl (by simp [Value.kind]) (by simp)
      | _ => exact .refused rfl (by simp [Value.kind]) (by simp [Value.kind])

/-! ## What alike parts resolve to -/

/-- **An entry and its counterpart** in an alike document: they come from alike nodes, and are equal
but for the nodes that they carry. -/
structure NamedType.Mirrors (entry mirror : NamedType) : Prop where
  rest : mirror = { entry with schema := mirror.schema }
  source : ∃ around around', Site.Declares ⟨.type, entry.schema, around⟩ entry ∧
    alike ⟨.type, entry.schema, around⟩ ⟨.type, mirror.schema, around'⟩

/-- Types with the same alternatives, behind which entries and their counterparts are declared. -/
structure Resolved.Mirrors (resolved mirror : Resolved) : Prop where
  alternatives : resolved.alternatives = mirror.alternatives
  declared : List.Forall₂ (NamedType.Mirrors alike) resolved.declared mirror.declared

/-- The same field, behind which entries and their counterparts are declared. -/
structure FieldMirrors (part mirror : Field × List NamedType) : Prop where
  field : part.1 = mirror.1
  declared : List.Forall₂ (NamedType.Mirrors alike) part.2 mirror.2

/-- The same fields, behind which entries and their counterparts are declared. -/
structure ResolvedFields.Mirrors (resolved mirror : ResolvedFields) : Prop where
  fields : resolved.fields = mirror.fields
  declared : List.Forall₂ (NamedType.Mirrors alike) resolved.declared mirror.declared

/-- Contents that are equal but for the entries declared in their types. -/
structure Content.Mirrors (content mirror : Content) : Prop where
  space : content.space = mirror.space
  form : content.form = mirror.form
  type : content.type.Mirrors alike mirror.type

/-- Types without declarations mirror themselves. -/
lemma Resolved.mirrors_plain (kind : Kind) : Resolved.Mirrors alike (.plain kind) (.plain kind) :=
  ⟨rfl, .nil⟩

variable {alike}

section

variable {role : Role} {node node' : Node} {around around' : String}

/-- **Corresponding nodes have corresponding contents**, as soon as their parts resolve alike. -/
lemma Node.Corresponds.content {type items type' items' : String → Except Fault Resolved}
    (h : node.Corresponds alike role node' around around')
    (ofType : ∀ {space}, node.mismatch? = none → node.spaceIn around = .ok space →
      node.form = .ok .nested → ResolveAlike (Resolved.Mirrors alike) (type space) (type' space))
    (ofItems : ∀ {space}, node.mismatch? = none → node.spaceIn around = .ok space →
      node.form = .ok .array →
      ResolveAlike (Resolved.Mirrors alike) (items space) (items' space)) :
    ResolveAlike (Content.Mirrors alike) (node.content around type items)
      (node'.content around' type' items') := by
  have shapes := h.shapes
  rw [Node.content, Node.content]
  cases hnode : node.mismatch? with
  | some mismatch =>
      cases hnode' : node'.mismatch? with
      | none => simp [hnode, hnode'] at shapes
      | some mismatch' =>
          rw [hnode, hnode'] at shapes
          exact .error ⟨rfl, Option.some.inj shapes⟩
  | none =>
      have hnode' : node'.mismatch? = none := by simpa [hnode] using shapes.symm
      have rest := h.rest hnode
      rw [hnode']
      dsimp only
      refine Agree.bind (agree_of_eq rest.space) ?_
      rintro space _ hspace - ⟨rfl, -⟩
      refine Agree.bind (agree_of_eq rest.form) ?_
      rintro form _ hform - ⟨rfl, -⟩
      cases form with
      | nested =>
          refine Agree.bind (agree_within _ (ofType hnode hspace hform)) fun _ _ mirrors => ?_
          exact .ok ⟨rfl, rfl, mirrors⟩
      | array =>
          refine Agree.bind (agree_within _ (ofItems hnode hspace hform)) fun _ _ mirrors => ?_
          exact .ok ⟨rfl, rfl, by rw [mirrors.alternatives], mirrors.declared⟩
      | record => exact .ok ⟨rfl, rfl, Resolved.mirrors_plain alike _⟩
      | enum symbols => exact .ok ⟨rfl, rfl, Resolved.mirrors_plain alike _⟩
      | word kind => exact .ok ⟨rfl, rfl, Resolved.mirrors_plain alike _⟩

/-- The fields that a node of a form goes on to resolve: those of a record, and no others. -/
def Form.inner (fields : Except Fault ResolvedFields) : Form → Except Fault (Option ResolvedFields)
  | .record => some <$> within (.key "fields") fields
  | _ => pure none

/-- A node with a usable name resolves its fields and is moved out. -/
lemma hoist_of_name? {name : String} {content : Content}
    {fields : String → Except Fault ResolvedFields} (named : node.name? = some name)
    (usable : (TypeScript.identifierOf name).isEmpty = false) :
    node.hoist content fields = content.form.inner (fields content.space) >>= fun inner =>
      .ok ⟨[.plain (.reference name)], content.type.declared
        ++ (inner.map ResolvedFields.declared).getD [] ++ [node.entry name content inner]⟩ := by
  rw [Node.hoist, named]
  simp only [usable]
  cases hform : content.form with
  | _ => simp [Form.inner, Node.entry, hform, pure, Except.pure, bind, Except.bind]

lemma Form.inner_alike {form : Form} {fields fields' : Except Fault ResolvedFields}
    (h : form = .record → ResolveAlike (ResolvedFields.Mirrors alike) fields fields') :
    ResolveAlike (Option.Rel (ResolvedFields.Mirrors alike)) (form.inner fields)
      (form.inner fields') := by
  cases form with
  | record => exact (agree_within _ (h rfl)).map fun _ _ => .some
  | _ => exact .ok .none

/-- Matching nodes have corresponding entries. -/
lemma Node.Matches.entry {name space : String} {form : Form} {type type' : Resolved}
    {inner inner' : Option ResolvedFields}
    (h : node.Matches alike .type node' around around')
    (similar : alike ⟨.type, .object node, around⟩ ⟨.type, .object node', around'⟩)
    (named : node.name? = some name) (hspace : node.spaceIn around = .ok space)
    (types : type.Mirrors alike type')
    (fields : inner.map ResolvedFields.fields = inner'.map ResolvedFields.fields) :
    NamedType.Mirrors alike (node.entry name ⟨space, form, type⟩ inner)
      (node'.entry name ⟨space, form, type'⟩ inner') where
  rest := by simp [Node.entry, types.alternatives, h.doc, fields]
  source := ⟨around, around', .intro named (spaceIn_eq_ok hspace) rfl, similar⟩

/-- **Matching nodes are moved out alike**, as soon as their fields resolve alike. -/
lemma Node.Matches.hoist {content content' : Content}
    {fields fields' : String → Except Fault ResolvedFields}
    (h : node.Matches alike .type node' around around')
    (similar : alike ⟨.type, .object node, around⟩ ⟨.type, .object node', around'⟩)
    (hspace : node.spaceIn around = .ok content.space) (mirrors : content.Mirrors alike content')
    (ofFields : content.form = .record →
      ResolveAlike (ResolvedFields.Mirrors alike) (fields content.space) (fields' content.space)) :
    ResolveAlike (Resolved.Mirrors alike) (node.hoist content fields)
      (node'.hoist content' fields') := by
  obtain ⟨space, form, type⟩ := content
  obtain ⟨space', form', type'⟩ := content'
  obtain ⟨rfl, rfl, types⟩ := mirrors
  cases hname : node.name? with
  | none =>
      rw [Node.hoist, Node.hoist, ← h.name, hname]
      exact .ok types
  | some name =>
      have hname' := h.name.symm.trans hname
      by_cases unusable : (TypeScript.identifierOf name).isEmpty = true
      · rw [Node.hoist, Node.hoist, hname, hname']
        simp only [unusable]
        exact .error (.refl _)
      rw [hoist_of_name? hname (by simpa using unusable),
        hoist_of_name? hname' (by simpa using unusable)]
      refine (Form.inner_alike ofFields).bind fun _ _ inner => .ok ⟨rfl, ?_⟩
      cases inner with
      | none =>
          exact List.rel_append (List.rel_append types.declared .nil)
            (.cons (h.entry similar hname hspace types rfl) .nil)
      | some mirrors =>
          exact List.rel_append (List.rel_append types.declared mirrors.declared)
            (.cons (h.entry similar hname hspace types (by simp [mirrors.fields])) .nil)

/-- Matching nodes are the same field. -/
lemma Node.Matches.asField {content content' : Content}
    (h : node.Matches alike .field node' around around')
    (mirrors : content.Mirrors alike content') :
    ResolveAlike (FieldMirrors alike) (node.asField content) (node'.asField content') := by
  rw [Node.asField, Node.asField, ← h.name]
  cases node.name? with
  | none => exact .error (.refl _)
  | some name =>
      refine .ok ⟨?_, mirrors.type.declared⟩
      simp [mirrors.type.alternatives, mirrors.form, h.doc]

end

/-! ## The recursion -/

/-- What stands at two places resolves alike. -/
def Site.ResolvesAlike (alike : Site → Site → Prop) : Site → Site → Prop
  | ⟨.type, value, around⟩, ⟨.type, value', around'⟩ =>
    ResolveAlike (Resolved.Mirrors alike) (resolveType value around) (resolveType value' around')
  | ⟨.field, value, around⟩, ⟨.field, value', around'⟩ =>
    ResolveAlike (FieldMirrors alike) (resolveField value around) (resolveField value' around')
  | _, _ => False

section

variable {around around' : String}

lemma resolveUnion_alike {alternatives alternatives' : List Value}
    (each : List.Forall₂ (fun value value' => Site.ResolvesAlike alike ⟨.type, value, around⟩
      ⟨.type, value', around'⟩) alternatives alternatives') (index : Nat) :
    ResolveAlike (Resolved.Mirrors alike) (resolveUnion alternatives around index)
      (resolveUnion alternatives' around' index) := by
  induction each generalizing index with
  | nil => exact .ok ⟨rfl, .nil⟩
  | cons first _ ih =>
      rw [resolveUnion, resolveUnion]
      refine (agree_within _ first).bind fun _ _ part => ?_
      refine (ih (index + 1)).bind fun _ _ rest => .ok ⟨?_, ?_⟩
      · simp [Resolved.append, part.alternatives, rest.alternatives]
      · exact List.rel_append part.declared rest.declared

lemma resolveFields_alike {fields fields' : List Value}
    (each : List.Forall₂ (fun value value' => Site.ResolvesAlike alike ⟨.field, value, around⟩
      ⟨.field, value', around'⟩) fields fields') (index : Nat) :
    ResolveAlike (ResolvedFields.Mirrors alike) (resolveFields fields around index)
      (resolveFields fields' around' index) := by
  induction each generalizing index with
  | nil => exact .ok ⟨rfl, .nil⟩
  | cons first _ ih =>
      rw [resolveFields, resolveFields]
      refine (agree_within _ first).bind ?_
      rintro ⟨field, declared⟩ ⟨field', declared'⟩ - - mirrors
      obtain rfl : field = field' := mirrors.field
      refine (ih (index + 1)).bind fun _ _ rest => .ok ⟨?_, ?_⟩
      · simp [ResolvedFields.cons, rest.fields]
      · exact List.rel_append mirrors.declared rest.declared

lemma resolveType_of_kind {value : Value} (noNode : value.kind ≠ .object)
    (noString : value.kind ≠ .string) (noArray : value.kind ≠ .array) :
    resolveType value around = .error (Cause.notAType value.kind).here := by
  cases value <;> simp_all [resolveType, Value.kind]

lemma resolveField_of_kind {value : Value} (noNode : value.kind ≠ .object) :
    resolveField value around = .error (Cause.notANode value.kind).here := by
  cases value <;> simp_all [resolveField, Value.kind]

end

/-- **Corresponding nodes resolve alike**, as soon as everything smaller does. -/
lemma Node.Corresponds.resolvesAlike {role : Role} {node node' : Node} {around around' : String}
    (h : node.Corresponds alike role node' around around')
    (similar : alike ⟨role, .object node, around⟩ ⟨role, .object node', around'⟩)
    (smaller : ∀ {site site' : Site}, sizeOf site.value < sizeOf node → alike site site' →
      site.ResolvesAlike alike site') :
    Site.ResolvesAlike alike ⟨role, .object node, around⟩ ⟨role, .object node', around'⟩ := by
  have contents : ResolveAlike (Content.Mirrors alike)
      (node.content around (fun space => resolveMember "type" node space)
        (fun space => resolveMember "items" node space))
      (node'.content around' (fun space => resolveMember "type" node' space)
        (fun space => resolveMember "items" node' space)) := by
    refine h.content (fun shapes hspace hform => ?_) fun shapes hspace hform => ?_
    · obtain ⟨value, found, -⟩ := looks_of_form hform
      obtain ⟨value', found', similar⟩ := (h.rest shapes).type hspace found
      rw [resolveMember_of_present? found, resolveMember_of_present? found']
      exact smaller (sizeOf_lt_of_present? found) similar
    · obtain ⟨word, value, found⟩ := looks_of_form hform
      obtain ⟨value', found', similar⟩ := (h.rest shapes).items hspace word found
      rw [resolveMember_of_present? found, resolveMember_of_present? found']
      exact smaller (sizeOf_lt_of_present? found) similar
  cases role with
  | field =>
      rw [Site.ResolvesAlike, resolveField, resolveField]
      refine contents.bind fun hcontent _ mirrors => ?_
      exact (h.rest (content_eq_ok_iff.mp hcontent).shapes).asField mirrors
  | type =>
      rw [Site.ResolvesAlike, resolveType, resolveType]
      refine contents.bind fun hcontent _ mirrors => ?_
      have opened := content_eq_ok_iff.mp hcontent
      have rest := h.rest opened.shapes
      refine rest.hoist similar opened.space mirrors fun record => ?_
      -- the fields of a record are listed in both nodes
      obtain ⟨word, -, values, listed⟩ := looks_of_form (opened.form.trans (congrArg _ record))
      obtain ⟨values', listed', each⟩ := rest.fields rfl opened.space word listed
      rw [resolveFieldsMember_of_list? listed, resolveFieldsMember_of_list? listed']
      refine resolveFields_alike (List.forall₂_iff_zip.mpr ⟨each.length_eq, ?_⟩) 0
      intro value value' hmem
      have hvalue := List.sizeOf_lt_of_mem (List.of_mem_zip hmem).1
      have hlist := sizeOf_lt_of_present? (present?_of_list? listed)
      refine smaller ?_ ((List.forall₂_iff_zip.mp each).2 hmem)
      simp only [Value.array.sizeOf_spec] at hlist ⊢
      omega

/-- **What is alike resolves alike**, if each step of what is alike leads to what is alike.  The
induction is on the size of what stands there. -/
theorem resolvesAlike_of_alike
    (steps : ∀ {site site'}, alike site site' → site.Corresponds alike site') {site site' : Site}
    (h : alike site site') : site.ResolvesAlike alike site' := by
  induction hsize : sizeOf site.value using Nat.strongRecOn generalizing site site' with
  | _ size ih =>
      cases steps h with
      | word =>
          refine (agree_of_eq rfl).mono ?_
          rintro resolved _ ⟨rfl, hword⟩
          obtain ⟨-, rfl⟩ := resolveWord_eq_ok_iff.mp hword
          exact Resolved.mirrors_plain alike _
      | @union alternatives alternatives' around around' each =>
          have smaller : List.Forall₂ (fun value value' =>
              Site.ResolvesAlike alike ⟨.type, value, around⟩ ⟨.type, value', around'⟩)
              alternatives alternatives' := by
            refine List.forall₂_iff_zip.mpr ⟨each.length_eq, fun {value value'} hmem => ?_⟩
            have hvalue := List.sizeOf_lt_of_mem (List.of_mem_zip hmem).1
            refine ih _ ?_ ((List.forall₂_iff_zip.mp each).2 hmem) rfl
            simp only [Value.array.sizeOf_spec] at hsize ⊢
            omega
          cases each with
          | nil => exact .error (.refl _)
          | cons _ _ => exact resolveUnion_alike smaller 0
      | @node role node node' around around' corresponds =>
          refine corresponds.resolvesAlike h fun smaller similar => ih _ ?_ similar rfl
          simp only [Value.object.sizeOf_spec] at hsize
          omega
      | @refused role value value' around around' kind noNode noType =>
          cases role with
          | type =>
              obtain ⟨noString, noArray⟩ := noType rfl
              rw [Site.ResolvesAlike, resolveType_of_kind noNode noString noArray,
                resolveType_of_kind (kind ▸ noNode) (kind ▸ noString) (kind ▸ noArray), kind]
              exact .error (.refl _)
          | field =>
              rw [Site.ResolvesAlike, resolveField_of_kind noNode,
                resolveField_of_kind (kind ▸ noNode), kind]
              exact .error (.refl _)

/-! ## Documents -/

/-- Two documents whose schemas are alike, one after the other. -/
inductive DocumentsAlike (alike : Site → Site → Prop) (space space' : String) :
    Value → Value → Prop
  | one {node node' : Node}
      (similar : alike ⟨.type, .object node, space⟩ ⟨.type, .object node', space'⟩) :
      DocumentsAlike alike space space' (.object node) (.object node')
  | several {documents documents' : List Value}
      (each : List.Forall₂ (fun document document' => document.kind = document'.kind ∧
        (document.kind = .object →
          alike ⟨.type, document, space⟩ ⟨.type, document', space'⟩)) documents documents') :
      DocumentsAlike alike space space' (.array documents) (.array documents')
  | refused {document document' : Value} (kind : document.kind = document'.kind)
      (noNode : document.kind ≠ .object) (noList : document.kind ≠ .array) :
      DocumentsAlike alike space space' document document'

section

variable {space space' : String}

lemma exists_node_of_kind {value : Value} (h : value.kind = .object) :
    ∃ node, value = .object node := by
  cases value <;> simp_all [Value.kind]

lemma resolveDocument_of_kind {value : Value} (noNode : value.kind ≠ .object) :
    resolveDocument value space = .error (Cause.notANode value.kind).here := by
  cases value <;> simp_all [resolveDocument, Value.kind]

lemma resolveDocument_alike
    (steps : ∀ {site site'}, alike site site' → site.Corresponds alike site')
    {document document' : Value} (kind : document.kind = document'.kind)
    (similar : document.kind = .object →
      alike ⟨.type, document, space⟩ ⟨.type, document', space'⟩) :
    ResolveAlike (List.Forall₂ (NamedType.Mirrors alike)) (resolveDocument document space)
      (resolveDocument document' space') := by
  by_cases noNode : document.kind ≠ .object
  · rw [resolveDocument_of_kind noNode, resolveDocument_of_kind (kind ▸ noNode), kind]
    exact .error (.refl _)
  · have isNode := not_not.mp noNode
    obtain ⟨node, rfl⟩ := exists_node_of_kind isNode
    obtain ⟨node', rfl⟩ := exists_node_of_kind (kind ▸ isNode)
    have resolves := resolvesAlike_of_alike steps (similar isNode)
    exact Agree.bind resolves fun _ _ mirrors => .ok mirrors.declared

lemma resolveDocuments_alike
    (steps : ∀ {site site'}, alike site site' → site.Corresponds alike site')
    {documents documents' : List Value}
    (each : List.Forall₂ (fun document document' => document.kind = document'.kind ∧
      (document.kind = .object → alike ⟨.type, document, space⟩ ⟨.type, document', space'⟩))
      documents documents') (index : Nat) :
    ResolveAlike (List.Forall₂ (NamedType.Mirrors alike)) (resolveDocuments documents space index)
      (resolveDocuments documents' space' index) := by
  induction each generalizing index with
  | nil => exact .ok .nil
  | cons first _ ih =>
      rw [resolveDocuments, resolveDocuments]
      refine (agree_within _ (resolveDocument_alike steps first.1 first.2)).bind
        fun _ _ part => ?_
      exact (ih (index + 1)).bind fun _ _ rest => .ok (List.rel_append part rest)

/-- Documents that look the same are alike if their schemas are. -/
lemma documentsAlike_of_resembles {document document' : Value} (h : Resembles document document')
    (one : document.kind = .object → alike ⟨.type, document, space⟩ ⟨.type, document', space'⟩)
    (several : ∀ {documents documents'}, document = .array documents →
      document' = .array documents' → List.Forall₂ (fun document document' =>
        Resembles document document' ∧
          alike ⟨.type, document, space⟩ ⟨.type, document', space'⟩) documents documents') :
    DocumentsAlike alike space space' document document' := by
  have list : ∀ {documents documents'}, document = .array documents →
      document' = .array documents' → DocumentsAlike alike space space' document document' := by
    rintro documents documents' rfl rfl
    refine .several ((several rfl rfl).imp fun _ _ each => ?_)
    exact ⟨each.1.kind, fun _ => each.2⟩
  cases h with
  | nodes => exact .one (one rfl)
  | lists => exact list rfl rfl
  | same document =>
      cases document with
      | object node => exact .one (one rfl)
      | array documents => exact list rfl rfl
      | _ => exact .refused rfl (by simp [Value.kind]) (by simp [Value.kind])

lemma tableOf_of_kind {document : Value} (valid : isNamespace space = true)
    (noNode : document.kind ≠ .object) (noList : document.kind ≠ .array) :
    tableOf document space = .error (Cause.notADocument document.kind).here := by
  cases document <;> simp_all [tableOf, Value.kind]

/-- **Alike documents have alike tables.** -/
theorem tableOf_alike (steps : ∀ {site site'}, alike site site' → site.Corresponds alike site')
    {document document' : Value}
    (spaces : space = space' ∨ isNamespace space = true ∧ isNamespace space' = true)
    (h : DocumentsAlike alike space space' document document') :
    ResolveAlike (List.Forall₂ (NamedType.Mirrors alike)) (tableOf document space)
      (tableOf document' space') := by
  by_cases valid : isNamespace space = true
  · have valid' : isNamespace space' = true := by
      rcases spaces with rfl | ⟨-, valid'⟩
      · exact valid
      · exact valid'
    cases h with
    | one similar =>
        simp only [tableOf, valid, valid', if_true]
        exact resolveDocument_alike steps rfl fun _ => similar
    | several each =>
        simp only [tableOf, valid, valid', if_true]
        exact resolveDocuments_alike steps each 0
    | refused kind noNode noList =>
        rw [tableOf_of_kind valid noNode noList,
          tableOf_of_kind valid' (kind ▸ noNode) (kind ▸ noList), kind]
        exact .error (.refl _)
  · obtain rfl : space = space' := spaces.resolve_right fun both => valid both.1
    simp only [tableOf, valid]
    exact .error (.refl _)

/-- **Alike documents have the same table up to a change of its entries**, if that change makes each
entry its counterpart. -/
theorem tableOf_alike_map {change : NamedType → NamedType}
    (steps : ∀ {site site'}, alike site site' → site.Corresponds alike site')
    {document document' : Value}
    (spaces : space = space' ∨ isNamespace space = true ∧ isNamespace space' = true)
    (h : DocumentsAlike alike space space' document document')
    (changed : ∀ {entry mirror}, NamedType.Mirrors alike entry mirror → mirror = change entry) :
    ResolveAlike (fun table table' => table' = table.map change) (tableOf document space)
      (tableOf document' space') := by
  refine (tableOf_alike steps spaces h).mono fun table table' mirrors => ?_
  rw [← List.forall₂_eq_eq_eq, List.forall₂_map_right_iff]
  exact mirrors.flip.imp fun _ _ => changed

end

end

end AvroTypes.Schema
