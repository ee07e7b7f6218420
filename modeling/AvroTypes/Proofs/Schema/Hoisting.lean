import AvroTypes.Proofs.Schema.Place
import AvroTypes.Proofs.Table.References

/-!
# Which named types reach the table

A document that resolves is taken apart completely: whatever stands at a place that resolving
visits resolves on its own, and what it declares is one block of the table.  In the other direction
every entry of the table comes from a place that resolving visits.  Together this says exactly
which named types of a document the table holds.

* `Site.Resolves` — what stands at a place resolves, in whichever role.
* `Site.Registers` — what resolving makes of a named type at a place: its entry.
* `Site.Resolves.moved_or_content`, `Node.ContainsResolved.type_cases` — what becomes of a node, and
  where its type comes from.
* `Site.Resolves.forward`, `Site.Resolves.backward` — one way down, in the two directions.
* `Reached.resolves`, `Reached.of_mem_table` — the same for all places of a document.
* `mem_table_iff_reached` — **the table holds the named types at visited places and no others.**
-/

namespace AvroTypes.Schema

open AvroTypes.Json (Value lookup? present?)

/-- What stands at a place resolves.  A field counts as its alternatives. -/
inductive Site.Resolves : Site → Resolved → Prop
  | type {value : Value} {around : String} {resolved : Resolved}
      (h : resolveType value around = .ok resolved) :
      Resolves ⟨.type, value, around⟩ resolved
  | field {value : Value} {around : String} {field : Field} {declared : List NamedType}
      (h : resolveField value around = .ok (field, declared)) :
      Resolves ⟨.field, value, around⟩ ⟨field.alternatives, declared⟩

/-! ## Nodes -/

section

variable {role : Role} {node : Node} {around : String} {resolved : Resolved}

/-- **What becomes of a node at a place that resolves.**  A named node in the place of a type ends
what it declares with its own entry, and is replaced by its name.  Any other is its content. -/
theorem Site.Resolves.moved_or_content (h : Site.Resolves ⟨role, .object node, around⟩ resolved) :
    (role = .type ∧ ∃ name content inner, node.name? = some name ∧
      node.ContainsResolved around content ∧
      content.form.Inner (resolveFieldsMember node content.space) inner ∧
      resolved = ⟨[.plain (.reference name)], content.type.declared
          ++ (inner.map ResolvedFields.declared).getD [] ++ [node.entry name content inner]⟩) ∨
    (∀ name, ¬ Site.IsNamed ⟨role, .object node, around⟩ name) ∧
      ∃ content, node.ContainsResolved around content ∧ resolved = content.type := by
  cases h with
  | type h =>
      obtain ⟨content, hcontent, hoisted⟩ := resolveType_object_eq_ok_iff.mp h
      rcases hoist_eq_ok_iff.mp hoisted with ⟨absent, rfl⟩ | ⟨name, inner, hname, -, hinner, rfl⟩
      · refine .inr ⟨?_, content, hcontent, rfl⟩
        rintro name ⟨-, other, hsame, hname⟩
        obtain rfl := Value.object.inj hsame
        simp [absent] at hname
      · exact .inl ⟨rfl, name, content, inner, hname, hcontent, hinner, rfl⟩
  | field h =>
      obtain ⟨content, hcontent, hfield⟩ := resolveField_object_eq_ok_iff.mp h
      obtain ⟨name, -, rfl, rfl⟩ := asField_eq_ok_iff.mp hfield
      refine .inr ⟨?_, content, hcontent, rfl⟩
      rintro name ⟨isType, -⟩
      cases isType

lemma Site.Resolves.content (h : Site.Resolves ⟨role, .object node, around⟩ resolved) :
    ∃ content, node.ContainsResolved around content := by
  obtain ⟨-, _, content, -, -, hcontent, -⟩ | ⟨-, content, hcontent, -⟩ := h.moved_or_content
  · exact ⟨content, hcontent⟩
  · exact ⟨content, hcontent⟩

/-- A named node in the place of a type is moved out. -/
lemma Site.Resolves.entry {name : String}
    (h : Site.Resolves ⟨.type, .object node, around⟩ resolved) (hname : node.name? = some name) :
    ∃ content inner, node.ContainsResolved around content ∧
      content.form.Inner (resolveFieldsMember node content.space) inner ∧
      resolved = ⟨[.plain (.reference name)], content.type.declared
          ++ (inner.map ResolvedFields.declared).getD [] ++ [node.entry name content inner]⟩ := by
  obtain ⟨-, other, content, inner, hother, hcontent, hinner, rfl⟩ | ⟨unnamed, -⟩ :=
    h.moved_or_content
  · obtain rfl := Option.some.inj (hname.symm.trans hother)
    exact ⟨content, inner, hcontent, hinner, rfl⟩
  · exact absurd ⟨rfl, node, rfl, hname⟩ (unnamed name)

lemma Node.ContainsResolved.space_eq {content : Content}
    (h : node.ContainsResolved around content) : content.space = node.spaceInside around :=
  spaceIn_eq_ok h.space

/-- A node declares the same entry wherever it stands, as long as the same namespace applies inside
it. -/
lemma Node.ContainsResolved.unique {first second : String} {content other : Content}
    (h : node.ContainsResolved first content) (h' : node.ContainsResolved second other)
    (same : node.spaceInside first = node.spaceInside second) : content = other := by
  have hspace : content.space = other.space := by rw [h.space_eq, h'.space_eq, same]
  have hform : content.form = other.form := Except.ok.inj (h.form.symm.trans h'.form)
  have typed := h.typed
  have typed' := h'.typed
  obtain ⟨space, form, type⟩ := content
  obtain ⟨space', form', type'⟩ := other
  obtain rfl : space = space' := hspace
  obtain rfl : form = form' := hform
  have htype : type = type' := by
    cases form with
    | nested => exact Except.ok.inj (Eq.trans (Eq.symm typed) typed')
    | array =>
        obtain ⟨elements, hitems, rfl⟩ := typed
        obtain ⟨elements', hitems', rfl⟩ := typed'
        obtain rfl := Except.ok.inj (hitems.symm.trans hitems')
        rfl
    | record => exact Eq.trans typed (Eq.symm typed')
    | enum symbols => exact Eq.trans typed (Eq.symm typed')
    | word kind => exact Eq.trans typed (Eq.symm typed')
  rw [htype]

lemma Form.Inner.unique {form : Form} {fields : Except Fault ResolvedFields}
    {inner other : Option ResolvedFields} (h : form.Inner fields inner)
    (h' : form.Inner fields other) : inner = other := by
  cases form with
  | record =>
      obtain ⟨resolved, hresolved, rfl⟩ := h
      obtain ⟨resolved', hresolved', rfl⟩ := h'
      rw [Except.ok.inj (hresolved.symm.trans hresolved')]
  | _ => exact Eq.trans h (Eq.symm h')

end

/-- **What resolving makes of a named type at a place**: its entry, with all that its type and its
fields resolve to. -/
inductive Site.Registers : Site → NamedType → Prop
  | intro {node : Node} {around name : String} {content : Content} {inner : Option ResolvedFields}
      (named : node.name? = some name) (contains : node.ContainsResolved around content)
      (fields : content.form.Inner (resolveFieldsMember node content.space) inner) :
      Registers ⟨.type, .object node, around⟩ (node.entry name content inner)

lemma Site.Registers.declares {site : Site} {entry : NamedType} (h : site.Registers entry) :
    site.Declares entry := by
  cases h with
  | intro hname hcontent _ => exact .intro hname hcontent.space_eq rfl

lemma Site.Registers.isNamed {site : Site} {entry : NamedType} (h : site.Registers entry) :
    site.IsNamed entry.name := by
  cases h with
  | intro hname _ _ => exact ⟨rfl, _, rfl, hname⟩

/-- An entry is determined by the node and the namespace that it comes from. -/
lemma Site.Registers.unique {site site' : Site} {entry entry' : NamedType}
    (h : site.Registers entry) (h' : site'.Registers entry') (schema : entry.schema = entry'.schema)
    (space : entry.space = entry'.space) : entry = entry' := by
  cases h with
  | intro hname hcontent hinner =>
      cases h' with
      | intro hname' hcontent' hinner' =>
          obtain rfl := Value.object.inj schema
          obtain rfl := Option.some.inj (hname.symm.trans hname')
          obtain rfl := hcontent.unique hcontent' <| by
            rw [← hcontent.space_eq, ← hcontent'.space_eq]
            exact space
          rw [hinner.unique hinner']

/-! ## One way down -/

section

variable {role : Role} {node : Node} {around : String}

/-- Below a node its type resolves, and is what the node contains. -/
lemma Node.ContainsResolved.forward {content : Content}
    (h : node.ContainsResolved around content) {steps : Pointer} {next : Site}
    (goes : Site.Leads ⟨role, .object node, around⟩ steps next) (isType : next.role = .type) :
    ∃ part, next.Resolves part ∧ part.declared = content.type.declared ∧
      referencesIn part.alternatives = referencesIn content.type.alternatives := by
  have typed := h.typed
  cases goes with
  | nested found noWord =>
      rw [form_eq_nested h.form found noWord] at typed
      refine ⟨content.type, .type ?_, rfl, rfl⟩
      rw [← h.space_eq, ← resolveMember_of_present? found]
      exact typed
  | items word found =>
      rw [form_eq_array h.form word] at typed
      obtain ⟨elements, hitems, htype⟩ := typed
      refine ⟨elements, .type ?_, by rw [htype], by rw [htype, referencesIn_arrayOf]⟩
      rw [← h.space_eq, ← resolveMember_of_present? found]
      exact hitems
  | field => simp at isType

/-- **Where the type of a node comes from**: from what stands under `type` or under `items`, or from
a word alone. -/
lemma Node.ContainsResolved.type_cases {content : Content}
    (h : node.ContainsResolved around content) :
    (∃ value, present? node "type" = some value ∧ (∀ word, value ≠ .string word) ∧
      Site.Resolves ⟨.type, value, node.spaceInside around⟩ content.type) ∨
    (∃ value elements, node.text? "type" = some "array" ∧ present? node "items" = some value ∧
      Site.Resolves ⟨.type, value, node.spaceInside around⟩ elements ∧
      content.type = ⟨[.arrayOf elements.alternatives], elements.declared⟩) ∨
    ∃ word kind, node.text? "type" = some word ∧ word ≠ "array" ∧
      (word = "record" → content.form = .record) ∧ content.type = .plain kind := by
  have typed := h.typed
  have looks := looks_of_form h.form
  rw [h.space_eq] at typed
  cases hform : content.form with
  | nested =>
      rw [hform] at typed looks
      obtain ⟨value, found, noWord⟩ := looks
      exact .inl ⟨value, found, noWord,
        .type ((resolveMember_of_present? found _).symm.trans typed)⟩
  | array =>
      rw [hform] at typed looks
      obtain ⟨word, value, found⟩ := looks
      obtain ⟨elements, hitems, htype⟩ := typed
      exact .inr (.inl ⟨value, elements, word, found,
        .type ((resolveMember_of_present? found _).symm.trans hitems), htype⟩)
  | record =>
      rw [hform] at typed looks
      exact .inr (.inr ⟨_, _, looks.1, by simp, fun _ => rfl, typed⟩)
  | enum symbols =>
      rw [hform] at typed looks
      exact .inr (.inr ⟨_, _, looks.1, by simp, by simp, typed⟩)
  | word kind =>
      rw [hform] at typed looks
      obtain ⟨word, hword, rfl, noRecord, -, noArray⟩ := looks
      refine .inr (.inr ⟨word, _, hword, ?_, ?_, typed⟩)
      · rintro rfl
        exact noArray rfl
      · rintro rfl
        exact absurd rfl noRecord

/-- What the type of a node declares is declared below the node. -/
lemma Node.ContainsResolved.backward {content : Content}
    (h : node.ContainsResolved around content) {entry : NamedType}
    (declared : entry ∈ content.type.declared) :
    ∃ steps next part, Site.Leads ⟨role, .object node, around⟩ steps next ∧ next.role = .type ∧
      next.Resolves part ∧ entry ∈ part.declared := by
  obtain ⟨value, found, noWord, resolves⟩ | ⟨value, elements, word, found, resolves, htype⟩ |
    ⟨word, kind, -, -, -, htype⟩ := h.type_cases
  · exact ⟨_, _, content.type, .nested found noWord, rfl, resolves, declared⟩
  · exact ⟨_, _, elements, .items word found, rfl, resolves, by simpa [htype] using declared⟩
  · simp [htype, Resolved.plain] at declared

end

lemma exists_of_forall₂_left {α β : Type} {R : α → β → Prop} {as : List α} {bs : List β} {i : Nat}
    {a : α} (h : List.Forall₂ R as bs) (found : as[i]? = some a) : ∃ b ∈ bs, R a b := by
  induction h generalizing i with
  | nil => simp at found
  | cons related _ ih =>
      cases i with
      | zero => exact ⟨_, List.mem_cons_self, by simpa [← Option.some.inj found] using related⟩
      | succ i =>
          obtain ⟨b, hb, hab⟩ := ih (by simpa using found)
          exact ⟨b, List.mem_cons_of_mem _ hb, hab⟩

lemma exists_of_forall₂_right {α β : Type} {R : α → β → Prop} {as : List α} {bs : List β} {b : β}
    (h : List.Forall₂ R as bs) (found : b ∈ bs) : ∃ (i : Nat) (a : α), as[i]? = some a ∧ R a b := by
  induction h with
  | nil => simp at found
  | cons related _ ih =>
      rcases List.mem_cons.mp found with rfl | found
      · exact ⟨0, _, rfl, related⟩
      · obtain ⟨i, a, ha, hab⟩ := ih found
        exact ⟨i + 1, a, by simpa using ha, hab⟩

/-- What is found one way below a place that resolves: it resolves too, and what it declares is a
block of what is declared above.  What it refers to is referred to above, or else in the entry that
is moved out from above. -/
def Site.Continues (site : Site) (resolved : Resolved) (next : Site) : Prop :=
  ∃ part, next.Resolves part ∧ part.declared <:+: resolved.declared ∧
    (((∀ name, ¬ site.IsNamed name) ∧
        referencesIn part.alternatives ⊆ referencesIn resolved.alternatives) ∨
      ∃ entry ∈ resolved.declared, site.Registers entry ∧
        referencesIn part.alternatives ⊆ entry.references)

lemma Site.Resolves.union {alternatives : List Value} {around : String} {resolved : Resolved}
    {i : Nat} {value : Value} (h : Site.Resolves ⟨.type, .array alternatives, around⟩ resolved)
    (found : alternatives[i]? = some value) :
    Site.Continues ⟨.type, .array alternatives, around⟩ resolved ⟨.type, value, around⟩ := by
  cases h with
  | type h =>
      obtain ⟨-, hunion⟩ := resolveType_array_eq_ok_iff.mp h
      obtain ⟨parts, hparts, rfl⟩ := resolveUnion_eq_ok_iff.mp hunion
      obtain ⟨part, hpart, hvalue⟩ := exists_of_forall₂_left hparts found
      refine ⟨part, .type hvalue, List.infix_of_mem_flatten (List.mem_map_of_mem hpart),
        .inl ⟨by simp [Site.IsNamed], ?_⟩⟩
      intro reference hreference
      simp only [referencesIn_eq_flatMap, List.mem_flatMap] at hreference ⊢
      obtain ⟨type, htype, hreference⟩ := hreference
      exact ⟨type, ⟨part, hpart, htype⟩, hreference⟩

lemma Site.Resolves.node {role : Role} {node : Node} {around : String} {resolved : Resolved}
    {steps : Pointer} {next : Site} (h : Site.Resolves ⟨role, .object node, around⟩ resolved)
    (leads : Site.Leads ⟨role, .object node, around⟩ steps next) (isType : next.role = .type) :
    Site.Continues ⟨role, .object node, around⟩ resolved next := by
  obtain ⟨rfl, name, content, inner, hname, hcontent, hinner, rfl⟩ |
    ⟨unnamed, content, hcontent, rfl⟩ := h.moved_or_content
  · obtain ⟨part, hpart, hdeclared, hreferences⟩ := hcontent.forward leads isType
    refine ⟨part, hpart, ?_, .inr ⟨node.entry name content inner,
      List.mem_append_right _ (List.mem_singleton_self _), .intro hname hcontent hinner, ?_⟩⟩
    · rw [hdeclared]
      exact ((List.prefix_append _ _).trans (List.prefix_append _ _)).isInfix
    · rw [hreferences]
      exact List.subset_append_left _ _
  · obtain ⟨part, hpart, hdeclared, hreferences⟩ := hcontent.forward leads isType
    refine ⟨part, hpart, hdeclared ▸ List.infix_rfl, .inl ⟨unnamed, ?_⟩⟩
    rw [hreferences]
    exact List.Subset.refl _

lemma Site.Resolves.field_of_record {node : Node} {around : String} {resolved : Resolved}
    {fields : List Value} {i : Nat} {value : Value}
    (h : Site.Resolves ⟨.type, .object node, around⟩ resolved)
    (word : node.text? "type" = some "record") (listed : node.list? "fields" = some fields)
    (found : fields[i]? = some value) :
    Site.Continues ⟨.type, .object node, around⟩ resolved
      ⟨.field, value, node.spaceInside around⟩ := by
  obtain ⟨content', hcontent'⟩ := h.content
  have looks := looks_of_form hcontent'.form
  rw [form_eq_record hcontent'.form word] at looks
  obtain ⟨name, hname⟩ := Option.isSome_iff_exists.mp looks.2.1
  obtain ⟨content, inner, hcontent, hinner, rfl⟩ := h.entry hname
  have registers : Site.Registers ⟨.type, .object node, around⟩ (node.entry name content inner) :=
    .intro hname hcontent hinner
  rw [form_eq_record hcontent.form word] at hinner
  obtain ⟨resolved, hresolved, rfl⟩ := hinner
  rw [resolveFieldsMember_of_list? listed] at hresolved
  obtain ⟨parts, hparts, rfl⟩ := resolveFields_eq_ok_iff.mp hresolved
  obtain ⟨⟨field, declared⟩, hpart, hfield⟩ := exists_of_forall₂_left hparts found
  rw [← hcontent.space_eq]
  have hdeclared : declared <:+: parts.flatMap Prod.snd :=
    List.infix_of_mem_flatten (List.mem_map_of_mem hpart)
  refine ⟨_, .field hfield, hdeclared.trans ⟨content.type.declared, [_], rfl⟩,
    .inr ⟨_, List.mem_append_right _ (List.mem_singleton_self _), registers, ?_⟩⟩
  refine List.Subset.trans ?_ (List.subset_append_right _ _)
  intro reference hreference
  exact List.mem_flatMap.mpr ⟨field, List.mem_map_of_mem hpart, hreference⟩

/-- **Resolving, one way further down.** -/
theorem Site.Resolves.forward {site next : Site} {resolved : Resolved} {steps : Pointer}
    (h : site.Resolves resolved) (goes : site.Visits steps next) :
    site.Continues resolved next := by
  obtain ⟨leads, roles⟩ := goes
  cases leads with
  | alternative found => exact h.union found
  | nested found noWord => exact h.node (.nested found noWord) rfl
  | items word found => exact h.node (.items word found) rfl
  | @field role node fields i value around word listed found =>
      obtain rfl : role = .type := by simpa using roles
      exact h.field_of_record word listed found

/-- What the fields of a node declare is declared below the node. -/
lemma Node.ContainsResolved.backward_field {node : Node} {around : String} {content : Content}
    {inner : Option ResolvedFields} (h : node.ContainsResolved around content)
    (hinner : content.form.Inner (resolveFieldsMember node content.space) inner)
    {entry : NamedType} (declared : entry ∈ (inner.map ResolvedFields.declared).getD []) :
    ∃ steps next part, Site.Visits ⟨.type, .object node, around⟩ steps next ∧
      next.Resolves part ∧ entry ∈ part.declared := by
  have looks := looks_of_form h.form
  cases hform : content.form with
  | record =>
      rw [hform] at hinner looks
      obtain ⟨resolved, hresolved, rfl⟩ := hinner
      obtain ⟨word, -, fields, listed⟩ := looks
      rw [resolveFieldsMember_of_list? listed] at hresolved
      obtain ⟨parts, hparts, rfl⟩ := resolveFields_eq_ok_iff.mp hresolved
      obtain ⟨⟨field, declared'⟩, hpart, hentry⟩ := List.mem_flatMap.mp declared
      obtain ⟨i, value, found, hfield⟩ := exists_of_forall₂_right hparts hpart
      rw [h.space_eq] at hfield
      exact ⟨_, _, _, ⟨.field word listed found, .inl rfl⟩, .field hfield, hentry⟩
  | _ =>
      rw [hform] at hinner
      simp [show inner = none from hinner] at declared

/-- **Resolving, seen from what it declares.**  Every entry that is declared here is the one moved
out from here, or is declared at a next place. -/
theorem Site.Resolves.backward {site : Site} {resolved : Resolved} {entry : NamedType}
    (h : site.Resolves resolved) (declared : entry ∈ resolved.declared) :
    site.Registers entry ∨ ∃ steps next part, site.Visits steps next ∧ next.Resolves part ∧
      entry ∈ part.declared := by
  have ofContent : ∀ {role : Role} {node : Node} {around : String} {content : Content},
      node.ContainsResolved around content → entry ∈ content.type.declared →
      ∃ steps next part, Site.Visits ⟨role, .object node, around⟩ steps next ∧
        next.Resolves part ∧ entry ∈ part.declared := by
    intro role node around content hcontent hentry
    obtain ⟨steps, next, part, leads, isType, hpart, hentry⟩ := hcontent.backward hentry
    exact ⟨steps, next, part, ⟨leads, .inr isType⟩, hpart, hentry⟩
  obtain ⟨role, value, around⟩ := site
  cases value with
  | object node =>
      obtain ⟨rfl, name, content, inner, hname, hcontent, hinner, rfl⟩ |
        ⟨-, content, hcontent, rfl⟩ := h.moved_or_content
      · rcases List.mem_append.mp declared with declared | declared
        · rcases List.mem_append.mp declared with declared | declared
          · exact .inr (ofContent hcontent declared)
          · exact .inr (hcontent.backward_field hinner declared)
        · obtain rfl := List.mem_singleton.mp declared
          exact .inl (.intro hname hcontent hinner)
      · exact .inr (ofContent hcontent declared)
  | array alternatives =>
      cases h with
      | type h =>
          obtain ⟨-, hunion⟩ := resolveType_array_eq_ok_iff.mp h
          obtain ⟨parts, hparts, rfl⟩ := resolveUnion_eq_ok_iff.mp hunion
          obtain ⟨part, hpart, hentry⟩ := List.mem_flatMap.mp declared
          obtain ⟨i, value, found, hvalue⟩ := exists_of_forall₂_right hparts hpart
          exact .inr ⟨_, _, part, ⟨.alternative found, .inl rfl⟩, .type hvalue, hentry⟩
      | field h => simp [resolveField] at h
  | string word =>
      cases h with
      | type h =>
          rw [resolveType, resolveWord] at h
          split at h <;> simp at h
          simp [← h, Resolved.plain] at declared
      | field h => simp [resolveField] at h
  | _ =>
      cases h with
      | type h => simp [resolveType] at h
      | field h => simp [resolveField] at h

/-! ## All places of a document -/

lemma Site.Resolves.below {top site : Site} {place : Pointer} {resolved : Resolved}
    (h : top.Resolves resolved) (below : Below Site.Visits top place site) :
    ∃ part, site.Resolves part ∧ part.declared <:+: resolved.declared := by
  induction below with
  | here => exact ⟨resolved, h, List.infix_rfl⟩
  | step _ goes ih =>
      obtain ⟨part, hpart, hinfix⟩ := ih
      obtain ⟨next, hnext, hinfix', -⟩ := hpart.forward goes
      exact ⟨next, hnext, hinfix'.trans hinfix⟩

/-- The entries that are declared below a place are each registered at a place there.  The induction
is on the size of what stands at the place, since every way leads to something smaller. -/
lemma Site.Resolves.registers {site : Site} {resolved : Resolved} {entry : NamedType}
    (h : site.Resolves resolved) (declared : entry ∈ resolved.declared) :
    ∃ place next, Below Site.Visits site place next ∧ next.Registers entry := by
  induction hsize : sizeOf site.value using Nat.strongRecOn generalizing site resolved with
  | _ size ih =>
      rcases h.backward declared with here | ⟨steps, next, part, goes, hpart, hentry⟩
      · exact ⟨[], site, .here, here⟩
      · have smaller := Site.size_lt_of_leads goes.1
        obtain ⟨place, last, below, hlast⟩ := ih _ (hsize ▸ smaller) hpart hentry rfl
        exact ⟨steps ++ place, last, below.head goes, hlast⟩

/-- The named node at a place is moved out from there. -/
lemma Site.Resolves.exists_registers {site : Site} {resolved : Resolved} {name : String}
    (h : site.Resolves resolved) (named : site.IsNamed name) :
    ∃ entry ∈ resolved.declared, site.Registers entry ∧ entry.name = name ∧
      resolved.alternatives = [.plain (.reference name)] := by
  obtain ⟨role, value, around⟩ := site
  obtain ⟨hrole, node, hvalue, hname⟩ := named
  obtain rfl : role = .type := hrole
  obtain rfl : value = .object node := hvalue
  obtain ⟨content, inner, hcontent, hinner, rfl⟩ := h.entry hname
  exact ⟨node.entry name content inner, List.mem_append_right _ (List.mem_singleton_self _),
    .intro hname hcontent hinner, rfl, rfl⟩

section

variable {document : Value} {around : String} {table : List NamedType}

/-- What stands at the top of a document resolves to a block of the table, and the table consists
of such blocks. -/
lemma tableOf_eq_ok (h : tableOf document around = .ok table) :
    (∀ {first : Pointer} {top : Site}, Opens document around first top →
      ∃ resolved, top.Resolves resolved ∧ resolved.declared <:+: table) ∧
    ∀ entry ∈ table, ∃ first top resolved, Opens document around first top ∧
      top.Resolves resolved ∧ entry ∈ resolved.declared := by
  obtain ⟨-, hdocument | ⟨documents, tables, rfl, htables, rfl⟩⟩ := tableOf_eq_ok_iff.mp h
  · obtain ⟨node, resolved, rfl, hresolved, rfl⟩ := resolveDocument_eq_ok_iff.mp hdocument
    refine ⟨fun opens => ?_, fun entry hentry => ⟨_, _, _, .one, .type hresolved, hentry⟩⟩
    cases opens
    exact ⟨resolved, .type hresolved, List.infix_rfl⟩
  · constructor
    · intro first top opens
      cases opens with
      | several found =>
          obtain ⟨declared, hmem, hdocument⟩ := exists_of_forall₂_left htables found
          obtain ⟨node, resolved, rfl, hresolved, rfl⟩ := resolveDocument_eq_ok_iff.mp hdocument
          exact ⟨resolved, .type hresolved, List.infix_of_mem_flatten hmem⟩
    · intro entry hentry
      obtain ⟨declared, hmem, hentry⟩ := List.mem_flatten.mp hentry
      obtain ⟨i, value, found, hdocument⟩ := exists_of_forall₂_right htables hmem
      obtain ⟨node, resolved, rfl, hresolved, rfl⟩ := resolveDocument_eq_ok_iff.mp hdocument
      exact ⟨_, _, _, .several found, .type hresolved, hentry⟩

/-- **What stands at a place that resolving visits resolves on its own**, and what it declares is
one block of the table. -/
theorem Reached.resolves (h : tableOf document around = .ok table) {place : Pointer} {site : Site}
    (reached : Reached Site.Visits document around place site) :
    ∃ resolved, site.Resolves resolved ∧ resolved.declared <:+: table := by
  obtain ⟨first, top, rest, opens, below, rfl⟩ := reached
  obtain ⟨resolved, hresolved, hinfix⟩ := (tableOf_eq_ok h).1 opens
  obtain ⟨part, hpart, hinfix'⟩ := hresolved.below below
  exact ⟨part, hpart, hinfix'.trans hinfix⟩

/-- **Every entry of the table has a place** that resolving visits, where it is registered. -/
theorem Reached.of_mem_table (h : tableOf document around = .ok table) {entry : NamedType}
    (hentry : entry ∈ table) :
    ∃ place site, Reached Site.Visits document around place site ∧ site.Registers entry := by
  obtain ⟨first, top, resolved, opens, hresolved, hentry⟩ := (tableOf_eq_ok h).2 entry hentry
  obtain ⟨rest, site, below, registers⟩ := hresolved.registers hentry
  exact ⟨first ++ rest, site, ⟨first, top, rest, opens, below, rfl⟩, registers⟩

/-- Two entries of a table that come from the same node and are in the same namespace are equal. -/
lemma eq_of_mem_table (h : tableOf document around = .ok table) {entry entry' : NamedType}
    (hentry : entry ∈ table) (hentry' : entry' ∈ table) (schema : entry.schema = entry'.schema)
    (space : entry.space = entry'.space) : entry = entry' := by
  obtain ⟨_, _, -, registers⟩ := Reached.of_mem_table h hentry
  obtain ⟨_, _, -, registers'⟩ := Reached.of_mem_table h hentry'
  exact registers.unique registers' schema space

end

/-! ## The named types of a document

A record in the place of a field says nothing about its own fields.  A type that is declared among
them is no part of the table, although the document has it in the place of a type.
-/

/-- **The table holds exactly the named types at the places that resolving visits.** -/
theorem mem_table_iff_reached {document : Value} {around : String} {table : List NamedType}
    (h : tableOf document around = .ok table) {node : Node} {name : String} :
    (∃ entry ∈ table, entry.schema = .object node ∧ entry.name = name) ↔
      node.name? = some name ∧ ∃ place space,
        Reached Site.Visits document around place ⟨.type, .object node, space⟩ := by
  constructor
  · rintro ⟨entry, hentry, hschema, rfl⟩
    obtain ⟨place, site, reached, registers⟩ := Reached.of_mem_table h hentry
    cases registers.declares with
    | intro hname hspace hschema' =>
        obtain rfl := Value.object.inj (hschema.symm.trans hschema')
        exact ⟨hname, place, _, reached⟩
  · rintro ⟨hname, place, space, reached⟩
    obtain ⟨resolved, hresolved, hinfix⟩ := reached.resolves h
    obtain ⟨entry, hentry, registers, rfl, -⟩ := hresolved.exists_registers ⟨rfl, node, rfl, hname⟩
    refine ⟨entry, hinfix.subset hentry, ?_, rfl⟩
    cases registers.declares with
    | intro _ _ hschema => exact hschema

/-- An enumeration. -/
def enumNode : Node :=
  [("type", .string "enum"), ("name", .string "E"), ("symbols", .array [.string "A"])]

/-- The entry of the enumeration. -/
def enumEntry : NamedType :=
  { name := "E", space := "", alternatives := [.plain .enum], symbols := some ["A"]
    schema := .object enumNode }

/-- A record with one field, which has the enumeration behind a union and an array. -/
def nestingNode : Node :=
  [("type", .string "record"), ("name", .string "R"), ("fields", .array [.object
    [("name", .string "f"), ("type", .array [.string "null", .object
      [("type", .string "array"), ("items", .object enumNode)]])]])]

/-- The entry of that record. -/
def nestingEntry : NamedType :=
  { name := "R", space := "", alternatives := [.plain .record], schema := .object nestingNode
    children := some [{ name := "f"
                        alternatives := [.plain .null, .arrayOf [.plain (.reference "E")]] }] }

/-- The enumeration behind a union and an array is in the table, so resolving visits it. -/
theorem reached_of_mem_table_nesting :
    tableOf (.object nestingNode) "" = .ok [enumEntry, nestingEntry] ∧
      ∃ place space, Reached Site.Visits (.object nestingNode) "" place
        ⟨.type, .object enumNode, space⟩ := by
  have htable : tableOf (.object nestingNode) "" = .ok [enumEntry, nestingEntry] := by rfl
  exact ⟨htable, ((mem_table_iff_reached htable).mp
    ⟨enumEntry, List.mem_cons_self, rfl, rfl⟩).2⟩

/-- A field that is declared as a record with the enumeration in it. -/
def recordField : Node :=
  [("name", .string "f"), ("type", .string "record"), ("fields", .array [.object
    [("name", .string "g"), ("type", .object enumNode)]])]

/-- A record with that field. -/
def shadowingNode : Node :=
  [("type", .string "record"), ("name", .string "R"), ("fields", .array [.object recordField])]

/-- The entry of that record. -/
def shadowingEntry : NamedType :=
  { name := "R", space := "", alternatives := [.plain .record], schema := .object shadowingNode
    children := some [{ name := "f", alternatives := [.plain .record] }] }

/-- **The enumeration below a record in the place of a field is lost.**  The document has it in the
place of a type, and no entry of the table has it as its schema. -/
theorem lost_below_field :
    tableOf (.object shadowingNode) "" = .ok [shadowingEntry] ∧
      Reached Site.Leads (.object shadowingNode) ""
        [.key "fields", .index 0, .key "fields", .index 0, .key "type"]
        ⟨.type, .object enumNode, ""⟩ ∧
      enumNode.name? = some "E" ∧ shadowingEntry.schema ≠ .object enumNode := by
  refine ⟨by rfl, ⟨[], _, _, .one, ?_, rfl⟩, by rfl,
    by simp [shadowingEntry, shadowingNode, enumNode]⟩
  -- into the record, into the one in its field, and to the type of that one's field
  have outer : Site.Leads ⟨.type, .object shadowingNode, ""⟩ [.key "fields", .index 0]
      ⟨.field, .object recordField, ""⟩ := .field (by rfl) (by rfl) (by rfl)
  have inner : Site.Leads ⟨.field, .object recordField, ""⟩ [.key "fields", .index 0]
      ⟨.field, .object [("name", .string "g"), ("type", .object enumNode)], ""⟩ :=
    .field (by rfl) (by rfl) (by rfl)
  exact ((Below.here.step outer).step inner).step (.nested (by rfl) (by simp))

end AvroTypes.Schema
