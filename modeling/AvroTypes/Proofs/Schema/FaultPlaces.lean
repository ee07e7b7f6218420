import AvroTypes.Proofs.Schema.Place
import AvroTypes.Proofs.Schema.PointerText

/-!
# Where faults are

A fault is reported with a place, put together on the way out from the part in which it was found.
Every step that is put in front was taken before: to the `type` or the `items` of a node that has
them, to the `fields` of a record that has some, to an element that is there.  And a fault that
names a member of a node is found only if the member is there.  So the place of a fault is a place
of the document.

* `Fault.PointsInto` — a fault whose place is there.
* `pointsInto_of_content`, `pointsInto_of_hoist`, `pointsInto_of_union` and their companions — one
  step of the recursion.
* `pointsInto_of_resolveType`, `pointsInto_of_resolveField` — the recursion.
* `select?_of_tableOf_error` — **the place of a fault, as it is reported, selects a node.**
-/

namespace AvroTypes.Schema

open AvroTypes.Json (Value Members lookup? present?)

/-- **A fault points into a value**: its place leads to a node that is there. -/
def Fault.PointsInto (fault : Fault) (value : Value) : Prop :=
  ∃ node, fault.place.Selects value node

section

variable {own fault : Fault} {node : Node} {value : Value} {around : String}

lemma Cause.pointsInto_here (cause : Cause) (value : Value) : cause.here.PointsInto value :=
  ⟨value, .here⟩

lemma Cause.pointsInto_at (cause : Cause) {key : String} (found : present? node key = some value) :
    (cause.at (.key key)).PointsInto (.object node) :=
  ⟨value, .member (lookup?_of_present? found) .here⟩

/-- A fault in a member of a node, seen from the node. -/
lemma Fault.PointsInto.member {key : String} (h : own.PointsInto value)
    (found : present? node key = some value) :
    Fault.PointsInto { own with place := .key key :: own.place } (.object node) := by
  obtain ⟨inner, selects⟩ := h
  exact ⟨inner, .member (lookup?_of_present? found) selects⟩

/-- A fault in an element of a list, seen from the list. -/
lemma Fault.PointsInto.element {i : Nat} {elements : List Value} (h : own.PointsInto value)
    (found : elements[i]? = some value) :
    Fault.PointsInto { own with place := .index i :: own.place } (.array elements) := by
  obtain ⟨inner, selects⟩ := h
  exact ⟨inner, .element found selects⟩

/-! ## One node -/

lemma pointsInto_of_spaceIn (h : node.spaceIn around = .error fault) :
    fault.PointsInto (.object node) := by
  rw [Node.spaceIn] at h
  split at h
  · simp at h
  · next declared found =>
      split_ifs at h
      obtain rfl := Except.error.inj h
      exact Cause.pointsInto_at _ (present?_of_text? found)

lemma place_of_formOfWord {word : String} (h : node.formOfWord word = .error fault) :
    fault.place = [] := by
  rw [Node.formOfWord] at h
  split at h
  · split_ifs at h <;> exact Except.error.inj h ▸ rfl
  · split_ifs at h
    · exact Except.error.inj h ▸ rfl
    · split at h
      · exact Except.error.inj h ▸ rfl
      · simp at h
  · split_ifs at h
    exact Except.error.inj h ▸ rfl
  · simp at h

lemma pointsInto_of_form (h : node.form = .error fault) : fault.PointsInto (.object node) := by
  rw [Node.form] at h
  split at h
  · obtain rfl := Except.error.inj h
    exact Cause.pointsInto_here _ _
  · refine ⟨.object node, ?_⟩
    rw [place_of_formOfWord h]
    exact .here
  · simp at h
  · simp at h
  · obtain rfl := Except.error.inj h
    exact Cause.pointsInto_at _ ‹present? node "type" = some _›

/-- The type of a node is refused at a place in the node, if the members of the node are refused at
places in them. -/
lemma pointsInto_of_content {type items : String → Except Fault Resolved}
    (h : node.content around type items = .error fault)
    (ofType : ∀ {value space own}, present? node "type" = some value →
      type space = .error own → own.PointsInto value)
    (ofItems : ∀ {value space own}, present? node "items" = some value →
      items space = .error own → own.PointsInto value) :
    fault.PointsInto (.object node) := by
  rw [Node.content] at h
  split at h
  · obtain rfl := Except.error.inj h
    exact Cause.pointsInto_here _ _
  · rcases bind_eq_error_iff.mp h with h | ⟨space, -, h⟩
    · exact pointsInto_of_spaceIn h
    rcases bind_eq_error_iff.mp h with h | ⟨form, hform, h⟩
    · exact pointsInto_of_form h
    have looks := looks_of_form hform
    cases form <;> simp only [bind_eq_error_iff, within_eq_error, pure, Except.pure, reduceCtorEq,
      and_false, exists_false, or_false] at h
    case nested =>
      obtain ⟨value, found, -⟩ := looks
      obtain ⟨own, hown, rfl⟩ := h
      exact (ofType found hown).member found
    case array =>
      obtain ⟨-, value, found⟩ := looks
      obtain ⟨own, hown, rfl⟩ := h
      exact (ofItems found hown).member found

/-- Moving a node out is refused at a place in the node, if its fields are. -/
lemma pointsInto_of_hoist {content : Content} {fields : String → Except Fault ResolvedFields}
    (hform : node.form = .ok content.form) (h : node.hoist content fields = .error fault)
    (ofFields : ∀ {listed space own}, node.list? "fields" = some listed →
      fields space = .error own → own.PointsInto (.array listed)) :
    fault.PointsInto (.object node) := by
  rw [Node.hoist] at h
  split at h
  · simp at h
  · next name hname =>
      have named : present? node "name" = some (.string name) := by
        rw [Node.name?, Option.filter_eq_some_iff] at hname
        exact present?_of_text? hname.1
      split_ifs at h
      · obtain rfl := Except.error.inj h
        exact Cause.pointsInto_at _ named
      · cases hrecord : content.form <;> rw [hrecord] at h hform
        case record =>
          obtain ⟨-, -, listed, hlisted⟩ := looks_of_form hform
          simp only [bind_eq_error_iff, map_eq_error_iff, within_eq_error, pure, Except.pure,
            reduceCtorEq, and_false, exists_false, or_false] at h
          obtain ⟨own, hown, rfl⟩ := h
          exact (ofFields hlisted hown).member (present?_of_list? hlisted)
        all_goals simp [bind, Except.bind, pure, Except.pure] at h

lemma pointsInto_of_asField {content : Content} (h : node.asField content = .error fault) :
    fault.PointsInto (.object node) := by
  rw [Node.asField] at h
  split at h
  · obtain rfl := Except.error.inj h
    exact Cause.pointsInto_here _ _
  · simp at h

/-! ## Lists -/

/-- A walk over a list that looks at one value after another is refused for one of them, at its
index. -/
lemma exists_of_walk {α β : Type} {each : Value → Except Fault α}
    {walk : List Value → Nat → Except Fault β} (nil : ∀ index, walk [] index ≠ .error fault)
    (cons : ∀ first rest index, walk (first :: rest) index = .error fault →
      within (.index index) (each first) = .error fault ∨ walk rest (index + 1) = .error fault)
    {values : List Value} {index : Nat} (h : walk values index = .error fault) :
    ∃ i value own, values[i]? = some value ∧ each value = .error own ∧
      fault = { own with place := .index (index + i) :: own.place } := by
  induction values generalizing index with
  | nil => exact absurd h (nil index)
  | cons first rest ih =>
      rcases cons first rest index h with here | later
      · obtain ⟨own, hown, rfl⟩ := within_eq_error.mp here
        exact ⟨0, first, own, rfl, hown, rfl⟩
      · obtain ⟨i, value, own, found, hown, rfl⟩ := ih later
        exact ⟨i + 1, value, own, found, hown, by rw [Nat.add_right_comm, Nat.add_assoc]⟩

/-- A walk over a list from its beginning is refused at a place in the list, if each value is
refused at a place in it. -/
lemma pointsInto_of_walk {α β : Type} {each : Value → Except Fault α}
    (walk : List Value → Nat → Except Fault β) (nil : ∀ index, walk [] index ≠ .error fault)
    (cons : ∀ first rest index, walk (first :: rest) index = .error fault →
      within (.index index) (each first) = .error fault ∨ walk rest (index + 1) = .error fault)
    {values : List Value} (h : walk values 0 = .error fault)
    (ofEach : ∀ value ∈ values, ∀ own, each value = .error own → own.PointsInto value) :
    fault.PointsInto (.array values) := by
  obtain ⟨i, value, own, found, hown, rfl⟩ := exists_of_walk nil cons h
  rw [Nat.zero_add]
  exact (ofEach value (List.mem_of_getElem? found) own hown).element found

lemma pointsInto_of_union {alternatives : List Value}
    (h : resolveUnion alternatives around 0 = .error fault)
    (ofEach : ∀ value ∈ alternatives, ∀ own, resolveType value around = .error own →
      own.PointsInto value) :
    fault.PointsInto (.array alternatives) := by
  refine pointsInto_of_walk (fun values index => resolveUnion values around index)
    (by simp [resolveUnion]) (fun first rest index h => ?_) h ofEach
  rw [resolveUnion] at h
  exact eq_error_of_two_steps h

lemma pointsInto_of_fields {fields : List Value}
    (h : resolveFields fields around 0 = .error fault)
    (ofEach : ∀ value ∈ fields, ∀ own, resolveField value around = .error own →
      own.PointsInto value) :
    fault.PointsInto (.array fields) := by
  refine pointsInto_of_walk (fun values index => resolveFields values around index)
    (by simp [resolveFields]) (fun first rest index h => ?_) h ofEach
  rw [resolveFields] at h
  exact eq_error_of_two_steps h

lemma pointsInto_of_documents {documents : List Value}
    (h : resolveDocuments documents around 0 = .error fault)
    (ofEach : ∀ value ∈ documents, ∀ own, resolveDocument value around = .error own →
      own.PointsInto value) :
    fault.PointsInto (.array documents) := by
  refine pointsInto_of_walk (fun values index => resolveDocuments values around index)
    (by simp [resolveDocuments]) (fun first rest index h => ?_) h ofEach
  rw [resolveDocuments] at h
  exact eq_error_of_two_steps h

/-! ## The recursion -/

/-- **A value is refused at places in it**, in the place of a type and in that of a field. -/
structure RefusedInside (value : Value) : Prop where
  asType : ∀ around fault, resolveType value around = .error fault → fault.PointsInto value
  asField : ∀ around fault, resolveField value around = .error fault → fault.PointsInto value

/-- The type of a node is refused at a place in it, if the members of the node are. -/
lemma pointsInto_of_members
    (inside : ∀ key value, present? node key = some value → RefusedInside value)
    (h : node.content around (fun space => resolveMember "type" node space)
      (fun space => resolveMember "items" node space) = .error fault) :
    fault.PointsInto (.object node) := by
  refine pointsInto_of_content h (fun found hown => ?_) fun found hown => ?_
  · rw [resolveMember_of_present? found] at hown
    exact (inside "type" _ found).asType _ _ hown
  · rw [resolveMember_of_present? found] at hown
    exact (inside "items" _ found).asType _ _ hown

lemma pointsInto_of_resolveWord {word : String} (h : resolveWord word = .error fault) :
    fault.PointsInto (.string word) := by
  rw [resolveWord] at h
  split at h
  case h_4 => simp at h
  all_goals
    obtain rfl := Except.error.inj h
    exact Cause.pointsInto_here _ _

end

lemma RefusedInside.array {elements : List Value}
    (inside : ∀ element ∈ elements, RefusedInside element) : RefusedInside (.array elements) where
  asType around fault h := by
    cases elements with
    | nil =>
        obtain rfl := Except.error.inj h
        exact Cause.pointsInto_here _ _
    | cons first rest =>
        exact pointsInto_of_union h fun value hvalue => (inside value hvalue).asType around
  asField around fault h := by
    obtain rfl := Except.error.inj h
    exact Cause.pointsInto_here _ _

lemma RefusedInside.object {node : Node}
    (inside : ∀ key value, present? node key = some value → RefusedInside value)
    (listed : ∀ fields, node.list? "fields" = some fields →
      ∀ field ∈ fields, RefusedInside field) : RefusedInside (.object node) where
  asType around fault h := by
    rw [resolveType] at h
    rcases bind_eq_error_iff.mp h with h | ⟨content, hcontent, h⟩
    · exact pointsInto_of_members inside h
    · refine pointsInto_of_hoist (content_eq_ok_iff.mp hcontent).form h fun hlisted hown => ?_
      rw [resolveFieldsMember_of_list? hlisted] at hown
      exact pointsInto_of_fields hown fun field hfield => (listed _ hlisted field hfield).asField _
  asField around fault h := by
    rw [resolveField] at h
    rcases bind_eq_error_iff.mp h with h | ⟨content, -, h⟩
    · exact pointsInto_of_members inside h
    · exact pointsInto_of_asField h

/-- **Every value is refused at places in it.** -/
theorem refusedInside (value : Value) : RefusedInside value := by
  -- members and elements are smaller, and so are the elements of a list that is a member
  induction hsize : sizeOf value using Nat.strongRecOn generalizing value with
  | ind size ih =>
      subst hsize
      cases value with
      | string word =>
          refine ⟨fun around fault h => pointsInto_of_resolveWord h, fun around fault h => ?_⟩
          obtain rfl := Except.error.inj h
          exact Cause.pointsInto_here _ _
      | array elements =>
          refine .array fun element helement => ih _ ?_ element rfl
          have := List.sizeOf_lt_of_mem helement
          simp only [Value.array.sizeOf_spec]
          omega
      | object node =>
          refine .object (fun key value found => ih _ ?_ value rfl)
            fun fields hlisted field hfield => ih _ ?_ field rfl
          · have := sizeOf_lt_of_present? found
            simp only [Value.object.sizeOf_spec]
            omega
          · have smaller := sizeOf_lt_of_present? (present?_of_list? hlisted)
            have := List.sizeOf_lt_of_mem hfield
            simp only [Value.object.sizeOf_spec, Value.array.sizeOf_spec] at smaller ⊢
            omega
      | _ =>
          constructor <;> intro around fault h <;> obtain rfl := Except.error.inj h <;>
            exact Cause.pointsInto_here _ _

lemma pointsInto_of_resolveDocument {document : Value} {around : String} {fault : Fault}
    (h : resolveDocument document around = .error fault) : fault.PointsInto document := by
  cases document with
  | object node =>
      rcases bind_eq_error_iff.mp h with h | ⟨_, -, h⟩
      · exact (refusedInside (.object node)).asType around fault h
      · simp [pure, Except.pure] at h
  | _ =>
      obtain rfl := Except.error.inj h
      exact Cause.pointsInto_here _ _

/-! ## Whole documents -/

/-- **Whatever is wrong with a document, it is wrong at a place of the document.** -/
theorem pointsInto_of_tableOf {document : Value} {space : String} {fault : Fault}
    (h : tableOf document space = .error fault) : fault.PointsInto document := by
  unfold tableOf at h
  split_ifs at h
  · split at h
    · exact pointsInto_of_resolveDocument h
    · exact pointsInto_of_documents h fun value _ own => pointsInto_of_resolveDocument
    · obtain rfl := Except.error.inj h
      exact Cause.pointsInto_here _ _
  · obtain rfl := Except.error.inj h
    exact Cause.pointsInto_here _ _

lemma Fault.message_of_text {fault : Fault} {pointer : String}
    (text : Pointer.text fault.place = "#" ++ pointer) :
    fault.message = s!"malformed schema at #{pointer}: {fault.cause.message}" := by
  delta Fault.message
  rw [text]
  apply String.toList_injective
  simp [toString]

/-- **Every fault in a document points into it.**  What stands behind the number sign in the message
is a JSON pointer that selects a node of the document. -/
theorem select?_of_tableOf_error {document : Value} {space : String} {fault : Fault}
    (h : tableOf document space = .error fault) :
    ∃ (pointer : String) (node : Value), Pointer.text fault.place = "#" ++ pointer ∧
      fault.message = s!"malformed schema at #{pointer}: {fault.cause.message}" ∧
      document.select? pointer = some node := by
  obtain ⟨node, selects⟩ := pointsInto_of_tableOf h
  obtain ⟨pointer, text, selected⟩ := selects.select?_eq
  exact ⟨pointer, node, text, Fault.message_of_text text, selected⟩

/-- A record with a field that is an array of a union with an alternative that is no type. -/
def nestedDocument : Value :=
  .array [.object [("type", .string "record"), ("name", .string "R"),
    ("fields", .array [.object [("name", .string "f"),
      ("type", .object [("type", .string "array"), ("items", .array [.null])])]])]]

/-- What is wrong with it. -/
def nestedFault : Fault where
  place := [.index 0, .key "fields", .index 0, .key "type", .key "items", .index 0]
  cause := .notAType .null

/-- The fault is at the alternative. -/
theorem select?_of_tableOf_error_nested :
    tableOf nestedDocument "" = .error nestedFault ∧
      Pointer.text nestedFault.place = "#/0/fields/0/type/items/0" ∧
      (∃ (pointer : String) (node : Value), Pointer.text nestedFault.place = "#" ++ pointer ∧
        nestedFault.message = s!"malformed schema at #{pointer}: {nestedFault.cause.message}" ∧
        nestedDocument.select? pointer = some node) ∧
      nestedDocument.select? "/0/fields/0/type/items/0" = some .null := by
  have refused : tableOf nestedDocument "" = .error nestedFault := by rfl
  have text : Pointer.text nestedFault.place = "#/0/fields/0/type/items/0" := by decide +kernel
  have selected : nestedDocument.select? "/0/fields/0/type/items/0" = some .null := by rfl
  exact ⟨refused, text, select?_of_tableOf_error refused, selected⟩

end AvroTypes.Schema
