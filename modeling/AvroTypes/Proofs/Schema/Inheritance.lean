import AvroTypes.Proofs.Json.Members
import AvroTypes.Proofs.Schema.Alike

/-!
# Inheriting the namespace

A node that declares no namespace is in that of the nearest node around it that does, and if there
is none, in the default one.  Writing this namespace into every node changes nothing: the document
that spells out all namespaces resolves to the same table, whatever the default namespace then is.
Only the schemas that the entries carry are spelled out as well, and each of them shows the
namespace of its entry.

The proof compares the two resolutions place by place.  What stands at a place is alike to the same
spelled out, in the namespace around the place; the namespace around the other place does not
matter.

* `spellOut`, `spelledOut` — **the document with all namespaces written into it.**
* `Node.spelled_resembles` — a node that is spelled out looks the same.
* `corresponds_spellOut` — one step of the comparison.
* `tableOf_spelledOut_agree`, `tableOf_spelledOut` — **the two tables.**
-/

namespace AvroTypes.Schema

open AvroTypes.Json (Value Members lookup? present? setMember)

/-- The namespace of a node as it stands in the document: the one that it declares, whatever that
is, or else the one around it. -/
def Node.declared (node : Node) (around : Value) : Value :=
  (present? node "namespace").getD around

mutual

/-- **A part of a document with its namespaces spelled out**: every node has its namespace as a
member, and so has every node inside it.  The members that do not count are left as they are. -/
def spellOut (role : Role) : Value → (around : Value) → Value
  | .array parts, around =>
    .array (if role = .type then spellOutEach .type parts around else parts)
  | .object node, around =>
    let space := Node.declared node around
    .object (setMember "namespace" space (spellOutMembers (Node.text? node "type") node space))
  | other, _ => other
termination_by structural value => value

/-- The parts of a list with their namespaces spelled out. -/
def spellOutEach (role : Role) : List Value → (around : Value) → List Value
  | [], _ => []
  | value :: rest, around => spellOut role value around :: spellOutEach role rest around
termination_by structural values => values

/-- The fields of a record with their namespaces spelled out. -/
def spellOutFields : Value → (around : Value) → Value
  | .array fields, around => .array (spellOutEach .field fields around)
  | other, _ => other
termination_by structural value => value

/-- The members of a node with some word as its type, with their namespaces spelled out. -/
def spellOutMembers (word : Option String) : List (String × Value) → (around : Value) →
    List (String × Value)
  | [], _ => []
  | (key, value) :: rest, around =>
    let spelled :=
      if key = "type" ∨ key = "items" ∧ word = some "array" then spellOut .type value around
      else if key = "fields" ∧ word = some "record" then spellOutFields value around
      else value
    (key, spelled) :: spellOutMembers word rest around
termination_by structural members => members

end

/-- What becomes of a member of a node with some word as its type. -/
def spellOutMember (word : Option String) (around : Value) (key : String) (value : Value) : Value :=
  if key = "type" ∨ key = "items" ∧ word = some "array" then spellOut .type value around
  else if key = "fields" ∧ word = some "record" then spellOutFields value around
  else value

/-- A node with its namespaces spelled out. -/
def Node.spelled (node : Node) (around : Value) : Node :=
  setMember "namespace" (node.declared around)
    (node.map fun (key, value) =>
      (key, spellOutMember (node.text? "type") (node.declared around) key value))

lemma spellOutEach_eq_map (role : Role) (values : List Value) (around : Value) :
    spellOutEach role values around = values.map fun value => spellOut role value around := by
  induction values with
  | nil => rfl
  | cons _ _ ih => rw [spellOutEach, ih, List.map_cons]

lemma spellOutMembers_eq_map (word : Option String) (members : Members) (around : Value) :
    spellOutMembers word members around =
      members.map fun (key, value) => (key, spellOutMember word around key value) := by
  induction members with
  | nil => rfl
  | cons member _ ih =>
      rw [spellOutMembers, ih, List.map_cons]
      rfl

lemma spellOut_object (role : Role) (node : Node) (around : Value) :
    spellOut role (.object node) around = .object (node.spelled around) := by
  rw [spellOut, Node.spelled, spellOutMembers_eq_map]

lemma spellOut_array (values : List Value) (around : Value) :
    spellOut .type (.array values) around =
      .array (values.map fun value => spellOut .type value around) := by
  rw [spellOut, if_pos rfl, spellOutEach_eq_map]

lemma spellOutFields_array (fields : List Value) (around : Value) :
    spellOutFields (.array fields) around =
      .array (fields.map fun field => spellOut .field field around) := by
  rw [spellOutFields, spellOutEach_eq_map]

lemma spellOut_resembles (role : Role) (value around : Value) :
    Resembles value (spellOut role value around) := by
  cases value with
  | array values => exact .lists _ _
  | object node => exact .nodes _ _
  | _ => exact .same _

lemma spellOutMember_resembles (word : Option String) (around : Value) (key : String)
    (value : Value) : Resembles value (spellOutMember word around key value) := by
  rw [spellOutMember]
  split_ifs
  · exact spellOut_resembles _ _ _
  · cases value with
    | array values => exact .lists _ _
    | _ => exact .same _
  · exact .same _

section

variable (node : Node) (around : Value)

/-- The namespace of a node that is spelled out stands in it. -/
lemma lookup?_spelled_namespace :
    lookup? (node.spelled around) "namespace" = some (node.declared around) := by
  rw [Node.spelled, Json.lookup?_setMember, if_pos rfl]

lemma lookup?_spelled {key : String} (other : key ≠ "namespace") :
    lookup? (node.spelled around) key = (lookup? node key).map
      (spellOutMember (node.text? "type") (node.declared around) key) := by
  rw [Node.spelled, Json.lookup?_setMember, if_neg other, Json.lookup?_map]

lemma present?_spelled {key : String} (other : key ≠ "namespace") :
    present? (node.spelled around) key = (present? node key).map
      (spellOutMember (node.text? "type") (node.declared around) key) := by
  rw [present?, present?, lookup?_spelled node around other]
  cases lookup? node key with
  | none => rfl
  | some value =>
      have resembles :=
        spellOutMember_resembles (node.text? "type") (node.declared around) key value
      dsimp only [Option.map_some]
      generalize hspelled : spellOutMember _ _ key value = spelled at resembles
      cases resembles with
      | same value => cases value <;> simp [hspelled]
      | _ => simp [hspelled]

end

/-! ## What a node says about itself -/

/-- The check of the shapes does not see that a member is put in the place of another if it takes
the two for the same. -/
lemma mismatch?_setMember {node : Node} {key : String} {value : Value}
    (same : memberMismatch? key value = (lookup? node key).bind (memberMismatch? key)) :
    Node.mismatch? (setMember key value node) = node.mismatch? := by
  rw [Node.mismatch?, Node.mismatch?]
  induction node with
  | nil => simpa [setMember, lookup?] using same
  | cons member rest ih =>
      obtain ⟨k, v⟩ := member
      rw [Json.lookup?_cons] at same
      by_cases h : k = key
      · subst h
        rw [if_pos rfl, Option.bind_some] at same
        rw [setMember, if_pos rfl, List.findSome?_cons, List.findSome?_cons]
        dsimp only
        rw [same]
      · rw [if_neg (Ne.symm h)] at same
        rw [setMember, if_neg h, List.findSome?_cons, List.findSome?_cons, ih same]

lemma memberMismatch?_spellOutMember (word : Option String) (around : Value) (key : String)
    (value : Value) :
    memberMismatch? key (spellOutMember word around key value) = memberMismatch? key value := by
  rw [spellOutMember]
  split_ifs with type fields
  · -- the check of the shapes lets these members be anything
    have free : ∀ value, memberMismatch? key value = none := by
      rcases type with rfl | ⟨rfl, -⟩
      · exact memberMismatch?_other (by simp [textKeys]) (by simp) (by simp)
      · exact memberMismatch?_other (by simp [textKeys]) (by simp) (by simp)
    rw [free, free]
  · obtain ⟨rfl, -⟩ := fields
    cases value with
    | array values => simp [spellOutFields_array, memberMismatch?, shapeMismatch?]
    | _ => rfl
  · rfl

section

variable (node : Node) {around : String}

/-- A node that is spelled out has the same members of the wrong shape. -/
lemma mismatch?_spelled : (node.spelled (.string around)).mismatch? = node.mismatch? := by
  rw [Node.spelled, mismatch?_setMember]
  · rw [Node.mismatch?, Node.mismatch?, List.findSome?_map]
    congr
    funext member
    exact memberMismatch?_spellOutMember _ _ _ _
  · rw [Json.lookup?_map, Node.declared, present?]
    cases lookup? node "namespace" with
    | none => rfl
    | some value => cases value <;> simp [spellOutMember, memberMismatch?, shapeMismatch?]

variable {node}

lemma declared_eq (shapes : node.HasShapes) :
    node.declared (.string around) = .string (node.spaceInside around) := by
  rw [Node.declared, present?_eq_map_text? shapes (by simp [textKeys]), Node.spaceInside,
    Option.getD_map]

/-- The namespace inside a node is the same, whatever is around the one that is spelled out. -/
lemma spaceIn_spelled (shapes : node.HasShapes) (valid : isNamespace around = true)
    (around' : String) : (node.spelled (.string around)).spaceIn around' = node.spaceIn around := by
  have found : (node.spelled (.string around)).text? "namespace" =
      some (node.spaceInside around) := by
    rw [text?_eq_some_iff, lookup?_spelled_namespace, declared_eq shapes]
  rw [Node.spaceIn, found, Node.spaceIn, Node.spaceInside]
  cases node.text? "namespace" with
  | none => simp [valid]
  | some declared => rfl

/-- **A node that is spelled out looks the same.** -/
lemma Node.spelled_resembles (node : Node) (space : Value) :
    node.Resembles (node.spelled space) where
  members key describing := by
    have other : key ≠ "namespace" := by
      rintro rfl
      simp [describingKeys] at describing
    rw [present?_spelled node space other]
    cases present? node key with
    | none => exact .none
    | some value => exact .some (spellOutMember_resembles _ _ _ _)
  symbols := by
    rw [Node.symbols?, Node.symbols?, Node.list?, Node.list?, present?_spelled _ _ (by simp)]
    cases present? node "symbols" with
    | none => rfl
    | some value => simp [spellOutMember]

end

/-! ## The comparison -/

/-- **What stands at a place and the same spelled out.**  The namespace around the latter does not
matter. -/
structure SpelledAlike (site site' : Site) : Prop where
  role : site.role = site'.role
  valid : isNamespace site.around = true
  value : site'.value = spellOut site.role site.value (.string site.around)

lemma matches_spelled {node : Node} {around : String} (shapes : node.HasShapes)
    (valid : isNamespace around = true) (role : Role) (around' : String) :
    node.Matches SpelledAlike role (node.spelled (.string around)) around around' := by
  have resembles := node.spelled_resembles (.string around)
  have inside : ∀ {space : String}, node.spaceIn around = .ok space →
      node.declared (.string around) = .string space ∧ isNamespace space = true := by
    intro space hspace
    rw [declared_eq shapes, ← spaceIn_eq_ok hspace]
    exact ⟨rfl, isNamespace_of_spaceIn hspace valid⟩
  exact {
    space := (spaceIn_spelled shapes valid around').symm
    form := resembles.form
    name := resembles.name?
    doc := resembles.text? (by simp [describingKeys])
    type := by
      intro space value hspace found
      obtain ⟨hdeclared, hvalid⟩ := inside hspace
      refine ⟨spellOut .type value (.string space), ?_, rfl, hvalid, rfl⟩
      rw [present?_spelled _ _ (by simp), found, Option.map_some, spellOutMember,
        if_pos (.inl rfl), hdeclared]
    items := by
      intro space value hspace word found
      obtain ⟨hdeclared, hvalid⟩ := inside hspace
      refine ⟨spellOut .type value (.string space), ?_, rfl, hvalid, rfl⟩
      rw [present?_spelled _ _ (by simp), found, Option.map_some, spellOutMember,
        if_pos (.inr ⟨rfl, word⟩), hdeclared]
    fields := by
      intro space values _ hspace word listed
      obtain ⟨hdeclared, hvalid⟩ := inside hspace
      refine ⟨values.map fun value => spellOut .field value (.string space), ?_, ?_⟩
      · rw [Node.list?, present?_spelled _ _ (by simp), present?_of_list? listed, Option.map_some,
          spellOutMember, if_neg (by simp), if_pos ⟨rfl, word⟩, spellOutFields_array, hdeclared]
      · rw [List.forall₂_map_right_iff, List.forall₂_same]
        exact fun value _ => ⟨rfl, hvalid, rfl⟩ }

/-- **One step of the comparison.** -/
lemma corresponds_spellOut {site site' : Site} (h : SpelledAlike site site') :
    site.Corresponds SpelledAlike site' := by
  obtain ⟨role, value, around⟩ := site
  obtain ⟨role', value', around'⟩ := site'
  obtain ⟨rfl : role = role', valid : isNamespace around = true,
    rfl : value' = spellOut role value (.string around)⟩ := h
  refine Site.corresponds_of_resembles (spellOut_resembles _ _ _) ?_ ?_
  · rintro values _ rfl rfl spelled
    rw [spellOut_array] at spelled
    obtain rfl := Value.array.inj spelled
    rw [List.forall₂_map_right_iff, List.forall₂_same]
    exact fun value _ => ⟨rfl, valid, rfl⟩
  · rintro node _ rfl spelled
    rw [spellOut_object] at spelled
    obtain rfl := Value.object.inj spelled
    refine ⟨by rw [mismatch?_spelled], fun shapes => ?_⟩
    exact matches_spelled (mismatch?_eq_none_iff.mp shapes) valid role around'

/-! ## The tables -/

/-- **A document with its namespaces spelled out.**  One schema is spelled out as it is in the place
of a type, and a list of them as a union is. -/
def spelledOut (document : Value) (space : String) : Value :=
  spellOut .type document (.string space)

/-- An entry whose schema has its namespaces spelled out. -/
def spelledOutEntry (entry : NamedType) : NamedType :=
  { entry with schema := spelledOut entry.schema entry.space }

/-- The schema of an entry is a node with the namespace of the entry as a member. -/
def ShowsSpace (entry : NamedType) : Prop :=
  ∃ node : Node, entry.schema = .object node ∧
    lookup? node "namespace" = some (.string entry.space)

lemma declared_spaceInside (node : Node) (around : String) :
    node.declared (.string (node.spaceInside around)) = node.declared (.string around) := by
  rw [Node.declared, Node.declared, Node.spaceInside, Node.text?]
  cases present? node "namespace" <;> rfl

lemma eq_spelledOutEntry {entry mirror : NamedType}
    (h : NamedType.Mirrors SpelledAlike entry mirror) : mirror = spelledOutEntry entry := by
  obtain ⟨rest, around, _, declares, -, -, hschema⟩ := h
  have same : mirror.schema = spelledOut entry.schema entry.space := by
    rw [show mirror.schema = spelledOut entry.schema around from hschema]
    generalize entry.schema = schema at declares
    cases declares with
    | @intro node _ _ _ hspace _ =>
        rw [spelledOut, spelledOut, spellOut_object, spellOut_object, Node.spelled, Node.spelled,
          hspace, declared_spaceInside]
  rw [rest, spelledOutEntry, same]

lemma showsSpace_spelledOutEntry {document : Value} {space : String} {table : List NamedType}
    (h : tableOf document space = .ok table) {entry : NamedType} (hentry : entry ∈ table) :
    ShowsSpace (spelledOutEntry entry) := by
  obtain ⟨_, _, -, registers⟩ := Reached.of_mem_table h hentry
  cases registers with
  | @intro node around name content inner named contains fields =>
      have shapes := mismatch?_eq_none_iff.mp contains.shapes
      have inside : content.space = node.spaceInside around := contains.space_eq
      refine ⟨node.spelled (.string content.space), spellOut_object .type _ _, ?_⟩
      rw [lookup?_spelled_namespace, inside, declared_spaceInside, declared_eq shapes]
      exact congrArg (fun space => some (Value.string space)) inside.symm

lemma documentsAlike_spelledOut (document : Value) {space : String}
    (valid : isNamespace space = true) (space' : String) :
    DocumentsAlike SpelledAlike space space' document (spelledOut document space) := by
  refine documentsAlike_of_resembles (spellOut_resembles _ _ _) (fun _ => ⟨rfl, valid, rfl⟩) ?_
  rintro documents _ rfl spelled
  rw [spelledOut, spellOut_array] at spelled
  obtain rfl := Value.array.inj spelled
  rw [List.forall₂_map_right_iff, List.forall₂_same]
  exact fun document _ => ⟨spellOut_resembles _ _ _, rfl, valid, rfl⟩

section

variable (document : Value) {space space' : String}

/-- **Spelling the namespaces out changes nothing**: the tables differ in their schemas only, and if
the one document is refused, so is the other, at the same place and in the same words. -/
theorem tableOf_spelledOut_agree (valid : isNamespace space = true)
    (valid' : isNamespace space' = true) :
    ResolveAlike (fun table table' => table' = table.map spelledOutEntry)
      (tableOf document space) (tableOf (spelledOut document space) space') :=
  tableOf_alike_map corresponds_spellOut (.inr ⟨valid, valid'⟩)
    (documentsAlike_spelledOut document valid space') eq_spelledOutEntry

/-- **The namespace that a node inherits is that of the nearest node around it that declares one.**
A document resolves exactly if it does with all namespaces spelled out, under whatever default
namespace.  The tables differ in their schemas only, and in the new table each schema shows the
namespace of its entry. -/
theorem tableOf_spelledOut (valid : isNamespace space = true)
    (valid' : isNamespace space' = true) :
    (∀ table', tableOf (spelledOut document space) space' = .ok table' ↔
      ∃ table, tableOf document space = .ok table ∧ table' = table.map spelledOutEntry) ∧
    ∀ table', tableOf (spelledOut document space) space' = .ok table' →
      ∀ entry ∈ table', ShowsSpace entry := by
  have agree := tableOf_spelledOut_agree document valid valid'
  have iff : ∀ table', tableOf (spelledOut document space) space' = .ok table' ↔
      ∃ table, tableOf document space = .ok table ∧
        table' = table.map spelledOutEntry := by
    intro table'
    generalize tableOf document space = outcome, tableOf (spelledOut document space) space' =
      outcome' at agree
    cases agree with
    | ok related => simp [related, eq_comm]
    | error _ => simp
  refine ⟨iff, fun table' h entry hentry => ?_⟩
  obtain ⟨table, htable, rfl⟩ := (iff table').mp h
  obtain ⟨original, horiginal, rfl⟩ := List.mem_map.mp hentry
  exact showsSpace_spelledOutEntry htable horiginal

end

/-- A record in a namespace of its own.  One of its fields goes back to the empty namespace, and the
type of the other takes the one that the record declares. -/
def inheritingNode : Node :=
  [("type", .string "record"), ("name", .string "R"), ("namespace", .string "a.b"),
    ("fields", .array [
      .object [("name", .string "f"), ("namespace", .string ""),
        ("type", .array [.string "null", .object enumNode])],
      .object [("name", .string "g"), ("type", .object
        [("type", .string "array"), ("items", .object (("namespace", .null) :: enumNode))])]])]

/-- The two enumerations and the record are in the same namespaces once these are spelled out. -/
theorem tableOf_spelledOut_inheriting :
    isNamespace "d" = true ∧ isNamespace "other" = true ∧
      ∃ table, tableOf (spelledOut (.object inheritingNode) "d") "other" = .ok table ∧
        table.map NamedType.fullName = ["E", "a.b.E", "a.b.R"] := by
  have valid : isNamespace "d" = true := by decide
  have valid' : isNamespace "other" = true := by decide
  exact ⟨valid, valid', _,
    ((tableOf_spelledOut (.object inheritingNode) valid valid').1 _).mpr ⟨_, by rfl, rfl⟩, by rfl⟩

end AvroTypes.Schema
