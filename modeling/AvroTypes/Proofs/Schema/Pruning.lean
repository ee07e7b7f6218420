import AvroTypes.Proofs.Json.DistinctKeys
import AvroTypes.Proofs.Schema.Alike

/-!
# Members that mean nothing

Only seven members of a node mean something, and each of them counts as absent if it is `null`.  So
a document can be pruned: all other members can be left out, at any depth, and with them whatever
they hold.  The pruned document resolves to the same table but for the schemas, which are pruned
too, and is refused at the same place and in the same words.

A value of the wrong shape is shown in a message only if it is a scalar, which pruning keeps.  The
keys of an object have to be distinct, as they are in every document that is read: a second member
under a key would come to light when a first one, being `null`, is left out.

* `Counts`, `prune` — **the members that count, and a value without the others.**
* `present?_pruneMembers`, `resembles_pruneMembers` — a pruned node looks the same.
* `mismatch?_pruneMembers` — and is refused for the shape of a member in the same words.
* `corresponds_prune` — one step of the comparison.
* `tableOf_prune_agree` — **the two tables.**
-/

namespace AvroTypes.Schema

open AvroTypes.Json (Value Members lookup? present?)

/-- The keys of the members that mean something. -/
def modelledKeys : List String :=
  ["name", "namespace", "doc", "type", "fields", "symbols", "items"]

/-- A member counts if its key means something and its value is not `null`. -/
def Counts (member : String × Value) : Prop :=
  member.1 ∈ modelledKeys ∧ member.2.kind ≠ .null

instance (member : String × Value) : Decidable (Counts member) :=
  inferInstanceAs (Decidable (_ ∧ _))

mutual

/-- **A value without the members that do not count**, in every object inside it. -/
def prune : Value → Value
  | .array elements => .array (pruneEach elements)
  | .object members => .object (pruneMembers members)
  | other => other

/-- The elements of a list, pruned. -/
def pruneEach : List Value → List Value
  | [] => []
  | element :: rest => prune element :: pruneEach rest

/-- The members of an object that count, pruned. -/
def pruneMembers : List (String × Value) → List (String × Value)
  | [] => []
  | (key, value) :: rest =>
    if Counts (key, value) then (key, prune value) :: pruneMembers rest else pruneMembers rest

end

lemma pruneEach_eq_map (values : List Value) : pruneEach values = values.map prune := by
  induction values with
  | nil => rfl
  | cons _ _ ih => rw [pruneEach, ih, List.map_cons]

lemma pruneMembers_eq_map (members : Members) :
    pruneMembers members =
      (members.filter fun member => Counts member).map fun (key, value) => (key, prune value) := by
  induction members with
  | nil => rfl
  | cons member rest ih =>
      obtain ⟨key, value⟩ := member
      rw [pruneMembers, List.filter_cons, ih]
      split_ifs with counts both both
      · rfl
      · simp [counts] at both
      · simp [counts] at both
      · rfl

lemma prune_array (values : List Value) : prune (.array values) = .array (values.map prune) := by
  rw [prune, pruneEach_eq_map]

lemma prune_resembles (value : Value) : Resembles value (prune value) := by
  cases value with
  | array values => exact .lists _ _
  | object node => exact .nodes _ _
  | _ => exact .same _

/-! ## Nodes -/

section

variable {node : Node}

/-- What counts under a key is pruned. -/
lemma present?_pruneMembers (distinct : (node.map Prod.fst).Nodup) {key : String}
    (modelled : key ∈ modelledKeys) :
    present? (pruneMembers node) key = (present? node key).map prune := by
  rw [Json.present?_eq_filter, Json.present?_eq_filter, pruneMembers_eq_map,
    Json.lookup?_map (fun _ => prune), Json.lookup?_filter distinct]
  cases lookup? node key with
  | none => rfl
  | some value =>
      have kind := (prune_resembles value).kind
      by_cases null : value.kind = .null
      · simp [Counts, null, Option.filter_some]
      · simp [Counts, null, modelled, ← kind, Option.filter_some]

lemma rel_present?_pruneMembers (distinct : (node.map Prod.fst).Nodup) {key : String}
    (modelled : key ∈ modelledKeys) :
    Option.Rel Resembles (present? node key) (present? (pruneMembers node) key) := by
  rw [present?_pruneMembers distinct modelled]
  cases present? node key with
  | none => exact .none
  | some value => exact .some (prune_resembles value)

lemma list?_pruneMembers (distinct : (node.map Prod.fst).Nodup) {key : String}
    (modelled : key ∈ modelledKeys) :
    Node.list? (pruneMembers node) key = (node.list? key).map (List.map prune) := by
  rw [Node.list?, Node.list?, present?_pruneMembers distinct modelled]
  cases present? node key with
  | none => rfl
  | some value =>
      cases value with
      | array values => simp [prune_array]
      | _ => rfl

/-- **A pruned node looks the same.** -/
lemma resembles_pruneMembers (distinct : (node.map Prod.fst).Nodup) :
    node.Resembles (pruneMembers node) where
  members key describing := by
    refine rel_present?_pruneMembers distinct ?_
    simp only [describingKeys, List.mem_cons, List.not_mem_nil, or_false] at describing
    simp only [modelledKeys, List.mem_cons, List.not_mem_nil, or_false]
    tauto
  symbols := by
    rw [Node.symbols?, Node.symbols?, list?_pruneMembers distinct (by simp [modelledKeys]),
      Option.map_map]
    congr
    funext values
    simp only [Function.comp, List.filterMap_map]
    congr
    funext value
    cases value <;> rfl

lemma spaceIn_pruneMembers (distinct : (node.map Prod.fst).Nodup) (around : String) :
    Node.spaceIn (pruneMembers node) around = node.spaceIn around := by
  have modelled : "namespace" ∈ modelledKeys := by simp [modelledKeys]
  have same := text?_of_resembles (rel_present?_pruneMembers distinct modelled)
  rw [Node.spaceIn, Node.spaceIn, same]

/-- The words for a value of the wrong shape. -/
def mismatchMessage (mismatch : Mismatch) : String := (Cause.wrongShape mismatch).message

lemma shapeMismatch?_prune (shape : Shape) (value : Value) :
    (shapeMismatch? shape (prune value)).map mismatchMessage =
      (shapeMismatch? shape value).map mismatchMessage := by
  have resembles := prune_resembles value
  generalize prune value = pruned at resembles
  cases resembles with
  | same => rfl
  | _ => cases shape <;> rfl

lemma findSome?_shapeMismatch?_prune (shape : Shape) (values : List Value) :
    ((values.map prune).findSome? (shapeMismatch? shape)).map mismatchMessage =
      (values.findSome? (shapeMismatch? shape)).map mismatchMessage := by
  rw [List.map_findSome?, List.map_findSome?, List.findSome?_map]
  exact congrArg (List.findSome? · values) (funext fun value => shapeMismatch?_prune shape value)

/-- What is wrong with a member is said in the same words once the member is pruned. -/
lemma memberMismatch?_prune (key : String) (value : Value) :
    (memberMismatch? key (prune value)).map mismatchMessage =
      (memberMismatch? key value).map mismatchMessage := by
  by_cases htext : key ∈ textKeys
  · simp only [textKeys, List.mem_cons, List.not_mem_nil, or_false] at htext
    rcases htext with rfl | rfl | rfl <;> cases value <;> rfl
  by_cases hfields : key = "fields"
  · subst hfields
    cases value <;> rfl
  by_cases hsymbols : key = "symbols"
  · subst hsymbols
    cases value with
    | array values =>
        rw [prune_array]
        exact findSome?_shapeMismatch?_prune .text values
    | _ => rfl
  rw [memberMismatch?_other htext hfields hsymbols, memberMismatch?_other htext hfields hsymbols]

/-- A member that does not count has no wrong shape. -/
lemma memberMismatch?_of_not_counts {key : String} {value : Value} (h : ¬ Counts (key, value)) :
    memberMismatch? key value = none := by
  by_cases null : value.kind = .null
  · cases value <;> simp_all [Value.kind, memberMismatch?]
  · have unknown : key ∉ modelledKeys := fun modelled => h ⟨modelled, null⟩
    refine memberMismatch?_other (fun htext => unknown ?_) (fun hkey => unknown ?_)
      (fun hkey => unknown ?_) value
    · simp only [textKeys, List.mem_cons, List.not_mem_nil, or_false] at htext
      rcases htext with rfl | rfl | rfl <;> simp [modelledKeys]
    · simp [hkey, modelledKeys]
    · simp [hkey, modelledKeys]

/-- **A pruned node is refused for the shape of a member in the same words**, or is not refused for
it either. -/
lemma mismatch?_pruneMembers (node : Node) :
    (Node.mismatch? (pruneMembers node)).map mismatchMessage =
      node.mismatch?.map mismatchMessage := by
  rw [Node.mismatch?, Node.mismatch?, List.map_findSome?, List.map_findSome?]
  induction node with
  | nil => rfl
  | cons member rest ih =>
      obtain ⟨key, value⟩ := member
      rw [pruneMembers, List.findSome?_cons]
      split_ifs with counts
      · rw [List.findSome?_cons, ih]
        simp only [Function.comp, memberMismatch?_prune]
      · simp only [Function.comp, memberMismatch?_of_not_counts counts, Option.map_none]
        exact ih

end

/-! ## The comparison -/

/-- **What stands at a place and the same pruned.** -/
structure PrunedAlike (site site' : Site) : Prop where
  distinct : site.value.HasDistinctKeys
  pruned : site' = { site with value := prune site.value }

lemma hasDistinctKeys_of_present? {node : Node} (h : Value.HasDistinctKeys (.object node))
    {key : String} {value : Value} (found : present? node key = some value) :
    value.HasDistinctKeys :=
  (Json.hasDistinctKeys_object.mp h).2 _ (mem_of_lookup? (lookup?_of_present? found))

lemma matches_pruneMembers {node : Node} (h : Value.HasDistinctKeys (.object node))
    (role : Role) (around : String) :
    node.Matches PrunedAlike role (pruneMembers node) around around := by
  have distinct := (Json.hasDistinctKeys_object.mp h).1
  have resembles := resembles_pruneMembers distinct
  exact {
    space := (spaceIn_pruneMembers distinct around).symm
    form := resembles.form
    name := resembles.name?
    doc := resembles.text? (by simp [describingKeys])
    type := by
      intro space value _ found
      refine ⟨prune value, ?_, hasDistinctKeys_of_present? h found, rfl⟩
      rw [present?_pruneMembers distinct (by simp [modelledKeys]), found, Option.map_some]
    items := by
      intro space value _ _ found
      refine ⟨prune value, ?_, hasDistinctKeys_of_present? h found, rfl⟩
      rw [present?_pruneMembers distinct (by simp [modelledKeys]), found, Option.map_some]
    fields := by
      intro space values _ _ _ listed
      refine ⟨values.map prune, ?_, ?_⟩
      · rw [list?_pruneMembers distinct (by simp [modelledKeys]), listed, Option.map_some]
      · rw [List.forall₂_map_right_iff, List.forall₂_same]
        have each := Json.hasDistinctKeys_array.mp
          (hasDistinctKeys_of_present? h (present?_of_list? listed))
        exact fun value hvalue => ⟨each value hvalue, rfl⟩ }

/-- **One step of the comparison.** -/
lemma corresponds_prune {site site' : Site} (h : PrunedAlike site site') :
    site.Corresponds PrunedAlike site' := by
  obtain ⟨role, value, around⟩ := site
  obtain ⟨distinct, rfl⟩ := h
  refine Site.corresponds_of_resembles (prune_resembles value) ?_ ?_
  · rintro values _ rfl rfl pruned
    rw [prune_array] at pruned
    obtain rfl := Value.array.inj pruned
    rw [List.forall₂_map_right_iff, List.forall₂_same]
    exact fun value hvalue => ⟨Json.hasDistinctKeys_array.mp distinct value hvalue, rfl⟩
  · rintro node _ rfl pruned
    obtain rfl := Value.object.inj pruned
    exact ⟨(mismatch?_pruneMembers node).symm, fun _ => matches_pruneMembers distinct role around⟩

/-! ## The tables -/

lemma documentsAlike_prune {document : Value} (distinct : document.HasDistinctKeys)
    (space : String) : DocumentsAlike PrunedAlike space space document (prune document) := by
  refine documentsAlike_of_resembles (prune_resembles document) (fun _ => ⟨distinct, rfl⟩) ?_
  rintro documents _ rfl pruned
  rw [prune_array] at pruned
  obtain rfl := Value.array.inj pruned
  rw [List.forall₂_map_right_iff, List.forall₂_same]
  exact fun document hdocument => ⟨prune_resembles document,
    Json.hasDistinctKeys_array.mp distinct document hdocument, rfl⟩

/-- An entry whose schema is pruned. -/
def pruneEntry (entry : NamedType) : NamedType := { entry with schema := prune entry.schema }

lemma eq_pruneEntry {entry mirror : NamedType}
    (h : NamedType.Mirrors PrunedAlike entry mirror) : mirror = pruneEntry entry := by
  obtain ⟨rest, _, _, -, -, pruned⟩ := h
  have schema : mirror.schema = prune entry.schema := congrArg Site.value pruned
  rw [rest, pruneEntry, schema]

/-- **Pruning a document changes nothing**: the tables differ in their schemas only, and if the one
document is refused, so is the other, at the same place and in the same words. -/
theorem tableOf_prune_agree {document : Value} (distinct : document.HasDistinctKeys)
    (space : String) :
    ResolveAlike (fun table table' => table' = table.map pruneEntry) (tableOf document space)
      (tableOf (prune document) space) :=
  tableOf_alike_map corresponds_prune (.inl rfl) (documentsAlike_prune distinct space) eq_pruneEntry

end AvroTypes.Schema
