import AvroTypes.Table.Index
import Mathlib.Data.List.Induction
import Mathlib.Data.List.Nodup
import Mathlib.Tactic.Lemma

/-!
# The groups of a table

Grouping is a fold over the table.  Two things about the groups decide everything else: which
namespaces there are, and which types each of them has.  Both are followed through one insertion
and then through the whole table.

**Namespaces.**  `spaces_insert` says that an insertion adds a namespace at the end unless it is
there already, so each namespace of the table has one group (`nodup_spaces_ofTable`,
`mem_spaces_ofTable`).

**Types.**  `types_of_mem_ofTable` says that a group has exactly the types of its namespace, in the
order of the table.
-/

namespace AvroTypes.Group

/-- The namespaces of a list of groups. -/
def spaces (groups : List Group) : List String := groups.map Group.space

/-- The types that a list of groups has for a namespace. -/
def typesOf (space : String) : List Group → List NamedType
  | [] => []
  | group :: rest => if group.space = space then group.types else typesOf space rest

/-! ## One insertion -/

lemma spaces_insert (type : NamedType) (groups : List Group) :
    spaces (insert type groups) =
      if type.space ∈ spaces groups then spaces groups else spaces groups ++ [type.space] := by
  induction groups with
  | nil => simp [insert, spaces]
  | cons group rest ih =>
      by_cases same : group.space = type.space
      · simp [insert, spaces, same]
      · simp only [spaces] at ih
        simp only [insert, if_neg same, spaces, List.map_cons, ih, List.mem_cons, Ne.symm same,
          false_or]
        split_ifs with known
        · simp [known]
        · simp [known]

lemma typesOf_insert (space : String) (type : NamedType) (groups : List Group) :
    typesOf space (insert type groups) =
      typesOf space groups ++ if type.space = space then [type] else [] := by
  induction groups with
  | nil => simp [insert, typesOf]
  | cons group rest ih =>
      by_cases same : group.space = type.space
      · by_cases here : type.space = space
        · simp [insert, typesOf, same, here]
        · simp [insert, typesOf, same, here]
      · by_cases here : group.space = space
        · have other : type.space ≠ space := fun h => same (here.trans h.symm)
          rw [insert, if_neg same]
          simp [typesOf, here, other]
        · simp [insert, typesOf, same, here, ih]

/-! ## The whole table -/

/-- What holds of the groups of a table: one group for each namespace, with all types of it. -/
structure Partitions (table : List NamedType) (groups : List Group) : Prop where
  distinct : (spaces groups).Nodup
  covers : ∀ space, space ∈ spaces groups ↔ ∃ type ∈ table, type.space = space
  types : ∀ space, typesOf space groups = table.filter (·.space = space)

lemma Partitions.insert {table : List NamedType} {groups : List Group} (type : NamedType)
    (h : Partitions table groups) : Partitions (table ++ [type]) (insert type groups) where
  distinct := by
    rw [spaces_insert]
    split_ifs with known
    · exact h.distinct
    · rw [List.nodup_append]
      refine ⟨h.distinct, List.nodup_singleton _, fun space hspace other hother => ?_⟩
      rintro rfl
      exact known (List.mem_singleton.mp hother ▸ hspace)
  covers := by
    intro space
    rw [spaces_insert]
    split_ifs with known
    · rw [h.covers]
      constructor
      · rintro ⟨other, hother, rfl⟩
        exact ⟨other, by simp [hother], rfl⟩
      · rintro ⟨other, hother, rfl⟩
        rcases List.mem_append.mp hother with hother | hother
        · exact ⟨other, hother, rfl⟩
        · obtain rfl := List.mem_singleton.mp hother
          exact (h.covers _).mp known
    · simp [h.covers, or_and_right, exists_or, eq_comm]
  types := by
    intro space
    rw [typesOf_insert, h.types, List.filter_append]
    by_cases here : type.space = space <;> simp [here]

/-- **The groups of a table are the table, divided by namespace.** -/
theorem partitions_ofTable (table : List NamedType) : Partitions table (ofTable table) := by
  induction table using List.reverseRecOn with
  | nil => exact ⟨List.nodup_nil, by simp [ofTable, spaces], fun _ => rfl⟩
  | append_singleton table type ih =>
      rw [ofTable, List.foldl_append]
      exact ih.insert type

section

variable {table : List NamedType} {group : Group}

lemma typesOf_of_mem {groups : List Group} (distinct : (spaces groups).Nodup)
    (h : group ∈ groups) : typesOf group.space groups = group.types := by
  induction groups with
  | nil => simp at h
  | cons first rest ih =>
      obtain ⟨new, distinct⟩ := List.nodup_cons.mp distinct
      rcases List.mem_cons.mp h with rfl | h
      · simp [typesOf]
      · have other : first.space ≠ group.space := fun same =>
          new (same ▸ List.mem_map_of_mem h)
        rw [typesOf, if_neg other, ih distinct h]

/-- A namespace has one group. -/
lemma eq_of_space_eq {group' : Group} (h : group ∈ ofTable table) (h' : group' ∈ ofTable table)
    (same : group.space = group'.space) : group = group' :=
  List.inj_on_of_nodup_map (partitions_ofTable table).distinct h h' same

/-- A group has the types of its namespace, in the order of the table. -/
lemma types_of_mem_ofTable (h : group ∈ ofTable table) :
    group.types = table.filter (·.space = group.space) := by
  rw [← (partitions_ofTable table).types, typesOf_of_mem (partitions_ofTable table).distinct h]

/-- Every type has a group. -/
lemma exists_mem_ofTable {type : NamedType} (h : type ∈ table) :
    ∃ group ∈ ofTable table, group.space = type.space ∧ type ∈ group.types := by
  obtain ⟨group, hgroup, hspace⟩ :=
    List.mem_map.mp (((partitions_ofTable table).covers type.space).mpr ⟨type, h, rfl⟩)
  refine ⟨group, hgroup, hspace, ?_⟩
  rw [types_of_mem_ofTable hgroup]
  simp [h, hspace]

/-- A group has a type, and all of them are in its namespace. -/
lemma exists_head_of_mem_ofTable (h : group ∈ ofTable table) :
    ∃ first rest, group.types = first :: rest ∧ first ∈ table ∧ first.space = group.space := by
  obtain ⟨type, htype, hspace⟩ :=
    ((partitions_ofTable table).covers group.space).mp (List.mem_map_of_mem h)
  have hmem : type ∈ group.types := by
    rw [types_of_mem_ofTable h]
    simp [htype, hspace]
  obtain ⟨first, rest, htypes⟩ := List.exists_cons_of_ne_nil (List.ne_nil_of_mem hmem)
  have hfirst : first ∈ table.filter (·.space = group.space) := by
    rw [← types_of_mem_ofTable h, htypes]
    exact List.mem_cons_self
  refine ⟨first, rest, htypes, ?_⟩
  simpa using hfirst

end

end AvroTypes.Group
