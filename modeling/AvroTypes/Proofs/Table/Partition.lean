import AvroTypes.Proofs.Table.Grouping
import Mathlib.Data.List.Perm.Basic

/-!
# Grouping as a partition

The groups of a table are the table again, cut up by namespace.  `ofTable_eq_map` writes them down
without the fold: one group for each namespace, in the order in which the namespaces are first seen,
with the types of that namespace in the order of the table.  Everything else is read off it.

**Nothing is lost or doubled.**  `perm_flatMap_types` says that the types of all groups are the
types of the table.

**Growing.**  Types whose namespaces are new form groups of their own behind the ones that are there
(`ofTable_append`).

**Reordering.**  `Interleaves` compares two tables that differ only in how their namespaces are
mixed.  They have the same groups, in some order (`Interleaves.perm_ofTable`).
-/

namespace AvroTypes

/-- **The namespaces of a table**, in the order in which they are first seen. -/
def spacesOf (table : List NamedType) : List String := (table.map NamedType.space).eraseDups

/-- **Two tables differ only in how their namespaces are mixed**: inside each namespace they have
the same types in the same order. -/
def Interleaves (table table' : List NamedType) : Prop :=
  ∀ space, table.filter (·.space = space) = table'.filter (·.space = space)

lemma mem_spacesOf {table : List NamedType} {space : String} :
    space ∈ spacesOf table ↔ ∃ type ∈ table, type.space = space := by
  rw [spacesOf, List.mem_eraseDups, List.mem_map]

/-- One more type brings a namespace that has not been seen before, or none. -/
lemma spacesOf_concat (table : List NamedType) (type : NamedType) :
    spacesOf (table ++ [type]) =
      spacesOf table ++ if type.space ∈ spacesOf table then [] else [type.space] := by
  rw [spacesOf, List.map_append, List.map_singleton, List.eraseDups_append, spacesOf]
  by_cases known : type.space ∈ table.map NamedType.space
  · rw [if_pos (List.mem_eraseDups.mpr known), List.removeAll,
      List.filter_cons_of_neg (by simpa using known)]
    rfl
  · rw [if_neg (List.mem_eraseDups.not.mpr known), List.removeAll,
      List.filter_cons_of_pos (by simpa using known)]
    rfl

namespace Group

lemma ofTable_concat (table : List NamedType) (type : NamedType) :
    ofTable (table ++ [type]) = insert type (ofTable table) := List.foldl_concat ..

/-! ## The groups without the fold -/

lemma spaces_ofTable (table : List NamedType) : spaces (ofTable table) = spacesOf table := by
  induction table using List.reverseRecOn with
  | nil => rfl
  | append_singleton table type ih =>
      rw [ofTable_concat, spaces_insert, ih, spacesOf_concat]
      split_ifs <;> simp

lemma nodup_spacesOf (table : List NamedType) : (spacesOf table).Nodup :=
  spaces_ofTable table ▸ (partitions_ofTable table).distinct

/-- **The groups of a table**: one for each namespace, with all its types. -/
theorem ofTable_eq_map (table : List NamedType) :
    ofTable table =
      (spacesOf table).map fun space => ⟨space, table.filter (·.space = space)⟩ := by
  rw [← spaces_ofTable, spaces, List.map_map]
  refine ((List.map_congr_left fun group hgroup => ?_).trans (List.map_id _)).symm
  rw [Function.comp_apply, ← types_of_mem_ofTable hgroup, id_def]

/-! ## Nothing is lost or doubled -/

lemma perm_flatMap_insert (type : NamedType) (groups : List Group) :
    ((insert type groups).flatMap types).Perm (type :: groups.flatMap types) := by
  induction groups with
  | nil => exact .refl _
  | cons group rest ih =>
      rw [insert]
      split_ifs
      · simp
      · exact (ih.append_left group.types).trans List.perm_middle

/-- **The types of all groups are those of the table.** -/
theorem perm_flatMap_types (table : List NamedType) :
    ((ofTable table).flatMap types).Perm table := by
  induction table using List.reverseRecOn with
  | nil => exact .nil
  | append_singleton table type ih =>
      rw [ofTable_concat]
      exact (perm_flatMap_insert type _).trans
        ((ih.cons type).trans (List.perm_append_singleton type table).symm)

/-! ## Growing -/

lemma insert_append {type : NamedType} {groups : List Group} (new : type.space ∉ spaces groups)
    (behind : List Group) : insert type (groups ++ behind) = groups ++ insert type behind := by
  induction groups with
  | nil => rfl
  | cons group rest ih =>
      obtain ⟨other, new⟩ := not_or.mp (List.mem_cons.not.mp new)
      rw [List.cons_append, insert, if_neg (Ne.symm other), ih new, List.cons_append]

/-- **Types in namespaces of their own form groups of their own**, behind the others. -/
theorem ofTable_append {table more : List NamedType}
    (apart : ∀ type ∈ more, ∀ other ∈ table, type.space ≠ other.space) :
    ofTable (table ++ more) = ofTable table ++ ofTable more := by
  induction more using List.reverseRecOn with
  | nil => simp [ofTable]
  | append_singleton more type ih =>
      have new : type.space ∉ spaces (ofTable table) := by
        rw [spaces_ofTable, mem_spacesOf]
        rintro ⟨other, hother, same⟩
        exact apart type (by simp) other hother same.symm
      rw [← List.append_assoc, ofTable_concat, ofTable_concat,
        ih fun other hother => apart other (List.mem_append_left _ hother), insert_append new]

end Group

/-! ## Reordering -/

namespace Interleaves

variable {table table' : List NamedType}

lemma symm (h : Interleaves table table') : Interleaves table' table := fun space => (h space).symm

lemma mem_iff (h : Interleaves table table') {type : NamedType} : type ∈ table ↔ type ∈ table' := by
  have := congrArg (type ∈ ·) (h type.space)
  simpa using this

/-- The groups of the two tables are the same, but may come in another order. -/
theorem perm_ofTable (h : Interleaves table table') :
    (Group.ofTable table).Perm (Group.ofTable table') := by
  have spaces : (spacesOf table).Perm (spacesOf table') :=
    (List.perm_ext_iff_of_nodup (Group.nodup_spacesOf table) (Group.nodup_spacesOf table')).mpr
      fun space => by simp only [mem_spacesOf, h.mem_iff]
  rw [Group.ofTable_eq_map, Group.ofTable_eq_map]
  simp only [h _]
  exact spaces.map _

/-- So the tables have the same types. -/
lemma perm (h : Interleaves table table') : table.Perm table' :=
  (Group.perm_flatMap_types table).symm.trans
    ((h.perm_ofTable.flatMap_right _).trans (Group.perm_flatMap_types table'))

end Interleaves

end AvroTypes
