import AvroTypes.Proofs.Table.FirstSeen
import AvroTypes.Proofs.Table.Lookup

/-!
# The index and the table

An index answers without going through the table again, but what it answers can be said of the table
alone: the first type that has the reference for its full name, failing that the first one with that
short name in the asking namespace, and failing that the first one with that short name anywhere.  A
full name is a text like any other, so that of one type may be the short name of another, with a dot
in it; the order of the three is what settles which of them is meant.

* `find?_eq_some_iff_firstWith` — a search finds the first type with a property.
* `Means`, `resolve?_eq_iff_means` — what a reference means, and that the index says so.
* `resolve?_refines_scan` — **the index answers as a walk through the table would**, and who asks
  makes no difference to whether there is an answer.
-/

namespace AvroTypes

variable {table : List NamedType} {reference space : String}

/-- A search finds the first type with a property. -/
lemma find?_eq_some_iff_firstWith {property : NamedType → Prop} [DecidablePred property]
    {type : NamedType} :
    table.find? (fun other => property other) = some type ↔
      ∃ i, FirstWith table property i type := by
  rw [List.find?_eq_some_iff_getElem]
  constructor
  · rintro ⟨holds, i, hi, found, before⟩
    refine ⟨i, found ▸ List.getElem?_eq_getElem hi, of_decide_eq_true holds, ?_⟩
    intro j less other hother
    obtain ⟨hj, rfl⟩ := List.getElem?_eq_some_iff.mp hother
    simpa using before j less
  · rintro ⟨i, first⟩
    obtain ⟨hi, found⟩ := List.getElem?_eq_some_iff.mp first.found
    refine ⟨decide_eq_true first.holds, i, hi, found, fun j less => ?_⟩
    simpa using first.before j less _ (List.getElem?_eq_getElem (Nat.lt_trans less hi))

/-- A search finds nothing if no type has the property. -/
lemma find?_eq_none_iff_forall {property : NamedType → Prop} [DecidablePred property] :
    table.find? (fun other => property other) = none ↔ ∀ other ∈ table, ¬ property other := by
  simp

/-- **What a reference means** when it is asked from a namespace: the first type of the table that
goes by it, or nothing if no type does. -/
inductive Means (table : List NamedType) (reference space : String) : Option NamedType → Prop
  | fullName {i : Nat} {type : NamedType}
      (first : FirstWith table (fun other => other.fullName = reference) i type) :
      Means table reference space (some type)
  | home {i : Nat} {type : NamedType} (noFullName : ∀ other ∈ table, ¬ other.fullName = reference)
      (first : FirstWith table (fun other => other.name = reference ∧ other.space = space) i type) :
      Means table reference space (some type)
  | elsewhere {i : Nat} {type : NamedType}
      (noFullName : ∀ other ∈ table, ¬ other.fullName = reference)
      (noHome : ∀ other ∈ table, ¬ (other.name = reference ∧ other.space = space))
      (first : FirstWith table (fun other => other.name = reference) i type) :
      Means table reference space (some type)
  | nothing (noFullName : ∀ other ∈ table, ¬ other.fullName = reference)
      (noName : ∀ other ∈ table, ¬ other.name = reference) :
      Means table reference space none

/-- The answer of the index is a meaning of the reference. -/
lemma means_resolve? (table : List NamedType) (reference space : String) :
    Means table reference space ((SymbolIndex.ofTable table).resolve? reference space) := by
  rw [SymbolIndex.resolve?_ofTable]
  cases hfull : table.find? (fun other => other.fullName = reference) with
  | some type =>
      obtain ⟨i, first⟩ := find?_eq_some_iff_firstWith.mp hfull
      exact .fullName first
  | none =>
      have noFullName := find?_eq_none_iff_forall.mp hfull
      cases hhome : table.find? (fun other => other.name = reference ∧ other.space = space) with
      | some type =>
          obtain ⟨i, first⟩ := find?_eq_some_iff_firstWith.mp hhome
          exact .home noFullName first
      | none =>
          cases hname : table.find? (fun other => other.name = reference) with
          | some type =>
              obtain ⟨i, first⟩ := find?_eq_some_iff_firstWith.mp hname
              exact .elsewhere noFullName (find?_eq_none_iff_forall.mp hhome) first
          | none => exact .nothing noFullName (find?_eq_none_iff_forall.mp hname)

/-- **The index says what a reference means.** -/
theorem resolve?_eq_iff_means {found : Option NamedType} :
    (SymbolIndex.ofTable table).resolve? reference space = found ↔
      Means table reference space found := by
  refine ⟨fun h => h ▸ means_resolve? table reference space, fun h => ?_⟩
  rw [SymbolIndex.resolve?_ofTable]
  cases h with
  | fullName first => rw [find?_eq_some_iff_firstWith.mpr ⟨_, first⟩, Option.some_or]
  | home noFullName first =>
      rw [find?_eq_none_iff_forall.mpr noFullName, find?_eq_some_iff_firstWith.mpr ⟨_, first⟩,
        Option.none_or, Option.some_or]
  | elsewhere noFullName noHome first =>
      rw [find?_eq_none_iff_forall.mpr noFullName, find?_eq_none_iff_forall.mpr noHome,
        find?_eq_some_iff_firstWith.mpr ⟨_, first⟩, Option.none_or, Option.none_or]
  | nothing noFullName noName =>
      have noHome : ∀ other ∈ table, ¬ (other.name = reference ∧ other.space = space) :=
        fun other hother same => noName other hother same.1
      rw [find?_eq_none_iff_forall.mpr noFullName, find?_eq_none_iff_forall.mpr noHome,
        find?_eq_none_iff_forall.mpr noName, Option.none_or, Option.none_or]

/-- **The index answers as a walk through the table would.**  It answers with the first type that
has the reference for its full name; if there is none, with the first one that has it for its short
name in the asking namespace; if there is none either, with the first one that has it for its short
name.  It has no answer exactly if no type has the reference for a name, short or full; so if it has
one for one namespace it has one for every other. -/
theorem resolve?_refines_scan (table : List NamedType) (reference : String) :
    (∀ space found, (SymbolIndex.ofTable table).resolve? reference space = found ↔
      Means table reference space found) ∧
    (∀ space, (SymbolIndex.ofTable table).resolve? reference space = none ↔
      ∀ type ∈ table, type.fullName ≠ reference ∧ type.name ≠ reference) ∧
    ∀ space space', ((SymbolIndex.ofTable table).resolve? reference space).isSome =
      ((SymbolIndex.ofTable table).resolve? reference space').isSome := by
  refine ⟨fun _ _ => resolve?_eq_iff_means, fun _ => resolve?_eq_none_iff, fun space space' => ?_⟩
  have same : (SymbolIndex.ofTable table).resolve? reference space = none ↔
      (SymbolIndex.ofTable table).resolve? reference space' = none :=
    resolve?_eq_none_iff.trans resolve?_eq_none_iff.symm
  rw [Bool.eq_iff_iff, ← Option.ne_none_iff_isSome, ← Option.ne_none_iff_isSome]
  exact not_congr same

/-- A full name comes before a short name, even before one in the asking namespace. -/
example : ((SymbolIndex.ofTable
    [{ name := "b.E", space := "a", alternatives := [] },
      { name := "E", space := "b", alternatives := [] }]).resolve? "b.E" "a").map
      NamedType.space = some "b" := by
  rw [SymbolIndex.resolve?_ofTable]
  rfl

end AvroTypes
