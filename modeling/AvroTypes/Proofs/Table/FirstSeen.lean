import AvroTypes.Proofs.Enumeration
import AvroTypes.Proofs.Table.Grouping

/-!
# The order of the groups

Grouping goes through the table once, and a namespace gets its group when it is first seen.  So the
groups stand in the order of the first types of their namespaces, and each group has that type at
its head.

* `FirstWith` — the first type of a table with a property.
* `openers` — the first types of all namespaces, in the order of the table.
* `find?_openers` — looking through the namespaces in that order.
* `forall₂_openers_ofTable` — **the groups are opened by the openers.**
-/

namespace AvroTypes

/-- **The first type of a table with a property**, and its index. -/
structure FirstWith (table : List NamedType) (property : NamedType → Prop) (i : Nat)
    (type : NamedType) : Prop where
  found : table[i]? = some type
  holds : property type
  before : ∀ j < i, ∀ other, table[j]? = some other → ¬ property other

/-- The types of a table that are the first of their namespace, with their indices. -/
def openers (table : List NamedType) : List (NamedType × Nat) :=
  table.zipIdx.filter fun entry => (table.take entry.2).all (·.space ≠ entry.1.space)

section

variable {table : List NamedType} {type : NamedType} {i : Nat}

lemma FirstWith.unique {property : NamedType → Prop} {j : Nat} {other : NamedType}
    (h : FirstWith table property i type) (h' : FirstWith table property j other) :
    i = j ∧ type = other := by
  have same : i = j := Nat.le_antisymm
    (Nat.le_of_not_lt fun less => h.before j less other h'.found h'.holds)
    (Nat.le_of_not_lt fun less => h'.before i less type h.found h.holds)
  subst same
  exact ⟨rfl, Option.some.inj (h.found.symm.trans h'.found)⟩

/-- Up to a type with a property there is a first one. -/
lemma exists_firstWith (property : NamedType → Prop) (found : table[i]? = some type)
    (holds : property type) : ∃ j ≤ i, ∃ first, FirstWith table property j first := by
  induction i using Nat.strongRecOn generalizing type with
  | _ i ih =>
      by_cases earlier : ∃ j < i, ∃ other, table[j]? = some other ∧ property other
      · obtain ⟨j, less, other, hother, hproperty⟩ := earlier
        obtain ⟨k, hk, first, hfirst⟩ := ih j less hother hproperty
        exact ⟨k, Nat.le_trans hk (Nat.le_of_lt less), first, hfirst⟩
      · refine ⟨i, Nat.le_refl i, type, found, holds, fun j less other hother hproperty => ?_⟩
        exact earlier ⟨j, less, other, hother, hproperty⟩

lemma mem_openers :
    (type, i) ∈ openers table ↔ FirstWith table (·.space = type.space) i type := by
  rw [openers, List.mem_filter, List.mk_mem_zipIdx_iff_getElem?]
  simp only [List.all_eq_true, decide_eq_true_eq, List.mem_take_iff_getElem, Nat.lt_min]
  constructor
  · rintro ⟨found, before⟩
    refine ⟨found, rfl, fun j less other hother => ?_⟩
    obtain ⟨hj, rfl⟩ := List.getElem?_eq_some_iff.mp hother
    exact before _ ⟨j, ⟨less, hj⟩, rfl⟩
  · rintro ⟨found, -, before⟩
    refine ⟨found, ?_⟩
    rintro other ⟨j, ⟨less, hj⟩, rfl⟩
    exact before j less _ (List.getElem?_eq_getElem hj)

lemma pairwise_openers (table : List NamedType) :
    (openers table).Pairwise fun first second => first.2 < second.2 := by
  exact (pairwise_zipIdx table).filter _

/-- The first type whose namespace has a property opens its namespace. -/
lemma FirstWith.mem_openers {property : String → Prop}
    (h : FirstWith table (fun type => property type.space) i type) : (type, i) ∈ openers table :=
  AvroTypes.mem_openers.mpr ⟨h.found, rfl, fun j less other hother same =>
    h.before j less other hother (same ▸ h.holds)⟩

section

variable (property : String → Prop) [DecidablePred property] (bound : Nat)

lemma firstWith_of_find?_openers
    (h : (openers table).find? (fun entry => entry.2 < bound ∧ property entry.1.space) =
      some (type, i)) :
    i < bound ∧ FirstWith table (fun type => property type.space) i type := by
  obtain ⟨holds, before, after, split, hbefore⟩ := List.find?_eq_some_iff_append.mp h
  simp only [decide_eq_true_eq] at holds
  have hmem : (type, i) ∈ openers table := List.mem_of_find?_eq_some h
  refine ⟨holds.1, (mem_openers.mp hmem).found, holds.2, fun j less other hother hproperty => ?_⟩
  -- the first type of that namespace would have been found before
  obtain ⟨k, hk, first, hfirst⟩ :=
    exists_firstWith (fun type => property type.space) hother hproperty
  have ordered := pairwise_openers table
  have hopener := hfirst.mem_openers
  rw [split] at ordered hopener
  rcases List.mem_append.mp hopener with hopener | hopener
  · have missed := hbefore _ hopener
    simp only [Bool.not_eq_true', decide_eq_false_iff_not, not_and] at missed
    exact missed (by omega) hfirst.holds
  · rcases List.mem_cons.mp hopener with same | hopener
    · obtain ⟨-, rfl⟩ := Prod.mk.inj same
      omega
    · have later := (List.pairwise_cons.mp (List.pairwise_append.mp ordered).2.1).1 _ hopener
      simp only at later
      omega

/-- **Looking for a namespace among the openers** finds the first type of the table whose namespace
has the property, if it stands early enough. -/
theorem find?_openers :
    (openers table).find? (fun entry => entry.2 < bound ∧ property entry.1.space) =
        some (type, i) ↔
      i < bound ∧ FirstWith table (fun type => property type.space) i type := by
  refine ⟨firstWith_of_find?_openers property bound, fun ⟨less, first⟩ => ?_⟩
  have hfound : ((openers table).find?
      (fun entry => entry.2 < bound ∧ property entry.1.space)).isSome := by
    rw [List.find?_isSome]
    exact ⟨(type, i), first.mem_openers, by simpa using ⟨less, first.holds⟩⟩
  obtain ⟨⟨other, j⟩, hother⟩ := Option.isSome_iff_exists.mp hfound
  obtain ⟨rfl, rfl⟩ := first.unique (firstWith_of_find?_openers property bound hother).2
  exact hother

end

/-- The type that opens a namespace is the first one there. -/
lemma openers_append_singleton (table : List NamedType) (type : NamedType) :
    openers (table ++ [type]) =
      openers table ++ if ∃ other ∈ table, other.space = type.space then []
        else [(type, table.length)] := by
  have earlier : ∀ entry ∈ table.zipIdx,
      (table ++ [type]).take entry.2 = table.take entry.2 := by
    rintro ⟨other, j⟩ hentry
    have hj := (List.mem_zipIdx' hentry).1
    rw [List.take_append_of_le_length (Nat.le_of_lt hj)]
  rw [openers, List.zipIdx_append, List.filter_append]
  congr 1
  · exact List.filter_congr fun entry hentry => by rw [earlier entry hentry]
  · by_cases known : ∃ other ∈ table, other.space = type.space
    · simp [known]
    · rw [if_neg known]
      simpa using known

end

namespace Group

/-- A type opens a group: it is the first type of it. -/
def OpenedBy (opener : NamedType × Nat) (group : Group) : Prop :=
  group.types.head? = some opener.1 ∧ group.space = opener.1.space

/-- A type whose namespace has a group does not open one, and one whose namespace has none does. -/
lemma forall₂_openedBy_insert {openers : List (NamedType × Nat)} {groups : List Group}
    (h : List.Forall₂ OpenedBy openers groups) (type : NamedType) (i : Nat) :
    List.Forall₂ OpenedBy
      (openers ++ if type.space ∈ spaces groups then [] else [(type, i)])
      (insert type groups) := by
  induction h with
  | nil => exact .cons ⟨rfl, rfl⟩ .nil
  | @cons opener group openers groups opened opens ih =>
      rw [insert]
      by_cases same : group.space = type.space
      · have known : type.space ∈ spaces (group :: groups) := by simp [spaces, same]
        rw [if_pos same, if_pos known, List.append_nil]
        refine .cons ⟨?_, opened.2⟩ opens
        rw [List.head?_append, opened.1, Option.some_or]
      · have known : type.space ∈ spaces (group :: groups) ↔ type.space ∈ spaces groups := by
          simp [spaces, Ne.symm same]
        rw [if_neg same, List.cons_append]
        simp only [known]
        exact .cons opened ih

/-- **The groups of a table are opened by the first types of the namespaces**, in the order of the
table. -/
theorem forall₂_openers_ofTable (table : List NamedType) :
    List.Forall₂ OpenedBy (openers table) (ofTable table) := by
  induction table using List.reverseRecOn with
  | nil => exact .nil
  | append_singleton table type ih =>
      have known := (partitions_ofTable table).covers type.space
      rw [openers_append_singleton, ofTable, List.foldl_append]
      simp only [← known]
      exact forall₂_openedBy_insert ih type table.length

end Group

end AvroTypes
