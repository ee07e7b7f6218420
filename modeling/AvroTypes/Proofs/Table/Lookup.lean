import AvroTypes.Table.Index
import Mathlib.Data.List.Find
import Mathlib.Data.List.Nodup
import Mathlib.Tactic.Lemma
import Mathlib.Tactic.SplitIfs

/-!
# What a reference means

The index keeps two maps, but what it answers is a property of the table alone: the first type of
the table that is closest to the reference.  A full name is closer than a short name, and a short
name in the asking namespace closer than one elsewhere.

**The maps as searches.**  `byFullName_ofTable`, `byName_ofTable` and `resolve?_ofTable` say what
the maps of a table hold, as searches in the table.

**Closeness.**  `NamedType.distance` measures how far a type is from a reference, and
`resolve?_eq_some_iff` says that looking up finds the first type at the least distance.

**Other tables.**  A reference keeps its meaning when types with other names are added
(`resolve?_append`), and when a table in which no name repeats is reordered (`resolve?_of_perm`).
Whether it means anything depends only on the names that are there (`resolve?_eq_none_iff`).
-/

namespace AvroTypes

namespace SymbolIndex

/-! ## The maps as searches -/

lemma byFullName_foldl (table : List NamedType) (index : SymbolIndex) (reference : String) :
    (table.foldl insert index).byFullName[reference]? =
      (index.byFullName[reference]?).or (table.find? (·.fullName = reference)) := by
  induction table generalizing index with
  | nil => simp
  | cons first rest ih =>
      rw [List.foldl_cons, ih, insert, Std.HashMap.getElem?_insertIfNew, List.find?_cons]
      by_cases hname : first.fullName = reference
      · subst hname
        cases hfound : index.byFullName[first.fullName]? with
        | none =>
            have hout : first.fullName ∉ index.byFullName := by simpa using hfound
            simp [hout]
        | some found =>
            have hin : first.fullName ∈ index.byFullName := by
              simp [Std.HashMap.mem_iff_isSome_getElem?, hfound]
            simp [hin]
      · simp [hname]

/-- The first map holds the earliest type with each full name. -/
theorem byFullName_ofTable (table : List NamedType) (reference : String) :
    (ofTable table).byFullName[reference]? = table.find? (·.fullName = reference) := by
  rw [ofTable, byFullName_foldl]
  simp [empty]

lemma byName_foldl (table : List NamedType) (index : SymbolIndex) (reference : String) :
    (table.foldl insert index).byName.getD reference [] =
      index.byName.getD reference [] ++ table.filter (·.name = reference) := by
  induction table generalizing index with
  | nil => simp
  | cons first rest ih =>
      rw [List.foldl_cons, ih, insert, Std.HashMap.getD_insert, List.filter_cons]
      by_cases hname : first.name = reference
      · subst hname
        simp
      · simp [hname]

/-- The second map holds all types with each short name. -/
theorem byName_ofTable (table : List NamedType) (reference : String) :
    (ofTable table).byName.getD reference [] = table.filter (·.name = reference) := by
  rw [ofTable, byName_foldl]
  simp [empty]

/-- **Looking up is three searches in the table**, each made if the ones before find nothing. -/
theorem resolve?_ofTable (table : List NamedType) (reference space : String) :
    (ofTable table).resolve? reference space =
      (table.find? (·.fullName = reference)).or
        ((table.find? fun type => type.name = reference ∧ type.space = space).or
          (table.find? (·.name = reference))) := by
  rw [resolve?, byFullName_ofTable]
  cases table.find? (·.fullName = reference) with
  | some type => rfl
  | none => simp [byName_ofTable, List.find?_filter, List.head?_filter]

end SymbolIndex

/-! ## Closeness -/

/-- **How far a type is from a reference** that is asked from a namespace: nearest if it has that
full name, and out of reach at three. -/
def NamedType.distance (reference space : String) (type : NamedType) : Nat :=
  if type.fullName = reference then 0
  else if type.name = reference then if type.space = space then 1 else 2
  else 3

/-- A type comes first among those of a table at the least distance from a reference. -/
def NamedType.IsNearest (table : List NamedType) (reference space : String) (type : NamedType) :
    Prop :=
  ∃ before after, table = before ++ type :: after ∧
    (∀ other ∈ before, type.distance reference space < other.distance reference space) ∧
    ∀ other ∈ after, type.distance reference space ≤ other.distance reference space

section

variable {table : List NamedType} {reference space : String} {type : NamedType}

lemma NamedType.distance_eq_zero_iff :
    type.distance reference space = 0 ↔ type.fullName = reference := by
  rw [NamedType.distance]
  split_ifs <;> simp_all

lemma NamedType.distance_le_one_iff :
    type.distance reference space ≤ 1 ↔
      type.fullName = reference ∨ (type.name = reference ∧ type.space = space) := by
  rw [NamedType.distance]
  split_ifs <;> simp_all

lemma NamedType.distance_le_two_iff :
    type.distance reference space ≤ 2 ↔ type.fullName = reference ∨ type.name = reference := by
  rw [NamedType.distance]
  split_ifs <;> simp_all

lemma NamedType.distance_lt_three_of_name (h : type.name = reference) :
    type.distance reference space < 3 :=
  Nat.lt_succ_of_le (distance_le_two_iff.mpr (.inr h))

lemma NamedType.IsNearest.least (h : type.IsNearest table reference space) :
    ∀ other ∈ table, type.distance reference space ≤ other.distance reference space := by
  obtain ⟨before, after, rfl, hbefore, hafter⟩ := h
  intro other hother
  rcases List.mem_append.mp hother with hother | hother
  · exact Nat.le_of_lt (hbefore other hother)
  · rcases List.mem_cons.mp hother with rfl | hother
    · exact Nat.le_refl _
    · exact hafter other hother

/-- The first type of a table within a distance of a reference. -/
def firstWithin (table : List NamedType) (reference space : String) (bound : Nat) :
    Option NamedType :=
  table.find? (·.distance reference space ≤ bound)

lemma firstWithin_eq_none_iff {bound : Nat} :
    firstWithin table reference space bound = none ↔
      ∀ other ∈ table, bound < other.distance reference space := by
  simp [firstWithin]

lemma distance_le_of_firstWithin {bound : Nat}
    (h : firstWithin table reference space bound = some type) :
    type.distance reference space ≤ bound := by
  simpa using List.find?_some h

/-- When no type is closer than a bound, the nearest one at the bound is the first within it. -/
lemma NamedType.isNearest_iff_firstWithin (least : ∀ other ∈ table,
      type.distance reference space ≤ other.distance reference space) :
    type.IsNearest table reference space ↔
      firstWithin table reference space (type.distance reference space) = some type := by
  rw [firstWithin, List.find?_eq_some_iff_append]
  constructor
  · rintro ⟨before, after, rfl, hbefore, -⟩
    refine ⟨by simp, before, after, rfl, fun other hother => ?_⟩
    simpa using hbefore other hother
  · rintro ⟨-, before, after, rfl, hbefore⟩
    refine ⟨before, after, rfl, fun other hother => ?_, fun other hother => ?_⟩
    · simpa using hbefore other hother
    · exact least other (by simp [hother])

/-- Each search of a look-up looks within one more step than the one before. -/
lemma resolve?_eq_searches (table : List NamedType) (reference space : String) :
    (SymbolIndex.ofTable table).resolve? reference space =
      (firstWithin table reference space 0).or
        ((firstWithin table reference space 1).or (firstWithin table reference space 2)) := by
  simp only [SymbolIndex.resolve?_ofTable, firstWithin, Nat.le_zero,
    NamedType.distance_eq_zero_iff, NamedType.distance_le_one_iff, NamedType.distance_le_two_iff]
  cases hfull : table.find? (·.fullName = reference) with
  | some found => rfl
  | none =>
      have absent : ∀ other ∈ table, other.fullName ≠ reference := by simpa using hfull
      have byShort : table.find? (fun other => other.name = reference ∧ other.space = space) =
          table.find? (fun other => other.fullName = reference ∨
            (other.name = reference ∧ other.space = space)) :=
        List.find?_congr fun other hother => by simp [absent other hother]
      have anywhere : table.find? (·.name = reference) =
          table.find? (fun other => other.fullName = reference ∨ other.name = reference) :=
        List.find?_congr fun other hother => by simp [absent other hother]
      rw [byShort, anywhere]

lemma isNearest_of_firstWithin {bound : Nat}
    (h : firstWithin table reference space bound = some type)
    (beyond : ∀ other ∈ table, bound ≤ other.distance reference space) :
    type.IsNearest table reference space := by
  have hdistance : type.distance reference space = bound :=
    Nat.le_antisymm (distance_le_of_firstWithin h) (beyond type (List.mem_of_find?_eq_some h))
  exact (NamedType.isNearest_iff_firstWithin (hdistance ▸ beyond)).mpr (hdistance ▸ h)

/-- **Looking up finds the first type at the least distance**, if one is in reach. -/
theorem resolve?_eq_some_iff :
    (SymbolIndex.ofTable table).resolve? reference space = some type ↔
      type.distance reference space < 3 ∧ type.IsNearest table reference space := by
  rw [resolve?_eq_searches]
  constructor
  · intro h
    cases hzero : firstWithin table reference space 0 with
    | some found =>
        obtain rfl : found = type := by simpa [hzero] using h
        exact ⟨Nat.lt_of_le_of_lt (distance_le_of_firstWithin hzero) (by decide),
          isNearest_of_firstWithin hzero fun _ _ => Nat.zero_le _⟩
    | none =>
        cases hone : firstWithin table reference space 1 with
        | some found =>
            obtain rfl : found = type := by simpa [hzero, hone] using h
            exact ⟨Nat.lt_of_le_of_lt (distance_le_of_firstWithin hone) (by decide),
              isNearest_of_firstWithin hone (firstWithin_eq_none_iff.mp hzero)⟩
        | none =>
            have htwo : firstWithin table reference space 2 = some type := by
              simpa [hzero, hone] using h
            exact ⟨Nat.lt_of_le_of_lt (distance_le_of_firstWithin htwo) (by decide),
              isNearest_of_firstWithin htwo (firstWithin_eq_none_iff.mp hone)⟩
  · rintro ⟨reach, nearest⟩
    have found := (NamedType.isNearest_iff_firstWithin nearest.least).mp nearest
    have closer {bound : Nat} (h : bound < type.distance reference space) :
        firstWithin table reference space bound = none :=
      firstWithin_eq_none_iff.mpr fun other hother =>
        Nat.lt_of_lt_of_le h (nearest.least other hother)
    rcases hdistance : type.distance reference space with _ | _ | _ | far
    · simp [← hdistance, found]
    · rw [closer (by omega), Option.none_or, ← Nat.zero_add 1, ← hdistance, found, Option.some_or]
    · rw [closer (by omega), closer (by omega), Option.none_or, Option.none_or]
      simpa [hdistance] using found
    · omega

/-- A reference means something as soon as one type is in reach. -/
lemma exists_resolve?_eq_some (h : type ∈ table) (reach : type.distance reference space < 3) :
    ∃ found, (SymbolIndex.ofTable table).resolve? reference space = some found := by
  rw [← Option.isSome_iff_exists, resolve?_eq_searches]
  have hfound : (firstWithin table reference space 2).isSome := by
    rw [← Option.ne_none_iff_isSome, Ne, firstWithin_eq_none_iff]
    intro far
    exact absurd (far type h) (by omega)
  simp [hfound]

end

/-! ## Other tables -/

/-- Types that do not have the reference for a name do not change what it means. -/
lemma resolve?_append {table more : List NamedType} {reference : String}
    (unmentioned : ∀ type ∈ more, type.name ≠ reference ∧ type.fullName ≠ reference)
    (space : String) :
    (SymbolIndex.ofTable (table ++ more)).resolve? reference space =
      (SymbolIndex.ofTable table).resolve? reference space := by
  have nothing : ∀ property : NamedType → Bool,
      (∀ type, property type → type.name = reference ∨ type.fullName = reference) →
      more.find? property = none := by
    intro property names
    refine List.find?_eq_none.mpr fun type htype holds => ?_
    rcases names type holds with same | same
    · exact (unmentioned type htype).1 same
    · exact (unmentioned type htype).2 same
  simp only [SymbolIndex.resolve?_ofTable, List.find?_append]
  rw [nothing _ fun type h => .inr (by simpa using h),
    nothing _ fun type h => .inl (by simpa using And.left (of_decide_eq_true h)),
    nothing _ fun type h => .inl (by simpa using h)]
  simp only [Option.or_none]

/-- **A reference means nothing** exactly if no type has it for a name, short or full, wherever it
is asked from. -/
lemma resolve?_eq_none_iff {table : List NamedType} {reference space : String} :
    (SymbolIndex.ofTable table).resolve? reference space = none ↔
      ∀ type ∈ table, type.fullName ≠ reference ∧ type.name ≠ reference := by
  simp only [SymbolIndex.resolve?_ofTable, Option.or_eq_none_iff, List.find?_eq_none,
    decide_eq_true_eq]
  constructor
  · rintro ⟨full, -, short⟩ type htype
    exact ⟨full type htype, short type htype⟩
  · intro nobody
    exact ⟨fun type htype => (nobody type htype).1,
      fun type htype same => (nobody type htype).2 same.1, fun type htype => (nobody type htype).2⟩

/-- If neither full names nor short names repeat, the order of a table does not matter. -/
lemma resolve?_of_perm {table table' : List NamedType} (h : table.Perm table')
    (names : (table.map NamedType.name).Nodup) (fullNames : (table.map NamedType.fullName).Nodup)
    (reference space : String) :
    (SymbolIndex.ofTable table).resolve? reference space =
      (SymbolIndex.ofTable table').resolve? reference space := by
  have byKey : ∀ (key : NamedType → String) (property : NamedType → Bool),
      (table.map key).Nodup → (∀ type, property type → key type = reference) →
      table.find? property = table'.find? property := by
    intro key property distinct names
    refine List.find?_eq_find?_of_perm h fun type htype other hother => ?_
    exact List.inj_on_of_nodup_map distinct htype.1 hother.1
      ((names type htype.2).trans (names other hother.2).symm)
  simp only [SymbolIndex.resolve?_ofTable]
  rw [byKey _ _ fullNames fun type h => by simpa using h,
    byKey _ _ names fun type h => by simpa using And.left (of_decide_eq_true h),
    byKey _ _ names fun type h => by simpa using h]

end AvroTypes
