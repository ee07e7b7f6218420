import AvroTypes.Proofs.Table.Violations
import Mathlib.Data.List.Perm.Basic

/-!
# The order of a table

What a reference means depends on the order of the table, and so does which of two namespaces owns
the file that both would have.  But whether a reference means anything depends only on the names in
the table, and whether two namespaces share a file only on the namespaces.  So the rules for a table
are rules for the types in it, in whatever order they come.

What is reported of the types themselves goes with them when they are put in another order.  Only
what is reported of the namespaces is reported against other types then.

* `Sound.of_subset_of_isSome` — what a table leaves to a smaller one.
* `sound_congr` — **the rules do not depend on the order.**
* `Problem.concernsType`, `filter_concernsType_issues` — what is reported of the types themselves.
* `issues_of_perm` — **reordering a table.**
-/

namespace AvroTypes

variable {options : Options} {table table' : List NamedType}

/-! ## The rules -/

/-- A table without anything wrong leaves nothing wrong to a part of it in which references mean
something if they do in the whole. -/
lemma Sound.of_subset_of_isSome (h : Sound options table) (sub : table' ⊆ table)
    (means : ∀ type ∈ table', ∀ name ∈ type.references,
      ((SymbolIndex.ofTable table).resolve? name type.space).isSome →
        ((SymbolIndex.ofTable table').resolve? name type.space).isSome) :
    Sound options table' where
  names type htype := h.names type (sub htype)
  single type htype := h.single type (sub htype)
  closed deny type htype := by
    obtain ⟨own, fields⟩ := h.closed deny type (sub htype)
    constructor
    · intro rank name mentions
      have hname : name ∈ type.references :=
        List.mem_append_left _ ((enumerates_referencesIn _).mem mentions)
      exact means type htype name hname (own rank name mentions)
    · intro field hfield rank name mentions
      have hname : name ∈ type.references := List.mem_append_right _
        (List.mem_flatMap.mpr ⟨field, hfield, (enumerates_referencesIn _).mem mentions⟩)
      exact means type htype name hname (fields field hfield rank name mentions)
  segments blocks type htype := h.segments blocks type (sub htype)
  files several type htype other hother := h.files several type (sub htype) other (sub hother)

/-- Whether a reference means anything depends only on which types are in the table. -/
lemma isNone_resolve?_congr (same : ∀ type, type ∈ table ↔ type ∈ table')
    (reference space : String) :
    ((SymbolIndex.ofTable table).resolve? reference space).isNone =
      ((SymbolIndex.ofTable table').resolve? reference space).isNone := by
  rw [Bool.eq_iff_iff, Option.isNone_iff_eq_none, Option.isNone_iff_eq_none,
    resolve?_eq_none_iff, resolve?_eq_none_iff]
  simp only [same]

/-- **The rules for a table do not depend on its order**, nor on how often a type is in it. -/
theorem sound_congr (same : ∀ type, type ∈ table ↔ type ∈ table') :
    Sound options table ↔ Sound options table' := by
  have half : ∀ {table table' : List NamedType}, (∀ type, type ∈ table ↔ type ∈ table') →
      Sound options table → Sound options table' := by
    intro table table' same sound
    refine sound.of_subset_of_isSome (fun type => (same type).mpr) fun type _ name _ => ?_
    rw [← Option.not_isNone, ← Option.not_isNone, isNone_resolve?_congr same]
    exact id
  exact ⟨half same, half fun type => (same type).symm⟩

/-! ## What is reported of the types -/

/-- A problem of the alternatives of a type, or of a reference in it. -/
def Problem.concernsType : Problem → Bool
  | .rootUnion _ => true
  | .danglingReference _ _ => true
  | .reservedWord _ => false
  | .fileCollision _ _ => false

lemma filter_concernsType_issuesOfGroups (earlier : List String) (groups : List Group) :
    (issuesOfGroups options earlier groups).filter (·.problem.concernsType) = [] := by
  induction groups generalizing earlier with
  | nil => rfl
  | cons group rest ih =>
      have space : ∀ problem ∈ problemsOfSpace options earlier group.space,
          problem.concernsType = false := by
        intro problem hproblem
        rw [problemsOfSpace, List.mem_append] at hproblem
        rcases hproblem with segment | collision
        · split_ifs at segment
          · obtain ⟨word, -, rfl⟩ := List.mem_map.mp segment
            rfl
          · simp at segment
        · split_ifs at collision
          · simp at collision
          · split at collision
            · obtain rfl := List.mem_singleton.mp collision
              rfl
            · simp at collision
      rw [issuesOfGroups, List.filter_append, ih, List.append_nil, List.filter_eq_nil_iff]
      intro issue hissue
      obtain ⟨first, -, hissue⟩ := List.mem_flatMap.mp hissue
      obtain ⟨problem, hproblem, rfl⟩ := List.mem_map.mp hissue
      simp [space problem hproblem]

/-- What is reported of the types themselves, type by type. -/
lemma filter_concernsType_issues (options : Options) (table : List NamedType) :
    (issues options (SymbolIndex.ofTable table) table).filter (·.problem.concernsType) =
      (table.flatMap fun type =>
        (problemsOfType options (SymbolIndex.ofTable table) type).map
          (Issue.mk type.fullName)).filter (·.problem.concernsType) := by
  rw [issues, List.filter_append, filter_concernsType_issuesOfGroups, List.append_nil]

/-- The problems of a type depend only on which types are in the table. -/
lemma problemsOfType_congr (same : ∀ type, type ∈ table ↔ type ∈ table') (type : NamedType) :
    problemsOfType options (SymbolIndex.ofTable table) type =
      problemsOfType options (SymbolIndex.ofTable table') type := by
  simp only [problemsOfType, danglingProblems, TypeScript.dangling_eq_filter,
    isNone_resolve?_congr same]

/-! ## Reordering -/

/-- **The check of a table does not depend on its order.**  A table and a reordering of it are both
accepted or both refused, whatever names and namespaces repeat in them, and the same is reported of
their types: every wrong number of alternatives and every dangling reference, as often. -/
theorem issues_of_perm (options : Options) (h : table.Perm table') :
    (issues options (SymbolIndex.ofTable table) table = [] ↔
        issues options (SymbolIndex.ofTable table') table' = []) ∧
      ((issues options (SymbolIndex.ofTable table) table).filter (·.problem.concernsType)).Perm
        ((issues options (SymbolIndex.ofTable table') table').filter
          (·.problem.concernsType)) := by
  have same : ∀ type, type ∈ table ↔ type ∈ table' := fun type => h.mem_iff
  constructor
  · rw [issues_eq_nil_iff, issues_eq_nil_iff]
    exact sound_congr same
  · rw [filter_concernsType_issues, filter_concernsType_issues]
    simp only [problemsOfType_congr same]
    exact (h.flatMap_right _).filter _

/-- Types of one name in two namespaces that have the same file: a union, and twice a type that
refers to nothing. -/
def crowdedTable : List NamedType :=
  [{ name := "T", space := "", alternatives := [.plain .null, .plain .string] },
    { name := "T", space := "default", alternatives := [.plain (.reference "U")] },
    { name := "T", space := "default", alternatives := [.plain (.reference "U")] }]

/-- The other way round the same is reported of the types, and the collision of the two namespaces
against the union. -/
theorem issues_of_perm_crowded :
    crowdedTable.Perm crowdedTable.reverse ∧
      issues { namespaceBlocks := false } (SymbolIndex.ofTable crowdedTable) crowdedTable =
        [⟨"T", .rootUnion 2⟩, ⟨"default.T", .danglingReference none "U"⟩,
          ⟨"default.T", .danglingReference none "U"⟩,
          ⟨"default.T", .fileCollision "default.ts" ""⟩] ∧
      issues { namespaceBlocks := false } (SymbolIndex.ofTable crowdedTable.reverse)
          crowdedTable.reverse ≠ [] ∧
      ((issues { namespaceBlocks := false } (SymbolIndex.ofTable crowdedTable)
          crowdedTable).filter (·.problem.concernsType)).Perm
        ((issues { namespaceBlocks := false } (SymbolIndex.ofTable crowdedTable.reverse)
          crowdedTable.reverse).filter (·.problem.concernsType)) := by
  have perm : crowdedTable.Perm crowdedTable.reverse := (List.reverse_perm _).symm
  have found : issues { namespaceBlocks := false } (SymbolIndex.ofTable crowdedTable)
      crowdedTable = [⟨"T", .rootUnion 2⟩, ⟨"default.T", .danglingReference none "U"⟩,
        ⟨"default.T", .danglingReference none "U"⟩,
        ⟨"default.T", .fileCollision "default.ts" ""⟩] := by
    simp only [issues, problemsOfType, danglingProblems, TypeScript.dangling_eq_filter,
      SymbolIndex.resolve?_ofTable]
    decide +kernel
  obtain ⟨accepted, reported⟩ := issues_of_perm { namespaceBlocks := false } perm
  refine ⟨perm, found, fun none => ?_, reported⟩
  rw [accepted.mpr none] at found
  exact absurd found (by simp)

end AvroTypes
