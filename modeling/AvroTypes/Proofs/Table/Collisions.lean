import AvroTypes.Proofs.Table.Violations
import AvroTypes.Proofs.TypeScript.LegalNames

/-!
# Namespaces that share a file

Merging everything into one file changes one thing in the check of a table: collisions of files are
not looked for.  What is reported otherwise stays, in the same order, so the reports differ exactly
if there are collisions.  Two namespaces that keep to the grammar share a file only if one is the
default namespace and the other is called `default`.

* `Problem.concernsFile` — a collision.
* `issues_singleFile` — **the report for one file is the one for several, without collisions.**
* `exists_fileCollision_iff` — when there are any.
* `fileName_eq_iff` — **which namespaces share a file.**
-/

namespace AvroTypes

open AvroTypes.Schema (isNamespace isWordChar)

variable {options : Options} {table : List NamedType}

/-! ## The report without collisions -/

/-- A problem of the file of a namespace. -/
def Problem.concernsFile : Problem → Bool
  | .fileCollision _ _ => true
  | .rootUnion _ => false
  | .danglingReference _ _ => false
  | .reservedWord _ => false

lemma filter_problemsOfSpace (options : Options) (earlier : List String) (space : String) :
    (problemsOfSpace { options with singleFile := false } earlier space).filter
        (!·.concernsFile) =
      problemsOfSpace { options with singleFile := true } earlier space := by
  have segments : ∀ problem ∈ (if options.namespaceBlocks then
      (reservedSegments space).map Problem.reservedWord else []),
      (!problem.concernsFile) = true := by
    intro problem hproblem
    split_ifs at hproblem
    · obtain ⟨word, -, rfl⟩ := List.mem_map.mp hproblem
      rfl
    · simp at hproblem
  rw [problemsOfSpace, problemsOfSpace, List.filter_append, List.filter_eq_self.mpr segments]
  cases earlier.find? (fileName · = fileName space) <;> rfl

lemma filter_issuesOfGroups (options : Options) (earlier : List String) (groups : List Group) :
    (issuesOfGroups { options with singleFile := false } earlier groups).filter
        (!·.problem.concernsFile) =
      issuesOfGroups { options with singleFile := true } earlier groups := by
  induction groups generalizing earlier with
  | nil => rfl
  | cons group rest ih =>
      rw [issuesOfGroups, issuesOfGroups, List.filter_append, ih, List.filter_flatMap]
      simp only [List.filter_map, ← filter_problemsOfSpace]
      rfl

/-- Nothing that is reported of a type itself is a collision. -/
lemma concernsFile_problemsOfType {index : SymbolIndex} {type : NamedType} {problem : Problem}
    (h : problem ∈ problemsOfType options index type) : problem.concernsFile = false := by
  simp only [problemsOfType, danglingProblems, List.mem_append, or_assoc] at h
  rcases h with reserved | union | dangling
  · split_ifs at reserved
    · obtain rfl := List.mem_singleton.mp reserved
      rfl
    · simp at reserved
  · split_ifs at union
    · simp at union
    · obtain rfl := List.mem_singleton.mp union
      rfl
  · split_ifs at dangling
    · rcases List.mem_append.mp dangling with own | field
      · obtain ⟨name, -, rfl⟩ := List.mem_map.mp own
        rfl
      · obtain ⟨field, -, dangling⟩ := List.mem_flatMap.mp field
        obtain ⟨name, -, rfl⟩ := List.mem_map.mp dangling
        rfl
    · simp at dangling

/-- **What is reported when everything is merged** is what is reported otherwise, without the
collisions. -/
theorem issues_singleFile (options : Options) (index : SymbolIndex) (table : List NamedType) :
    (issues { options with singleFile := false } index table).filter (!·.problem.concernsFile) =
      issues { options with singleFile := true } index table := by
  rw [issues, List.filter_append, filter_issuesOfGroups, List.filter_eq_self.mpr]
  · rfl
  · intro issue hissue
    obtain ⟨type, -, hissue⟩ := List.mem_flatMap.mp hissue
    obtain ⟨problem, hproblem, rfl⟩ := List.mem_map.mp hissue
    simp [concernsFile_problemsOfType hproblem]

/-! ## Collisions -/

/-- Of two namespaces with one file, one finds the file owned by another. -/
lemma exists_ownsFile {type other : NamedType} (htype : type ∈ table) (hother : other ∈ table)
    (same : fileName type.space = fileName other.space) (different : type.space ≠ other.space) :
    ∃ late ∈ table, fileName late.space = fileName type.space ∧
      ∃ owner, OwnsFile table late.space owner := by
  obtain ⟨i, found⟩ := List.getElem?_of_mem htype
  obtain ⟨j, -, owner, owns⟩ := exists_firstWith
    (fun owner => fileName owner.space = fileName type.space) found rfl
  by_cases first : owner.space = type.space
  · exact ⟨other, hother, same.symm, owner, first ▸ different, j, same ▸ owns⟩
  · exact ⟨type, htype, rfl, owner, first, j, owns⟩

/-- **Collisions are reported exactly if two namespaces of the table share a file**, and each names
a file that they share. -/
lemma exists_fileCollision_iff (several : options.singleFile = false) (file : String) :
    (∃ name owner, ⟨name, .fileCollision file owner⟩ ∈
        issues options (SymbolIndex.ofTable table) table) ↔
      ∃ type ∈ table, ∃ other ∈ table, fileName type.space = file ∧
        fileName other.space = file ∧ type.space ≠ other.space := by
  have reported := enumerates_issues options table
  constructor
  · rintro ⟨name, owner, hissue⟩
    obtain ⟨rank, violation⟩ := reported.exists_rank hissue
    cases violation with
    | type _ h => cases h
    | space opens h =>
        cases h with
        | collision _ owns =>
            obtain ⟨different, j, owns⟩ := owns
            exact ⟨_, List.mem_of_getElem? owns.found, _, List.mem_of_getElem? opens.found,
              owns.holds, rfl, different⟩
  · rintro ⟨type, htype, other, hother, rfl, same, different⟩
    obtain ⟨late, hlate, hfile, owner, owns⟩ := exists_ownsFile htype hother same.symm different
    have violates : SpaceViolation options table late.space _ _ := .collision several owns
    obtain ⟨_, name, violation⟩ := exists_violation_of_space hlate violates
    exact ⟨name, owner.space, hfile ▸ reported.mem violation⟩

/-! ## Which namespaces share a file -/

lemma pathChar_of_isWordChar {c : Char} (h : isWordChar c = true) : pathChar c = c := by
  have : c ≠ '.' := by
    rintro rfl
    simp [isWordChar] at h
  rw [pathChar, if_neg this]

lemma isWordChar_or_dot_of_isNamespace {space : String} (h : isNamespace space = true) {c : Char}
    (hc : c ∈ space.toList) : isWordChar c = true ∨ c = '.' :=
  TypeScript.isWordChar_or_dot_of_mem_pathChars
    ((TypeScript.pathChars_of_isNamespace h).symm ▸ hc)

/-- In a namespace a slash stands for nothing but a dot. -/
lemma pathChar_inj_of_isNamespace {space other : String} (h : isNamespace space = true)
    (h' : isNamespace other = true)
    (same : space.toList.map pathChar = other.toList.map pathChar) : space = other := by
  have back : ∀ {space : String}, isNamespace space = true →
      (space.toList.map pathChar).map (fun c => if c = '/' then '.' else c) = space.toList := by
    intro space valid
    rw [List.map_map]
    refine (List.map_congr_left fun c hc => ?_).trans (List.map_id _)
    rcases isWordChar_or_dot_of_isNamespace valid hc with word | rfl
    · have : c ≠ '/' := by
        rintro rfl
        simp [isWordChar] at word
      simp [pathChar_of_isWordChar word, this]
    · rfl
  apply String.toList_injective
  rw [← back h, ← back h', same]

lemma fileName_of_ne {space : String} (h : space ≠ "") :
    (fileName space).toList = space.toList.map pathChar ++ ".ts".toList := by
  rw [fileName, if_neg (by simpa using h)]
  simp

/-- The file of the default namespace is that of the one called like it. -/
lemma fileName_eq_default_iff {space : String} (h : isNamespace space = true) :
    fileName space = "default.ts" ↔ space = "" ∨ space = "default" := by
  constructor
  · intro same
    by_cases default : space = ""
    · exact .inl default
    · have chars := congrArg String.toList same
      rw [fileName_of_ne default] at chars
      exact .inr (pathChar_inj_of_isNamespace h (by decide)
        (List.append_cancel_right (chars : _ = "default".toList.map pathChar ++ ".ts".toList)))
  · rintro (rfl | rfl) <;> rfl

/-- **Two namespaces share a file only if they are the default one and the one called
`default`.** -/
theorem fileName_eq_iff {space other : String} (h : isNamespace space = true)
    (h' : isNamespace other = true) (different : space ≠ other) :
    fileName space = fileName other ↔
      space = "" ∧ other = "default" ∨ space = "default" ∧ other = "" := by
  constructor
  · intro same
    by_cases default : space = ""
    · subst default
      rcases (fileName_eq_default_iff h').mp same.symm with rfl | rfl
      · exact absurd rfl different
      · exact .inl ⟨rfl, rfl⟩
    · by_cases default' : other = ""
      · subst default'
        rcases (fileName_eq_default_iff h).mp same with rfl | rfl
        · exact absurd rfl different
        · exact .inr ⟨rfl, rfl⟩
      · have chars := congrArg String.toList same
        rw [fileName_of_ne default, fileName_of_ne default'] at chars
        exact absurd (pathChar_inj_of_isNamespace h h' (List.append_cancel_right chars)) different
  · rintro (⟨rfl, rfl⟩ | ⟨rfl, rfl⟩) <;> rfl

/-- **Where all namespaces keep to the grammar, a collision is about `default.ts`**, and is reported
exactly if the default namespace and the one called `default` both occur. -/
theorem exists_concernsFile_iff (several : options.singleFile = false)
    (valid : ∀ type ∈ table, isNamespace type.space = true) :
    ((∃ issue ∈ issues options (SymbolIndex.ofTable table) table,
        issue.problem.concernsFile = true) ↔
      ∃ name owner, ⟨name, .fileCollision "default.ts" owner⟩ ∈
        issues options (SymbolIndex.ofTable table) table) ∧
    ((∃ name owner, ⟨name, .fileCollision "default.ts" owner⟩ ∈
        issues options (SymbolIndex.ofTable table) table) ↔
      (∃ type ∈ table, type.space = "") ∧ ∃ type ∈ table, type.space = "default") := by
  have both : ∀ {file}, (∃ name owner, ⟨name, .fileCollision file owner⟩ ∈
      issues options (SymbolIndex.ofTable table) table) →
      (∃ type ∈ table, type.space = "") ∧ ∃ type ∈ table, type.space = "default" := by
    intro file reported
    obtain ⟨type, htype, other, hother, hfile, hfile', different⟩ :=
      (exists_fileCollision_iff several file).mp reported
    rcases (fileName_eq_iff (valid type htype) (valid other hother) different).mp
      (hfile.trans hfile'.symm) with ⟨empty, default⟩ | ⟨default, empty⟩
    · exact ⟨⟨type, htype, empty⟩, other, hother, default⟩
    · exact ⟨⟨other, hother, empty⟩, type, htype, default⟩
  have back : ((∃ type ∈ table, type.space = "") ∧ ∃ type ∈ table, type.space = "default") →
      ∃ name owner, ⟨name, .fileCollision "default.ts" owner⟩ ∈
        issues options (SymbolIndex.ofTable table) table := by
    rintro ⟨⟨type, htype, empty⟩, other, hother, default⟩
    refine (exists_fileCollision_iff several _).mpr ⟨type, htype, other, hother, ?_, ?_, ?_⟩
    · rw [empty]
      rfl
    · rw [default]
      rfl
    · rw [empty, default]
      decide
  refine ⟨⟨?_, ?_⟩, both, back⟩
  · rintro ⟨⟨name, problem⟩, hissue, collision⟩
    cases problem with
    | fileCollision file owner => exact back (both ⟨name, owner, hissue⟩)
    | _ => cases collision
  · rintro ⟨name, owner, hissue⟩
    exact ⟨_, hissue, rfl⟩

end AvroTypes
