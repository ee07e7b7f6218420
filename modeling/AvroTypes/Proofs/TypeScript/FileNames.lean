import AvroTypes.Proofs.FileSystem.Naming
import AvroTypes.Proofs.Schema.Hoisting
import AvroTypes.Proofs.TypeScript.Assembly
import AvroTypes.Proofs.TypeScript.Paths

/-!
# The names of the output files

Every namespace of a resolved table keeps to the grammar, so its file name spells names: one
directory for each part but the last.  No two files of a table that has no issues get in each
other's way.  Their names differ, since collisions are issues; and a file is never a directory of
another, since only file names have a dot.

* `Schema.isNamespace_of_mem_table` — the namespaces of a table.
* `FileName` — what a file name is like.
* `fileName_of_isNamespace` — **the file name of a namespace.**
* `TypeScript.assemble_names` — **all files of a table.**
-/

namespace AvroTypes

namespace Schema

/-! ## The namespaces of a table -/

section

variable {site next : Site} {resolved : Resolved} {place : Pointer}

/-- The namespace inside a node that resolves is one. -/
lemma Site.Resolves.isNamespace_of_leads {steps : Pointer} (h : site.Resolves resolved)
    (goes : site.Leads steps next) (valid : isNamespace site.around = true) :
    isNamespace next.around = true := by
  have inside : ∀ {role : Role} {node : Node} {around : String},
      Site.Resolves ⟨role, .object node, around⟩ resolved → isNamespace around = true →
      isNamespace (node.spaceInside around) = true := by
    intro role node around h valid
    obtain ⟨content, hcontent⟩ := h.content
    rw [← hcontent.space_eq]
    exact isNamespace_of_spaceIn hcontent.space valid
  cases goes with
  | alternative found => exact valid
  | nested found noWord => exact inside h valid
  | items word found => exact inside h valid
  | field word listed found => exact inside h valid

lemma Site.Resolves.isNamespace_of_below (h : site.Resolves resolved)
    (below : Below Site.Visits site place next) (valid : isNamespace site.around = true) :
    isNamespace next.around = true := by
  induction below with
  | here => exact valid
  | step below goes ih =>
      obtain ⟨part, hpart, -⟩ := h.below below
      exact hpart.isNamespace_of_leads goes.1 ih

/-- **The namespaces of a table keep to the grammar.** -/
theorem isNamespace_of_mem_table {document : Json.Value} {around : String}
    {table : List NamedType} (h : tableOf document around = .ok table) {entry : NamedType}
    (hentry : entry ∈ table) : isNamespace entry.space = true := by
  have valid : isNamespace around = true := by
    by_contra invalid
    simp [tableOf, invalid] at h
  obtain ⟨first, top, resolved, opens, hresolved, declared⟩ := (tableOf_eq_ok h).2 entry hentry
  have htop : isNamespace top.around = true := by
    cases opens <;> exact valid
  obtain ⟨place, site, below, registers⟩ := hresolved.registers declared
  have hsite := hresolved.isNamespace_of_below below htop
  cases registers with
  | intro _ hcontent _ => exact isNamespace_of_spaceIn hcontent.space hsite

end

/-! ## Names -/

lemma isWordChar_of_isNameChars {chars : List Char} (h : isNameChars chars = true) :
    chars ≠ [] ∧ ∀ c ∈ chars, isWordChar c = true := by
  cases chars with
  | nil => simp [isNameChars] at h
  | cons first rest =>
      simp only [isNameChars, Bool.and_eq_true, Bool.or_eq_true, decide_eq_true_eq,
        List.all_eq_true] at h
      refine ⟨by simp, fun c hc => ?_⟩
      rcases List.mem_cons.mp hc with rfl | hc
      · simp only [isWordChar, Char.isAlphanum, Bool.or_eq_true, decide_eq_true_eq]
        exact h.1.imp_left .inl
      · exact h.2 c hc

end Schema

open AvroTypes.Schema (isNamespace isNameChars isWordChar segments)

/-- What a file name is like: it spells names, of which only the last has a dot. -/
structure FileName (path : String) (inside : List String) (leaf : String) : Prop
    extends Spells path inside leaf where
  dotless : ∀ name ∈ inside, '.' ∉ name.toList
  dotted : '.' ∈ leaf.toList

lemma not_mem_of_isNameChars {chars : List Char} (h : isNameChars chars = true) {c : Char}
    (other : isWordChar c = false) : c ∉ chars := fun hmem => by
  simp [(Schema.isWordChar_of_isNameChars h).2 c hmem] at other

/-- A name, with something behind it, is one step down. -/
lemma nameOnly_of_isNameChars {chars rest : List Char} (h : isNameChars chars = true)
    (noSlash : '/' ∉ rest) (noNul : '\x00' ∉ rest) : NameOnly (String.ofList (chars ++ rest)) := by
  obtain ⟨c, tail, hchars⟩ := List.exists_cons_of_ne_nil (Schema.isWordChar_of_isNameChars h).1
  have hc : c ≠ '.' := by
    rintro rfl
    exact not_mem_of_isNameChars h (by decide) (hchars ▸ List.mem_cons_self)
  have slash := not_mem_of_isNameChars h (c := '/') (by decide)
  have nul := not_mem_of_isNameChars h (c := '\x00') (by decide)
  have starts : (String.ofList (chars ++ rest)).toList = c :: (tail ++ rest) := by simp [hchars]
  refine ⟨by simp [slash, noSlash], by simp [nul, noNul], ?_, ?_, ?_⟩
  · intro same
    simp [same] at starts
  · intro same
    rw [same] at starts
    exact hc (List.cons.inj starts).1.symm
  · intro same
    rw [same] at starts
    exact hc (List.cons.inj starts).1.symm

/-- Dots between parts become slashes, and nothing else does. -/
lemma map_pathChar_intercalate {before : List (List Char)} {last : List Char}
    (h : ∀ part ∈ before ++ [last], '.' ∉ part) (ending : List Char) :
    (['.'].intercalate (before ++ [last])).map pathChar ++ ending =
      ['/'].intercalate (before ++ [last ++ ending]) := by
  have same : ∀ part ∈ before ++ [last], part.map pathChar = part := by
    intro part hpart
    refine (List.map_congr_left fun c hc => ?_).trans (List.map_id part)
    have : c ≠ '.' := fun dot => h part hpart (dot ▸ hc)
    simp [pathChar, this]
  induction before with
  | nil => simpa using same last (by simp)
  | cons part rest ih =>
      have ih := ih (fun other hother => h other (List.mem_cons_of_mem _ hother))
        fun other hother => same other (List.mem_cons_of_mem _ hother)
      rw [List.cons_append, List.intercalate_cons_of_ne_nil (by simp), List.cons_append,
        List.intercalate_cons_of_ne_nil (by simp), List.map_append, List.map_append,
        same part (by simp), List.append_assoc, ih]
      rfl

/-- **The file name of a namespace**, which keeps to the grammar. -/
theorem fileName_of_isNamespace {space : String} (h : isNamespace space = true) :
    ∃ inside leaf, FileName (fileName space) inside leaf := by
  by_cases default : space.isEmpty = true
  · have name : NameOnly "default.ts" := ⟨by decide, by decide, by decide, by decide, by decide⟩
    refine ⟨[], "default.ts", ⟨?_, by simpa using name⟩, by simp, by decide⟩
    rw [fileName, if_pos default]
    rfl
  · have valid : ∀ part ∈ segments space.toList, isNameChars part = true := by
      simpa [isNamespace, default] using h
    obtain ⟨before, last, hparts⟩ : ∃ before last, segments space.toList = before ++ [last] :=
      ⟨_, _, (List.dropLast_append_getLast (TypeScript.segments_ne_nil _)).symm⟩
    rw [hparts] at valid
    have noDot : ∀ part ∈ before ++ [last], '.' ∉ part := fun part hpart =>
      not_mem_of_isNameChars (valid part hpart) (by decide)
    refine ⟨before.map String.ofList, String.ofList (last ++ ".ts".toList), ⟨?_, ?_⟩, ?_, ?_⟩
    · have hspace : space.toList = ['.'].intercalate (before ++ [last]) := by
        rw [← hparts, segments, List.intercalate_splitOn]
      have hspell := map_pathChar_intercalate noDot ".ts".toList
      apply String.toList_injective
      rw [fileName, if_neg default, String.toList_append, String.toList_ofList, hspace, hspell,
        String.toList_intercalate]
      simp [Function.comp_def]
    · intro name hname
      rcases List.mem_append.mp hname with hname | hname
      · obtain ⟨part, hpart, rfl⟩ := List.mem_map.mp hname
        have : NameOnly (String.ofList (part ++ [])) :=
          nameOnly_of_isNameChars (valid part (by simp [hpart])) (by simp) (by simp)
        simpa using this
      · obtain rfl := List.mem_singleton.mp hname
        exact nameOnly_of_isNameChars (valid last (by simp)) (by decide) (by decide)
    · intro name hname
      obtain ⟨part, hpart, rfl⟩ := List.mem_map.mp hname
      simpa using noDot part (by simp [hpart])
    · simp

/-! ## All files of a table -/

/-- A file name with a dot is not the name of a directory, so only the same file can be on the way
to a file. -/
lemma FileName.eq_of_way {first second leaf leaf' : String} {inside inside' : List String}
    (h : FileName first inside leaf) (h' : FileName second inside' leaf')
    (way : namedSegments first <+: namedSegments second) : first = second := by
  rw [h.namedSegments_eq, h'.namedSegments_eq] at way
  rcases List.prefix_concat_iff.mp way with same | shorter
  · rw [h.path_eq, h'.path_eq, same]
  · exact absurd h.dotted (h'.dotless leaf (shorter.subset (by simp)))

lemma FileName.apart {first second leaf leaf' : String} {inside inside' : List String}
    (h : FileName first inside leaf) (h' : FileName second inside' leaf') (other : first ≠ second) :
    Apart first second :=
  ⟨fun way => other (h.eq_of_way h' way), fun way => other (h'.eq_of_way h way).symm⟩

/-- Namespaces without issues have different file names. -/
lemma fileName_ne_of_issuesOfGroups {options : Options} (several : options.singleFile = false)
    {earlier : List String} {groups : List Group} (inhabited : ∀ group ∈ groups, group.types ≠ [])
    (h : issuesOfGroups options earlier groups = []) :
    (∀ space ∈ earlier, ∀ group ∈ groups, fileName space ≠ fileName group.space) ∧
      groups.Pairwise fun first second => fileName first.space ≠ fileName second.space := by
  induction groups generalizing earlier with
  | nil => simp
  | cons group rest ih =>
      rw [issuesOfGroups, List.append_eq_nil_iff] at h
      obtain ⟨here, later⟩ := h
      obtain ⟨hearlier, hrest⟩ := ih
        (fun other hother => inhabited other (List.mem_cons_of_mem _ hother)) later
      obtain ⟨first, types, htypes⟩ := List.exists_cons_of_ne_nil
        (inhabited group List.mem_cons_self)
      have new : ∀ space ∈ earlier, fileName space ≠ fileName group.space := by
        have noProblem : problemsOfSpace options earlier group.space = [] := by
          simpa [htypes] using here
        rw [problemsOfSpace, List.append_eq_nil_iff] at noProblem
        have collision := noProblem.2
        rw [several] at collision
        cases hfind : earlier.find? (fileName · = fileName group.space) with
        | none => simpa using List.find?_eq_none.mp hfind
        | some owner => simp [hfind] at collision
      constructor
      · intro space hspace other hother
        rcases List.mem_cons.mp hother with rfl | hother
        · exact new space hspace
        · exact hearlier space (List.mem_append_left _ hspace) other hother
      · exact List.pairwise_cons.mpr ⟨fun other hother =>
          hearlier group.space (by simp) other hother, hrest⟩

/-- **The files of a table that can be written**: each has a file name, and none is in the way of
another. -/
theorem TypeScript.assemble_names {options : Options} {table : List NamedType}
    {files : List OutputFile} (h : TypeScript.assemble options table = .ok files)
    (valid : ∀ type ∈ table, isNamespace type.space = true) :
    (∀ file ∈ files, ∃ inside leaf, FileName file.name inside leaf) ∧
      files.Pairwise fun first second => Apart first.name second.name := by
  obtain ⟨noIssues, rfl⟩ := TypeScript.assemble_eq_ok_iff.mp h
  cases single : options.singleFile with
  | true =>
      have name : NameOnly "index.ts" := ⟨by decide, by decide, by decide, by decide, by decide⟩
      simp only [if_true, List.mem_singleton, forall_eq, List.pairwise_singleton, and_true]
      exact ⟨[], "index.ts", ⟨rfl, by simpa using name⟩, by simp, by decide⟩
  | false =>
      simp only [Bool.false_eq_true, if_false]
      have names : ∀ group ∈ Group.ofTable table,
          ∃ inside leaf, FileName (fileName group.space) inside leaf := by
        intro group hgroup
        obtain ⟨first, rest, -, hfirst, hspace⟩ := Group.exists_head_of_mem_ofTable hgroup
        exact hspace ▸ fileName_of_isNamespace (valid first hfirst)
      have inhabited : ∀ group ∈ Group.ofTable table, group.types ≠ [] := by
        intro group hgroup
        obtain ⟨first, rest, htypes, -⟩ := Group.exists_head_of_mem_ofTable hgroup
        simp [htypes]
      have different := (fileName_ne_of_issuesOfGroups single inhabited
        (List.append_eq_nil_iff.mp noIssues).2).2
      constructor
      · intro file hfile
        obtain ⟨group, hgroup, rfl⟩ := List.mem_map.mp hfile
        exact names group hgroup
      · refine List.pairwise_map.mpr (different.imp_of_mem fun hfirst hsecond other => ?_)
        obtain ⟨_, _, hname⟩ := names _ hfirst
        obtain ⟨_, _, hname'⟩ := names _ hsecond
        exact hname.apart hname' other

end AvroTypes
