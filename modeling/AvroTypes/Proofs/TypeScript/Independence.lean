import AvroTypes.Proofs.Table.Partition
import AvroTypes.Proofs.Table.Reordering
import AvroTypes.Proofs.TypeScript.Scopes

/-!
# What the files of a namespace depend on

The file of a namespace is made from the types of the namespace and from what their references mean.
So it stays as it is when the rest of the table changes, as long as the references keep their
meanings.  Two such changes are followed here: other types are added behind the table, and the
namespaces of the table are mixed in another way.  In both cases the check of the table has to be
followed as well, since the table is written only if it finds nothing.

* `Sound.of_subset` — what a table leaves to a smaller one.
* `generate_append` — **adding types that have nothing to do with a table leaves its files alone.**
* `generate_interleaves` — **mixing the namespaces in another way only reorders the files.**
-/

namespace AvroTypes

/-- A table without anything wrong leaves nothing wrong to a part of it in which the references mean
the same. -/
lemma Sound.of_subset {options : Options} {table table' : List NamedType}
    (h : Sound options table) (sub : table' ⊆ table)
    (same : ∀ type ∈ table', ∀ name ∈ type.references,
      (SymbolIndex.ofTable table').resolve? name type.space =
        (SymbolIndex.ofTable table).resolve? name type.space) : Sound options table' :=
  h.of_subset_of_isSome sub fun type htype name hname means => by
    rwa [same type htype name hname]

namespace TypeScript

variable {options : Options} {table table' more : List NamedType}

/-- A table is written exactly if it keeps to the rules. -/
lemma generate_eq_ok_iff_sound {files : List OutputFile} :
    generate options table = .ok files ↔
      Sound options table ∧ files = filesOf options (SymbolIndex.ofTable table) table := by
  rw [generate_eq_ok_iff, issues_eq_nil_iff]

/-- The files of the groups of a table are called by the namespaces, as they are first seen. -/
lemma map_name_fileOf (options : Options) (index : SymbolIndex) (table : List NamedType) :
    ((Group.ofTable table).map (fileOf options index)).map OutputFile.name =
      (spacesOf table).map fileName := by
  rw [← Group.spaces_ofTable, Group.spaces, List.map_map, List.map_map]
  rfl

/-! ## Adding types -/

/-- **Adding types that have nothing to do with a table leaves its files alone.**  If none of the
new types is in a namespace of the table, and none has a name, short or full, that the table refers
to, and the longer table is written, then the table is written by itself, its files are the first
files of the longer table, and the others are those of the namespaces of the new types. -/
theorem generate_append {files : List OutputFile}
    (apart : ∀ type ∈ more, ∀ other ∈ table, type.space ≠ other.space)
    (unmentioned : ∀ type ∈ more, ∀ other ∈ table, ∀ name ∈ other.references,
      type.name ≠ name ∧ type.fullName ≠ name)
    (h : generate options (table ++ more) = .ok files) :
    ∃ own rest, generate options table = .ok own ∧ files = own ++ rest ∧
      rest = (Group.ofTable more).map (fileOf options (SymbolIndex.ofTable (table ++ more))) ∧
      rest.map OutputFile.name = (spacesOf more).map fileName := by
  have same : ∀ type ∈ table, ∀ name ∈ type.references, ∀ space,
      (SymbolIndex.ofTable table).resolve? name space =
        (SymbolIndex.ofTable (table ++ more)).resolve? name space :=
    fun type htype name hname space => (resolve?_append
      (fun other hother => unmentioned other hother type htype name hname) space).symm
  obtain ⟨sound, rfl⟩ := generate_eq_ok_iff_sound.mp h
  have ownSound : Sound options table := sound.of_subset (List.subset_append_left _ _)
    fun type htype name hname => same type htype name hname type.space
  refine ⟨_, _, generate_eq_ok_iff_sound.mpr ⟨ownSound, rfl⟩, ?_, rfl, map_name_fileOf _ _ _⟩
  rw [filesOf, filesOf, Group.ofTable_append apart, List.map_append]
  congr 1
  refine List.map_congr_left fun group hgroup => (fileOf_congr fun type htype name hname => ?_).symm
  rw [Group.types_of_mem_ofTable hgroup, List.mem_filter] at htype
  exact same type htype.1 name hname group.space

/-- A text type, and a record that refers to it and to itself. -/
def sharedTable : List NamedType :=
  [{ name := "T", space := "a", alternatives := [.plain .string] },
    { name := "R", space := "a", alternatives := [.plain .record]
      children := some
        [{ name := "text", alternatives := [.plain .null, .plain (.reference "T")] },
          { name := "others", alternatives := [.arrayOf [.plain (.reference "a.R")]] }] }]

/-- Types elsewhere, one of which has the same short name as the record, and refers to the text
type. -/
def otherTable : List NamedType :=
  [{ name := "R", space := "c", alternatives := [.plain (.reference "T")] },
    { name := "U", space := "b", alternatives := [.arrayOf [.plain (.reference "R")]] }]

/-- The files of the table come first, then those of the other two namespaces. -/
theorem generate_append_shared :
    ∃ files own rest, generate {} (sharedTable ++ otherTable) = .ok files ∧
      generate {} sharedTable = .ok own ∧ files = own ++ rest ∧
      rest.map OutputFile.name = ["c.ts", "b.ts"] := by
  have noIssues : issues {} (SymbolIndex.ofTable (sharedTable ++ otherTable))
      (sharedTable ++ otherTable) = [] := by
    simp only [issues, problemsOfType, danglingProblems, dangling_eq_filter,
      SymbolIndex.resolve?_ofTable]
    decide +kernel
  have h := generate_eq_ok_iff.mpr ⟨noIssues, rfl⟩
  obtain ⟨own, rest, hown, hfiles, -, hnames⟩ := generate_append (by decide) (by decide) h
  exact ⟨_, own, rest, h, hown, hfiles, hnames.trans (by decide +kernel)⟩

/-! ## Mixing the namespaces -/

/-- A table whose namespaces are mixed in another way is written, and has the same files up to their
order. -/
lemma exists_generate_of_interleaves {files : List OutputFile} (h : Interleaves table table')
    (names : (table.map NamedType.name).Nodup) (fullNames : (table.map NamedType.fullName).Nodup)
    (written : generate options table = .ok files) :
    ∃ files', generate options table' = .ok files' ∧ files.Perm files' := by
  have same := resolve?_of_perm h.perm names fullNames
  obtain ⟨sound, rfl⟩ := generate_eq_ok_iff_sound.mp written
  have sound' : Sound options table' := sound.of_subset (fun type htype => h.mem_iff.mpr htype)
    fun type _ name _ => (same name type.space).symm
  refine ⟨_, generate_eq_ok_iff_sound.mpr ⟨sound', rfl⟩, ?_⟩
  have files : fileOf options (SymbolIndex.ofTable table) =
      fileOf options (SymbolIndex.ofTable table') :=
    funext fun group => fileOf_congr fun _ _ name _ => same name group.space
  rw [filesOf, filesOf, files]
  exact h.perm_ofTable.map _

/-- **Mixing the namespaces in another way only reorders the files.**  If neither the short names
nor the full names of a table repeat, and another table has the same types, in the same order inside
each namespace, then one of the two is written exactly if the other is, and the files of both are
the same, names and contents, up to their order. -/
theorem generate_interleaves (h : Interleaves table table')
    (names : (table.map NamedType.name).Nodup) (fullNames : (table.map NamedType.fullName).Nodup) :
    ((∃ files, generate options table = .ok files) ↔
      ∃ files', generate options table' = .ok files') ∧
    ∀ files files', generate options table = .ok files → generate options table' = .ok files' →
      files.Perm files' := by
  have names' := (h.perm.map NamedType.name).nodup_iff.mp names
  have fullNames' := (h.perm.map NamedType.fullName).nodup_iff.mp fullNames
  refine ⟨⟨?_, ?_⟩, ?_⟩
  · rintro ⟨files, written⟩
    obtain ⟨files', written', -⟩ := exists_generate_of_interleaves h names fullNames written
    exact ⟨files', written'⟩
  · rintro ⟨files', written'⟩
    obtain ⟨files, written, -⟩ := exists_generate_of_interleaves h.symm names' fullNames' written'
    exact ⟨files, written⟩
  · intro files files' written written'
    obtain ⟨_, again, perm⟩ := exists_generate_of_interleaves h names fullNames written
    obtain rfl := Except.ok.inj (written'.symm.trans again)
    exact perm

/-- A list type, and what it refers to. -/
def listTypes : List NamedType :=
  [{ name := "Item", space := "b", alternatives := [.plain .string] },
    { name := "Items", space := "b", alternatives := [.arrayOf [.plain (.reference "Item")]] }]

/-- A type of another namespace that refers to the list type. -/
def listUser : NamedType :=
  { name := "Basket", space := "a", alternatives := [.plain (.reference "b.Items")] }

/-- It does not matter whether the other type comes first or last: the files are the same two. -/
theorem generate_interleaves_lists :
    ∃ files files', generate {} (listUser :: listTypes) = .ok files ∧
      generate {} (listTypes ++ [listUser]) = .ok files' ∧ files.Perm files' ∧
      files.map OutputFile.name = ["a.ts", "b.ts"] ∧
      files'.map OutputFile.name = ["b.ts", "a.ts"] := by
  have mixed : Interleaves (listUser :: listTypes) (listTypes ++ [listUser]) := by
    intro space
    by_cases a : "a" = space
    · subst a
      rfl
    · simp [listUser, a]
  have noIssues : issues {} (SymbolIndex.ofTable (listUser :: listTypes))
      (listUser :: listTypes) = [] := by
    simp only [issues, problemsOfType, danglingProblems, dangling_eq_filter,
      SymbolIndex.resolve?_ofTable]
    decide +kernel
  have h := generate_eq_ok_iff.mpr ⟨noIssues, rfl⟩
  obtain ⟨same, perm⟩ := @generate_interleaves {} _ _ mixed (by decide) (by decide)
  obtain ⟨files', h'⟩ := same.mp ⟨_, h⟩
  refine ⟨_, files', h, h', perm _ _ h h', (map_name_fileOf _ _ _).trans (by decide +kernel), ?_⟩
  rw [(generate_eq_ok_iff.mp h').2]
  exact (map_name_fileOf _ _ _).trans (by decide +kernel)

end TypeScript

end AvroTypes
