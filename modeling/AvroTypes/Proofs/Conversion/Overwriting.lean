import AvroTypes.Proofs.Conversion.Directory
import AvroTypes.Proofs.FileSystem.Overwriting
import AvroTypes.Proofs.Table.Violations

/-!
# Namespaces that overwrite each other

The check of a table compares the file names of its namespaces as texts, and a store compares them
name by name, so a doubled slash makes two names of one file.  The namespaces of a schema have no
doubled dots, but those of a table that has been put together by hand may.  Then both files are
written, one over the other.

* `Group.pathBelow`, `SameFile` — the files of the namespaces.
* `FileAt.eq_locationOf`, `sameFile_iff` — **which file names are names of one file.**
* `dumpTable_last_writer` — **what the files hold in the end.**
* `dumpTable_overwrites` — two namespaces of which one is lost.
-/

namespace AvroTypes

/-- The path of the file of a namespace, below a directory. -/
def Group.pathBelow (directory : String) (group : Group) : String :=
  joinPath directory (fileName group.space)

/-- **Two paths lead to one file.** -/
def SameFile (fs : FileSystem) (path other : String) : Prop :=
  ∃ location bytes, FileAt fs path location bytes ∧ FileAt fs other location bytes

section

variable {fs fs' : FileSystem} {path other : String} {location location' : List String}
  {bytes bytes' : ByteArray}

lemma FileAt.sameFile_iff (h : FileAt fs path location bytes)
    (h' : FileAt fs other location' bytes') : SameFile fs path other ↔ location = location' := by
  constructor
  · rintro ⟨_, _, here, there⟩
    rw [(h.unique here).1, (h'.unique there).1]
  · rintro rfl
    have same : bytes = bytes' :=
      Shape.file.inj (Option.some.inj (h.look.symm.trans h'.look))
    exact ⟨location, bytes, h, same ▸ h'⟩

/-- A file that a path leads to without a link is at the location of the path. -/
lemma FileAt.eq_locationOf (h : FileAt fs path location bytes) (downward : Downward path)
    (unlinked : ∀ front, front <+: fs.locationOf path → ∀ target,
      fs.look front ≠ some (.link target)) : location = fs.locationOf path := by
  have leads := downward.leadsTo_locate unlinked true
  rw [fileAt_iff.mp h] at leads
  exact leads.1

lemma Component.ofSegment_injective : Function.Injective Component.ofSegment := by
  intro first second same
  rw [ofSegment, ofSegment] at same
  split_ifs at same with up up'
  · rw [up, up']
  · exact Component.normal.inj same

/-- File names have the same components exactly if they lead along the same names. -/
lemma componentsOf_eq_iff {name name' : String} (plain : isPlainRelative name = true)
    (plain' : isPlainRelative name' = true) :
    componentsOf name = componentsOf name' ↔ namedSegments name = namedSegments name' := by
  have components : ∀ {name}, isPlainRelative name = true →
      componentsOf name = (namedSegments name).map Component.ofSegment := by
    intro name plain
    simp only [isPlainRelative, Bool.and_eq_true, Bool.not_eq_true', decide_eq_true_eq] at plain
    simp [componentsOf, plain.1.1.1, plain.1.1.2]
  rw [components plain, components plain', Component.ofSegment_injective.list_map.eq_iff]

/-- **After a replacement two file names are names of one file exactly if they have the same
components**, if the output path goes up nowhere and is not reached through a link. -/
theorem sameFile_iff {directory : String} {files : List OutputFile}
    (straight : Straight fs directory) (ordered : fs.root.Ordered)
    (h : runOn (replaceDirectory directory files) fs = (.ok (), fs'))
    {name name' : String} (plain : isPlainRelative name = true)
    (plain' : isPlainRelative name' = true)
    (here : FileAt fs' (joinPath directory name) location bytes)
    (there : FileAt fs' (joinPath directory name') location' bytes') :
    SameFile fs' (joinPath directory name) (joinPath directory name') ↔
      componentsOf name = componentsOf name' := by
  obtain ⟨confined, free⟩ := straight.staysWithin_replaceDirectory ordered files
  rw [h] at confined free
  have placed : ∀ {name location bytes}, isPlainRelative name = true →
      FileAt fs' (joinPath directory name) location bytes →
      location = fs.locationOf directory ++ namedSegments name := by
    intro name location bytes plain found
    obtain ⟨downward, names, absolute⟩ :=
      straight.toDownward.joinPath (downward_of_isPlainRelative plain)
    have place := locationOf_below fs' names absolute
    rw [locationOf_eq_of_workingDirectory confined.workingDirectory directory] at place
    rw [← place]
    exact found.eq_locationOf downward ((free rfl).unlinked place)
  rw [here.sameFile_iff there, placed plain here, placed plain' there, List.append_cancel_left_eq,
    componentsOf_eq_iff plain plain']

end

namespace Conversion

open TypeScript (fileOf)

lemma joinPath_fileOf (options : Options) (index : SymbolIndex) (directory : String)
    (group : Group) :
    joinPath directory (fileOf options index group).name = group.pathBelow directory := rfl

lemma readBytes_of_fileAt {fs : FileSystem} {path : String} {location : List String}
    {bytes : ByteArray} (h : FileAt fs path location bytes) : fs.readBytes path = .ok bytes := by
  rw [FileSystem.readBytes, h]
  rfl

/-- A table that has been written has no issues, and has been replaced by its files, one for each
namespace. -/
lemma runOn_replaceDirectory_of_dumpTable {options : Options}
    (several : options.singleFile = false) {table : List NamedType} {output : String}
    {fs fs' : FileSystem} (h : runOn (dumpTable options table output) fs = (.ok (), fs')) :
    issues options (SymbolIndex.ofTable table) table = [] ∧
      runOn (replaceDirectory output ((Group.ofTable table).map
        (fileOf options (SymbolIndex.ofTable table)))) fs = (.ok (), fs') := by
  cases hfiles : assembleTable options table with
  | error error => cases (runOn_dumpTable_of_error hfiles).symm.trans h
  | ok files =>
      obtain ⟨-, assembled⟩ := assembleTable_eq_ok_iff.mp hfiles
      obtain ⟨noIssues, rfl⟩ := TypeScript.assemble_eq_ok_iff.mp assembled
      simp only [several, Bool.false_eq_true, if_false] at hfiles
      rw [runOn_dumpTable_of_ok hfiles] at h
      obtain ⟨result, rfl⟩ := Prod.mk.inj h
      exact ⟨noIssues, Prod.ext (mapError_eq_ok_iff.mp result) rfl⟩

/-- The file names of the groups of a table without issues differ. -/
lemma Group.eq_of_fileName_eq {options : Options} (several : options.singleFile = false)
    {table : List NamedType} (noIssues : issues options (SymbolIndex.ofTable table) table = [])
    {group other : Group} (hgroup : group ∈ Group.ofTable table)
    (hother : other ∈ Group.ofTable table) (same : fileName group.space = fileName other.space) :
    group = other := by
  obtain ⟨first, -, -, hfirst, hspace⟩ := Group.exists_head_of_mem_ofTable hgroup
  obtain ⟨second, -, -, hsecond, hspace'⟩ := Group.exists_head_of_mem_ofTable hother
  rw [← hspace, ← hspace'] at same
  have spaces := (issues_eq_nil_iff.mp noIssues).files several first hfirst second hsecond same
  exact Group.eq_of_space_eq hgroup hother (hspace.symm.trans (spaces.trans hspace'))

/-- The names of files that have been written are plain. -/
lemma isPlainRelative_of_replaceDirectory {fs fs' : FileSystem} {directory : String}
    {files : List OutputFile} (h : runOn (replaceDirectory directory files) fs = (.ok (), fs')) :
    ∀ file ∈ files, isPlainRelative file.name = true := by
  intro file hfile
  by_contra leaving
  obtain ⟨_, -, -, hrun⟩ :=
    runOn_replaceDirectory_of_leaving fs directory ⟨file, hfile, by simpa using leaving⟩
  cases hrun.symm.trans h

/-- **What the files of a table hold once it has been written.**  The path of every namespace leads
to a file, and that holds the content of the last namespace whose path leads there.  The file names
of different namespaces differ as texts.  Where the output path goes up nowhere and is not reached
through a link, two of them lead to one file exactly if they have the same components. -/
theorem dumpTable_last_writer {options : Options} (several : options.singleFile = false)
    {table : List NamedType} {output : String} {fs fs' : FileSystem}
    (working : fs.look fs.workingDirectory = some .directory)
    (h : runOn (dumpTable options table output) fs = (.ok (), fs')) :
    ∀ group ∈ Group.ofTable table,
      (∃ before last after, Group.ofTable table = before ++ last :: after ∧
        SameFile fs' (group.pathBelow output) (last.pathBelow output) ∧
        (∀ later ∈ after, ¬ SameFile fs' (group.pathBelow output) (later.pathBelow output)) ∧
        fs'.readBytes (group.pathBelow output) =
          .ok (fileOf options (SymbolIndex.ofTable table) last).content.toUTF8) ∧
      ∀ other ∈ Group.ofTable table,
        (fileName group.space = fileName other.space → group = other) ∧
        (Straight fs output → fs.root.Ordered →
          (SameFile fs' (group.pathBelow output) (other.pathBelow output) ↔
            componentsOf (fileName group.space) = componentsOf (fileName other.space))) := by
  intro group hgroup
  obtain ⟨noIssues, hreplace⟩ := runOn_replaceDirectory_of_dumpTable several h
  have written := lastWritten_replaceDirectory working hreplace
  have leads : ∀ {group}, group ∈ Group.ofTable table →
      ∃ location bytes, FileAt fs' (group.pathBelow output) location bytes :=
    fun {group} hgroup => written.leads (fileOf options _ group) (List.mem_map_of_mem hgroup)
  constructor
  · obtain ⟨location, before, last, after, split, here, there, none⟩ :=
      written.exists_last (List.mem_map_of_mem hgroup)
    obtain ⟨before, rest, hgroups, rfl, hrest⟩ := List.map_eq_append_iff.mp split
    obtain ⟨last, after, rfl, rfl, rfl⟩ := List.map_eq_cons_iff.mp hrest
    rw [joinPath_fileOf] at here there
    have same : SameFile fs' (group.pathBelow output) (last.pathBelow output) :=
      ⟨location, _, here, there⟩
    refine ⟨before, last, after, hgroups, same, ?_, readBytes_of_fileAt here⟩
    rintro later hlater ⟨location', bytes, found, found'⟩
    rw [(found.unique here).1] at found'
    exact none _ (List.mem_map_of_mem hlater) bytes found'
  · intro other hother
    refine ⟨Group.eq_of_fileName_eq several noIssues hgroup hother, fun straight ordered => ?_⟩
    have plain : ∀ {group}, group ∈ Group.ofTable table →
        isPlainRelative (fileName group.space) = true :=
      fun {group} hgroup => isPlainRelative_of_replaceDirectory hreplace (fileOf options _ group)
        (List.mem_map_of_mem hgroup)
    obtain ⟨location, bytes, here⟩ := leads hgroup
    obtain ⟨location', bytes', there⟩ := leads hother
    exact sameFile_iff straight ordered hreplace (plain hgroup) (plain hother) here there

/-- Two namespaces with a doubled dot between them. -/
def overlapTable : List NamedType :=
  [{ name := "A", space := "a.b", alternatives := [.plain .number] },
    { name := "B", space := "a..b", alternatives := [.plain .string] }]

/-- The file that is written for the first. -/
def lostFile : OutputFile :=
  { name := "a/b.ts"
    content := "export namespace a.b \x7b\n\texport type A = number;\n\n\x7d\n" }

/-- The file that is written for the second. -/
def keptFile : OutputFile :=
  { name := "a//b.ts"
    content := "export namespace a..b \x7b\n\texport type B = string;\n\n\x7d\n" }

/-- A small disk after both have been written. -/
def overlapDisk : FileSystem := (runOn (replaceDirectory "o" [lostFile, keptFile]) smallDisk).2

lemma runOn_dumpTable_overlap :
    runOn (dumpTable {} overlapTable "o") smallDisk = (.ok (), overlapDisk) := by
  have assembled : assembleTable {} overlapTable = .ok [lostFile, keptFile] := rfl
  have succeeds : (runOn (replaceDirectory "o" [lostFile, keptFile]) smallDisk).1.isOk = true := by
    decide +kernel
  rw [runOn_dumpTable_of_ok assembled, ← overlapDisk]
  cases hresult : (runOn (replaceDirectory "o" [lostFile, keptFile]) smallDisk).1 with
  | ok _ => rfl
  | error error =>
      rw [hresult] at succeeds
      cases succeeds

theorem dumpTable_last_writer_overlap :
    smallDisk.look smallDisk.workingDirectory = some .directory ∧
      runOn (dumpTable {} overlapTable "o") smallDisk = (.ok (), overlapDisk) ∧
      SameFile overlapDisk "o/a/b.ts" "o/a//b.ts" := by
  have straight : Straight smallDisk "o" :=
    ⟨downward_of_components (by decide) ⟨"o", by decide⟩,
      ⟨smallDisk_unlinked.above, fun _ _ => ⟨"o", by decide⟩⟩⟩
  have same := ((dumpTable_last_writer rfl smallDisk_sound.start runOn_dumpTable_overlap _
    (.head _)).2 _ (.tail _ (.head _))).2 straight smallDisk_sound.ordered
  exact ⟨smallDisk_sound.start, runOn_dumpTable_overlap, same.mpr (by decide)⟩

/-- **A namespace can be lost**, although writing the table succeeds. -/
theorem dumpTable_overwrites :
    runOn (dumpTable {} overlapTable "o") smallDisk = (.ok (), overlapDisk) ∧
      ∃ group ∈ Group.ofTable overlapTable, overlapDisk.readBytes (group.pathBelow "o") ≠
        .ok (fileOf {} (SymbolIndex.ofTable overlapTable) group).content.toUTF8 := by
  refine ⟨runOn_dumpTable_overlap, _, .head _, fun same => ?_⟩
  have other : (overlapDisk.readBytes "o/a/b.ts").toOption ≠ some lostFile.content.toUTF8 := by
    decide +kernel
  exact other (congrArg Except.toOption same)

end Conversion

end AvroTypes
