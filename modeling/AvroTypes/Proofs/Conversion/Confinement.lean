import AvroTypes.Proofs.Conversion.Directory
import AvroTypes.Proofs.FileSystem.StayingWithin

/-!
# Writing a table into a directory

A table that has been put together by hand can have any text for a namespace, and file names are
made of those.  Some of these lead up, or start at the root.  They are refused before anything
happens; and what is not refused stays below the output directory, whatever it is, and however
writing ends.

* `dumpTable_confined` — **nothing is touched outside the output directory.**
-/

namespace AvroTypes

namespace Conversion

/-- A file name that does not lead down is refused. -/
lemma runOn_dumpTable_of_leaving {options : Options} {table : List NamedType}
    {files : List OutputFile} (assembled : assembleTable options table = .ok files)
    (leaving : ∃ file ∈ files, componentsOf file.name = [] ∨
      ∃ component ∈ componentsOf file.name, ∀ name, component ≠ .normal name)
    (output : String) (fs : FileSystem) :
    ∃ file ∈ files, runOn (dumpTable options table output) fs =
      (.error (.io (.leavesOutput file.name)), fs) := by
  obtain ⟨file, hfile, bad⟩ := leaving
  have refused : isPlainRelative file.name = false := by
    rw [← Bool.not_eq_true, isPlainRelative_iff]
    rintro ⟨some, normal⟩
    rcases bad with none | ⟨component, hcomponent, other⟩
    · exact some none
    · obtain ⟨name, same⟩ := normal component hcomponent
      exact other name same
  obtain ⟨first, hfirst, -, hrun⟩ :=
    runOn_replaceDirectory_of_leaving fs output ⟨file, hfile, refused⟩
  exact ⟨first, hfirst, by rw [runOn_dumpTable_of_ok assembled, hrun]; rfl⟩

/-- **Writing a table touches nothing outside the output directory**, if the output path goes up
nowhere and is not reached through a link.  Nothing changes but what is at its location or below,
apart from the directories that lead there, which may be made where nothing was; and this holds
however it ends.  If a file name has a component that is not normal, or no component at all, writing
fails and nothing changes at all. -/
theorem dumpTable_confined (options : Options) (table : List NamedType) {output : String}
    {fs fs' : FileSystem} {result : Except ConversionError Unit} (ordered : fs.root.Ordered)
    (noParent : .parent ∉ componentsOf output)
    (named : ∃ name, .normal name ∈ componentsOf output) (noDetour : NoDetour fs output)
    (h : runOn (dumpTable options table output) fs = (result, fs')) :
    Confined fs fs' (fs.locationOf output) ∧
      ∀ files, assembleTable options table = .ok files →
        (∃ file ∈ files, componentsOf file.name = [] ∨
          ∃ component ∈ componentsOf file.name, ∀ name, component ≠ .normal name) →
        fs' = fs ∧ ∃ file ∈ files, result = .error (.io (.leavesOutput file.name)) := by
  constructor
  · cases hfiles : assembleTable options table with
    | error error =>
        rw [runOn_dumpTable_of_error hfiles] at h
        obtain rfl : fs = fs' := (Prod.mk.inj h).2
        exact .refl fs _
    | ok files =>
        have straight : Straight fs output := ⟨downward_of_components noParent named, noDetour⟩
        have confined := straight.replaceDirectory_confined ordered files
        rw [runOn_dumpTable_of_ok hfiles] at h
        exact (Prod.mk.inj h).2 ▸ confined
  · intro files hfiles leaving
    obtain ⟨file, hfile, hrun⟩ := runOn_dumpTable_of_leaving hfiles leaving output fs
    obtain ⟨rfl, rfl⟩ := Prod.mk.inj (h.symm.trans hrun)
    exact ⟨rfl, file, hfile, rfl⟩

/-- A table with a type in a namespace that starts with a dot. -/
def rootedTable : List NamedType :=
  [{ name := "E", space := ".x", alternatives := [.plain .enum], symbols := some [] }]

/-- What would be written for it, but its name starts at the root. -/
def rootedFile : OutputFile :=
  { name := "/x.ts"
    content := "export namespace .x \x7b\n\texport enum E\n\t\x7b\n\t\x7d;\n\n\x7d\n" }

theorem dumpTable_confined_rooted :
    smallDisk.root.Ordered ∧ .parent ∉ componentsOf "o" ∧ .normal "o" ∈ componentsOf "o" ∧
      NoDetour smallDisk "o" ∧ .root ∈ componentsOf rootedFile.name ∧
      Confined smallDisk (runOn (dumpTable smallOptions smallTable "o") smallDisk).2 ["o"] ∧
      runOn (dumpTable smallOptions rootedTable "o") smallDisk =
        (.error (.io (.leavesOutput rootedFile.name)), smallDisk) := by
  have ordered := smallDisk_sound.ordered
  have noParent : .parent ∉ componentsOf "o" := by decide
  have named : .normal "o" ∈ componentsOf "o" := by decide
  have noDetour : NoDetour smallDisk "o" := ⟨smallDisk_unlinked.above, fun _ _ => ⟨"o", by decide⟩⟩
  have rooted : .root ∈ componentsOf rootedFile.name := by decide
  have writing := dumpTable_confined smallOptions smallTable ordered noParent ⟨"o", named⟩ noDetour
    (Prod.eta _).symm
  have refusing := dumpTable_confined smallOptions rootedTable ordered noParent ⟨"o", named⟩
    noDetour (Prod.eta _).symm
  obtain ⟨same, file, hfile, failed⟩ := refusing.2 [rootedFile] rfl
    ⟨rootedFile, List.mem_singleton_self _, .inr ⟨.root, rooted, by simp⟩⟩
  obtain rfl := List.mem_singleton.mp hfile
  rw [locationOf_smallDisk] at writing
  exact ⟨ordered, noParent, named, noDetour, rooted, writing.1, Prod.ext failed same⟩

end Conversion

end AvroTypes
