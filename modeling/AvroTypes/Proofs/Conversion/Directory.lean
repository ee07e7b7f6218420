import AvroTypes.Proofs.Conversion.Success
import AvroTypes.Proofs.FileSystem.Leading
import AvroTypes.Proofs.FileSystem.Replacement
import AvroTypes.Proofs.TypeScript.FileNames

/-!
# Converting a directory

A conversion from directory to directory is all or nothing.  Until the files of the table are known
it only looks.  Their names fit together, since the namespaces of the table keep to the grammar and
the table has no issues, so what is left to fail once the output directory has been emptied are
lengths.

The output path has to lead down to its last name.  A path that ends in a dot is another matter: its
directory loses its content before it turns out that it cannot be removed by that path.

* `FileSystem.Sound`, `Plain`, `Unlinked` — the file systems and the paths this is about.
* `onlyLooks_loadDirectory` — **reading changes nothing**, and what a table is like.
* `Refusal` — why a conversion can fail.
* `convertDirectory_all_or_nothing` — **the whole conversion.**
-/

namespace AvroTypes

open AvroTypes.Schema (isNamespace)

/-- A file system in good order: the entries of its directories are sorted, and relative paths start
from a directory. -/
structure FileSystem.Sound (fs : FileSystem) : Prop where
  ordered : fs.root.Ordered
  start : fs.look fs.workingDirectory = some .directory

/-- A path that goes up nowhere and ends with a name, with or without slashes after it. -/
structure Plain (path : String) : Prop where
  noUp : Part.up ∉ namedParts path
  named : ∃ name, (namedParts path).getLast? = some (.down name)

/-- A path to a location that is not reached through a link: there is none above it, and if there is
one at the location itself, no slash at the end of the path follows it. -/
structure Unlinked (fs : FileSystem) (path : String) : Prop where
  above : ∀ front, front <+: fs.locationOf path → front ≠ fs.locationOf path →
    ∀ target, fs.look front ≠ some (.link target)
  here : path.toList.getLast? = some '/' →
    ∀ target, fs.look (fs.locationOf path) ≠ some (.link target)

/-- A path at which no directory can be made: no path at all, or one with something in the way. -/
def Unwritable (fs : FileSystem) (path : String) : Prop :=
  '\x00' ∈ path.toList ∨ Barred fs path (fs.locationOf path)

lemma Plain.route {path : String} (h : Plain path) (noNul : '\x00' ∉ path.toList) :
    ∃ names last, Route path names last := by
  obtain ⟨last, hlast⟩ := h.named
  obtain ⟨before, hparts⟩ := List.getLast?_eq_some_iff.mp hlast
  have noUp : Part.up ∉ before := fun hmem => h.noUp (by simp [hparts, hmem])
  obtain ⟨names, hnames⟩ := exists_descends noUp
  exact ⟨names, last, noNul, before, hnames, hparts⟩

/-- A route of a sound file system without links on it. -/
lemma Route.direct {fs : FileSystem} {path : String} {names : List String} {last : String}
    (route : Route path names last) (sound : fs.Sound) (unlinked : Unlinked fs path) :
    Direct fs path names last := by
  have hplace := route.locationOf_eq fs
  refine ⟨route, ?_, fun front hfront target => ?_, fun target hlink slash => ?_⟩
  · rw [FileSystem.start]
    split_ifs
    · exact FileSystem.look_of_directory_below sound.start List.nil_prefix
    · exact sound.start
  · refine unlinked.above front ?_ ?_ target
    · rw [hplace]
      exact hfront.trans (List.prefix_append _ _)
    · rintro rfl
      rw [hplace] at hfront
      exact not_below_of_ne_nil (List.cons_ne_nil last []) hfront
  · exact unlinked.here slash target (hplace ▸ hlink)

namespace Conversion

/-! ## Reading -/

lemma isNamespace_of_tableOfBytes {options : Options} {bytes : ByteArray} {table : List NamedType}
    (h : tableOfBytes options bytes = .ok table) :
    ∀ type ∈ table, isNamespace type.space = true := by
  obtain ⟨text, -, htext⟩ := bind_eq_ok_iff.mp h
  obtain ⟨document, -, hdocument⟩ := tableOfText_eq_ok_iff.mp htext
  exact fun type htype => Schema.isNamespace_of_mem_table hdocument htype

/-- **A table is loaded by looking**, and its namespaces keep to the grammar. -/
theorem onlyLooks_loadDirectory (options : Options) (directory : String) :
    OnlyLooks (loadDirectory options directory : ExceptT ConversionError (StateM FileSystem) _)
      fun table => ∀ type ∈ table, isNamespace type.space = true := by
  have file : ∀ path, OnlyLooks
      (loadFile options path : ExceptT ConversionError (StateM FileSystem) _)
      fun table => ∀ type ∈ table, isNamespace type.space = true := by
    intro path
    refine ((OnlyLooks.look _).adapt _).bind fun bytes _ => .ofExcept fun table htable => ?_
    exact isNamespace_of_tableOfBytes (mapError_eq_ok_iff.mp htable)
  refine ((onlyLooks_filesEndingIn _ _).adapt _).bind fun paths _ => ?_
  refine (OnlyLooks.mapM file).bind fun tables htables => .result _ fun type htype => ?_
  obtain ⟨table, htable, htype⟩ := List.mem_flatten.mp htype
  exact htables table htable type htype

/-! ## The whole conversion -/

/-- **Why a conversion is refused**: the style, the schema files, the table, or the output path. -/
inductive Refusal (options : Options) (fs : FileSystem) (input output : String) :
    ConversionError → Prop
  | mode {error : ConversionError} (h : checkMode options = .error error) :
      Refusal options fs input output error
  | source {error : ConversionError}
      (h : runOn (loadDirectory options input) fs = (.error error, fs)) :
      Refusal options fs input output error
  | table {table : List NamedType} {error : ConversionError}
      (loaded : runOn (loadDirectory options input) fs = (.ok table, fs))
      (h : assembleTable options table = .error error) : Refusal options fs input output error
  | path {error : IoError} (h : Unwritable fs output) :
      Refusal options fs input output (.io error)

section

variable {options : Options} {fs : FileSystem} {table : List NamedType} {output : String}
  {files : List OutputFile}

/-- What writing a table comes to is what replacing the directory comes to. -/
lemma runOn_dumpTable_of_ok (assembled : assembleTable options table = .ok files) :
    runOn (dumpTable options table output) fs =
      ((runOn (replaceDirectory output files) fs).1.mapError .io,
        (runOn (replaceDirectory output files) fs).2) := by
  have lifted := runOn_liftExcept (assembleTable options table) fs
  rw [assembled] at lifted
  rw [dumpTable, assembled, runOn_bind_of_ok lifted, runOn_adapt]

lemma runOn_dumpTable_of_error {error : ConversionError}
    (refused : assembleTable options table = .error error) :
    runOn (dumpTable options table output) fs = (.error error, fs) := by
  have lifted := runOn_liftExcept (assembleTable options table) fs
  rw [refused] at lifted
  rw [dumpTable, refused, runOn_bind_of_error lifted]

/-- How writing a table ends: it is refused, or something is too long, or the output directory holds
exactly the files of the table. -/
lemma runOn_dumpTable (options : Options) (sound : fs.Sound) (plain : Plain output)
    (unlinked : Unlinked fs output) (valid : ∀ type ∈ table, isNamespace type.space = true) :
    (∃ error, runOn (dumpTable options table output) fs = (.error error, fs) ∧
        (assembleTable options table = .error error ∨
          Unwritable fs output ∧ ∃ cause, error = .io cause)) ∨
      (runOn (dumpTable options table output) fs).1 = .error (.io .nameTooLong) ∨
      ∃ fs' files, runOn (dumpTable options table output) fs = (.ok (), fs') ∧
        TypeScript.assemble options table = .ok files ∧
        Replaced fs fs' (fs.locationOf output) files := by
  cases hfiles : assembleTable options table with
  | error error => exact .inl ⟨error, runOn_dumpTable_of_error hfiles, .inl rfl⟩
  | ok files =>
      obtain ⟨-, assembled⟩ := assembleTable_eq_ok_iff.mp hfiles
      obtain ⟨names, apart⟩ := TypeScript.assemble_names assembled valid
      have spell : ∀ file ∈ files, ∃ inside leaf, Spells file.name inside leaf := by
        intro file hfile
        obtain ⟨inside, leaf, hname⟩ := names file hfile
        exact ⟨inside, leaf, hname.toSpells⟩
      rw [runOn_dumpTable_of_ok hfiles]
      by_cases nul : '\x00' ∈ output.toList
      · obtain ⟨cause, hfails⟩ := failsAtOnce_of_nul fs nul files
        exact .inl ⟨.io cause, by rw [hfails]; rfl, .inr ⟨.inl nul, cause, rfl⟩⟩
      · obtain ⟨front, last, route⟩ := plain.route nul
        have direct := route.direct sound unlinked
        have hplace := route.locationOf_eq fs
        rcases direct.replaceDirectory sound.ordered spell apart with
          ⟨⟨cause, hfails⟩, barred⟩ | ⟨fs', hrun, hreplaced⟩ | hlong
        · rw [← hplace] at barred
          exact .inl ⟨.io cause, by rw [hfails]; rfl, .inr ⟨.inr barred, cause, rfl⟩⟩
        · rw [← hplace] at hreplaced
          exact .inr (.inr ⟨fs', files, by rw [hrun]; rfl, assembled, hreplaced⟩)
        · exact .inr (.inl (by rw [hlong]; rfl))

/-- How a conversion ends: in the same three ways. -/
lemma runOn_convertDirectory (options : Options) (sound : fs.Sound) (plain : Plain output)
    (unlinked : Unlinked fs output) (input : String) :
    (∃ error, runOn (convertDirectory options input output) fs = (.error error, fs) ∧
        Refusal options fs input output error) ∨
      (runOn (convertDirectory options input output) fs).1 = .error (.io .nameTooLong) ∨
      ∃ fs' table files, runOn (convertDirectory options input output) fs = (.ok (), fs') ∧
        runOn (loadDirectory options input) fs = (.ok table, fs) ∧
        TypeScript.assemble options table = .ok files ∧
        Replaced fs fs' (fs.locationOf output) files := by
  have checked := runOn_liftExcept (checkMode options) fs
  cases hmode : checkMode options with
  | error error =>
      rw [hmode] at checked
      exact .inl ⟨error, by rw [convertDirectory, hmode, runOn_bind_of_error checked], .mode hmode⟩
  | ok _ =>
      rw [hmode] at checked
      rw [convertDirectory, hmode, runOn_bind_of_ok checked]
      obtain ⟨loaded, hload, hvalid⟩ := onlyLooks_loadDirectory options input fs
      cases loaded with
      | error error => exact .inl ⟨error, runOn_bind_of_error hload, .source hload⟩
      | ok table =>
          rw [runOn_bind_of_ok hload]
          rcases runOn_dumpTable options sound plain unlinked (hvalid table rfl) with
            ⟨error, hrun, hfiles | ⟨unwritable, cause, rfl⟩⟩ | hlong |
              ⟨fs', files, hrun, assembled, replaced⟩
          · exact .inl ⟨error, hrun, .table hload hfiles⟩
          · exact .inl ⟨.io cause, hrun, .path unwritable⟩
          · exact .inr (.inl hlong)
          · exact .inr (.inr ⟨fs', table, files, hrun, hload, assembled, replaced⟩)

end

/-- **A conversion from directory to directory is all or nothing.**  If it fails, the file system is
what it was, and there is a reason that was there from the start, unless a path is too long.  If it
succeeds, the schema files have been loaded, and what is at the output path are exactly the files of
their table, whatever was there before. -/
theorem convertDirectory_all_or_nothing (options : Options) (input output : String)
    {fs fs' : FileSystem} {result : Except ConversionError Unit} (sound : fs.Sound)
    (plain : Plain output) (unlinked : Unlinked fs output)
    (h : runOn (convertDirectory options input output) fs = (result, fs')) :
    (∀ error, result = .error error →
        (fs' = fs ∧ Refusal options fs input output error) ∨ error = .io .nameTooLong) ∧
      (result = .ok () → ∃ table files,
        runOn (loadDirectory options input) fs = (.ok table, fs) ∧
        TypeScript.assemble options table = .ok files ∧
        Replaced fs fs' (fs.locationOf output) files) := by
  have ends := runOn_convertDirectory options sound plain unlinked input
  rw [h] at ends
  rcases ends with ⟨error, same, refusal⟩ | tooLong | ⟨changed, table, files, same, converted⟩
  · obtain ⟨rfl, rfl⟩ := Prod.mk.inj same
    exact ⟨fun _ failed => .inl ⟨rfl, Except.error.inj failed ▸ refusal⟩, fun ok => by cases ok⟩
  · obtain rfl : result = .error (.io .nameTooLong) := tooLong
    exact ⟨fun _ failed => .inr (Except.error.inj failed).symm, fun ok => by cases ok⟩
  · obtain ⟨rfl, rfl⟩ := Prod.mk.inj same
    exact ⟨fun _ failed => (by cases failed), fun _ => ⟨table, files, converted⟩⟩

/-- The schema of an enumeration without symbols. -/
def smallNode : Json.Value :=
  .object [("type", .string "enum"), ("name", .string "E"), ("symbols", .array [])]

/-- Its text. -/
def smallSchema : String := "\x7b\"type\":\"enum\",\"name\":\"E\",\"symbols\":[]\x7d"

/-- A schema file in one directory, and another directory that holds something. -/
def smallDisk : FileSystem :=
  { root := .directory
      [("i", .directory
          [("a", .file smallSchema.toUTF8)]),
        ("o", .directory [("x", .file "x".toUTF8)])]
    workingDirectory := [] }

/-- Every file is a schema file, and the types are in a namespace. -/
def smallOptions : Options := { inputExtension := "", defaultNamespace := "n" }

/-- The table of the schema file. -/
def smallTable : List NamedType :=
  [{ name := "E", space := "n", alternatives := [.plain .enum], symbols := some [], doc := none
     schema := smallNode
     children := none }]

lemma smallDisk_sound : smallDisk.Sound := by
  refine ⟨Entry.ordered_directory ?_ ?_, rfl⟩
  · simp only [InOrder, List.pairwise_cons, List.mem_singleton, forall_eq]
    exact ⟨by decide, by simp⟩
  · have single : ∀ name bytes, (Entry.directory [(name, .file bytes)]).Ordered := by
      intro name bytes
      refine Entry.ordered_directory (List.pairwise_singleton _ _) ?_
      simpa using Entry.ordered_file bytes
    simpa using ⟨single _ _, single _ _⟩

lemma locationOf_smallDisk : smallDisk.locationOf "o" = ["o"] := by decide

lemma smallDisk_unlinked : Unlinked smallDisk "o" := by
  refine ⟨fun front hfront shorter target hlink => ?_, fun slash => by simp at slash⟩
  rw [locationOf_smallDisk, ← List.nil_append ["o"]] at hfront shorter
  have above : front = [] := by
    rcases List.prefix_concat_iff.mp hfront with same | none
    · exact absurd same shorter
    · simpa using none
  subst above
  simp [FileSystem.look, smallDisk, Entry.at?, Entry.shape] at hlink

/-- The file that is written for it. -/
def smallFile : OutputFile :=
  { name := "n.ts"
    content := "export namespace n \x7b\n\texport enum E\n\t\x7b\n\t\x7d;\n\n\x7d\n" }

lemma loadDirectory_smallDisk :
    runOn (loadDirectory smallOptions "i") smallDisk = (.ok smallTable, smallDisk) := by
  have found : runOn ((filesEndingIn smallOptions.inputExtension "i").adapt
      (ConversionError.sourceUnavailable "i")) smallDisk = (.ok ["i/a"], smallDisk) := by
    with_unfolding_all rfl
  have content : runOn ((FileStore.readBytes "i/a").adapt fun error =>
      ConversionError.inFile "i/a" (.io error)) smallDisk =
        (.ok smallSchema.toUTF8, smallDisk) := rfl
  have table : tableOfBytes smallOptions smallSchema.toUTF8 = .ok smallTable := by
    rw [tableOfBytes_toUTF8]
    exact tableOfText_eq_ok_iff.mpr ⟨smallNode, by cbv, by rfl⟩
  have loaded : runOn (loadFile smallOptions "i/a") smallDisk = (.ok smallTable, smallDisk) := by
    rw [loadFile, runOn_bind_of_ok content, runOn_liftExcept, table]
    rfl
  rw [loadDirectory, runOn_bind_of_ok found,
    runOn_bind_of_ok (runOn_mapM (.cons loaded .nil))]
  rfl

lemma dumpTable_smallDisk :
    (runOn (dumpTable smallOptions smallTable "o") smallDisk).1 = .ok () := by
  have assembled : assembleTable smallOptions smallTable = .ok [smallFile] := rfl
  have written : (runOn (replaceDirectory "o" [smallFile]) smallDisk).1 = .ok () := rfl
  rw [runOn_dumpTable_of_ok assembled, written]
  rfl

theorem convertDirectory_smallDisk :
    smallDisk.Sound ∧ Plain "o" ∧ Unlinked smallDisk "o" ∧
      ∃ fs', runOn (convertDirectory smallOptions "i" "o") smallDisk = (.ok (), fs') ∧
        Replaced smallDisk fs' ["o"] [smallFile] := by
  have plain : Plain "o" := ⟨by decide, "o", by decide⟩
  have hrun : runOn (convertDirectory smallOptions "i" "o") smallDisk =
      (.ok (), (runOn (dumpTable smallOptions smallTable "o") smallDisk).2) := by
    have checked := runOn_liftExcept (checkMode smallOptions) smallDisk
    rw [convertDirectory, runOn_bind_of_ok checked, runOn_bind_of_ok loadDirectory_smallDisk]
    rw [← dumpTable_smallDisk]
  obtain ⟨table, files, hload, hfiles, replaced⟩ := (convertDirectory_all_or_nothing smallOptions
    "i" "o" smallDisk_sound plain smallDisk_unlinked hrun).2 rfl
  obtain rfl : smallTable = table := by
    rw [loadDirectory_smallDisk] at hload
    exact Except.ok.inj (Prod.mk.inj hload).1
  obtain rfl : [smallFile] = files := by
    have assembled : TypeScript.assemble smallOptions smallTable = .ok [smallFile] := rfl
    rw [assembled] at hfiles
    exact Except.ok.inj hfiles
  rw [locationOf_smallDisk] at replaced
  exact ⟨smallDisk_sound, plain, smallDisk_unlinked, _, hrun, replaced⟩

-- by a path that ends in a dot the content is removed, and the directory then cannot be
example : (runOn (replaceDirectory "o/." []) smallDisk).1 = .error .invalidArgument := by rfl

example : (runOn (replaceDirectory "o/." []) smallDisk).2.look ["o", "x"] = none := by rfl

end Conversion

end AvroTypes
