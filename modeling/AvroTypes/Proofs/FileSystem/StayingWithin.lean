import AvroTypes.Proofs.FileSystem.Confinement

/-!
# Nothing outside the directory

Replacing a directory is kept within bounds however it ends: if it fails halfway, too, everything
that it has changed is at the location of the directory or below, or a missing directory above it.
Once the location has been cleared there is no link left that could lead anywhere else, and that
stays so with every file that is written.

* `StaysWithin` — a program that changes nothing else, whether it succeeds or not.
* `Straight.staysWithin_prepare` — clearing a path and making a directory there.
* `Downward.staysWithin_writeBelow`, `Downward.staysWithin_forM_writeBelow` — one step of writing,
  and all of them.
* `Straight.replaceDirectory_confined` — **the whole replacement.**
* `runOn_replaceDirectory_of_leaving` — **what is refused before anything happens.**
-/

namespace AvroTypes

/-! ## Programs -/

/-- **A program that changes nothing but at a location and below it**, however it ends, and what it
leaves if it succeeds. -/
structure StaysWithin (location : List String)
    (program : ExceptT IoError (StateM FileSystem) Unit) (fs : FileSystem)
    (post : FileSystem → Prop) : Prop where
  confined : Confined fs (runOn program fs).2 location
  ends : (runOn program fs).1 = .ok () → post (runOn program fs).2

section

variable {fs : FileSystem} {location : List String}
  {program : ExceptT IoError (StateM FileSystem) Unit} {middle post : FileSystem → Prop}

/-- One program after the other. -/
lemma StaysWithin.bind {next : Unit → ExceptT IoError (StateM FileSystem) Unit}
    (first : StaysWithin location program fs middle)
    (second : ∀ fs', Confined fs fs' location → middle fs' →
      StaysWithin location (next ()) fs' post) :
    StaysWithin location (program >>= next) fs post := by
  obtain ⟨confined, ends⟩ := first
  cases hrun : runOn program fs with
  | mk result fs' =>
      rw [hrun] at confined ends
      cases result with
      | error error =>
          have stopped : runOn (program >>= next) fs = (.error error, fs') :=
            runOn_bind_of_error hrun
          exact ⟨by rwa [stopped], fun ok => by rw [stopped] at ok; cases ok⟩
      | ok _ =>
          have further : runOn (program >>= next) fs = runOn (next ()) fs' := runOn_bind_of_ok hrun
          obtain ⟨confined', ends'⟩ := second fs' confined (ends rfl)
          rw [← further] at confined' ends'
          exact ⟨confined.trans confined', ends'⟩

/-- What is on the way to a place below a location is on the way to the location, or below it. -/
lemma FreeOfLinks.unlinked (free : FreeOfLinks fs location) {path : String} {rest : List String}
    (place : fs.locationOf path = location ++ rest) :
    ∀ front, front <+: fs.locationOf path → ∀ target, fs.look front ≠ some (.link target) :=
  fun front hfront =>
    free front (List.prefix_or_prefix_of_prefix (place ▸ hfront) (List.prefix_append _ _))

lemma FreeOfLinks.straight (free : FreeOfLinks fs location) {path : String} {rest : List String}
    (downward : Downward path) (place : fs.locationOf path = location ++ rest) :
    Straight fs path :=
  ⟨downward, fun front hfront _ => free.unlinked place front hfront,
    fun target hlink => absurd hlink (free.unlinked place _ List.prefix_rfl target)⟩

lemma runOn_createDirectories (path : String) (fs : FileSystem) :
    runOn (FileStore.createDirectories path) fs = fs.createDirectories path := rfl

/-- A directory below a location is made. -/
lemma FreeOfLinks.staysWithin_createDirectories (free : FreeOfLinks fs location) {path : String}
    {rest : List String} (downward : Downward path)
    (place : fs.locationOf path = location ++ rest) :
    StaysWithin location (FileStore.createDirectories path) fs (FreeOfLinks · location) := by
  have grown := (free.straight downward place).createDirectories_grown.confined
  rw [place, ← runOn_createDirectories] at grown
  exact ⟨grown.of_below, fun _ => free.of_confined grown.of_below⟩

/-- A file below a location is written. -/
lemma FreeOfLinks.staysWithin_writeBytes (free : FreeOfLinks fs location) {path : String}
    {rest : List String} (downward : Downward path) (place : fs.locationOf path = location ++ rest)
    (bytes : ByteArray) :
    StaysWithin location (FileStore.writeBytes path bytes) fs (FreeOfLinks · location) := by
  cases hwrite : fs.writeBytes path bytes with
  | ok written =>
      have writing := downward.writeBytes_confined (free.unlinked place) hwrite
      rw [place] at writing
      have hrun : runOn (FileStore.writeBytes path bytes) fs = (.ok (), written) :=
        runOn_changing_of_ok hwrite
      refine ⟨?_, fun _ => ?_⟩
      · rw [hrun]
        exact writing.of_below
      · rw [hrun]
        exact free.of_confined writing.of_below
  | error error =>
      have hrun : runOn (FileStore.writeBytes path bytes) fs = (.error error, fs) :=
        runOn_changing_of_error hwrite
      refine ⟨?_, fun _ => ?_⟩
      · rw [hrun]
        exact .refl fs location
      · rw [hrun]
        exact free

end

lemma locationOf_below (fs : FileSystem) {path other : String} {rest : List String}
    (names : namedSegments other = namedSegments path ++ rest)
    (absolute : isAbsolute other = isAbsolute path) :
    fs.locationOf other = fs.locationOf path ++ rest := by
  rw [FileSystem.locationOf, FileSystem.locationOf, FileSystem.start, FileSystem.start, absolute,
    names, List.append_assoc]

namespace Straight

variable {fs : FileSystem} {path : String}

/-- **Clearing a path.**  Either no link is left, or the path led nowhere and nothing is done. -/
lemma staysWithin_clear (h : Straight fs path) (ordered : fs.root.Ordered) :
    StaysWithin (fs.locationOf path) (clear path) fs fun cleared =>
      FreeOfLinks cleared (fs.locationOf path) ∨
        cleared = fs ∧ ∃ error, fs.entry true path = .error error := by
  cases hentry : fs.entry true path with
  | error error =>
      have hrun := runOn_clear_of_error hentry
      refine ⟨?_, fun _ => .inr ⟨?_, error, rfl⟩⟩
      · rw [hrun]
        exact .refl fs _
      · rw [hrun]
  | ok found =>
      have hrun := runOn_clear_of_ok hentry
      obtain ⟨confined, free⟩ := h.removeAll_confined ordered
      exact ⟨hrun ▸ confined, fun ok => .inl (hrun ▸ free (hrun ▸ ok))⟩

/-- **Clearing a path and making a directory there.**  No link is left. -/
lemma staysWithin_prepare (h : Straight fs path) (ordered : fs.root.Ordered) :
    StaysWithin (fs.locationOf path) (clear path >>= fun _ => FileStore.createDirectories path) fs
      (FreeOfLinks · (fs.locationOf path)) := by
  refine (h.staysWithin_clear ordered).bind fun cleared confined left => ?_
  have straight := h.of_confined confined
  have place := locationOf_eq_of_workingDirectory confined.workingDirectory path
  have making := (place ▸ straight.createDirectories_grown).confined
  refine ⟨by rwa [runOn_createDirectories], fun ok => ?_⟩
  rw [runOn_createDirectories] at ok ⊢
  rcases left with free | ⟨rfl, error, nowhere⟩
  · exact free.of_confined making
  · have nothing := h.look_of_createDirectories nowhere ok
    have free : FreeOfLinks cleared (cleared.locationOf path) := by
      refine h.freeOfLinks fun p below target => ?_
      rw [FileSystem.look_eq_none_below nothing below]
      simp
    exact free.of_confined making

end Straight

namespace Downward

variable {fs : FileSystem} {path : String} {location : List String}

/-- **One step of writing.** -/
lemma staysWithin_writeBelow (h : Downward path) (place : fs.locationOf path = location)
    (free : FreeOfLinks fs location) {file : OutputFile} (inside : Downward file.name) :
    StaysWithin location (writeBelow path file) fs (FreeOfLinks · location) := by
  obtain ⟨downward, names, absolute⟩ := h.directoryOf inside
  have directory := locationOf_below fs names absolute
  rw [place] at directory
  refine (free.staysWithin_createDirectories downward directory).bind fun made confined free' => ?_
  obtain ⟨downward', names', absolute'⟩ := h.joinPath inside
  have below := locationOf_below made names' absolute'
  rw [locationOf_eq_of_workingDirectory confined.workingDirectory path, place] at below
  exact free'.staysWithin_writeBytes downward' below _

/-- **Writing one file after the other**, by induction on the files. -/
lemma staysWithin_forM_writeBelow (h : Downward path) (place : fs.locationOf path = location)
    (free : FreeOfLinks fs location) {files : List OutputFile}
    (inside : ∀ file ∈ files, Downward file.name) :
    StaysWithin location (files.forM (writeBelow path)) fs (FreeOfLinks · location) := by
  induction files generalizing fs with
  | nil => exact ⟨.refl fs location, fun _ => free⟩
  | cons file files ih =>
      have step := h.staysWithin_writeBelow place free (inside file List.mem_cons_self)
      -- the loop is one step and the rest of it, by definition
      refine step.bind fun written confined free' => ih ?_ free' fun other hother =>
        inside other (List.mem_cons_of_mem file hother)
      rw [locationOf_eq_of_workingDirectory confined.workingDirectory, place]

end Downward

/-! ## The whole replacement -/

/-- **Replacing a directory stays within it**, and leaves no link there. -/
lemma Straight.staysWithin_replaceDirectory {fs : FileSystem} {path : String}
    (h : Straight fs path) (ordered : fs.root.Ordered) (files : List OutputFile) :
    StaysWithin (fs.locationOf path) (replaceDirectory path files) fs
      (FreeOfLinks · (fs.locationOf path)) := by
  rw [replaceDirectory]
  split
  · exact ⟨.refl fs _, fun ok => by cases ok⟩
  · next none =>
      have inside : ∀ file ∈ files, Downward file.name := by
        intro file hfile
        have plain := List.find?_eq_none.mp none file hfile
        exact downward_of_isPlainRelative (by simpa using plain)
      have program :
          StaysWithin (fs.locationOf path) ((clear path >>= fun _ =>
            FileStore.createDirectories path) >>= fun _ => files.forM (writeBelow path)) fs
            (FreeOfLinks · (fs.locationOf path)) :=
        (h.staysWithin_prepare ordered).bind fun prepared confined free =>
          h.toDownward.staysWithin_forM_writeBelow
            (locationOf_eq_of_workingDirectory confined.workingDirectory path) free inside
      rw [bind_assoc] at program
      exact program

/-- **Replacing a directory changes nothing else**, whatever the files are called, and however it
ends. -/
theorem Straight.replaceDirectory_confined {fs : FileSystem} {path : String}
    (h : Straight fs path) (ordered : fs.root.Ordered) (files : List OutputFile) :
    Confined fs (runOn (replaceDirectory path files) fs).2 (fs.locationOf path) :=
  (h.staysWithin_replaceDirectory ordered files).confined

/-- **A file name that leads out of the directory is refused**, before anything is changed. -/
theorem runOn_replaceDirectory_of_leaving (fs : FileSystem) (path : String)
    {files : List OutputFile} (leaving : ∃ file ∈ files, isPlainRelative file.name = false) :
    ∃ file ∈ files, isPlainRelative file.name = false ∧
      runOn (replaceDirectory path files) fs = (.error (.leavesOutput file.name), fs) := by
  rw [replaceDirectory]
  split
  · next file found =>
      have hplain := List.find?_some found
      exact ⟨file, List.mem_of_find?_eq_some found, by simpa using hplain, rfl⟩
  · next none =>
      obtain ⟨file, hfile, hplain⟩ := leaving
      exact absurd hplain (by simpa using List.find?_eq_none.mp none file hfile)

end AvroTypes
