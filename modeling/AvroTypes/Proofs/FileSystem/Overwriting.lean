import AvroTypes.Proofs.FileSystem.Reaching
import AvroTypes.Proofs.FileSystem.StayingWithin
import AvroTypes.Proofs.Outcome

/-!
# Files that overwrite each other

Two file names can be different texts and lead to the same file.  When the files of a directory are
written one after the other, nothing is lost but what is overwritten: in the end the path of each
file leads to a file, and that holds the content of the last one whose path leads there.  This needs
nothing of the output path, links and ways up included; only of the directory where relative paths
start, that it is there.

* `Extends`, `createDirectories_extends` — making directories.
* `Rewritten`, `rewritten_of_writeBytes` — writing a file.
* `Based` — output paths below which a file is written where its path leads.
* `FileAt`, `LastWritten` — **what has been written**, and which file holds what.
* `LastWritten.add`, `lastWritten_forM_writeBelow` — one step of writing, and all of them.
* `clear_of_nameless` — a directory that is not called by its name is not cleared.
* `lastWritten_replaceDirectory` — **the whole replacement.**
-/

namespace AvroTypes

/-! ## Making directories -/

/-- Everything that there is stays as it is. -/
structure Extends (fs fs' : FileSystem) : Prop where
  workingDirectory : fs'.workingDirectory = fs.workingDirectory
  look : ∀ p, fs.look p ≠ none → fs'.look p = fs.look p

section

variable {fs fs' fs'' : FileSystem} {path : String} {location : List String}

lemma Extends.refl (fs : FileSystem) : Extends fs fs := ⟨rfl, fun _ _ => rfl⟩

lemma Extends.trans (h : Extends fs fs') (h' : Extends fs' fs'') : Extends fs fs'' where
  workingDirectory := h'.workingDirectory.trans h.workingDirectory
  look p here := by
    have same := h.look p here
    rw [h'.look p (same ▸ here), same]

lemma Extends.look_eq {shape : Shape} (h : Extends fs fs') (here : fs.look location = some shape) :
    fs'.look location = some shape := by
  rw [h.look location (by rw [here]; simp), here]

lemma Extends.lasts (h : Extends fs fs') : Lasts fs fs' :=
  ⟨h.workingDirectory, fun _ here => h.look_eq here, fun _ _ here => h.look_eq here,
    fun _ bytes here => ⟨bytes, h.look_eq here⟩⟩

lemma Grown.extends (h : Grown fs fs' location) : Extends fs fs' where
  workingDirectory := h.workingDirectory
  look p here := (h.look p).resolve_right fun ⟨_, nothing, _⟩ => here nothing

/-- A directory is made where nothing was. -/
lemma create_extends {made : FileSystem} (h : fs.create path (.directory []) = .ok made) :
    Extends fs made := by
  rw [FileSystem.create, bind_eq_ok_iff] at h
  obtain ⟨place, located, h⟩ := h
  cases place with
  | found location entry => cases h
  | free directory name =>
      have nothing := (FileSystem.follow_eq_ok_iff.mp located).2.at?_location
      obtain rfl := Except.ok.inj h
      exact (grown_put (Option.map_eq_none_iff.mpr nothing)).extends

lemma ensureDirectory_extends {made : FileSystem} (h : fs.ensureDirectory path = .ok made) :
    Extends fs made := by
  rw [FileSystem.ensureDirectory] at h
  split at h
  · next created hcreate => exact Except.ok.inj h ▸ create_extends hcreate
  · split_ifs at h
    exact Except.ok.inj h ▸ .refl fs

/-- Directories made one above the other, by induction on the paths to them. -/
lemma createChain_extends (fs : FileSystem) (paths : List String) :
    Extends fs (fs.createChain paths).2 := by
  induction paths with
  | nil => exact .refl fs
  | cons path above ih =>
      rw [FileSystem.createChain]
      split
      · next made hmade => exact ensureDirectory_extends hmade
      · split
        · next made hchain =>
            rw [hchain] at ih
            exact ih
        · next made hchain =>
            rw [hchain] at ih
            split
            · next done hdone => exact ih.trans (ensureDirectory_extends hdone)
            · exact ih
      · exact .refl fs

/-- **A directory is made with all that lead to it**, and nothing else changes. -/
theorem createDirectories_extends (fs : FileSystem) (path : String) :
    Extends fs (fs.createDirectories path).2 := createChain_extends fs (ancestorPaths path)

end

/-! ## Writing a file -/

/-- The same file system but for a file at a location, where there was a file or nothing. -/
structure Rewritten (fs written : FileSystem) (location : List String) (bytes : ByteArray) :
    Prop where
  lasts : Lasts fs written
  here : written.look location = some (.file bytes)
  elsewhere : ∀ p, p ≠ location → written.look p = fs.look p

section

variable {fs written : FileSystem} {above : List String} {name path : String} {bytes : ByteArray}

lemma rewritten_put (inside : fs.look above = some .directory)
    (free : fs.look (above ++ [name]) = none ∨
      ∃ bytes, fs.look (above ++ [name]) = some (.file bytes)) :
    Rewritten fs (fs.put (above ++ [name]) (some (.file bytes))) (above ++ [name]) bytes := by
  have bare : ∀ name rest, (Entry.file bytes).at? (name :: rest) = none := fun _ _ => rfl
  have here : (fs.put (above ++ [name]) (some (.file bytes))).look (above ++ [name]) =
      some (.file bytes) := by
    rw [FileSystem.look_put bare inside, if_pos rfl]
    rfl
  have elsewhere : ∀ p, p ≠ above ++ [name] →
      (fs.put (above ++ [name]) (some (.file bytes))).look p = fs.look p := by
    intro p other
    rw [FileSystem.look_put bare inside, if_neg other]
    split_ifs with below
    · obtain ⟨rest, rfl⟩ := below
      have noDirectory : fs.look (above ++ [name]) ≠ some .directory := by
        rcases free with nothing | ⟨bytes, file⟩ <;> simp [*]
      exact (FileSystem.look_append_eq_none (by rintro rfl; simp at other) noDirectory).symm
    · rfl
  have kept : ∀ p shape, fs.look p = some shape → (∀ bytes, shape ≠ .file bytes) →
      (fs.put (above ++ [name]) (some (.file bytes))).look p = some shape := by
    intro p shape hshape noFile
    rw [elsewhere p, hshape]
    rintro rfl
    rcases free with nothing | ⟨bytes, file⟩
    · simp [nothing] at hshape
    · exact noFile bytes (Option.some.inj (hshape.symm.trans file))
  refine ⟨⟨rfl, fun p h => kept p _ h nofun, fun p _ h => kept p _ h nofun, fun p old h => ?_⟩,
    here, elsewhere⟩
  by_cases same : p = above ++ [name]
  · exact ⟨bytes, same ▸ here⟩
  · exact ⟨old, (elsewhere p same).trans h⟩

end

/-- A path leads to a file at a location. -/
def FileAt (fs : FileSystem) (path : String) (location : List String) (bytes : ByteArray) : Prop :=
  fs.entry true path = .ok (location, .file bytes)

section

variable {fs fs' written : FileSystem} {path : String} {location : List String}
  {bytes bytes' : ByteArray}

lemma fileAt_iff :
    FileAt fs path location bytes ↔ fs.locate true path = .ok (.found location (.file bytes)) :=
  FileSystem.entry_eq_ok_iff

lemma FileAt.look (h : FileAt fs path location bytes) : fs.look location = some (.file bytes) :=
  look_of_at? (FileSystem.follow_eq_ok_iff.mp (fileAt_iff.mp h)).2.at?_location

lemma FileAt.later (h : FileAt fs path location bytes) (lasts : Lasts fs fs')
    (there : fs'.look location = some (.file bytes')) : FileAt fs' path location bytes' :=
  fileAt_iff.mpr (FileSystem.locate_later (fileAt_iff.mp h) lasts there)

/-- **Writing a file** where a path leads. -/
theorem rewritten_of_writeBytes
    (stands : ∀ place, fs.locate true path = .ok place → place.Stands fs)
    (h : fs.writeBytes path bytes = .ok written) :
    ∃ location, Rewritten fs written location bytes ∧ FileAt written path location bytes := by
  rw [FileSystem.writeBytes, bind_eq_ok_iff] at h
  obtain ⟨place, located, h⟩ := h
  have rewritten : Rewritten fs written place.location bytes := by
    cases stands place located with
    | directory here => cases h
    | file inside here =>
        obtain rfl := Except.ok.inj h
        exact rewritten_put inside (.inr ⟨_, look_of_at? here⟩)
    | free inside nothing =>
        obtain rfl := Except.ok.inj h
        exact rewritten_put inside (.inl (Option.map_eq_none_iff.mpr nothing))
  exact ⟨_, rewritten,
    fileAt_iff.mpr (FileSystem.locate_later located rewritten.lasts rewritten.here)⟩

end

/-! ## Output paths -/

/-- The paths below a directory start from a directory, or go down on the way there. -/
def Based (fs : FileSystem) (directory : String) : Prop :=
  fs.look (fs.start directory) = some .directory ∨ ∃ name, Part.down name ∈ namedParts directory

section

variable {fs fs' : FileSystem} {directory name : String}

lemma Based.later (h : Based fs directory) (lasts : Lasts fs fs') : Based fs' directory := by
  refine h.imp_left fun start => ?_
  rw [start_eq_of_workingDirectory lasts.workingDirectory rfl]
  exact lasts.directories _ start

lemma start_joinPath (fs : FileSystem) (plain : isPlainRelative name = true) :
    fs.start (joinPath directory name) = fs.start directory := by
  have relative : isAbsolute name = false := by
    simp only [isPlainRelative, Bool.and_eq_true, Bool.not_eq_true'] at plain
    exact plain.1.1.1
  refine start_eq_of_workingDirectory rfl ?_
  by_cases empty : directory = ""
  · subst empty
    rw [joinPath, if_pos (by simp), String.empty_append, relative]
    rfl
  · rcases joinPath_eq_or directory name with same | same
    · rw [same, isAbsolute_append empty]
    · rw [same, String.append_assoc, isAbsolute_append empty]

/-- Where the directory is called by a name, the path of a file below it goes down before its last
part. -/
lemma down_mem_dropLast_joinPath (plain : isPlainRelative name = true) {above : String}
    (down : Part.down above ∈ namedParts directory) :
    Part.down above ∈ (partsOf (joinPath directory name)).dropLast := by
  have nonempty : directory ≠ "" := by
    rintro rfl
    simp [show namedParts "" = [] by decide] at down
  obtain ⟨front, hjoin, hfront⟩ := joinPath_eq nonempty name
  have more : namedParts name ≠ [] := by
    intro none
    have descends := (downward_of_isPlainRelative plain).descends
    rw [none] at descends
    exact (downward_of_isPlainRelative plain).named descends.eq_nil
  rw [partsOf, hjoin, namedParts_append, hfront, List.append_assoc,
    List.dropLast_append_of_ne_nil (by simp [more])]
  exact List.mem_append_left _ down

/-- **What the path of a file below a directory leads to is there.** -/
lemma Based.stands (h : Based fs directory) (plain : isPlainRelative name = true) (place : Place)
    (located : fs.locate true (joinPath directory name) = .ok place) : place.Stands fs := by
  have reaches := (FileSystem.follow_eq_ok_iff.mp located).2
  rcases h with start | ⟨above, down⟩
  · rw [start_joinPath fs plain] at reaches
    exact reaches.stands start
  · exact reaches.stands_of_down (down_mem_dropLast_joinPath plain down)

end

/-! ## Writing one file after the other -/

/-- **What has been written below a directory.**  The path of every file leads to a file, and a file
holds the content of the last one whose path leads there. -/
structure LastWritten (fs : FileSystem) (directory : String) (files : List OutputFile) : Prop where
  leads : ∀ file ∈ files, ∃ location bytes,
    FileAt fs (joinPath directory file.name) location bytes
  last : ∀ before last after, files = before ++ last :: after → ∀ location bytes,
    FileAt fs (joinPath directory last.name) location bytes →
    (∀ later ∈ after, ∀ bytes', ¬ FileAt fs (joinPath directory later.name) location bytes') →
    bytes = last.content.toUTF8

section

variable {fs fs' : FileSystem} {directory : String} {files : List OutputFile}

lemma lastWritten_nil (fs : FileSystem) (directory : String) : LastWritten fs directory [] :=
  ⟨by simp, by simp⟩

lemma FileAt.unique {path : String} {location location' : List String} {bytes bytes' : ByteArray}
    (h : FileAt fs path location bytes) (h' : FileAt fs path location' bytes') :
    location = location' ∧ bytes = bytes' := by
  obtain ⟨rfl, same⟩ := Prod.mk.inj (Except.ok.inj (h.symm.trans h'))
  exact ⟨rfl, Entry.file.inj same⟩

/-- **One more file.**  What its path leads to holds its content, and the other files are as they
were. -/
lemma LastWritten.add (h : LastWritten fs directory files) {file : OutputFile}
    {location : List String} (lasts : Lasts fs fs')
    (kept : ∀ p bytes, p ≠ location → fs.look p = some (.file bytes) →
      fs'.look p = some (.file bytes))
    (new : FileAt fs' (joinPath directory file.name) location file.content.toUTF8) :
    LastWritten fs' directory (files ++ [file]) := by
  have again : ∀ {path place bytes}, FileAt fs path place bytes →
      ∃ bytes', FileAt fs' path place bytes' := by
    intro path place bytes here
    obtain ⟨bytes', there⟩ := lasts.files _ _ here.look
    exact ⟨bytes', here.later lasts there⟩
  refine ⟨fun other hother => ?_, fun before last after split place bytes here none => ?_⟩
  · rcases List.mem_append.mp hother with hother | hother
    · obtain ⟨place, bytes, here⟩ := h.leads other hother
      obtain ⟨bytes', here'⟩ := again here
      exact ⟨place, bytes', here'⟩
    · obtain rfl := List.mem_singleton.mp hother
      exact ⟨location, _, new⟩
  · rcases List.eq_nil_or_concat' after with rfl | ⟨after, final, rfl⟩
    · obtain ⟨rfl, same⟩ := List.append_inj' split rfl
      obtain rfl := List.singleton_inj.mp same
      exact (here.unique new).2
    · -- the new file is not at the place of the last one, so that one is as it was
      rw [← List.cons_append, ← List.append_assoc] at split
      obtain ⟨rfl, same⟩ := List.append_inj' split rfl
      obtain rfl := List.singleton_inj.mp same
      obtain ⟨place', bytes', here'⟩ := h.leads last (by simp)
      obtain ⟨bytes'', again'⟩ := again here'
      obtain ⟨rfl, rfl⟩ := here.unique again'
      have other : place ≠ location := by
        rintro rfl
        exact none file (by simp) _ new
      have unchanged := here'.later lasts (kept _ _ other here'.look)
      obtain ⟨-, rfl⟩ := here.unique unchanged
      refine h.last before last after rfl place bytes here' fun later hlater bytes' there => ?_
      obtain ⟨bytes'', there'⟩ := again there
      exact none later (by simp [hlater]) bytes'' there'

/-- A program that succeeds has a first step that succeeds, and a rest that does. -/
lemma runOn_bind_eq_ok {ε α β : Type} {program : ExceptT ε (StateM FileSystem) α}
    {next : α → ExceptT ε (StateM FileSystem) β} {b : β}
    (h : runOn (program >>= next) fs = (.ok b, fs')) :
    ∃ a middle, runOn program fs = (.ok a, middle) ∧ runOn (next a) middle = (.ok b, fs') := by
  rw [runOn_bind] at h
  split at h
  · next a middle hrun => exact ⟨a, middle, hrun, h⟩
  · cases h

lemma writeBytes_of_runOn {path : String} {bytes : ByteArray}
    (h : runOn (FileStore.writeBytes path bytes) fs = (.ok (), fs')) :
    fs.writeBytes path bytes = .ok fs' := by
  cases hwrite : fs.writeBytes path bytes with
  | ok written =>
      have hrun : runOn (FileStore.writeBytes path bytes) fs = (.ok (), written) :=
        runOn_changing_of_ok hwrite
      rw [(Prod.mk.inj (hrun.symm.trans h)).2]
  | error error =>
      have hrun : runOn (FileStore.writeBytes path bytes) fs = (.error error, fs) :=
        runOn_changing_of_error hwrite
      cases hrun.symm.trans h

/-- **One step of writing.** -/
lemma lastWritten_writeBelow {file : OutputFile} (based : Based fs directory)
    (plain : isPlainRelative file.name = true) (written : LastWritten fs directory files)
    (h : runOn (writeBelow directory file) fs = (.ok (), fs')) :
    Lasts fs fs' ∧ LastWritten fs' directory (files ++ [file]) := by
  obtain ⟨_, made, hmake, hwrite⟩ := runOn_bind_eq_ok h
  have making : Extends fs made := by
    have extends_ := createDirectories_extends fs (directoryOf directory file.name)
    rw [← runOn_createDirectories, hmake] at extends_
    exact extends_
  have based' := based.later making.lasts
  obtain ⟨location, rewritten, new⟩ :=
    rewritten_of_writeBytes (based'.stands plain) (writeBytes_of_runOn hwrite)
  have lasts := making.lasts.trans rewritten.lasts
  refine ⟨lasts, written.add lasts (fun p bytes other here => ?_) new⟩
  rw [rewritten.elsewhere p other]
  exact making.look_eq here

/-- **Writing one file after the other**, by induction on the files. -/
lemma lastWritten_forM_writeBelow {done : List OutputFile} (based : Based fs directory)
    (plain : ∀ file ∈ files, isPlainRelative file.name = true)
    (written : LastWritten fs directory done)
    (h : runOn (files.forM (writeBelow directory)) fs = (.ok (), fs')) :
    LastWritten fs' directory (done ++ files) := by
  induction files generalizing fs done with
  | nil =>
      obtain rfl : fs = fs' := (Prod.mk.inj h).2
      simpa using written
  | cons file files ih =>
      -- the loop is one step and the rest of it, by definition
      obtain ⟨_, middle, hstep, hrest⟩ := runOn_bind_eq_ok h
      obtain ⟨lasts, written'⟩ :=
        lastWritten_writeBelow based (plain file List.mem_cons_self) written hstep
      have rest := ih (based.later lasts)
        (fun other hother => plain other (List.mem_cons_of_mem file hother)) written' hrest
      rwa [List.append_assoc] at rest

end

/-! ## Clearing -/

section

variable {fs cleared : FileSystem} {path : String}

lemma climb_partsOf (here : List String) (path : String) :
    climb here (partsOf path) = climb here (namedParts path) := by
  rw [partsOf, climb_append]
  split_ifs <;> rfl

lemma nameless_partsOf (nameless : Nameless (namedParts path)) : Nameless (partsOf path) := by
  intro name down
  rw [partsOf, List.mem_append] at down
  rcases down with down | down
  · exact nameless name down
  · split_ifs at down <;> simp at down

/-- A directory is emptied where it is. -/
lemma look_put_emptied {location : List String} (here : fs.look location = some .directory) :
    (fs.put location (some (.directory []))).look location = some .directory := by
  rcases List.eq_nil_or_concat' location with rfl | ⟨above, name, rfl⟩
  · rfl
  · have inside := FileSystem.look_of_directory_below here (List.prefix_append above [name])
    rw [FileSystem.look_put (fun _ _ => rfl) inside, if_pos rfl]
    rfl

/-- What is not called by its name is not removed. -/
lemma removeDirectory_of_nameless (nameless : Nameless (namedParts path)) {location : List String}
    {entry : Entry} (located : fs.locateNamed path = .ok (.found location entry)) :
    ∃ error, fs.removeDirectory path = .error error ∧ error ≠ .notFound := by
  have unnamed : ∀ name, (namedParts path).getLast? ≠ some (.down name) := fun name hlast =>
    nameless name (List.mem_of_getLast? hlast)
  rw [FileSystem.removeDirectory, located]
  dsimp only [bind, Except.bind]
  split
  · next hlast => exact absurd hlast (unnamed _)
  · next hlast => exact absurd hlast (unnamed _)
  · next hlast => exact absurd hlast (unnamed _)
  · exact ⟨_, rfl, by simp⟩
  · exact ⟨_, rfl, by simp⟩
  · exact ⟨_, rfl, by simp⟩
  · next same => cases same

/-- **A directory that is not called by its name is not cleared.**  Either nothing is there, or
removing it fails after its content is gone. -/
theorem clear_of_nameless (nameless : Nameless (namedParts path))
    (start : fs.look (fs.start path) = some .directory)
    (h : runOn (clear path) fs = (.ok (), cleared)) : cleared = fs := by
  cases hentry : fs.entry true path with
  | error error =>
      rw [runOn_clear_of_error hentry] at h
      exact (Prod.mk.inj h).2.symm
  | ok found =>
      -- the path leads there still when the content is gone, but has no name to remove
      obtain ⟨place, located, -⟩ := bind_eq_ok_iff.mp hentry
      have fits := (FileSystem.follow_eq_ok_iff.mp located).1
      have here := FileSystem.look_of_directory_below start
        (climb_above (fs.start path) (namedParts path))
      generalize hplace : climb (fs.start path) (namedParts path) = location at here
      have slash : climb (fs.start path) (partsOf path) = location := by rw [climb_partsOf, hplace]
      obtain ⟨entries, hentries⟩ := FileSystem.look_eq_directory_iff.mp here
      have named : fs.locate false path = .ok (.found location (.directory entries)) :=
        FileSystem.follow_eq_ok_iff.mpr ⟨fits, (reaches_of_nameless
          (nameless_partsOf nameless)).mpr ⟨_, by rwa [slash], by rw [slash]⟩⟩
      have hentry' : fs.entry false path = .ok (location, .directory entries) := by
        rw [FileSystem.entry, named]
        rfl
      generalize hemptied : fs.put location (some (.directory [])) = emptied
      have there : emptied.look location = some .directory := hemptied ▸ look_put_emptied here
      have start' : climb (emptied.start path) (namedParts path) = location := by
        rw [← hemptied, ← hplace]
        rfl
      obtain ⟨left, hleft⟩ := FileSystem.look_eq_directory_iff.mp there
      have named' : emptied.locateNamed path = .ok (.found location (.directory left)) :=
        FileSystem.follow_eq_ok_iff.mpr ⟨fits, (reaches_of_nameless nameless).mpr
          ⟨_, by rwa [start'], by rw [start']⟩⟩
      obtain ⟨error, failed, other⟩ := removeDirectory_of_nameless nameless named'
      rw [runOn_clear_of_ok hentry, FileSystem.removeAll, hentry'] at h
      simp only [hemptied, failed] at h
      cases error <;> first | exact absurd rfl other | cases h

/-- After clearing a path and making a directory there, files can be written below it. -/
lemma based_of_clear (working : fs.look fs.workingDirectory = some .directory)
    (h : runOn (clear path) fs = (.ok (), cleared)) : Based cleared path := by
  by_cases named : ∃ name, Part.down name ∈ namedParts path
  · exact .inr named
  · have start : fs.look (fs.start path) = some .directory := by
      rw [FileSystem.start]
      split_ifs
      · exact FileSystem.look_of_directory_below working List.nil_prefix
      · exact working
    obtain rfl := clear_of_nameless (fun name down => named ⟨name, down⟩) start h
    exact .inl start

end

/-! ## The whole replacement -/

/-- **After a replacement every file holds the content of the last one that is written to it.** -/
theorem lastWritten_replaceDirectory {fs fs' : FileSystem} {directory : String}
    {files : List OutputFile} (working : fs.look fs.workingDirectory = some .directory)
    (h : runOn (replaceDirectory directory files) fs = (.ok (), fs')) :
    LastWritten fs' directory files := by
  rw [replaceDirectory] at h
  split at h
  · cases h
  · next none =>
      have plain : ∀ file ∈ files, isPlainRelative file.name = true := fun file hfile => by
        simpa using List.find?_eq_none.mp none file hfile
      obtain ⟨_, cleared, hclear, h⟩ := runOn_bind_eq_ok h
      obtain ⟨_, made, hmake, h⟩ := runOn_bind_eq_ok h
      have making := createDirectories_extends cleared directory
      rw [← runOn_createDirectories, hmake] at making
      exact lastWritten_forM_writeBelow ((based_of_clear working hclear).later making.lasts) plain
        (lastWritten_nil made directory) h

/-- The last thing of a list with a property, if there is any. -/
lemma exists_last_of_mem {α : Type} {property : α → Prop} {list : List α}
    (h : ∃ a ∈ list, property a) :
    ∃ before last after, list = before ++ last :: after ∧ property last ∧
      ∀ later ∈ after, ¬ property later := by
  induction list with
  | nil => simp at h
  | cons first rest ih =>
      by_cases later : ∃ a ∈ rest, property a
      · obtain ⟨before, last, after, rfl, hlast, none⟩ := ih later
        exact ⟨first :: before, last, after, rfl, hlast, none⟩
      · obtain ⟨a, ha, hproperty⟩ := h
        rcases List.mem_cons.mp ha with rfl | ha
        · exact ⟨[], a, rest, rfl, hproperty,
            fun other hother found => later ⟨other, hother, found⟩⟩
        · exact absurd ⟨a, ha, hproperty⟩ later

/-- **Which file has the last word**: of all that are written to where the path of a file leads, the
last one. -/
theorem LastWritten.exists_last {fs : FileSystem} {directory : String} {files : List OutputFile}
    (h : LastWritten fs directory files) {file : OutputFile} (hfile : file ∈ files) :
    ∃ location before last after, files = before ++ last :: after ∧
      FileAt fs (joinPath directory file.name) location last.content.toUTF8 ∧
      FileAt fs (joinPath directory last.name) location last.content.toUTF8 ∧
      ∀ later ∈ after, ∀ bytes, ¬ FileAt fs (joinPath directory later.name) location bytes := by
  obtain ⟨location, bytes, here⟩ := h.leads file hfile
  have some : ∃ other ∈ files, ∃ bytes, FileAt fs (joinPath directory other.name) location bytes :=
    ⟨file, hfile, bytes, here⟩
  obtain ⟨before, last, after, split, ⟨bytes', there⟩, none⟩ := exists_last_of_mem some
  have none : ∀ later ∈ after, ∀ bytes,
      ¬ FileAt fs (joinPath directory later.name) location bytes :=
    fun later hlater bytes found => none later hlater ⟨bytes, found⟩
  have same : bytes = bytes' :=
    Shape.file.inj (Option.some.inj (here.look.symm.trans there.look))
  have content := h.last before last after split location bytes' there none
  rw [same, content] at here
  rw [content] at there
  exact ⟨location, before, last, after, split, here, there, none⟩

end AvroTypes
