import AvroTypes.Proofs.FileSystem.Clearing

/-!
# Replacing a directory

The files are written one after the other into the prepared directory.  What has been written so
far is always exactly what the directory holds, together with the directories that lead there; so
every next file finds its place free as long as no two files are on the way to each other.

* `Replaced` — **the file system where a location holds the given files and nothing else.**
* `Added`, `Replaced.add` — one more file.
* `Direct.endsIn_writeBelow`, `Direct.endsIn_forM_writeBelow` — one step of writing, and all of
  them.
* `Direct.replaceDirectory` — **replacing is all or nothing.**
-/

namespace AvroTypes

/-- **The file system with exactly the given files at a location**, and the directories that lead to
them, whatever was there before.  Elsewhere it is the same, apart from the directories above the
location. -/
structure Replaced (fs fs' : FileSystem) (location : List String) (files : List OutputFile) :
    Prop where
  workingDirectory : fs'.workingDirectory = fs.workingDirectory
  file : ∀ rest bytes, fs'.look (location ++ rest) = some (.file bytes) ↔
    ∃ file ∈ files, namedSegments file.name = rest ∧ file.content.toUTF8 = bytes
  directory : ∀ rest, fs'.look (location ++ rest) = some .directory ↔
    rest = [] ∨ ∃ file ∈ files, rest <+: namedSegments file.name ∧ rest ≠ namedSegments file.name
  unlinked : ∀ rest target, fs'.look (location ++ rest) ≠ some (.link target)
  elsewhere : ∀ p, ¬ location <+: p →
    fs'.look p = if p <+: location then some .directory else fs.look p

/-- An empty directory holds no files. -/
lemma Prepared.replaced {fs prepared : FileSystem} {location : List String}
    (h : Prepared fs prepared location) : Replaced fs prepared location [] := by
  have look : ∀ rest, prepared.look (location ++ rest) =
      if rest = [] then some .directory else none := by
    intro rest
    rw [h.look]
    cases rest with
    | nil => simp
    | cons name rest =>
        have longer : ¬ location ++ name :: rest <+: location :=
          not_below_of_ne_nil (List.cons_ne_nil name rest)
        simp [longer]
  refine ⟨h.workingDirectory, fun rest bytes => ?_, fun rest => ?_, fun rest target => ?_,
    fun p hp => ?_⟩
  · rw [look]
    split_ifs <;> simp
  · rw [look]
    split_ifs with here <;> simp [here]
  · rw [look]
    split_ifs <;> simp
  · rw [h.look, if_neg hp]

section

variable {fs before after : FileSystem} {location inside : List String} {leaf : String}
  {files : List OutputFile} {file : OutputFile}

/-- The place of a file that is not on the way to another one, nor the other way round, is free, and
so are the directories that lead there. -/
lemma Replaced.free (h : Replaced fs before location files)
    (spells : Spells file.name inside leaf)
    (apart : ∀ other ∈ files, Apart other.name file.name) :
    before.look (location ++ inside ++ [leaf]) = none ∧ Open before (location ++ inside) := by
  have way : namedSegments file.name = inside ++ [leaf] := spells.namedSegments_eq
  constructor
  · rw [List.append_assoc]
    cases hlook : before.look (location ++ (inside ++ [leaf])) with
    | none => rfl
    | some shape =>
        cases shape with
        | file bytes =>
            obtain ⟨other, hother, same, -⟩ := (h.file _ _).mp hlook
            exact absurd (by rw [same, way]) (apart other hother).1
        | link target => exact absurd hlook (h.unlinked _ _)
        | directory =>
            rcases (h.directory _).mp hlook with none | ⟨other, hother, onTheWay, -⟩
            · simp at none
            · exact absurd (way ▸ onTheWay) (apart other hother).2
  · intro front hfront
    by_cases below : location <+: front
    · obtain ⟨rest, rfl⟩ := below
      have hrest : rest <+: namedSegments file.name := by
        rw [way]
        exact ((List.prefix_append_right_inj _).mp hfront).trans (List.prefix_append _ _)
      cases hlook : before.look (location ++ rest) with
      | none => exact .inr rfl
      | some shape =>
          cases shape with
          | file bytes =>
              obtain ⟨other, hother, same, -⟩ := (h.file _ _).mp hlook
              exact absurd (same ▸ hrest) (apart other hother).1
          | link target => exact absurd hlook (h.unlinked _ _)
          | directory => exact .inl rfl
    · have above : front <+: location :=
        (List.prefix_or_prefix_of_prefix hfront (List.prefix_append _ _)).resolve_right below
      rw [h.elsewhere front below, if_pos above]
      exact .inl rfl

/-- The same file system with a file below a location, and the directories that lead to it. -/
structure Added (before after : FileSystem) (location : List String) (file : OutputFile) :
    Prop where
  workingDirectory : after.workingDirectory = before.workingDirectory
  look : ∀ rest, after.look (location ++ rest) =
    if rest = namedSegments file.name then some (.file file.content.toUTF8)
    else if rest <+: namedSegments file.name then some .directory
    else before.look (location ++ rest)
  elsewhere : ∀ p, ¬ location <+: p →
    after.look p = if p <+: location then some .directory else before.look p

/-- First the directories are made, then the file is written. -/
lemma Written.added {made : FileSystem} (spells : Spells file.name inside leaf)
    (hmade : Made before made (location ++ inside))
    (hafter : Written made after (location ++ inside ++ [leaf]) file.content.toUTF8) :
    Added before after location file := by
  have way : namedSegments file.name = inside ++ [leaf] := spells.namedSegments_eq
  refine ⟨hafter.workingDirectory.trans hmade.workingDirectory, fun rest => ?_, fun p hp => ?_⟩
  · have place : location ++ rest = location ++ inside ++ [leaf] ↔ rest = inside ++ [leaf] := by
      rw [List.append_assoc, List.append_cancel_left_eq]
    rw [hafter.look, hmade.look, way]
    simp only [place, List.prefix_append_right_inj, List.prefix_concat_iff]
    split_ifs <;> simp_all
  · have other : p ≠ location ++ inside ++ [leaf] := by
      rintro rfl
      exact hp ⟨inside ++ [leaf], by simp⟩
    have above : p <+: location ++ inside ↔ p <+: location :=
      ⟨fun hpre => (List.prefix_or_prefix_of_prefix hpre (List.prefix_append _ _)).resolve_right hp,
        fun hpre => hpre.trans (List.prefix_append _ _)⟩
    rw [hafter.look, if_neg other, hmade.look]
    simp only [above]

lemma exists_mem_concat {p : OutputFile → Prop} :
    (∃ other ∈ files ++ [file], p other) ↔ (∃ other ∈ files, p other) ∨ p file := by
  simp [or_and_right, exists_or]

/-- On the way to the new file, and in its place, none of the others stands. -/
lemma Replaced.file_add (h : Replaced fs before location files)
    (added : Added before after location file)
    (apart : ∀ other ∈ files, Apart other.name file.name) (rest : List String)
    (bytes : ByteArray) :
    after.look (location ++ rest) = some (.file bytes) ↔
      ∃ other ∈ files ++ [file], namedSegments other.name = rest ∧
        other.content.toUTF8 = bytes := by
  have clear : rest <+: namedSegments file.name →
      ¬ ∃ other ∈ files, namedSegments other.name = rest ∧ other.content.toUTF8 = bytes := by
    rintro onTheWay ⟨other, hother, same, -⟩
    exact (apart other hother).1 (same ▸ onTheWay)
  rw [added.look, exists_mem_concat]
  split_ifs with here onTheWay
  · rw [or_iff_right (clear (here ▸ List.prefix_rfl))]
    simp [here]
  · rw [or_iff_right (clear onTheWay)]
    simp [Ne.symm here]
  · simp [h.file, Ne.symm here]

/-- The new file is on the way to none of the others, and needs the directories that lead to it. -/
lemma Replaced.directory_add (h : Replaced fs before location files)
    (added : Added before after location file)
    (apart : ∀ other ∈ files, Apart other.name file.name)
    (nonempty : namedSegments file.name ≠ []) (rest : List String) :
    after.look (location ++ rest) = some .directory ↔
      rest = [] ∨ ∃ other ∈ files ++ [file], rest <+: namedSegments other.name ∧
        rest ≠ namedSegments other.name := by
  rw [added.look, exists_mem_concat]
  split_ifs with here onTheWay
  · have clear : ¬ ∃ other ∈ files, rest <+: namedSegments other.name ∧
        rest ≠ namedSegments other.name := by
      rintro ⟨other, hother, below, -⟩
      exact (apart other hother).2 (here ▸ below)
    rw [or_iff_right clear]
    simp [here, nonempty]
  · simp [onTheWay, here]
  · simp [h.directory, onTheWay]

/-- **One more file.**  The directories that lead to it are those that the others need, or new. -/
lemma Replaced.add (h : Replaced fs before location files)
    (added : Added before after location file)
    (apart : ∀ other ∈ files, Apart other.name file.name)
    (nonempty : namedSegments file.name ≠ []) :
    Replaced fs after location (files ++ [file]) := by
  refine ⟨added.workingDirectory.trans h.workingDirectory, h.file_add added apart,
    h.directory_add added apart nonempty, fun rest target => ?_, fun p hp => ?_⟩
  · rw [added.look]
    split_ifs
    · simp
    · simp
    · exact h.unlinked rest target
  · rw [added.elsewhere p hp, h.elsewhere p hp]
    split_ifs <;> rfl

end

/-- A path with a NUL in it leads nowhere, and nothing can be made there. -/
lemma failsAtOnce_of_nul (fs : FileSystem) {path : String} (nul : '\x00' ∈ path.toList)
    (files : List OutputFile) : FailsAtOnce (replaceDirectory path files) fs := by
  rw [replaceDirectory]
  split
  · exact ⟨_, rfl⟩
  · have hmake : runOn (FileStore.createDirectories path) fs = (.error .nulInName, fs) :=
      Route.createDirectories_fails (ensureDirectory_of_nul fs nul) (by simp)
    refine ⟨.nulInName, ?_⟩
    rw [runOn_bind_of_ok (runOn_clear_of_error (entry_of_nul fs nul true)),
      runOn_bind_of_error hmake]

namespace Direct

variable {fs before made : FileSystem} {path : String} {names : List String} {last : String}
  {files : List OutputFile} {file : OutputFile} {inside : List String} {leaf : String}

/-- First the directory of the file is made. -/
lemma endsIn_directoryOf (direct : Direct fs path names last)
    (h : Replaced fs before (fs.start path ++ names ++ [last]) files)
    (spells : Spells file.name inside leaf)
    (clear : Open before (fs.start path ++ names ++ [last] ++ inside)) :
    EndsIn (FileStore.createDirectories (directoryOf path file.name)) before
      (Made before · (fs.start path ++ names ++ [last] ++ inside)) := by
  have above : ¬ fs.start path ++ names ++ [last] <+: fs.start path := by
    rw [List.append_assoc]
    exact not_below_of_ne_nil (by simp)
  have start : before.look (fs.start path) = some .directory := by
    rw [h.elsewhere _ above, if_pos ⟨names ++ [last], by simp⟩]
  obtain ⟨names', last', route, hnames, absolute⟩ := direct.route.directoryOf spells
  have hstart : before.start (directoryOf path file.name) = fs.start path :=
    start_eq_of_workingDirectory h.workingDirectory absolute
  have hplace : fs.start path ++ names' ++ [last'] =
      fs.start path ++ names ++ [last] ++ inside := by
    rw [List.append_assoc, hnames]
    simp
  have start' : before.look (before.start (directoryOf path file.name)) = some .directory := by
    rwa [hstart]
  have clear' : Open before (before.start (directoryOf path file.name) ++ names' ++ [last']) := by
    rwa [hstart, hplace]
  have ends := route.endsIn_createDirectories start' clear'
  rwa [hstart, hplace] at ends

/-- Then the file is written into it. -/
lemma endsIn_writeBytes (direct : Direct fs path names last)
    (spells : Spells file.name inside leaf) (same : made.workingDirectory = fs.workingDirectory)
    (above : made.look (fs.start path ++ names ++ [last] ++ inside) = some .directory)
    (free : made.look (fs.start path ++ names ++ [last] ++ inside ++ [leaf]) = none)
    (bytes : ByteArray) :
    EndsIn (FileStore.writeBytes (joinPath path file.name) bytes) made
      (Written made · (fs.start path ++ names ++ [last] ++ inside ++ [leaf]) bytes) := by
  obtain ⟨route, absolute, noSlash⟩ := direct.route.below spells.nameOnly
  rw [← spells.path_eq] at route absolute noSlash
  have hstart : made.start (joinPath path file.name) = fs.start path :=
    start_eq_of_workingDirectory same absolute
  have hplace : made.start (joinPath path file.name) ++ (names ++ [last] ++ inside) =
      fs.start path ++ names ++ [last] ++ inside := by
    rw [hstart]
    simp
  have ends := route.endsIn_writeBytes noSlash (by rwa [hplace]) (by rwa [hplace]) bytes
  rwa [hplace] at ends

/-- **One step of writing**: the file finds its place free. -/
lemma endsIn_writeBelow (direct : Direct fs path names last)
    (h : Replaced fs before (fs.start path ++ names ++ [last]) files)
    (spells : Spells file.name inside leaf)
    (apart : ∀ other ∈ files, Apart other.name file.name) :
    EndsIn (writeBelow path file) before
      (Replaced fs · (fs.start path ++ names ++ [last]) (files ++ [file])) := by
  obtain ⟨free, clear⟩ := h.free spells apart
  refine (direct.endsIn_directoryOf h spells clear).bind fun made hmade => ?_
  have same := hmade.workingDirectory.trans h.workingDirectory
  have above : made.look (fs.start path ++ names ++ [last] ++ inside) = some .directory := by
    rw [hmade.look, if_pos List.prefix_rfl]
  have free' : made.look (fs.start path ++ names ++ [last] ++ inside ++ [leaf]) = none := by
    rw [hmade.look, if_neg (not_below_of_ne_nil (List.cons_ne_nil leaf [])), free]
  have nonempty : namedSegments file.name ≠ [] := by simp [spells.namedSegments_eq]
  exact (direct.endsIn_writeBytes spells same above free' _).mono fun written hwritten =>
    h.add (hwritten.added spells hmade) apart nonempty

/-- **Writing one file after the other**, by induction on those that are still to come. -/
lemma endsIn_forM_writeBelow (direct : Direct fs path names last) {rest : List OutputFile}
    (h : Replaced fs before (fs.start path ++ names ++ [last]) files)
    (spell : ∀ file ∈ rest, ∃ inside leaf, Spells file.name inside leaf)
    (apart : (files ++ rest).Pairwise fun first second => Apart first.name second.name) :
    EndsIn (rest.forM (writeBelow path)) before
      (Replaced fs · (fs.start path ++ names ++ [last]) (files ++ rest)) := by
  induction rest generalizing files before with
  | nil => exact .inl ⟨before, rfl, by simpa using h⟩
  | cons file rest ih =>
      obtain ⟨inside, leaf, spells⟩ := spell file List.mem_cons_self
      have fresh : ∀ other ∈ files, Apart other.name file.name := fun other hother =>
        (List.pairwise_append.mp apart).2.2 other hother file List.mem_cons_self
      -- the loop is one step and the rest of it, by definition
      refine (direct.endsIn_writeBelow h spells fresh).bind fun written hwritten => ?_
      have ih := ih hwritten (fun other hother => spell other (List.mem_cons_of_mem _ hother))
        (by simpa using apart)
      simpa using ih

/-- **Replacing a directory is all or nothing.**  If something is in the way, nothing happens, and
otherwise only lengths can make it fail. -/
theorem replaceDirectory (direct : Direct fs path names last) (ordered : fs.root.Ordered)
    (spell : ∀ file ∈ files, ∃ inside leaf, Spells file.name inside leaf)
    (apart : files.Pairwise fun first second => Apart first.name second.name) :
    (FailsAtOnce (AvroTypes.replaceDirectory path files) fs ∧
        Barred fs path (fs.start path ++ names ++ [last])) ∨
      EndsIn (AvroTypes.replaceDirectory path files) fs
        (Replaced fs · (fs.start path ++ names ++ [last]) files) := by
  have plain : files.find? (fun file => !isPlainRelative file.name) = none := by
    rw [List.find?_eq_none]
    intro file hfile
    obtain ⟨inside, leaf, spells⟩ := spell file hfile
    simp [spells.isPlainRelative]
  have program :
      (AvroTypes.replaceDirectory path files : ExceptT IoError (StateM FileSystem) Unit) =
      ((clear path >>= fun _ => FileStore.createDirectories path) >>= fun _ =>
        files.forM (writeBelow path)) := by
    rw [AvroTypes.replaceDirectory, plain, bind_assoc]
  rw [program]
  rcases direct.prepare ordered with ⟨⟨error, hfails⟩, barred⟩ | ends
  · exact .inl ⟨⟨error, runOn_bind_of_error hfails⟩, barred⟩
  · exact .inr (ends.bind fun prepared hprepared =>
      direct.endsIn_forM_writeBelow hprepared.replaced spell apart)

end Direct

end AvroTypes
