import AvroTypes.Proofs.FileSystem.Naming

/-!
# What the operations do along a route

Each operation on a path that only leads down is said by what stands at the end of the path and
above it.  The ones that make directories end well whenever nothing but directories stands on the
way, and otherwise fail at once; lengths are the only other reason.

* `Open` — nothing in the way.
* `Made`, `Removed`, `Written` — what the operations leave.
* `Route.createDirectories_ends` — **making a directory with all that lead to it.**
* `Route.removeAll_directory`, `Route.removeAll_link` — removing what is there.
* `Route.writeBytes_ends` — writing a new file.
-/

namespace AvroTypes

/-- The part that a slash at the end of a path adds. -/
def slashPart (path : String) : List Part :=
  if path.toList.getLast? = some '/' then [.stay] else []

lemma stay_of_mem_slashPart (path : String) : ∀ part ∈ slashPart path, part = Part.stay := by
  rw [slashPart]
  split_ifs <;> simp

/-! ## What is on the way, and what is left -/

/-- There are directories on the way to a location, and then perhaps nothing any more. -/
def Open (fs : FileSystem) (location : List String) : Prop :=
  ∀ front, front <+: location → fs.look front = some .directory ∨ fs.look front = none

/-- The same file system with directories all the way to a location. -/
structure Made (fs made : FileSystem) (location : List String) : Prop where
  workingDirectory : made.workingDirectory = fs.workingDirectory
  look : ∀ p, made.look p = if p <+: location then some .directory else fs.look p

/-- The same file system with nothing at a location or below it. -/
structure Removed (fs removed : FileSystem) (location : List String) : Prop where
  workingDirectory : removed.workingDirectory = fs.workingDirectory
  look : ∀ p, removed.look p = if location <+: p then none else fs.look p

/-- The same file system with a file at a location. -/
structure Written (fs written : FileSystem) (location : List String) (bytes : ByteArray) :
    Prop where
  workingDirectory : written.workingDirectory = fs.workingDirectory
  look : ∀ p, written.look p = if p = location then some (.file bytes) else fs.look p

lemma start_eq_of_workingDirectory {fs fs' : FileSystem}
    (h : fs'.workingDirectory = fs.workingDirectory) {path path' : String}
    (same : isAbsolute path' = isAbsolute path) : fs'.start path' = fs.start path := by
  rw [FileSystem.start, FileSystem.start, same, h]

/-- After the directories above it, the directory itself. -/
lemma Made.trans {fs made made' : FileSystem} {above : List String} {name : String}
    (h : Made fs made above) (h' : Made made made' (above ++ [name])) :
    Made fs made' (above ++ [name]) := by
  refine ⟨h'.workingDirectory.trans h.workingDirectory, fun p => ?_⟩
  rw [h'.look, h.look]
  by_cases hp : p <+: above
  · have : p <+: above ++ [name] := hp.trans (List.prefix_append _ _)
    rw [if_pos hp, if_pos this, if_pos this]
  · rw [if_neg hp]

namespace FileSystem

variable {fs : FileSystem} {above : List String} {name : String}

lemma made_of_directory {location : List String} (h : fs.look location = some .directory) :
    Made fs fs location := by
  refine ⟨rfl, fun p => ?_⟩
  split_ifs with hp
  · exact look_of_directory_below h hp
  · rfl

lemma made_put (found : fs.look above = some .directory)
    (free : fs.look (above ++ [name]) = none) :
    Made fs (fs.put (above ++ [name]) (some (.directory []))) (above ++ [name]) := by
  have bare : ∀ name rest, (Entry.directory []).at? (name :: rest) = none := fun _ _ => rfl
  refine ⟨rfl, fun p => ?_⟩
  rw [look_put bare found]
  by_cases here : p = above ++ [name]
  · simp [here, Entry.shape]
  · rw [if_neg here]
    by_cases below : above ++ [name] <+: p
    · have apart : ¬ p <+: above ++ [name] := fun hp =>
        here (hp.eq_of_length_le below.length_le)
      rw [if_pos below, if_neg apart, look_eq_none_below free below]
    · rw [if_neg below]
      split_ifs with hp
      · rcases List.prefix_concat_iff.mp hp with hp | hp
        · exact absurd hp here
        · exact look_of_directory_below found hp
      · rfl

lemma written_put {bytes : ByteArray} (found : fs.look above = some .directory)
    (free : fs.look (above ++ [name]) = none) :
    Written fs (fs.put (above ++ [name]) (some (.file bytes))) (above ++ [name]) bytes := by
  have bare : ∀ name rest, (Entry.file bytes).at? (name :: rest) = none := fun _ _ => rfl
  refine ⟨rfl, fun p => ?_⟩
  rw [look_put bare found]
  by_cases here : p = above ++ [name]
  · simp [here, Entry.shape]
  · rw [if_neg here, if_neg here]
    split_ifs with below
    · exact (look_eq_none_below free below).symm
    · rfl

end FileSystem

namespace Route

variable {fs : FileSystem} {path : String} {names : List String} {last : String}
  {stop : IoError}

/-! ## Looking up -/

lemma locate_eq (followLast : Bool) : fs.locate followLast path =
    fs.follow followLast path (namedParts path ++ slashPart path) := rfl

lemma entry_directory (route : Route path names last) (followLast : Bool)
    {entries : List (String × Entry)}
    (found : fs.root.at? (fs.start path ++ names ++ [last]) = some (.directory entries)) :
    fs.entry followLast path =
      if pathFits path then .ok (fs.start path ++ names ++ [last], .directory entries)
      else .error .nameTooLong := by
  have located : fs.locate followLast path =
      if pathFits path then .ok (.found (fs.start path ++ names ++ [last]) (.directory entries))
      else .error .nameTooLong := route.follow_directory found (stay_of_mem_slashPart path)
  rw [FileSystem.entry, located]
  split_ifs <;> rfl

/-- To a file, unless a slash follows it. -/
lemma entry_file (route : Route path names last) (followLast : Bool) {bytes : ByteArray}
    (found : fs.root.at? (fs.start path ++ names ++ [last]) = some (.file bytes)) :
    (∃ error, fs.entry followLast path = .error error) ∨
      fs.entry followLast path = .ok (fs.start path ++ names ++ [last], .file bytes) := by
  have located : fs.locate followLast path =
      if pathFits path then
        if (slashPart path).isEmpty then
          .ok (.found (fs.start path ++ names ++ [last]) (.file bytes))
        else .error .notADirectory
      else .error .nameTooLong := route.follow_file found
  rw [FileSystem.entry, located]
  by_cases fits : pathFits path = true
  · by_cases noSlash : (slashPart path).isEmpty = true
    · rw [if_pos fits, if_pos noSlash]
      exact .inr rfl
    · rw [if_pos fits, if_neg noSlash]
      exact .inl ⟨.notADirectory, rfl⟩
  · rw [if_neg fits]
    exact .inl ⟨.nameTooLong, rfl⟩

lemma entry_link (route : Route path names last) (noSlash : path.toList.getLast? ≠ some '/')
    {target : String}
    (found : fs.root.at? (fs.start path ++ names ++ [last]) = some (.link target)) :
    fs.entry false path =
      if pathFits path then .ok (fs.start path ++ names ++ [last], .link target)
      else .error .nameTooLong := by
  have located : fs.locate false path =
      if pathFits path then .ok (.found (fs.start path ++ names ++ [last]) (.link target))
      else .error .nameTooLong := by
    rw [FileSystem.locate, partsOf, if_neg noSlash, route.follow_link found]
  rw [FileSystem.entry, located]
  split_ifs <;> rfl

/-- Where nothing is, looking fails. -/
lemma entry_free (route : Route path names last) (followLast : Bool)
    (above : fs.look (fs.start path ++ names) = some .directory)
    (free : fs.look (fs.start path ++ names ++ [last]) = none) :
    ∃ error, fs.entry followLast path = .error error := by
  have located : fs.locate followLast path =
      if pathFits path then
        if (slashPart path).isEmpty then .ok (.free (fs.start path ++ names) last)
        else .error .notFound
      else .error .nameTooLong := route.follow_free above free
  rw [FileSystem.entry, located]
  by_cases fits : pathFits path = true
  · rw [if_pos fits]
    by_cases noSlash : (slashPart path).isEmpty = true
    · rw [if_pos noSlash]
      exact ⟨.notFound, rfl⟩
    · rw [if_neg noSlash]
      exact ⟨.notFound, rfl⟩
  · rw [if_neg fits]
    exact ⟨.nameTooLong, rfl⟩

lemma entry_stopped (route : Route path names last) (followLast : Bool)
    (stopped : Stopped fs path names stop) : ∃ error, fs.entry followLast path = .error error := by
  rw [FileSystem.entry, locate_eq]
  rcases route.follow_stopped stopped (slashPart path) with h | h
  · exact ⟨stop, by rw [h]; rfl⟩
  · exact ⟨.nameTooLong, by rw [h]; rfl⟩

/-! ## Making one directory -/

lemma create_found (route : Route path names last) {entry : Entry} (new : Entry)
    (found : fs.root.at? (fs.start path ++ names ++ [last]) = some entry) :
    fs.create path new =
      if pathFits path then .error .alreadyThere else .error .nameTooLong := by
  have located : fs.locateNamed path =
      if pathFits path then .ok (.found (fs.start path ++ names ++ [last]) entry)
      else .error .nameTooLong := by
    rw [FileSystem.locateNamed, ← List.append_nil (namedParts path)]
    cases entry with
    | file bytes => exact route.follow_file found
    | link target => exact route.follow_link found
    | directory entries => exact route.follow_directory found (by simp)
  rw [FileSystem.create, located]
  split_ifs <;> rfl

lemma create_free (route : Route path names last) (new : Entry)
    (above : fs.look (fs.start path ++ names) = some .directory)
    (free : fs.look (fs.start path ++ names ++ [last]) = none) :
    fs.create path new =
      if pathFits path then .ok (fs.put (fs.start path ++ names ++ [last]) (some new))
      else .error .nameTooLong := by
  have located : fs.locateNamed path =
      if pathFits path then .ok (.free (fs.start path ++ names) last)
      else .error .nameTooLong := by
    rw [FileSystem.locateNamed, ← List.append_nil (namedParts path)]
    exact route.follow_free above free
  rw [FileSystem.create, located]
  split_ifs <;> rfl

lemma create_stopped (route : Route path names last) (new : Entry)
    (stopped : Stopped fs path names stop) :
    fs.create path new = .error stop ∨ fs.create path new = .error .nameTooLong := by
  rw [FileSystem.create, FileSystem.locateNamed, ← List.append_nil (namedParts path)]
  rcases route.follow_stopped stopped [] with h | h
  · exact .inl (by rw [h]; rfl)
  · exact .inr (by rw [h]; rfl)

/-- A directory is not made where that fails and none is there. -/
lemma ensureDirectory_fails {error : IoError}
    (failed : fs.create path (.directory []) = .error error)
    (other : ∀ location entries, fs.entry true path ≠ .ok (location, .directory entries)) :
    fs.ensureDirectory path = .error error := by
  have no : fs.isDirectory path = false := by
    rw [FileSystem.isDirectory]
    split
    · rename_i location entries h
      exact absurd h (other location entries)
    · rfl
  simp [FileSystem.ensureDirectory, failed, no]

/-- Where something else is, no directory is made. -/
lemma ensureDirectory_taken (route : Route path names last) {entry : Entry}
    (found : fs.root.at? (fs.start path ++ names ++ [last]) = some entry)
    (other : ∀ location entries, fs.entry true path ≠ .ok (location, .directory entries)) :
    ∃ error, fs.ensureDirectory path = .error error ∧ error ≠ .notFound := by
  have hcreate := route.create_found (.directory []) found
  by_cases fits : pathFits path = true
  · rw [if_pos fits] at hcreate
    exact ⟨.alreadyThere, ensureDirectory_fails hcreate other, by simp⟩
  · rw [if_neg fits] at hcreate
    exact ⟨.nameTooLong, ensureDirectory_fails hcreate other, by simp⟩

lemma ensureDirectory_stopped (route : Route path names last)
    (stopped : Stopped fs path names stop) :
    fs.ensureDirectory path = .error stop ∨ fs.ensureDirectory path = .error .nameTooLong := by
  obtain ⟨error, hentry⟩ := route.entry_stopped true stopped
  have other : ∀ location entries, fs.entry true path ≠ .ok (location, .directory entries) := by
    simp [hentry]
  rcases route.create_stopped (.directory []) stopped with h | h
  · exact .inl (ensureDirectory_fails h other)
  · exact .inr (ensureDirectory_fails h other)

/-- **One directory is made in a directory**, or is already there. -/
lemma ensureDirectory_made (route : Route path names last)
    (above : fs.look (fs.start path ++ names) = some .directory)
    (clear : fs.look (fs.start path ++ names ++ [last]) = some .directory ∨
      fs.look (fs.start path ++ names ++ [last]) = none) :
    (∃ made, fs.ensureDirectory path = .ok made ∧
        Made fs made (fs.start path ++ names ++ [last])) ∨
      fs.ensureDirectory path = .error .nameTooLong := by
  rcases clear with there | free
  · obtain ⟨entries, found⟩ := FileSystem.look_eq_directory_iff.mp there
    have hentry := route.entry_directory true found
    have hcreate := route.create_found (.directory []) found
    by_cases fits : pathFits path = true
    · rw [if_pos fits] at hentry hcreate
      have yes : fs.isDirectory path = true := by simp [FileSystem.isDirectory, hentry]
      exact .inl ⟨fs, by simp [FileSystem.ensureDirectory, hcreate, yes],
        FileSystem.made_of_directory there⟩
    · rw [if_neg fits] at hentry hcreate
      exact .inr (ensureDirectory_fails hcreate (by simp [hentry]))
  · obtain ⟨error, hentry⟩ := route.entry_free true above free
    have hcreate := route.create_free (.directory []) above free
    by_cases fits : pathFits path = true
    · rw [if_pos fits] at hcreate
      exact .inl ⟨_, by rw [FileSystem.ensureDirectory, hcreate], FileSystem.made_put above free⟩
    · rw [if_neg fits] at hcreate
      exact .inr (ensureDirectory_fails hcreate (by simp [hentry]))

/-! ## Making a directory with all that lead to it -/

/-- Without anything in the way, either everything above a place is a directory, or something is
missing on the way. -/
lemma above_or_stopped (start : fs.look (fs.start path) = some .directory)
    (clear : Open fs (fs.start path ++ names ++ [last])) :
    fs.look (fs.start path ++ names) = some .directory ∨ Stopped fs path names .notFound := by
  by_cases above : fs.look (fs.start path ++ names) = some .directory
  · exact .inl above
  · obtain ⟨first, name, second, hnames, hfirst, hother⟩ :=
      FileSystem.exists_first_other start above
    have free : fs.look (fs.start path ++ first ++ [name]) = none := by
      refine (clear _ ?_).resolve_left hother
      rw [hnames]
      exact ⟨second ++ [last], by simp⟩
    exact .inr ⟨first, name, second, hnames, hfirst, .inl ⟨free, rfl⟩⟩

lemma createChain_of_above (route : Route path names last)
    (above : fs.look (fs.start path ++ names) = some .directory)
    (clear : Open fs (fs.start path ++ names ++ [last])) (rest : List String) :
    ((fs.createChain (path :: rest)).1 = .ok () ∧
        Made fs (fs.createChain (path :: rest)).2 (fs.start path ++ names ++ [last])) ∨
      (fs.createChain (path :: rest)).1 = .error .nameTooLong := by
  rcases route.ensureDirectory_made above (clear _ List.prefix_rfl) with ⟨made, h, hmade⟩ | h
  · exact .inl (by simpa [FileSystem.createChain, h] using hmade)
  · exact .inr (by simp [FileSystem.createChain, h])

/-- Once the directories above it have been made, the directory itself is. -/
lemma ensureDirectory_after (route : Route path names last) {made : FileSystem}
    (hmade : Made fs made (fs.start path ++ names))
    (clear : Open fs (fs.start path ++ names ++ [last])) :
    (∃ done, made.ensureDirectory path = .ok done ∧
        Made fs done (fs.start path ++ names ++ [last])) ∨
      made.ensureDirectory path = .error .nameTooLong := by
  have hstart : made.start path = fs.start path :=
    start_eq_of_workingDirectory hmade.workingDirectory rfl
  have above : made.look (made.start path ++ names) = some .directory := by
    rw [hstart, hmade.look, if_pos List.prefix_rfl]
  have clear' : made.look (made.start path ++ names ++ [last]) = some .directory ∨
      made.look (made.start path ++ names ++ [last]) = none := by
    rw [hstart, hmade.look, if_neg (not_below_of_ne_nil (List.cons_ne_nil last []))]
    exact clear _ List.prefix_rfl
  have again := route.ensureDirectory_made above clear'
  rw [hstart] at again
  refine again.imp_left ?_
  rintro ⟨done, hdone, hmade'⟩
  exact ⟨done, hdone, hmade.trans hmade'⟩

/-- **A directory is made with all that lead to it**, by induction on the names that lead there:
what is missing above is made first, and then the directory in it. -/
lemma createChain_ends (route : Route path names last)
    (start : fs.look (fs.start path) = some .directory)
    (clear : Open fs (fs.start path ++ names ++ [last])) :
    ((fs.createChain (path :: pathsAbove (frontOf path) names)).1 = .ok () ∧
        Made fs (fs.createChain (path :: pathsAbove (frontOf path) names)).2
          (fs.start path ++ names ++ [last])) ∨
      (fs.createChain (path :: pathsAbove (frontOf path) names)).1 = .error .nameTooLong := by
  induction names using List.reverseRecOn generalizing path last with
  | nil => exact route.createChain_of_above (by simpa using start) clear _
  | append_singleton names name ih =>
      rcases above_or_stopped start clear with above | stopped
      · exact route.createChain_of_above above clear _
      rcases route.ensureDirectory_stopped stopped with h | h
      · -- the path to the directory above, and what making that one comes to
        obtain ⟨route', same⟩ := route_of_names path fun other hother =>
          route.nameOnly other (List.mem_append_left [last] hother)
        have start' : fs.start (frontOf path ++ "/".intercalate (names ++ [name])) =
            fs.start path := by rw [FileSystem.start, FileSystem.start, same]
        have front' : frontOf (frontOf path ++ "/".intercalate (names ++ [name])) =
            frontOf path := by rw [frontOf, same, ← frontOf]
        have ih := ih route' (by rwa [start']) (by
          rw [start']
          exact fun front hfront => clear front (hfront.trans ⟨[last], by simp⟩))
        rw [start', front', ← pathsAbove_append] at ih
        generalize hchain :
          fs.createChain (pathsAbove (frontOf path) (names ++ [name])) = chain at ih
        obtain ⟨result, made⟩ := chain
        rcases ih with ⟨hresult, hmade⟩ | hresult
        · obtain rfl : result = .ok () := hresult
          rw [List.append_assoc] at hmade
          rcases route.ensureDirectory_after hmade clear with ⟨done, hdone, hmade'⟩ | hdone
          · refine .inl ⟨by simp [FileSystem.createChain, h, hchain, hdone], ?_⟩
            simpa [FileSystem.createChain, h, hchain, hdone] using hmade'
          · exact .inr (by simp [FileSystem.createChain, h, hchain, hdone])
        · obtain rfl : result = .error .nameTooLong := hresult
          exact .inr (by simp [FileSystem.createChain, h, hchain])
      · exact .inr (by simp [FileSystem.createChain, h])

/-- **A directory is made with all that lead to it**, unless something is too long. -/
theorem createDirectories_ends (route : Route path names last)
    (start : fs.look (fs.start path) = some .directory)
    (clear : Open fs (fs.start path ++ names ++ [last])) :
    ((fs.createDirectories path).1 = .ok () ∧
        Made fs (fs.createDirectories path).2 (fs.start path ++ names ++ [last])) ∨
      (fs.createDirectories path).1 = .error .nameTooLong := by
  rw [FileSystem.createDirectories, route.ancestorPaths_eq]
  exact route.createChain_ends start clear

/-- Making a directory fails at once if what keeps it from being made is not that something is
missing above. -/
lemma createDirectories_fails {error : IoError} (h : fs.ensureDirectory path = .error error)
    (other : error ≠ .notFound) : fs.createDirectories path = (.error error, fs) := by
  have nonempty : path.isEmpty = false := by
    simp only [String.isEmpty_eq_false_iff]
    rintro rfl
    exact other (Except.error.inj (h.symm.trans rfl))
  rw [FileSystem.createDirectories, ancestorPaths, nonempty, if_neg Bool.false_ne_true,
    FileSystem.createChain, h]
  cases error with
  | notFound => exact absurd rfl other
  | _ => rfl

/-! ## Removing and writing -/

/-- **A directory is removed with everything below it.** -/
theorem removeAll_directory (route : Route path names last) (ordered : fs.root.Ordered)
    (there : fs.look (fs.start path ++ names ++ [last]) = some .directory)
    (fits : pathFits path = true) :
    ∃ removed, fs.removeAll path = (.ok (), removed) ∧
      Removed fs removed (fs.start path ++ names ++ [last]) := by
  obtain ⟨entries, found⟩ := FileSystem.look_eq_directory_iff.mp there
  obtain ⟨outer, habove⟩ := FileSystem.look_eq_directory_iff.mp (look_above found)
  have hentry := route.entry_directory false found
  rw [if_pos fits] at hentry
  -- first the content goes
  let emptied := fs.put (fs.start path ++ names ++ [last]) (some (.directory []))
  have outer' : emptied.root.at? (fs.start path ++ names) =
      some (.directory (Entry.putEntry last (some (.directory [])) outer)) :=
    Entry.at?_update_above habove
  have empty : emptied.root.at? (emptied.start path ++ names ++ [last]) =
      some (.directory []) := by
    have hstart : emptied.start path = fs.start path := rfl
    rw [hstart, Entry.at?_append, outer']
    simp [Entry.at?, Entry.lookup_putEntry]
  -- then the empty directory
  have located : emptied.locateNamed path =
      .ok (.found (fs.start path ++ names ++ [last]) (.directory [])) := by
    rw [FileSystem.locateNamed, ← List.append_nil (namedParts path),
      route.follow_directory empty (by simp), if_pos fits]
    rfl
  obtain ⟨before, -, hparts⟩ := route.parts
  have hremove : emptied.removeDirectory path =
      .ok (emptied.put (fs.start path ++ names ++ [last]) none) := by
    rw [FileSystem.removeDirectory, located, hparts, List.getLast?_concat]
    rfl
  refine ⟨emptied.put (fs.start path ++ names ++ [last]) none, ?_, rfl, fun p => ?_⟩
  · rw [FileSystem.removeAll, hentry]
    simp only [hremove, emptied]
  · have bare : ∀ name rest, (Entry.directory []).at? (name :: rest) = none := fun _ _ => rfl
    rw [FileSystem.look_put_none outer' (Entry.InOrder.putEntry (ordered _ _ habove))]
    split_ifs with below
    · rfl
    · have here : p ≠ fs.start path ++ names ++ [last] := fun h => below (h ▸ List.prefix_rfl)
      rw [FileSystem.look_put bare (look_above found), if_neg here, if_neg below]

/-- A file is not removed. -/
lemma removeAll_file (route : Route path names last) {bytes : ByteArray}
    (found : fs.root.at? (fs.start path ++ names ++ [last]) = some (.file bytes)) :
    ∃ error, fs.removeAll path = (.error error, fs) := by
  rcases route.entry_file false found with ⟨error, hentry⟩ | hentry
  · exact ⟨error, by rw [FileSystem.removeAll, hentry]⟩
  · exact ⟨.notADirectory, by rw [FileSystem.removeAll, hentry]⟩

/-- **Of a link only the link is removed.** -/
theorem removeAll_link (route : Route path names last) (ordered : fs.root.Ordered)
    (noSlash : path.toList.getLast? ≠ some '/') {target : String}
    (there : fs.look (fs.start path ++ names ++ [last]) = some (.link target))
    (fits : pathFits path = true) :
    ∃ removed, fs.removeAll path = (.ok (), removed) ∧
      Removed fs removed (fs.start path ++ names ++ [last]) := by
  obtain ⟨entry, found, hshape⟩ := Option.map_eq_some_iff.mp there
  cases entry with
  | file bytes => simp [Entry.shape] at hshape
  | directory entries => simp [Entry.shape] at hshape
  | link target' =>
      obtain ⟨outer, habove⟩ := FileSystem.look_eq_directory_iff.mp (look_above found)
      have hentry := route.entry_link noSlash found
      rw [if_pos fits] at hentry
      refine ⟨fs.put (fs.start path ++ names ++ [last]) none, ?_, rfl,
        FileSystem.look_put_none habove (ordered _ _ habove)⟩
      rw [FileSystem.removeAll, hentry]

/-- **A new file is written** into a directory, unless something is too long. -/
theorem writeBytes_ends (route : Route path names last) (noSlash : path.toList.getLast? ≠ some '/')
    (above : fs.look (fs.start path ++ names) = some .directory)
    (free : fs.look (fs.start path ++ names ++ [last]) = none) (bytes : ByteArray) :
    (∃ written, fs.writeBytes path bytes = .ok written ∧
        Written fs written (fs.start path ++ names ++ [last]) bytes) ∨
      fs.writeBytes path bytes = .error .nameTooLong := by
  have located : fs.locate true path =
      if pathFits path then .ok (.free (fs.start path ++ names) last)
      else .error .nameTooLong := by
    rw [FileSystem.locate, partsOf, if_neg noSlash, route.follow_free above free]
    rfl
  by_cases fits : pathFits path = true
  · rw [if_pos fits] at located
    exact .inl ⟨_, by rw [FileSystem.writeBytes, located]; rfl, FileSystem.written_put above free⟩
  · rw [if_neg fits] at located
    exact .inr (by rw [FileSystem.writeBytes, located]; rfl)

end Route

/-! ## Paths with a NUL in them -/

section

variable {path : String}

lemma follow_of_nul (fs : FileSystem) (nul : '\x00' ∈ path.toList) (followLast : Bool)
    (parts : List Part) : fs.follow followLast path parts = .error .nulInName := by
  have hnul : path.toList.contains '\x00' = true := by simpa using nul
  rw [FileSystem.follow, if_pos hnul]

lemma entry_of_nul (fs : FileSystem) (nul : '\x00' ∈ path.toList) (followLast : Bool) :
    fs.entry followLast path = .error .nulInName := by
  rw [FileSystem.entry, FileSystem.locate, follow_of_nul fs nul]
  rfl

lemma ensureDirectory_of_nul (fs : FileSystem) (nul : '\x00' ∈ path.toList) :
    fs.ensureDirectory path = .error .nulInName := by
  have hcreate : fs.create path (.directory []) = .error .nulInName := by
    rw [FileSystem.create, FileSystem.locateNamed, follow_of_nul fs nul]
    rfl
  exact Route.ensureDirectory_fails hcreate (by simp [entry_of_nul fs nul])

end

end AvroTypes
