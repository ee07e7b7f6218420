import AvroTypes.FileSystem.Directory
import AvroTypes.Proofs.FileSystem.Operations
import AvroTypes.Proofs.FileSystem.Reading

/-!
# Making room for a directory

Before files are written, what stands at the output path is removed and a directory is made there.
This is all or nothing: whatever keeps the directory from being made is met before anything is
removed.

* `EndsIn` — a program that succeeds unless something is too long.
* `Direct` — a path that leads down to a location without links above it.
* `Prepared` — an empty directory at a location, and the rest as it was.
* `Barred` — what can be in the way.
* `Direct.prepare` — **clearing a path and making a directory there.**
-/

namespace AvroTypes

/-- A program that succeeds unless something is too long, and what it leaves then. -/
def EndsIn (program : ExceptT IoError (StateM FileSystem) Unit) (fs : FileSystem)
    (post : FileSystem → Prop) : Prop :=
  (∃ fs', runOn program fs = (.ok (), fs') ∧ post fs') ∨
    (runOn program fs).1 = .error .nameTooLong

/-- A program that fails and changes nothing. -/
def FailsAtOnce (program : ExceptT IoError (StateM FileSystem) Unit) (fs : FileSystem) : Prop :=
  ∃ error, runOn program fs = (.error error, fs)

lemma EndsIn.bind {program : ExceptT IoError (StateM FileSystem) Unit}
    {next : Unit → ExceptT IoError (StateM FileSystem) Unit} {fs : FileSystem}
    {middle post : FileSystem → Prop} (first : EndsIn program fs middle)
    (second : ∀ fs', middle fs' → EndsIn (next ()) fs' post) :
    EndsIn (program >>= next) fs post := by
  rcases first with ⟨fs', hrun, hmiddle⟩ | hrun
  · rw [EndsIn, runOn_bind_of_ok hrun]
    exact second fs' hmiddle
  · cases hresult : runOn program fs with
    | mk result fs' =>
        rw [hresult] at hrun
        obtain rfl : result = .error .nameTooLong := hrun
        exact .inr (by rw [runOn_bind_of_error hresult])

lemma EndsIn.mono {program : ExceptT IoError (StateM FileSystem) Unit} {fs : FileSystem}
    {post post' : FileSystem → Prop} (h : EndsIn program fs post)
    (implies : ∀ fs', post fs' → post' fs') : EndsIn program fs post' :=
  h.imp_left fun ⟨fs', hrun, hpost⟩ => ⟨fs', hrun, implies fs' hpost⟩

/-- A directory is made with all that lead to it. -/
lemma Route.endsIn_createDirectories {fs : FileSystem} {path : String} {names : List String}
    {last : String} (route : Route path names last)
    (start : fs.look (fs.start path) = some .directory)
    (clear : Open fs (fs.start path ++ names ++ [last])) :
    EndsIn (FileStore.createDirectories path) fs
      (Made fs · (fs.start path ++ names ++ [last])) := by
  have hrun : runOn (FileStore.createDirectories path) fs = fs.createDirectories path := rfl
  rcases route.createDirectories_ends start clear with ⟨hok, hmade⟩ | hlong
  · exact .inl ⟨(fs.createDirectories path).2, hrun.trans (Prod.ext hok rfl), hmade⟩
  · exact .inr (by rw [hrun, hlong])

lemma runOn_changing_of_ok {change : FileSystem → Except IoError FileSystem}
    {fs changed : FileSystem} (h : change fs = .ok changed) :
    runOn (changing change) fs = (.ok (), changed) := by
  simp [runOn, changing, StateT.run, h, Id.run]

lemma runOn_changing_of_error {change : FileSystem → Except IoError FileSystem}
    {fs : FileSystem} {error : IoError} (h : change fs = .error error) :
    runOn (changing change) fs = (.error error, fs) := by
  simp [runOn, changing, StateT.run, h, Id.run]

/-- A new file is written. -/
lemma Route.endsIn_writeBytes {fs : FileSystem} {path : String} {names : List String}
    {last : String} (route : Route path names last) (noSlash : path.toList.getLast? ≠ some '/')
    (above : fs.look (fs.start path ++ names) = some .directory)
    (free : fs.look (fs.start path ++ names ++ [last]) = none) (bytes : ByteArray) :
    EndsIn (FileStore.writeBytes path bytes) fs
      (Written fs · (fs.start path ++ names ++ [last]) bytes) := by
  rcases route.writeBytes_ends noSlash above free bytes with ⟨written, hok, hwritten⟩ | hlong
  · exact .inl ⟨written, runOn_changing_of_ok hok, hwritten⟩
  · have stopped : runOn (FileStore.writeBytes path bytes) fs = (.error .nameTooLong, fs) :=
      runOn_changing_of_error hlong
    exact .inr (by rw [stopped])

/-! ## Clearing -/

lemma runOn_leadsSomewhere (fs : FileSystem) (path : String) :
    runOn (ExceptT.lift (FileStore.leadsSomewhere path) :
      ExceptT IoError (StateM FileSystem) Bool) fs = (.ok (fs.entry true path).isOk, fs) := by
  have hrun : StateT.run (FileStore.destination path :
      ExceptT IoError (StateM FileSystem) (EntryKind × List String)).run fs =
      pure (fs.destination path, fs) := rfl
  rw [runOn, FileStore.leadsSomewhere, ExceptT.run_lift, StateT.run_map, StateT.run_bind, hrun,
    FileSystem.destination]
  cases fs.entry true path <;> rfl

lemma runOn_clear_of_ok {fs : FileSystem} {path : String} {found : List String × Entry}
    (h : fs.entry true path = .ok found) : runOn (clear path) fs = fs.removeAll path := by
  rw [clear, runOn_bind_of_ok (runOn_leadsSomewhere fs path), h]
  rfl

lemma runOn_clear_of_error {fs : FileSystem} {path : String} {error : IoError}
    (h : fs.entry true path = .error error) : runOn (clear path) fs = (.ok (), fs) := by
  rw [clear, runOn_bind_of_ok (runOn_leadsSomewhere fs path), h]
  rfl

/-! ## Making room -/

/-- **A path that leads down to a location**, without a link above it.  There may be a link at the
location, unless a slash at the end of the path follows it. -/
structure Direct (fs : FileSystem) (path : String) (names : List String) (last : String) :
    Prop where
  route : Route path names last
  start : fs.look (fs.start path) = some .directory
  unlinked : ∀ front, front <+: fs.start path ++ names → ∀ target,
    fs.look front ≠ some (.link target)
  named : ∀ target, fs.look (fs.start path ++ names ++ [last]) = some (.link target) →
    path.toList.getLast? ≠ some '/'

/-- The same file system with an empty directory at a location, and directories above it. -/
structure Prepared (fs prepared : FileSystem) (location : List String) : Prop where
  workingDirectory : prepared.workingDirectory = fs.workingDirectory
  look : ∀ p, prepared.look p =
    if p <+: location then some .directory else if location <+: p then none else fs.look p

lemma removed_of_none {fs : FileSystem} {location : List String} (h : fs.look location = none) :
    Removed fs fs location := by
  refine ⟨rfl, fun p => ?_⟩
  split_ifs with below
  · exact FileSystem.look_eq_none_below h below
  · rfl

lemma Removed.prepared {fs removed made : FileSystem} {location : List String}
    (h : Removed fs removed location) (h' : Made removed made location) :
    Prepared fs made location := by
  refine ⟨h'.workingDirectory.trans h.workingDirectory, fun p => ?_⟩
  rw [h'.look, h.look]

/-- **What keeps a directory from being made** at the location of a path: a file there or above, or
a link there that leads nowhere. -/
inductive Barred (fs : FileSystem) (path : String) (location : List String) : Prop
  | file {front : List String} {bytes : ByteArray} (above : front <+: location)
      (found : fs.look front = some (.file bytes))
  | link {target : String} {error : IoError} (found : fs.look location = some (.link target))
      (nowhere : fs.entry true path = .error error)

namespace Direct

variable {fs : FileSystem} {path : String} {names : List String} {last : String}

/-- What stands above the location: directories all the way, or a first place where there is nothing
or a file. -/
lemma above_or_stopped (direct : Direct fs path names last) :
    fs.look (fs.start path ++ names) = some .directory ∨
      ∃ stop, Stopped fs path names stop ∧
        ((stop = .notFound ∧ Open fs (fs.start path ++ names) ∧
            fs.look (fs.start path ++ names ++ [last]) = none) ∨
          (stop = .notADirectory ∧ Barred fs path (fs.start path ++ names ++ [last]))) := by
  by_cases above : fs.look (fs.start path ++ names) = some .directory
  · exact .inl above
  obtain ⟨first, name, second, hnames, hfirst, hother⟩ :=
    FileSystem.exists_first_other direct.start above
  have onTheWay : fs.start path ++ first ++ [name] <+: fs.start path ++ names :=
    ⟨second, by simp [hnames]⟩
  right
  cases hlook : fs.look (fs.start path ++ first ++ [name]) with
  | none =>
      refine ⟨.notFound, ⟨first, name, second, hnames, hfirst, .inl ⟨hlook, rfl⟩⟩, .inl ⟨rfl,
        fun front hfront => ?_, FileSystem.look_eq_none_below hlook
          (onTheWay.trans (List.prefix_append _ [last]))⟩⟩
      rcases List.prefix_or_prefix_of_prefix hfront onTheWay with shorter | longer
      · rcases List.prefix_concat_iff.mp shorter with rfl | shorter
        · exact .inr hlook
        · exact .inl (FileSystem.look_of_directory_below hfirst shorter)
      · exact .inr (FileSystem.look_eq_none_below hlook longer)
  | some shape =>
      cases shape with
      | file bytes =>
          exact ⟨.notADirectory, ⟨first, name, second, hnames, hfirst, .inr ⟨bytes, hlook, rfl⟩⟩,
            .inr ⟨rfl, .file (onTheWay.trans (List.prefix_append _ [last])) hlook⟩⟩
      | link target => exact absurd hlook (direct.unlinked _ onTheWay target)
      | directory => exact absurd hlook hother

/-- Once the location is free, the directory is made. -/
lemma create_after (direct : Direct fs path names last) {removed : FileSystem}
    (h : Removed fs removed (fs.start path ++ names ++ [last]))
    (clear : Open fs (fs.start path ++ names)) :
    EndsIn (FileStore.createDirectories path) removed
      (Prepared fs · (fs.start path ++ names ++ [last])) := by
  have hstart : removed.start path = fs.start path :=
    start_eq_of_workingDirectory h.workingDirectory rfl
  have above : ∀ p, p <+: fs.start path ++ names → removed.look p = fs.look p := by
    intro p hp
    have shorter : ¬ fs.start path ++ names ++ [last] <+: p := fun below =>
      not_below_of_ne_nil (List.cons_ne_nil last []) (below.trans hp)
    rw [h.look, if_neg shorter]
  have start : removed.look (removed.start path) = some .directory := by
    rw [hstart, above _ (List.prefix_append _ _), direct.start]
  have clear' : Open removed (removed.start path ++ names ++ [last]) := by
    intro front hfront
    rw [hstart] at hfront
    rcases List.prefix_concat_iff.mp hfront with rfl | hfront
    · exact .inr (by rw [h.look, if_pos List.prefix_rfl])
    · rw [above _ hfront]
      exact clear front hfront
  have ends := direct.route.endsIn_createDirectories start clear'
  rw [hstart] at ends
  exact ends.mono fun made hmade => h.prepared hmade

/-- If what keeps the directory from being made is in the way from the start, nothing happens. -/
lemma runOn_prepare_of_error {error error' : IoError} (hentry : fs.entry true path = .error error)
    (h : fs.ensureDirectory path = .error error') (other : error' ≠ .notFound) :
    runOn (clear path >>= fun _ => FileStore.createDirectories path) fs = (.error error', fs) := by
  rw [runOn_bind_of_ok (runOn_clear_of_error hentry)]
  exact Route.createDirectories_fails h other

/-- After removing what stands at the location, the directory is made. -/
lemma prepare_of_removeAll (direct : Direct fs path names last) {found : List String × Entry}
    (hentry : fs.entry true path = .ok found)
    (above : fs.look (fs.start path ++ names) = some .directory)
    (h : ∃ removed, fs.removeAll path = (.ok (), removed) ∧
      Removed fs removed (fs.start path ++ names ++ [last])) :
    EndsIn (clear path >>= fun _ => FileStore.createDirectories path) fs
      (Prepared fs · (fs.start path ++ names ++ [last])) := by
  obtain ⟨removed, hremove, hremoved⟩ := h
  rw [EndsIn, runOn_bind_of_ok ((runOn_clear_of_ok hentry).trans hremove)]
  exact direct.create_after hremoved fun front hfront =>
    .inl (FileSystem.look_of_directory_below above hfront)

/-- A file stays. -/
lemma prepare_file (direct : Direct fs path names last) {bytes : ByteArray}
    (found : fs.root.at? (fs.start path ++ names ++ [last]) = some (.file bytes)) :
    FailsAtOnce (clear path >>= fun _ => FileStore.createDirectories path) fs := by
  rcases direct.route.entry_file true found with ⟨error, hentry⟩ | hentry
  · obtain ⟨error', hensure, other⟩ :=
      direct.route.ensureDirectory_taken found (by simp [hentry])
    exact ⟨error', runOn_prepare_of_error hentry hensure other⟩
  · obtain ⟨error, hremove⟩ := direct.route.removeAll_file found
    exact ⟨error, runOn_bind_of_error ((runOn_clear_of_ok hentry).trans hremove)⟩

/-- A directory is replaced by an empty one. -/
lemma prepare_directory (direct : Direct fs path names last) (ordered : fs.root.Ordered)
    {entries : List (String × Entry)}
    (found : fs.root.at? (fs.start path ++ names ++ [last]) = some (.directory entries)) :
    EndsIn (clear path >>= fun _ => FileStore.createDirectories path) fs
      (Prepared fs · (fs.start path ++ names ++ [last])) := by
  have hentry := direct.route.entry_directory true found
  by_cases fits : pathFits path = true
  · rw [if_pos fits] at hentry
    have there := FileSystem.look_eq_directory_iff.mpr ⟨entries, found⟩
    exact direct.prepare_of_removeAll hentry (Route.look_above found)
      (direct.route.removeAll_directory ordered there fits)
  · have hcreate := direct.route.create_found (.directory []) found
    rw [if_neg fits] at hentry hcreate
    have hensure := Route.ensureDirectory_fails hcreate (by simp [hentry])
    exact .inr (by rw [runOn_prepare_of_error hentry hensure (by simp)])

/-- A link is replaced by an empty directory, if it leads anywhere. -/
lemma prepare_link (direct : Direct fs path names last) (ordered : fs.root.Ordered)
    {target : String} (hlink : fs.look (fs.start path ++ names ++ [last]) = some (.link target))
    {reached : List String × Entry} (hentry : fs.entry true path = .ok reached) :
    EndsIn (clear path >>= fun _ => FileStore.createDirectories path) fs
      (Prepared fs · (fs.start path ++ names ++ [last])) := by
  have noSlash := direct.named target hlink
  obtain ⟨entry, found, hshape⟩ := Option.map_eq_some_iff.mp hlink
  by_cases fits : pathFits path = true
  · exact direct.prepare_of_removeAll hentry (Route.look_above found)
      (direct.route.removeAll_link ordered noSlash hlink fits)
  · cases entry with
    | file bytes => simp [Entry.shape] at hshape
    | directory entries => simp [Entry.shape] at hshape
    | link target' =>
        have hlast := direct.route.entry_link noSlash found
        rw [if_neg fits] at hlast
        have hremove : fs.removeAll path = (.error .nameTooLong, fs) := by
          rw [FileSystem.removeAll, hlast]
        exact .inr (by rw [runOn_bind_of_error ((runOn_clear_of_ok hentry).trans hremove)])

/-- **Clearing a path and making a directory there** is all or nothing, and it fails only if
something is in the way. -/
theorem prepare (direct : Direct fs path names last) (ordered : fs.root.Ordered) :
    (FailsAtOnce (clear path >>= fun _ => FileStore.createDirectories path) fs ∧
        Barred fs path (fs.start path ++ names ++ [last])) ∨
      EndsIn (clear path >>= fun _ => FileStore.createDirectories path) fs
        (Prepared fs · (fs.start path ++ names ++ [last])) := by
  have route := direct.route
  rcases direct.above_or_stopped with above | ⟨stop, stopped, ⟨rfl, clear, free⟩ | ⟨rfl, barred⟩⟩
  · cases hlook : fs.look (fs.start path ++ names ++ [last]) with
    | none =>
        obtain ⟨error, hentry⟩ := route.entry_free true above hlook
        right
        rw [EndsIn, runOn_bind_of_ok (runOn_clear_of_error hentry)]
        exact direct.create_after (removed_of_none hlook) fun front hfront =>
          .inl (FileSystem.look_of_directory_below above hfront)
    | some shape =>
        obtain ⟨entry, found, hshape⟩ := Option.map_eq_some_iff.mp hlook
        cases entry with
        | directory entries => exact .inr (direct.prepare_directory ordered found)
        | file bytes =>
            exact .inl ⟨direct.prepare_file found,
              .file List.prefix_rfl (hlook.trans (congrArg some hshape.symm))⟩
        | link target =>
            have hlink := hlook.trans (congrArg some hshape.symm)
            cases hentry : fs.entry true path with
            | error error =>
                obtain ⟨error', hensure, other⟩ :=
                  route.ensureDirectory_taken found (by simp [hentry])
                exact .inl ⟨⟨error', runOn_prepare_of_error hentry hensure other⟩,
                  .link hlink hentry⟩
            | ok reached => exact .inr (direct.prepare_link ordered hlink hentry)
  · obtain ⟨error, hentry⟩ := route.entry_stopped true stopped
    right
    rw [EndsIn, runOn_bind_of_ok (runOn_clear_of_error hentry)]
    exact direct.create_after (removed_of_none free) clear
  · obtain ⟨error, hentry⟩ := route.entry_stopped true stopped
    rcases route.ensureDirectory_stopped stopped with hensure | hensure
    · exact .inl ⟨⟨_, runOn_prepare_of_error hentry hensure (by simp)⟩, barred⟩
    · exact .inl ⟨⟨_, runOn_prepare_of_error hentry hensure (by simp)⟩, barred⟩

end Direct

end AvroTypes
