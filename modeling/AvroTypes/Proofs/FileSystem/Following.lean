import AvroTypes.Proofs.FileSystem.Look

/-!
# Following a path without links

A path that only names things to go down to leads along one location after the other, as long as
there are directories.  What following it comes to depends on the first location where there is
none, and on the lengths of the names and of the path, which are looked at on the way.

* `Descends`, `Route` — the parts of such a path, and the path.
* `Stopped` — what is missing on the way, or stands in it.
* `pathFits` — no name and not the path is too long.
* `Route.follow_directory` and its companions — **the last step, once everything above is a
  directory.**
* `Route.follow_stopped` — what becomes of a path that is stopped.
-/

namespace AvroTypes

/-- Parts that only lead down, along the given names. -/
inductive Descends : List Part → List String → Prop
  | nil : Descends [] []
  | stay {parts : List Part} {names : List String} (rest : Descends parts names) :
      Descends (.stay :: parts) names
  | down {parts : List Part} {name : String} {names : List String} (rest : Descends parts names) :
      Descends (.down name :: parts) (name :: names)

/-- A part that is not too long. -/
def Part.fits : Part → Bool
  | .down name => name.utf8ByteSize ≤ nameLimit
  | _ => true

/-- Neither the path nor a name on it is too long. -/
def pathFits (path : String) : Bool :=
  path.utf8ByteSize ≤ pathLimit && (namedParts path).all Part.fits

/-- **A path that only leads down**, along some names to the last one. -/
structure Route (path : String) (names : List String) (last : String) : Prop where
  noNul : '\x00' ∉ path.toList
  parts : ∃ before, Descends before names ∧ namedParts path = before ++ [.down last]

lemma Descends.split {parts : List Part} {first second : List String} {name : String}
    (h : Descends parts (first ++ name :: second)) :
    ∃ before after, parts = before ++ .down name :: after ∧ Descends before first ∧
      Descends after second := by
  generalize hnames : first ++ name :: second = names at h
  induction h generalizing first with
  | nil => simp at hnames
  | stay _ ih =>
      obtain ⟨before, after, rfl, hbefore, hafter⟩ := ih hnames
      exact ⟨.stay :: before, after, rfl, .stay hbefore, hafter⟩
  | down rest ih =>
      cases first with
      | nil =>
          obtain ⟨rfl, rfl⟩ := List.cons.inj hnames
          exact ⟨[], _, rfl, .nil, rest⟩
      | cons head first =>
          obtain ⟨rfl, hrest⟩ := List.cons.inj hnames
          obtain ⟨before, after, rfl, hbefore, hafter⟩ := ih hrest
          exact ⟨.down head :: before, after, rfl, .down hbefore, hafter⟩

/-- Parts that go up nowhere lead down along some names. -/
lemma exists_descends {parts : List Part} (h : Part.up ∉ parts) :
    ∃ names, Descends parts names := by
  induction parts with
  | nil => exact ⟨[], .nil⟩
  | cons part rest ih =>
      obtain ⟨names, hnames⟩ := ih fun hmem => h (List.mem_cons_of_mem _ hmem)
      cases part with
      | down name => exact ⟨name :: names, .down hnames⟩
      | up => simp at h
      | stay => exact ⟨names, .stay hnames⟩

/-- What stops a path on the way: a first location where nothing or a file is, with names still to
come. -/
def Stopped (fs : FileSystem) (path : String) (names : List String) (stop : IoError) : Prop :=
  ∃ first name second, names = first ++ name :: second ∧
    fs.look (fs.start path ++ first) = some .directory ∧
    ((fs.look (fs.start path ++ first ++ [name]) = none ∧ stop = .notFound) ∨
      ∃ bytes, fs.look (fs.start path ++ first ++ [name]) = some (.file bytes) ∧
        stop = .notADirectory)

section

variable {fs : FileSystem} {followLast : Bool}
  {jump : List String → List Part → Except IoError Place} {here : List String}

/-- **Through directories a path goes on**, unless a name on it is too long. -/
lemma followParts_append {parts : List Part} {names : List String} (h : Descends parts names)
    (reached : fs.look (here ++ names) = some .directory) (rest : List Part) :
    followParts fs.root followLast jump here (parts ++ rest) =
      if parts.all Part.fits then followParts fs.root followLast jump (here ++ names) rest
      else .error .nameTooLong := by
  induction h generalizing here with
  | nil => simp
  | stay _ ih => simpa [followParts, Part.fits] using ih reached
  | @down parts name names _ ih =>
      have next : here ++ [name] <+: here ++ name :: names := ⟨names, by simp⟩
      obtain ⟨entries, hentries⟩ := FileSystem.look_eq_directory_iff.mp
        (FileSystem.look_of_directory_below reached next)
      have further := @ih (here ++ [name]) (by simpa using reached)
      by_cases tooLong : nameLimit < name.utf8ByteSize
      · have : ¬ name.utf8ByteSize ≤ nameLimit := by omega
        simp [followParts, tooLong, Part.fits, this]
      · have : name.utf8ByteSize ≤ nameLimit := by omega
        simpa [followParts, tooLong, hentries, Part.fits, this] using further

/-- With names still to come, nothing or a file stops a path. -/
lemma followParts_stopped {name : String} {rest : List Part} (more : rest.isEmpty = false)
    {stop : IoError} (stopped : (fs.look (here ++ [name]) = none ∧ stop = .notFound) ∨
      ∃ bytes, fs.look (here ++ [name]) = some (.file bytes) ∧ stop = .notADirectory) :
    followParts fs.root followLast jump here (.down name :: rest) =
      if nameLimit < name.utf8ByteSize then .error .nameTooLong else .error stop := by
  rcases stopped with ⟨free, rfl⟩ | ⟨bytes, blocked, rfl⟩
  · have absent := Option.map_eq_none_iff.mp free
    simp only [followParts, absent, more, Bool.false_eq_true, if_false]
  · obtain ⟨entry, found, hshape⟩ := Option.map_eq_some_iff.mp blocked
    cases entry with
    | file bytes => simp only [followParts, found, more, Bool.false_eq_true, if_false]
    | link target => simp [Entry.shape] at hshape
    | directory entries => simp [Entry.shape] at hshape

end

namespace FileSystem

variable {fs : FileSystem}

/-- On the way to a location where there is no directory there is a first one. -/
lemma exists_first_other {here names : List String} (hhere : fs.look here = some .directory)
    (h : fs.look (here ++ names) ≠ some .directory) :
    ∃ first name second, names = first ++ name :: second ∧
      fs.look (here ++ first) = some .directory ∧
      fs.look (here ++ first ++ [name]) ≠ some .directory := by
  induction names generalizing here with
  | nil => simp [hhere] at h
  | cons name rest ih =>
      by_cases next : fs.look (here ++ [name]) = some .directory
      · obtain ⟨first, other, second, rfl, hfirst, hother⟩ := ih next (by simpa using h)
        exact ⟨name :: first, other, second, rfl, by simpa using hfirst, by simpa using hother⟩
      · exact ⟨[], name, rest, rfl, by simpa using hhere, by simpa using next⟩

end FileSystem

namespace Route

variable {fs : FileSystem} {path : String} {names : List String} {last : String}
  {followLast : Bool} {tail : List Part}

lemma ne_empty (route : Route path names last) : path ≠ "" := by
  rintro rfl
  obtain ⟨before, -, hparts⟩ := route.parts
  have : namedParts "" = [] := by decide
  simp [this] at hparts

lemma follow (route : Route path names last) (parts : List Part) :
    fs.follow followLast path parts =
      if pathLimit < path.utf8ByteSize then .error .nameTooLong
      else followParts fs.root followLast (followLinks fs.root followLast (linkLimit - 1))
        (fs.start path) parts := by
  have hnul : path.toList.contains '\x00' = false := by simpa using route.noNul
  have hempty : path.isEmpty = false := by simpa using route.ne_empty
  simp only [FileSystem.follow, hnul, hempty, Bool.false_eq_true, if_false]
  rfl

/-- **What following a path comes to, once everything above is a directory**: what its last step
comes to, if nothing is too long. -/
lemma follow_last (route : Route path names last)
    (habove : fs.look (fs.start path ++ names) = some .directory) {result : Except IoError Place}
    (hlast : ∀ jump, followParts fs.root followLast jump (fs.start path ++ names)
        (.down last :: tail) =
      if nameLimit < last.utf8ByteSize then .error .nameTooLong else result) :
    fs.follow followLast path (namedParts path ++ tail) =
      if pathFits path then result else .error .nameTooLong := by
  obtain ⟨before, hbefore, hparts⟩ := route.parts
  rw [route.follow, hparts, List.append_assoc, List.singleton_append,
    followParts_append hbefore habove, hlast]
  simp only [pathFits, hparts, List.all_append, List.all_cons, List.all_nil, Part.fits]
  by_cases hpath : pathLimit < path.utf8ByteSize
  · have : ¬ path.utf8ByteSize ≤ pathLimit := by omega
    simp [hpath, this]
  · have : path.utf8ByteSize ≤ pathLimit := by omega
    by_cases hname : nameLimit < last.utf8ByteSize
    · have : ¬ last.utf8ByteSize ≤ nameLimit := by omega
      simp [hpath, hname, this]
    · have : last.utf8ByteSize ≤ nameLimit := by omega
      simp [*]

lemma followParts_stay {root : Entry} {jump : List String → List Part → Except IoError Place}
    {here : List String} {entry : Entry} (found : root.at? here = some entry)
    (staying : ∀ part ∈ tail, part = .stay) :
    followParts root followLast jump here tail = .ok (.found here entry) := by
  induction tail with
  | nil => simp only [followParts, found]
  | cons part rest ih =>
      obtain rfl := staying part List.mem_cons_self
      rw [followParts, ih fun part hpart => staying part (List.mem_cons_of_mem _ hpart)]

lemma look_above {location : List String} {entry : Entry}
    (found : fs.root.at? (location ++ [last]) = some entry) :
    fs.look location = some .directory :=
  FileSystem.look_of_look_append (List.cons_ne_nil last []) (by rw [FileSystem.look, found]; simp)

/-- To a directory. -/
lemma follow_directory (route : Route path names last) {entries : List (String × Entry)}
    (found : fs.root.at? (fs.start path ++ names ++ [last]) = some (.directory entries))
    (staying : ∀ part ∈ tail, part = .stay) :
    fs.follow followLast path (namedParts path ++ tail) =
      if pathFits path then .ok (.found (fs.start path ++ names ++ [last]) (.directory entries))
      else .error .nameTooLong :=
  route.follow_last (look_above found) fun jump => by
    simp only [followParts, found, followParts_stay found staying]

/-- To a file. -/
lemma follow_file (route : Route path names last) {bytes : ByteArray}
    (found : fs.root.at? (fs.start path ++ names ++ [last]) = some (.file bytes)) :
    fs.follow followLast path (namedParts path ++ tail) =
      if pathFits path then
        if tail.isEmpty then .ok (.found (fs.start path ++ names ++ [last]) (.file bytes))
        else .error .notADirectory
      else .error .nameTooLong :=
  route.follow_last (look_above found) fun jump => by simp only [followParts, found]

/-- To a link, which is not followed. -/
lemma follow_link (route : Route path names last) {target : String}
    (found : fs.root.at? (fs.start path ++ names ++ [last]) = some (.link target)) :
    fs.follow false path (namedParts path ++ []) =
      if pathFits path then .ok (.found (fs.start path ++ names ++ [last]) (.link target))
      else .error .nameTooLong :=
  route.follow_last (look_above found) fun jump => by
    simp only [followParts, found, List.isEmpty_nil, Bool.not_false, Bool.and_true, if_true]

/-- To a name that is free. -/
lemma follow_free (route : Route path names last)
    (above : fs.look (fs.start path ++ names) = some .directory)
    (free : fs.look (fs.start path ++ names ++ [last]) = none) :
    fs.follow followLast path (namedParts path ++ tail) =
      if pathFits path then
        if tail.isEmpty then .ok (.free (fs.start path ++ names) last) else .error .notFound
      else .error .nameTooLong := by
  have absent : fs.root.at? (fs.start path ++ names ++ [last]) = none :=
    Option.map_eq_none_iff.mp free
  exact route.follow_last above fun jump => by simp only [followParts, absent]

/-- **A path is stopped on the way**, unless something is too long. -/
lemma follow_stopped (route : Route path names last) {stop : IoError}
    (stopped : Stopped fs path names stop) (tail : List Part) :
    fs.follow followLast path (namedParts path ++ tail) = .error stop ∨
      fs.follow followLast path (namedParts path ++ tail) = .error .nameTooLong := by
  obtain ⟨first, name, second, hnames, above, stopped⟩ := stopped
  obtain ⟨parts, hdescends, hparts⟩ := route.parts
  obtain ⟨before, after, rfl, hbefore, -⟩ := (hnames ▸ hdescends).split
  have more : (after ++ ([Part.down last] ++ tail)).isEmpty = false := by simp
  rw [route.follow, hparts, List.append_assoc, List.append_assoc,
    followParts_append hbefore above, List.cons_append, followParts_stopped more stopped]
  split_ifs
  · exact .inr rfl
  · exact .inr rfl
  · exact .inl rfl
  · exact .inr rfl

end Route

end AvroTypes
