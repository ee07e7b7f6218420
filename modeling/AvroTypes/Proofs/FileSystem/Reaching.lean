import AvroTypes.Proofs.FileSystem.Look
import AvroTypes.Proofs.Outcome

/-!
# How a path is followed to where it leads

A successful walk along a path, links and ways up included, is a chain of steps, and each step is
taken because of what stands at one location.  This file turns the walk into such a chain, and says
what can be told from it: what a path leads to stands there, as long as the path starts from a
directory or comes through one; and the walk can be repeated later, when the directories and links
on it are still there.

* `Reaches`, `followLinks_eq_ok_iff` — **the steps of a successful walk.**
* `Place.Stands`, `Reaches.stands` — what a path leads to.
* `Reaches.stands_of_down` — the same for a path that starts nowhere, once it has gone down.
* `climb`, `reaches_of_nameless` — paths that go down nowhere.
* `Lasts`, `Reaches.later` — **walks that are repeated later.**
-/

namespace AvroTypes

/-! ## The steps of a walk -/

/-- Where a place is. -/
def Place.location : Place → List String
  | .found location _ => location
  | .free directory name => directory ++ [name]

/-- What is at a place. -/
def Place.entry? : Place → Option Entry
  | .found _ entry => some entry
  | .free _ _ => none

/-- **The steps of a successful walk**, through at most the given number of links. -/
inductive Reaches (root : Entry) (followLast : Bool) :
    (links : Nat) → (here : List String) → List Part → Place → Prop
  | here {links : Nat} {here : List String} {entry : Entry} (found : root.at? here = some entry) :
      Reaches root followLast links here [] (.found here entry)
  | stay {links : Nat} {here : List String} {rest : List Part} {place : Place}
      (further : Reaches root followLast links here rest place) :
      Reaches root followLast links here (.stay :: rest) place
  | up {links : Nat} {here : List String} {rest : List Part} {place : Place}
      (further : Reaches root followLast links here.dropLast rest place) :
      Reaches root followLast links here (.up :: rest) place
  | free {links : Nat} {here : List String} {name : String}
      (short : name.utf8ByteSize ≤ nameLimit) (nothing : root.at? (here ++ [name]) = none) :
      Reaches root followLast links here [.down name] (.free here name)
  | file {links : Nat} {here : List String} {name : String} {bytes : ByteArray}
      (short : name.utf8ByteSize ≤ nameLimit)
      (found : root.at? (here ++ [name]) = some (.file bytes)) :
      Reaches root followLast links here [.down name] (.found (here ++ [name]) (.file bytes))
  | link {links : Nat} {here : List String} {name target : String}
      (short : name.utf8ByteSize ≤ nameLimit)
      (found : root.at? (here ++ [name]) = some (.link target)) (stop : followLast = false) :
      Reaches root followLast links here [.down name] (.found (here ++ [name]) (.link target))
  | down {links : Nat} {here : List String} {name : String} {rest : List Part} {place : Place}
      {entries : List (String × Entry)} (short : name.utf8ByteSize ≤ nameLimit)
      (found : root.at? (here ++ [name]) = some (.directory entries))
      (further : Reaches root followLast links (here ++ [name]) rest place) :
      Reaches root followLast links here (.down name :: rest) place
  | jump {links : Nat} {here : List String} {name target : String} {rest : List Part}
      {place : Place} (short : name.utf8ByteSize ≤ nameLimit)
      (found : root.at? (here ++ [name]) = some (.link target))
      (go : (rest.isEmpty && !followLast) = false) (somewhere : target.isEmpty = false)
      (further : Reaches root followLast links (if isAbsolute target then [] else here)
        (partsOf target ++ rest) place) :
      Reaches root followLast (links + 1) here (.down name :: rest) place

section

variable {root : Entry} {followLast : Bool} {links : Nat} {here : List String}
  {parts : List Part} {place : Place}

/-- A successful walk consists of steps, if that is so from every link on. -/
lemma reaches_of_followParts {jump : List String → List Part → Except IoError Place}
    (hjump : ∀ {here parts}, jump here parts = .ok place →
      ∃ fewer, links = fewer + 1 ∧ Reaches root followLast fewer here parts place)
    (h : followParts root followLast jump here parts = .ok place) :
    Reaches root followLast links here parts place := by
  fun_induction followParts root followLast jump here parts with
  | case1 here entry found => exact Except.ok.inj h ▸ .here found
  | case2 => cases h
  | case3 here rest ih => exact .stay (ih h)
  | case4 here rest ih => exact .up (ih h)
  | case5 => cases h
  | case6 here name rest next short nothing last =>
      obtain rfl := List.isEmpty_iff.mp last
      exact Except.ok.inj h ▸ .free (Nat.not_lt.mp short) nothing
  | case7 => cases h
  | case8 here name rest next short entries found ih =>
      exact .down (Nat.not_lt.mp short) found (ih h)
  | case9 here name rest next short bytes found last =>
      obtain rfl := List.isEmpty_iff.mp last
      exact Except.ok.inj h ▸ .file (Nat.not_lt.mp short) found
  | case10 => cases h
  | case11 here name rest next short target found stop =>
      obtain ⟨last, unfollowed⟩ := Bool.and_eq_true_iff.mp stop
      obtain rfl := List.isEmpty_iff.mp last
      exact Except.ok.inj h ▸ .link (Nat.not_lt.mp short) found (by simpa using unfollowed)
  | case12 => cases h
  | case13 here name rest next short target found go somewhere =>
      obtain ⟨fewer, rfl, further⟩ := hjump h
      exact .jump (Nat.not_lt.mp short) found (by simpa using go) (by simpa using somewhere) further

/-- **The steps of a successful walk.** -/
theorem followLinks_eq_ok_iff :
    followLinks root followLast links here parts = .ok place ↔
      Reaches root followLast links here parts place := by
  constructor
  · intro h
    induction links generalizing here parts with
    | zero => exact reaches_of_followParts (fun h => by cases h) h
    | succ links ih => exact reaches_of_followParts (fun h => ⟨links, rfl, ih h⟩) h
  · intro h
    induction h with
    | @here links here entry found => cases links <;> simp only [followLinks, followParts, found]
    | @stay links _ _ _ _ ih => cases links <;> simpa only [followLinks, followParts] using ih
    | @up links _ _ _ _ ih => cases links <;> simpa only [followLinks, followParts] using ih
    | @free links _ _ short nothing =>
        cases links <;> simp [followLinks, followParts, nothing, Nat.not_lt.mpr short]
    | @file links _ _ _ short found =>
        cases links <;> simp [followLinks, followParts, found, Nat.not_lt.mpr short]
    | @link links _ _ _ short found stop =>
        cases links <;> simp [followLinks, followParts, found, stop, Nat.not_lt.mpr short]
    | @down links _ _ _ _ _ short found _ ih =>
        cases links <;> simpa [followLinks, followParts, found, Nat.not_lt.mpr short] using ih
    | jump short found go somewhere _ ih =>
        simpa [followLinks, followParts, found, go, somewhere, Nat.not_lt.mpr short] using ih

end

/-- **When a path leads somewhere**: it is a path of a length that fits, and the steps lead
there. -/
lemma FileSystem.follow_eq_ok_iff {fs : FileSystem} {followLast : Bool} {path : String}
    {parts : List Part} {place : Place} :
    fs.follow followLast path parts = .ok place ↔
      ('\x00' ∉ path.toList ∧ path ≠ "" ∧ path.utf8ByteSize ≤ pathLimit) ∧
        Reaches fs.root followLast linkLimit (fs.start path) parts place := by
  rw [FileSystem.follow]
  split_ifs with nul empty long
  · simp_all
  · simp_all
  · simp [Nat.not_le.mpr long]
  · rw [followLinks_eq_ok_iff, and_iff_right]
    exact ⟨by simpa using nul, by simpa using empty, Nat.not_lt.mp long⟩

/-- **When a path leads to an entry.** -/
lemma FileSystem.entry_eq_ok_iff {fs : FileSystem} {followLast : Bool} {path : String}
    {location : List String} {entry : Entry} :
    fs.entry followLast path = .ok (location, entry) ↔
      fs.locate followLast path = .ok (.found location entry) := by
  rw [FileSystem.entry, bind_eq_ok_iff]
  constructor
  · rintro ⟨place, located, h⟩
    cases place with
    | found location' entry' =>
        obtain ⟨rfl, rfl⟩ := Prod.mk.inj (Except.ok.inj h)
        exact located
    | free directory name => cases h
  · intro located
    exact ⟨_, located, rfl⟩

/-! ## What a path leads to -/

/-- What a place leads to is there: a directory, or a file or a free name in a directory. -/
inductive Place.Stands (fs : FileSystem) : Place → Prop
  | directory {location : List String} {entries : List (String × Entry)}
      (here : fs.root.at? location = some (.directory entries)) :
      Stands fs (.found location (.directory entries))
  | file {directory : List String} {name : String} {bytes : ByteArray}
      (inside : fs.look directory = some .directory)
      (here : fs.root.at? (directory ++ [name]) = some (.file bytes)) :
      Stands fs (.found (directory ++ [name]) (.file bytes))
  | free {directory : List String} {name : String} (inside : fs.look directory = some .directory)
      (nothing : fs.root.at? (directory ++ [name]) = none) : Stands fs (.free directory name)

section

variable {fs : FileSystem} {followLast : Bool} {links : Nat} {here : List String}
  {parts : List Part} {place : Place}

/-- What is found is there, and a name that is free is free. -/
lemma Reaches.at?_location {root : Entry} (h : Reaches root followLast links here parts place) :
    root.at? place.location = place.entry? := by
  induction h with
  | here found => exact found
  | stay _ ih => exact ih
  | up _ ih => exact ih
  | free _ nothing => exact nothing
  | file _ found => exact found
  | link _ found _ => exact found
  | down _ _ _ ih => exact ih
  | jump _ _ _ _ _ ih => exact ih

lemma look_of_at? {location : List String} {entry : Entry}
    (found : fs.root.at? location = some entry) : fs.look location = some entry.shape := by
  rw [FileSystem.look, found]
  rfl

/-- The directory of a link. -/
lemma look_of_link {name target : String}
    (found : fs.root.at? (here ++ [name]) = some (.link target)) :
    fs.look here = some .directory :=
  FileSystem.look_of_look_append (List.cons_ne_nil name []) (by rw [look_of_at? found]; simp)

/-- Where a link that is met in a directory is followed from. -/
lemma look_of_jump {name target : String}
    (found : fs.root.at? (here ++ [name]) = some (.link target)) :
    fs.look (if isAbsolute target then [] else here) = some .directory := by
  have directory := look_of_link found
  split_ifs
  · exact FileSystem.look_of_directory_below directory List.nil_prefix
  · exact directory

/-- **What a path leads to stands there**, if the path starts from a directory. -/
theorem Reaches.stands (h : Reaches fs.root true links here parts place)
    (start : fs.look here = some .directory) : place.Stands fs := by
  induction h with
  | @here _ _ entry found =>
      rw [look_of_at? found] at start
      cases entry with
      | directory entries => exact .directory found
      | _ => cases start
  | stay _ ih => exact ih start
  | up _ ih => exact ih (FileSystem.look_of_directory_below start (List.dropLast_prefix _))
  | free _ nothing => exact .free start nothing
  | file _ found => exact .file start found
  | link _ _ stop => cases stop
  | down _ found _ ih => exact ih (look_of_at? found)
  | jump _ found _ _ _ ih => exact ih (look_of_jump found)

/-- **The same for a path that starts anywhere**, once it has gone down: where it came through there
was a directory. -/
theorem Reaches.stands_of_down (h : Reaches fs.root true links here parts place) {name : String}
    (down : .down name ∈ parts.dropLast) : place.Stands fs := by
  induction h with
  | stay further ih =>
      rename_i rest _
      cases rest with
      | nil => simp at down
      | cons part rest => exact ih (by simpa using down)
  | up further ih =>
      rename_i rest _
      cases rest with
      | nil => simp at down
      | cons part rest => exact ih (by simpa using down)
  | down _ found further _ => exact further.stands (look_of_at? found)
  | jump _ found _ _ further _ => exact further.stands (look_of_jump found)
  | _ => simp at down

end

/-! ## Paths that go down nowhere -/

/-- Where parts lead that name nothing to go down to. -/
def climb : (here : List String) → List Part → List String
  | here, [] => here
  | here, .up :: rest => climb here.dropLast rest
  | here, _ :: rest => climb here rest

/-- Parts that name nothing to go down to. -/
def Nameless (parts : List Part) : Prop := ∀ name, Part.down name ∉ parts

section

variable {parts : List Part} {here : List String}

lemma climb_append (here : List String) (first second : List Part) :
    climb here (first ++ second) = climb (climb here first) second := by
  induction first generalizing here with
  | nil => rfl
  | cons part rest ih => cases part <;> exact ih _

/-- They lead upward. -/
lemma climb_above (here : List String) (parts : List Part) : climb here parts <+: here := by
  induction parts generalizing here with
  | nil => exact List.prefix_rfl
  | cons part rest ih =>
      cases part with
      | up => exact (ih here.dropLast).trans (List.dropLast_prefix here)
      | _ => exact ih here

/-- **What is above a place is found there**, whatever the file system is. -/
lemma reaches_of_nameless {root : Entry} {followLast : Bool} {links : Nat} {place : Place}
    (nameless : Nameless parts) :
    Reaches root followLast links here parts place ↔
      ∃ entry, root.at? (climb here parts) = some entry ∧
        place = .found (climb here parts) entry := by
  induction parts generalizing here with
  | nil =>
      constructor
      · rintro ⟨found⟩
        exact ⟨_, found, rfl⟩
      · rintro ⟨entry, found, rfl⟩
        exact .here found
  | cons part rest ih =>
      have ih {here : List String} := @ih here fun name hmem =>
        nameless name (List.mem_cons_of_mem part hmem)
      cases part with
      | down name => exact absurd List.mem_cons_self (nameless name)
      | stay => exact ⟨fun | .stay further => ih.mp further, fun h => .stay (ih.mpr h)⟩
      | up => exact ⟨fun | .up further => ih.mp further, fun h => .up (ih.mpr h)⟩

end

/-! ## Walks that are repeated later -/

/-- **What lasts** from one file system to another: its directories, its links, and that there are
files where there are, with whatever content. -/
structure Lasts (fs fs' : FileSystem) : Prop where
  workingDirectory : fs'.workingDirectory = fs.workingDirectory
  directories : ∀ p, fs.look p = some .directory → fs'.look p = some .directory
  links : ∀ p target, fs.look p = some (.link target) → fs'.look p = some (.link target)
  files : ∀ p bytes, fs.look p = some (.file bytes) → ∃ bytes', fs'.look p = some (.file bytes')

section

variable {fs fs' fs'' : FileSystem} {location : List String}

lemma Lasts.refl (fs : FileSystem) : Lasts fs fs :=
  ⟨rfl, fun _ h => h, fun _ _ h => h, fun _ bytes h => ⟨bytes, h⟩⟩

lemma Lasts.trans (h : Lasts fs fs') (h' : Lasts fs' fs'') : Lasts fs fs'' where
  workingDirectory := h'.workingDirectory.trans h.workingDirectory
  directories p here := h'.directories p (h.directories p here)
  links p target here := h'.links p target (h.links p target here)
  files p bytes here := by
    obtain ⟨bytes', later⟩ := h.files p bytes here
    exact h'.files p bytes' later

lemma at?_of_look_file {bytes : ByteArray} (h : fs.look location = some (.file bytes)) :
    fs.root.at? location = some (.file bytes) := by
  obtain ⟨entry, found, hshape⟩ := Option.map_eq_some_iff.mp h
  cases entry with
  | file _ => rw [found, Shape.file.inj hshape]
  | _ => cases hshape

lemma at?_of_look_link {target : String} (h : fs.look location = some (.link target)) :
    fs.root.at? location = some (.link target) := by
  obtain ⟨entry, found, hshape⟩ := Option.map_eq_some_iff.mp h
  cases entry with
  | link _ => rw [found, Shape.link.inj hshape]
  | _ => cases hshape

/-- **A walk is repeated later**, if there is a file then at the place where it led. -/
theorem Reaches.later {followLast : Bool} {links : Nat} {here : List String} {parts : List Part}
    {place : Place} {bytes : ByteArray} (h : Reaches fs.root followLast links here parts place)
    (lasts : Lasts fs fs') (there : fs'.look place.location = some (.file bytes)) :
    Reaches fs'.root followLast links here parts (.found place.location (.file bytes)) := by
  induction h with
  | here found => exact .here (at?_of_look_file there)
  | stay _ ih => exact .stay (ih there)
  | up _ ih => exact .up (ih there)
  | free short _ => exact .file short (at?_of_look_file there)
  | file short _ => exact .file short (at?_of_look_file there)
  | link _ found _ =>
      have link := lasts.links _ _ (look_of_at? found)
      rw [Place.location, link] at there
      cases there
  | down short found _ ih =>
      obtain ⟨entries, found'⟩ :=
        FileSystem.look_eq_directory_iff.mp (lasts.directories _ (look_of_at? found))
      exact .down short found' (ih there)
  | jump short found go somewhere _ ih =>
      have found' := at?_of_look_link (lasts.links _ _ (look_of_at? found))
      exact .jump short found' go somewhere (ih there)

/-- **A path leads to where it led**, if there is a file now. -/
theorem FileSystem.locate_later {path : String} {place : Place} {bytes : ByteArray}
    {followLast : Bool} (h : fs.locate followLast path = .ok place) (lasts : Lasts fs fs')
    (there : fs'.look place.location = some (.file bytes)) :
    fs'.locate followLast path = .ok (.found place.location (.file bytes)) := by
  obtain ⟨fits, reaches⟩ := FileSystem.follow_eq_ok_iff.mp h
  have start : fs'.start path = fs.start path := by
    rw [FileSystem.start, FileSystem.start, lasts.workingDirectory]
  exact FileSystem.follow_eq_ok_iff.mpr ⟨fits, start ▸ reaches.later lasts there⟩

end

end AvroTypes
