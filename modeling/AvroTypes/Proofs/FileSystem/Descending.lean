import AvroTypes.Proofs.FileSystem.Overwriting

/-!
# Paths into a tree

A path that leads to a directory, however it gets there, can be made longer name by name, and then
it leads to what the tree below the directory has under these names.  Nothing but lengths can
prevent this where the tree has no links.

* `Reaches.append` — a walk that goes on from a directory.
* `entry_joinPath` — **one name further.**
* `Holds` — a directory with a tree below it that has no links.
* `Holds.entry_directory`, `Holds.entry_file` — **where the paths below it lead.**
-/

namespace AvroTypes

/-! ## Walks that go on -/

section

variable {root : Entry} {links : Nat} {here : List String} {parts : List Part} {place : Place}

/-- **A walk that has come to a directory goes on from there.** -/
lemma Reaches.append {location : List String} {entries : List (String × Entry)} {more : List Part}
    {place' : Place} (h : Reaches root true links here parts place)
    (inside : place = .found location (.directory entries))
    (next : ∀ links, Reaches root true links location more place') :
    Reaches root true links here (parts ++ more) place' := by
  induction h with
  | here found =>
      obtain ⟨rfl, -⟩ := Place.found.inj inside
      exact next _
  | stay _ ih => exact .stay (ih inside)
  | up _ ih => exact .up (ih inside)
  | free short nothing => cases inside
  | file short found => cases inside
  | link short found stop => cases stop
  | down short found _ ih => exact .down short found (ih inside)
  | jump short found go somewhere _ ih =>
      have further := ih inside
      rw [List.append_assoc] at further
      exact .jump short found (by simp) somewhere further

/-- A slash at the end is not needed. -/
lemma Reaches.of_append_stay (h : Reaches root true links here (parts ++ [.stay]) place) :
    Reaches root true links here parts place := by
  generalize hwhole : parts ++ [Part.stay] = whole at h
  induction h generalizing parts with
  | here found => simp at hwhole
  | stay further ih =>
      cases parts with
      | nil =>
          obtain rfl := (List.cons.inj hwhole).2
          exact further
      | cons part parts =>
          obtain ⟨rfl, hrest⟩ := List.cons.inj hwhole
          exact .stay (ih hrest)
  | up further ih =>
      cases parts with
      | nil => cases hwhole
      | cons part parts =>
          obtain ⟨rfl, hrest⟩ := List.cons.inj hwhole
          exact .up (ih hrest)
  | free short nothing =>
      cases parts with
      | nil => cases hwhole
      | cons part parts => simp at hwhole
  | file short found =>
      cases parts with
      | nil => cases hwhole
      | cons part parts => simp at hwhole
  | link short found stop => cases stop
  | down short found further ih =>
      cases parts with
      | nil => cases hwhole
      | cons part parts =>
          obtain ⟨rfl, hrest⟩ := List.cons.inj hwhole
          exact .down short found (ih hrest)
  | @jump _ _ _ target _ _ short found go somewhere further ih =>
      cases parts with
      | nil => cases hwhole
      | cons part parts =>
          obtain ⟨rfl, rfl⟩ := List.cons.inj hwhole
          refine .jump short found (by simp) somewhere ?_
          exact ih (List.append_assoc _ _ _)

/-- Where a path leads somewhere, it also names something: a link, or where it leads. -/
lemma Reaches.unfollowed {location : List String} {entry : Entry}
    (h : Reaches root true links here parts place) (found : place = .found location entry) :
    ∃ location' entry', Reaches root false links here parts (.found location' entry') ∧
      (entry'.kind = entry.kind ∨ entry'.kind = .link) := by
  induction h with
  | here there =>
      obtain ⟨rfl, rfl⟩ := Place.found.inj found
      exact ⟨_, _, .here there, .inl rfl⟩
  | stay _ ih =>
      obtain ⟨location', entry', further, kind⟩ := ih found
      exact ⟨location', entry', .stay further, kind⟩
  | up _ ih =>
      obtain ⟨location', entry', further, kind⟩ := ih found
      exact ⟨location', entry', .up further, kind⟩
  | free short nothing => cases found
  | file short there =>
      obtain ⟨rfl, rfl⟩ := Place.found.inj found
      exact ⟨_, _, .file short there, .inl rfl⟩
  | link short there stop => cases stop
  | down short there _ ih =>
      obtain ⟨location', entry', further, kind⟩ := ih found
      exact ⟨location', entry', .down short there further, kind⟩
  | @jump _ _ _ target rest _ short there go somewhere _ ih =>
      obtain ⟨location', entry', further, kind⟩ := ih found
      cases rest with
      | nil => exact ⟨_, _, .link short there rfl, .inr rfl⟩
      | cons part rest =>
          exact ⟨location', entry', .jump short there (by simp) somewhere further, kind⟩

/-- Nothing on a path that leads somewhere is too long. -/
lemma Reaches.fits {followLast : Bool} (h : Reaches root followLast links here parts place) :
    ∀ part ∈ parts, part.fits = true := by
  induction h with
  | here _ => simp
  | stay _ ih => exact List.forall_mem_cons.mpr ⟨rfl, ih⟩
  | up _ ih => exact List.forall_mem_cons.mpr ⟨rfl, ih⟩
  | free short _ => simpa [Part.fits] using short
  | file short _ => simpa [Part.fits] using short
  | link short _ _ => simpa [Part.fits] using short
  | down short _ _ ih => exact List.forall_mem_cons.mpr ⟨by simpa [Part.fits] using short, ih⟩
  | jump short _ _ _ _ ih =>
      refine List.forall_mem_cons.mpr ⟨by simpa [Part.fits] using short, fun part hpart => ?_⟩
      exact ih part (List.mem_append_right _ hpart)

end

lemma pathFits_of_entry {fs : FileSystem} {followLast : Bool} {path : String}
    {location : List String} {entry : Entry}
    (h : fs.entry followLast path = .ok (location, entry)) : pathFits path = true := by
  obtain ⟨⟨-, -, short⟩, reaches⟩ :=
    FileSystem.follow_eq_ok_iff.mp (FileSystem.entry_eq_ok_iff.mp h)
  rw [pathFits, Bool.and_eq_true, List.all_eq_true]
  exact ⟨by simpa using short, fun part hpart => reaches.fits part (List.mem_append_left _ hpart)⟩

/-- A path that is too long leads nowhere. -/
lemma entry_of_long {fs : FileSystem} {followLast : Bool} {path : String}
    (noNul : '\x00' ∉ path.toList) (long : pathLimit < path.utf8ByteSize) :
    fs.entry followLast path = .error .nameTooLong := by
  have nonempty : path.isEmpty = false := by
    rw [String.isEmpty_eq_false_iff]
    rintro rfl
    exact absurd long (by decide)
  have located : fs.locate followLast path = .error .nameTooLong := by
    rw [FileSystem.locate, FileSystem.follow, if_neg (by simpa using noNul),
      if_neg (by simp [nonempty]), if_pos long]
  rw [FileSystem.entry, located]
  rfl

/-! ## One name further -/

lemma namedParts_joinPath {directory name : String} (nonempty : directory ≠ "")
    (nameOnly : NameOnly name) :
    namedParts (joinPath directory name) = namedParts directory ++ [.down name] := by
  obtain ⟨front, hjoin, hfront⟩ := joinPath_eq nonempty name
  have single := namedParts_intercalate (List.forall_mem_singleton.mpr nameOnly)
  rw [String.intercalate_singleton] at single
  rw [hjoin, namedParts_append, hfront, single, List.map_singleton]

lemma partsOf_joinPath {directory name : String} (nonempty : directory ≠ "")
    (nameOnly : NameOnly name) :
    partsOf (joinPath directory name) = namedParts directory ++ [.down name] := by
  obtain ⟨front, hjoin, -⟩ := joinPath_eq nonempty name
  have noSlash : (joinPath directory name).toList.getLast? ≠ some '/' := by
    have more : name.toList ≠ [] := fun hnil =>
      nameOnly.noEmpty (String.toList_eq_nil_iff.mp hnil)
    rw [hjoin, String.toList_append, List.getLast?_append_of_ne_nil _ more]
    exact fun slash => nameOnly.noSlash (List.mem_of_getLast? slash)
  rw [partsOf, if_neg noSlash, List.append_nil, namedParts_joinPath nonempty nameOnly]

/-- **One name further a path leads to what the directory has under that name**, unless it gets too
long, or that is a link. -/
theorem entry_joinPath {fs : FileSystem} {directory name : String} {location : List String}
    {entries : List (String × Entry)} {entry : Entry}
    (inside : fs.entry true directory = .ok (location, .directory entries))
    (nameOnly : NameOnly name) (fits : pathFits (joinPath directory name) = true)
    (found : entries.lookup name = some entry) (unlinked : ∀ target, entry ≠ .link target) :
    fs.entry true (joinPath directory name) = .ok (location ++ [name], entry) := by
  obtain ⟨⟨noNul, nonempty, -⟩, reaches⟩ :=
    FileSystem.follow_eq_ok_iff.mp (FileSystem.entry_eq_ok_iff.mp inside)
  obtain ⟨short, named⟩ := Bool.and_eq_true_iff.mp fits
  rw [namedParts_joinPath nonempty nameOnly, List.all_append, Bool.and_eq_true] at named
  have shortName : name.utf8ByteSize ≤ nameLimit := by simpa [Part.fits] using named.2
  have here : fs.root.at? location = some (.directory entries) := reaches.at?_location
  have below : fs.root.at? (location ++ [name]) = some entry := by
    simp [Entry.at?_append, here, Entry.at?, found]
  have next (links : Nat) :
      Reaches fs.root true links location [.down name] (.found (location ++ [name]) entry) := by
    cases entry with
    | file bytes => exact .file shortName below
    | link target => exact absurd rfl (unlinked target)
    | directory inner => exact .down shortName below (.here below)
  have named : Reaches fs.root true linkLimit (fs.start directory) (namedParts directory)
      (.found location (.directory entries)) := by
    rw [partsOf] at reaches
    split_ifs at reaches
    · exact reaches.of_append_stay
    · simpa using reaches
  have noNul' : '\x00' ∉ (joinPath directory name).toList := by
    rcases joinPath_eq_or directory name with same | same
    · simpa [same] using ⟨noNul, nameOnly.noNul⟩
    · simpa [same] using ⟨noNul, nameOnly.noNul⟩
  have nonempty' : joinPath directory name ≠ "" := by
    rcases joinPath_eq_or directory name with same | same
    · simp [same, nonempty]
    · simp [same, nonempty]
  have start : fs.start (joinPath directory name) = fs.start directory :=
    have spells : Spells name [] name := ⟨by simp, by simpa using nameOnly⟩
    start_joinPath fs spells.isPlainRelative
  refine FileSystem.entry_eq_ok_iff.mpr (FileSystem.follow_eq_ok_iff.mpr
    ⟨⟨noNul', nonempty', by simpa using short⟩, ?_⟩)
  rw [start, partsOf_joinPath nonempty nameOnly]
  exact named.append rfl next

/-! ## Trees without links -/

/-- The path of a place below a directory. -/
def pathBelow (directory : String) (names : List String) : String := names.foldl joinPath directory

lemma pathBelow_append (directory : String) (names : List String) (name : String) :
    pathBelow directory (names ++ [name]) = joinPath (pathBelow directory names) name :=
  List.foldl_concat _ _ _ _

/-- What is above something is a directory. -/
lemma exists_directory_above {tree entry : Entry} {names : List String} {name : String}
    (found : tree.at? (names ++ [name]) = some entry) :
    ∃ entries, tree.at? names = some (.directory entries) ∧ entries.lookup name = some entry := by
  rw [Entry.at?_append, Option.bind_eq_some_iff] at found
  obtain ⟨above, habove, hentry⟩ := found
  obtain ⟨entries, entry', rfl, hlookup, hhere⟩ := Entry.at?_cons_eq_some_iff.mp hentry
  obtain rfl := Option.some.inj hhere
  exact ⟨entries, habove, hlookup⟩

/-- What holds at a directory and below its entries holds everywhere in it. -/
lemma forall_at?_directory {entries : List (String × Entry)} {property : List String → Entry → Prop}
    (here : property [] (.directory entries))
    (inside : ∀ pair ∈ entries, ∀ names entry, pair.2.at? names = some entry →
      property (pair.1 :: names) entry) :
    ∀ names entry, (Entry.directory entries).at? names = some entry → property names entry := by
  intro names entry found
  cases names with
  | nil => exact Option.some.inj found ▸ here
  | cons name rest =>
      obtain ⟨_, child, same, lookup, further⟩ := Entry.at?_cons_eq_some_iff.mp found
      obtain rfl := Entry.directory.inj same
      obtain ⟨before, after, rfl, -⟩ := List.lookup_eq_some_iff.mp lookup
      exact inside (name, child) (by simp) rest entry further

lemma forall_at?_file {bytes : ByteArray} {property : List String → Entry → Prop}
    (here : property [] (.file bytes)) :
    ∀ names entry, (Entry.file bytes).at? names = some entry → property names entry := by
  intro names entry found
  cases names with
  | nil => exact Option.some.inj found ▸ here
  | cons name rest => simp [Entry.at?] at found

/-- **A path leads to a directory, and there is no link below it.**  The entries are in order and
have names. -/
structure Holds (fs : FileSystem) (directory : String) (entries : List (String × Entry)) :
    Prop where
  here : ∃ location, fs.entry true directory = .ok (location, .directory entries)
  ordered : (Entry.directory entries).Ordered
  named : ∀ names entry, (Entry.directory entries).at? names = some entry →
    ∀ name ∈ names, NameOnly name
  linkless : ∀ names target, (Entry.directory entries).at? names ≠ some (.link target)

/-- The paths of the directories below a directory are not too long. -/
def DirectoriesFit (directory : String) (entries : List (String × Entry)) : Prop :=
  ∀ names inside, (Entry.directory entries).at? names = some (.directory inside) →
    pathFits (pathBelow directory names) = true

namespace Holds

variable {fs : FileSystem} {directory : String} {entries : List (String × Entry)}

/-- **The paths of the directories below lead to them**, unless one is too long. -/
theorem entry_directory (holds : Holds fs directory entries)
    (fits : DirectoriesFit directory entries) {names : List String} {inside : List (String × Entry)}
    (found : (Entry.directory entries).at? names = some (.directory inside)) :
    ∃ location, fs.entry true (pathBelow directory names) = .ok (location, .directory inside) := by
  induction names using List.reverseRecOn generalizing inside with
  | nil =>
      obtain rfl := Entry.directory.inj (Option.some.inj found)
      exact holds.here
  | append_singleton names name ih =>
      have short := fits _ _ found
      obtain ⟨outer, above, lookup⟩ := exists_directory_above found
      obtain ⟨location, there⟩ := ih above
      rw [pathBelow_append] at short ⊢
      exact ⟨_, entry_joinPath there (holds.named _ _ found name (by simp)) short lookup nofun⟩

/-- So do those of the files, each unless it is too long itself. -/
theorem entry_file (holds : Holds fs directory entries)
    (fits : DirectoriesFit directory entries) {names : List String} {bytes : ByteArray}
    (found : (Entry.directory entries).at? names = some (.file bytes))
    (short : pathFits (pathBelow directory names) = true) :
    ∃ location, fs.entry true (pathBelow directory names) = .ok (location, .file bytes) := by
  rcases List.eq_nil_or_concat' names with rfl | ⟨names, name, rfl⟩
  · cases found
  · obtain ⟨outer, above, lookup⟩ := exists_directory_above found
    obtain ⟨location, there⟩ := holds.entry_directory fits above
    rw [pathBelow_append] at short ⊢
    exact ⟨_, entry_joinPath there (holds.named _ _ found name (by simp)) short lookup nofun⟩

end Holds

end AvroTypes
