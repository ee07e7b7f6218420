import AvroTypes.Proofs.FileSystem.Descending
import AvroTypes.Proofs.FileSystem.Reading
import AvroTypes.Proofs.Text.ByteOrder

/-!
# What a walk finds

Below a directory without links a walk finds every file, once, by the path that is put together from
the names on the way.  It finds them in the order of these names, compared one by one: that is not
the order of the paths as texts, in which a slash comes after some characters that names can have.

* `TreeFile`, `Entry.files` — the files of a tree.
* `mem_files_iff`, `pairwise_files` — **which these are, and in which order.**
* `runOn_filesFrom_directory` — one directory of a walk.
* `Holds.runOn_filesEndingIn` — **what a walk finds.**
-/

namespace AvroTypes

open AvroTypes.Text

/-! ## The files of a tree -/

/-- A file of a tree: the names that lead to it, and what it contains. -/
structure TreeFile where
  names : List String
  bytes : ByteArray

/-- A file, seen from the directory above. -/
def TreeFile.under (name : String) (file : TreeFile) : TreeFile :=
  { file with names := name :: file.names }

namespace Entry

mutual

/-- The files of a tree, directory by directory. -/
def files : Entry → List TreeFile
  | file bytes => [⟨[], bytes⟩]
  | link _ => []
  | directory entries => filesAmong entries

/-- The files among entries and below them. -/
def filesAmong : List (String × Entry) → List TreeFile
  | [] => []
  | (name, entry) :: rest => entry.files.map (.under name) ++ filesAmong rest

end

lemma filesAmong_eq_flatMap (entries : List (String × Entry)) :
    filesAmong entries = entries.flatMap fun pair => pair.2.files.map (.under pair.1) := by
  induction entries with
  | nil => rfl
  | cons pair rest ih => rw [filesAmong, ih, List.flatMap_cons]

/-! ### Which they are -/

/-- Where no name occurs twice, what is in a directory is found under its name. -/
lemma lookup_eq_some_iff_mem {entries : List (String × Entry)} (ordered : InOrder entries)
    {name : String} {entry : Entry} :
    entries.lookup name = some entry ↔ (name, entry) ∈ entries := by
  induction entries with
  | nil => simp
  | cons pair rest ih =>
      obtain ⟨key, first⟩ := pair
      obtain ⟨least, ordered⟩ := List.pairwise_cons.mp ordered
      rw [lookup_cons_eq_ite, List.mem_cons]
      split_ifs with same
      · subst same
        have absent : (name, entry) ∉ rest := fun hmem => by
          have less := least _ hmem
          exact String.lt_irrefl _ less
        simp [absent, eq_comm]
      · simp [ih ordered, same]

lemma Ordered.inOrder {entries : List (String × Entry)}
    (ordered : (directory entries).Ordered) : InOrder entries := ordered [] entries rfl

lemma Ordered.of_mem {entries : List (String × Entry)} (ordered : (directory entries).Ordered)
    {pair : String × Entry} (h : pair ∈ entries) : pair.2.Ordered := by
  intro location inside found
  have lookup := (lookup_eq_some_iff_mem ordered.inOrder).mpr h
  exact ordered (pair.1 :: location) inside (at?_cons_eq_some_iff.mpr ⟨_, _, rfl, lookup, found⟩)

/-- **The files of a tree are what its names lead to.** -/
theorem mem_files_iff {tree : Entry} (ordered : tree.Ordered) {file : TreeFile} :
    file ∈ tree.files ↔ tree.at? file.names = some (.file file.bytes) := by
  obtain ⟨names, bytes⟩ := file
  induction names generalizing tree with
  | nil =>
      cases tree with
      | file bytes' => simp [files, at?, eq_comm]
      | link target => simp [files, at?]
      | directory entries => simp [files, filesAmong_eq_flatMap, at?, TreeFile.under]
  | cons name rest ih =>
      cases tree with
      | file bytes' => simp [files, at?]
      | link target => simp [files, at?]
      | directory entries =>
          rw [files, filesAmong_eq_flatMap, List.mem_flatMap, at?_cons_eq_some_iff]
          constructor
          · rintro ⟨pair, hpair, hfile⟩
            obtain ⟨⟨names, bytes⟩, hmem, same⟩ := List.mem_map.mp hfile
            obtain ⟨hnames, rfl⟩ := TreeFile.mk.inj same
            obtain ⟨rfl, rfl⟩ := List.cons.inj hnames
            exact ⟨_, pair.2, rfl, (lookup_eq_some_iff_mem ordered.inOrder).mpr hpair,
              (ih (ordered.of_mem hpair)).mp hmem⟩
          · rintro ⟨_, entry, same, lookup, found⟩
            obtain rfl := directory.inj same
            have hpair := (lookup_eq_some_iff_mem ordered.inOrder).mp lookup
            exact ⟨_, hpair, List.mem_map.mpr
              ⟨⟨rest, bytes⟩, (ih (ordered.of_mem hpair)).mpr found, rfl⟩⟩

/-! ### In which order they are -/

mutual

/-- **The files of a tree are in the order of their names**, by induction on the tree. -/
theorem pairwise_files : (tree : Entry) → tree.Ordered →
    tree.files.Pairwise fun file other => InByteOrder file.names other.names
  | file _, _ => List.pairwise_singleton _ _
  | link _, _ => .nil
  | directory entries, ordered =>
      pairwise_filesAmong entries ordered.inOrder fun _ => ordered.of_mem

/-- The same for the entries of a directory: two files in different entries are told apart by the
names of these. -/
theorem pairwise_filesAmong : (entries : List (String × Entry)) → InOrder entries →
    (∀ pair ∈ entries, pair.2.Ordered) →
    (filesAmong entries).Pairwise fun file other => InByteOrder file.names other.names
  | [], _, _ => .nil
  | (name, entry) :: rest, inOrder, ordered => by
      obtain ⟨least, inOrder⟩ := List.pairwise_cons.mp inOrder
      obtain ⟨here, ordered⟩ := List.forall_mem_cons.mp ordered
      rw [filesAmong, List.pairwise_append]
      refine ⟨?_, pairwise_filesAmong rest inOrder ordered, ?_⟩
      · rw [List.pairwise_map]
        exact (pairwise_files entry here).imp fun less => less.cons name
      · intro file hfile other hother
        rw [filesAmong_eq_flatMap] at hother
        obtain ⟨pair, hpair, hother⟩ := List.mem_flatMap.mp hother
        obtain ⟨file, -, rfl⟩ := List.mem_map.mp hfile
        obtain ⟨other, -, rfl⟩ := List.mem_map.mp hother
        exact inByteOrder_of_lt (least pair hpair) _ _

end

/-! ### How deep they are -/

lemma height_le_heights {entries : List (String × Entry)} {pair : String × Entry}
    (h : pair ∈ entries) : pair.2.height ≤ heights entries := by
  induction entries with
  | nil => cases h
  | cons first rest ih =>
      rw [heights]
      rcases List.mem_cons.mp h with rfl | h
      · exact Nat.le_max_left _ _
      · exact (ih h).trans (Nat.le_max_right _ _)

/-- What a tree holds is not higher than the tree. -/
lemma height_le_of_at? {tree entry : Entry} {location : List String}
    (found : tree.at? location = some entry) : entry.height ≤ tree.height := by
  induction location generalizing tree with
  | nil => exact (Option.some.inj found) ▸ le_rfl
  | cons name rest ih =>
      obtain ⟨entries, inner, rfl, lookup, further⟩ := at?_cons_eq_some_iff.mp found
      obtain ⟨before, after, rfl, -⟩ := List.lookup_eq_some_iff.mp lookup
      have among : (name, inner) ∈ before ++ (name, inner) :: after := by simp
      have below := height_le_heights among
      rw [height]
      exact (ih further).trans (below.trans (Nat.le_succ _))

end Entry

/-! ## A walk -/

section

variable {fs : FileSystem} {path : String} {location : List String}
  {entries : List (String × Entry)}

/-- **One directory of a walk** is what is found below its entries, one after the other. -/
lemma runOn_filesFrom_directory {depth : Nat} {ancestors : List Ancestor} {named : EntryKind}
    (there : fs.entry true path = .ok (location, .directory entries)) (inOrder : InOrder entries)
    (entered : named = .directory ∨ named = .link ∧ ancestors = []) :
    runOn (filesFrom (depth + 1) ancestors named path) fs = runOn (do
      let inside ← entries.mapM fun pair =>
        filesFrom depth (⟨path, location⟩ :: ancestors) pair.2.kind (joinPath path pair.1)
      return inside.flatten) fs := by
  have arrived : runOn (arrive named path) fs = (.ok (.directory, location), fs) := by
    have destination : fs.destination path = .ok (.directory, location) := by
      rw [FileSystem.destination, there]
      rfl
    have followed : runOn (onPath path (FileStore.destination path)) fs =
        ((fs.destination path).mapError (.failed path), fs) := rfl
    rw [destination] at followed
    rcases entered with rfl | ⟨rfl, -⟩
    · exact followed
    · exact followed
  let listing := entries.map fun pair => (pair.1, pair.2.kind)
  have listed : runOn (onPath path (FileStore.entries path)) fs = (.ok listing, fs) := by
    have names : fs.entries path = .ok listing := by
      rw [FileSystem.entries, there]
      rfl
    have looked : runOn (onPath path (FileStore.entries path)) fs =
        ((fs.entries path).mapError (.failed path), fs) := rfl
    rw [names] at looked
    exact looked
  have sorted : (listing.mergeSort fun first second => inNameOrder first.1 second.1) = listing := by
    refine List.mergeSort_of_pairwise (List.pairwise_map.mpr (inOrder.imp fun less => ?_))
    exact decide_eq_true (String.not_lt.mp (String.lt_asymm less))
  have further : runOn (do
      let entries ← onPath path (FileStore.entries path)
      let inside ← (entries.mergeSort fun first second => inNameOrder first.1 second.1).mapM
        fun entry =>
          filesFrom depth (⟨path, location⟩ :: ancestors) entry.2 (joinPath path entry.1)
      return inside.flatten : ExceptT WalkError (StateM FileSystem) _) fs = runOn (do
        let inside ← entries.mapM fun pair =>
          filesFrom depth (⟨path, location⟩ :: ancestors) pair.2.kind (joinPath path pair.1)
        return inside.flatten) fs := by
    rw [runOn_bind_of_ok listed, sorted, List.mapM_map]
    rfl
  rw [filesFrom, runOn_bind_of_ok arrived]
  -- a link is entered at the start only, where the walk is in no directory yet
  rcases entered with rfl | ⟨rfl, rfl⟩
  · exact further
  · exact further

/-- The same where nothing fails. -/
lemma runOn_filesFrom_of_inside {depth : Nat} {ancestors : List Ancestor} {named : EntryKind}
    (there : fs.entry true path = .ok (location, .directory entries)) (inOrder : InOrder entries)
    (entered : named = .directory ∨ named = .link ∧ ancestors = [])
    {found : String × Entry → List String}
    (inside : ∀ pair ∈ entries, runOn (filesFrom depth (⟨path, location⟩ :: ancestors)
      pair.2.kind (joinPath path pair.1)) fs = (.ok (found pair), fs)) :
    runOn (filesFrom (depth + 1) ancestors named path) fs =
      (.ok (entries.flatMap found), fs) := by
  have walked := runOn_mapM (List.forall₂_map_right_iff.mpr (List.forall₂_same.mpr inside))
  rw [runOn_filesFrom_directory there inOrder entered, runOn_bind_of_ok walked, List.flatMap_def]
  rfl

/-- **A walk stops at a directory whose path leads nowhere.** -/
lemma runOn_filesFrom_of_error {depth : Nat} {ancestors : List Ancestor} {error : IoError}
    (nowhere : fs.entry true path = .error error) :
    runOn (filesFrom (depth + 1) ancestors .directory path) fs =
      (.error (.failed path error), fs) := by
  have arrived : runOn (arrive .directory path) fs = (.error (.failed path error), fs) := by
    have followed : runOn (arrive .directory path) fs =
        ((fs.destination path).mapError (.failed path), fs) := rfl
    rw [FileSystem.destination, nowhere] at followed
    exact followed
  rw [filesFrom, runOn_bind_of_error arrived]

/-- A walk follows the path of a directory. -/
lemma pathFits_of_walked {depth : Nat} {ancestors : List Ancestor} {paths : List String}
    (walked : runOn (filesFrom depth ancestors .directory path) fs = (.ok paths, fs)) :
    pathFits path = true := by
  cases depth with
  | zero => cases walked
  | succ depth =>
      cases there : fs.entry true path with
      | ok reached => exact pathFits_of_entry there
      | error error =>
          rw [runOn_filesFrom_of_error there] at walked
          cases walked

end

/-- The paths of the files of an entry that is below a directory. -/
def pathsFrom (directory : String) (names : List String) (entry : Entry) : List String :=
  entry.files.map fun file => pathBelow directory (names ++ file.names)

lemma pathsFrom_directory (directory : String) (names : List String)
    (entries : List (String × Entry)) :
    pathsFrom directory names (.directory entries) =
      entries.flatMap fun pair => pathsFrom directory (names ++ [pair.1]) pair.2 := by
  rw [pathsFrom, Entry.files, Entry.filesAmong_eq_flatMap, List.map_flatMap]
  refine List.flatMap_congr fun pair _ => ?_
  rw [pathsFrom, List.map_map]
  refine List.map_congr_left fun file _ => ?_
  simp [TreeFile.under]

/-- **The files below a directory whose paths end in a given way.** -/
def matching (ending directory : String) (entries : List (String × Entry)) : List TreeFile :=
  (Entry.directory entries).files.filter fun file => endsIn ending (pathBelow directory file.names)

namespace Holds

variable {fs : FileSystem} {directory : String} {entries : List (String × Entry)}

/-- **What a walk finds below each entry**, by induction on how deep it may go. -/
lemma runOn_filesFrom (holds : Holds fs directory entries) (fits : DirectoriesFit directory entries)
    {depth : Nat} {ancestors : List Ancestor} {names : List String} {entry : Entry}
    (found : (Entry.directory entries).at? names = some entry) (deep : entry.height < depth) :
    runOn (filesFrom depth ancestors entry.kind (pathBelow directory names)) fs =
      (.ok (pathsFrom directory names entry), fs) := by
  induction depth generalizing ancestors names entry with
  | zero => exact absurd deep (Nat.not_lt_zero _)
  | succ depth ih =>
      cases entry with
      | file bytes =>
          rw [pathsFrom, Entry.files, List.map_singleton, List.append_nil]
          rfl
      | link target => exact absurd found (holds.linkless names target)
      | directory inside =>
          obtain ⟨location, there⟩ := holds.entry_directory fits found
          have inOrder : InOrder inside := holds.ordered names inside found
          rw [pathsFrom_directory]
          refine runOn_filesFrom_of_inside there inOrder (.inl rfl) fun pair hpair => ?_
          have lookup := (Entry.lookup_eq_some_iff_mem inOrder).mpr hpair
          have child : (Entry.directory entries).at? (names ++ [pair.1]) = some pair.2 := by
            simp [Entry.at?_append, found, Entry.at?, lookup]
          have lower := Entry.height_le_heights hpair
          rw [Entry.height] at deep
          rw [← pathBelow_append]
          exact ih child (by omega)

/-- What the path of the directory names: the directory, or a link to it. -/
lemma exists_named (holds : Holds fs directory entries) :
    ∃ named, runOn (onPath directory (FileStore.entryKind directory)) fs = (.ok named, fs) ∧
      (named = .directory ∨ named = .link) := by
  obtain ⟨location, here⟩ := holds.here
  obtain ⟨fits, reaches⟩ := FileSystem.follow_eq_ok_iff.mp (FileSystem.entry_eq_ok_iff.mp here)
  obtain ⟨location', entry', unfollowed, kind⟩ := reaches.unfollowed rfl
  have names : fs.entry false directory = .ok (location', entry') :=
    FileSystem.entry_eq_ok_iff.mpr (FileSystem.follow_eq_ok_iff.mpr ⟨fits, unfollowed⟩)
  refine ⟨entry'.kind, ?_, kind⟩
  have looked : runOn (onPath directory (FileStore.entryKind directory)) fs =
      ((do return (← fs.entry false directory).2.kind : Except IoError EntryKind).mapError
        (WalkError.failed directory), fs) := rfl
  rw [names] at looked
  exact looked

/-- **The whole walk is the walk from the directory**, and it may go deep enough. -/
lemma runOn_filesBelow (holds : Holds fs directory entries) :
    ∃ depth named, Entry.heights entries < depth ∧ (named = .directory ∨ named = .link) ∧
      runOn (filesBelow directory) fs = runOn (filesFrom (depth + 1) [] named directory) fs := by
  obtain ⟨location, here⟩ := holds.here
  obtain ⟨named, names, kind⟩ := holds.exists_named
  have there := FileSystem.follow_eq_ok_iff.mp (FileSystem.entry_eq_ok_iff.mp here)
  have low : (Entry.directory entries).height ≤ fs.root.height :=
    Entry.height_le_of_at? there.2.at?_location
  have twice := Nat.mul_le_mul_right (fs.root.height + 2) (Nat.le_add_left 2 fs.root.directoryCount)
  rw [Entry.height] at low
  obtain ⟨depth, enough⟩ : ∃ depth,
      (fs.root.directoryCount + 2) * (fs.root.height + 2) = depth + 1 :=
    ⟨(fs.root.directoryCount + 2) * (fs.root.height + 2) - 1, by omega⟩
  have limit : runOn (ExceptT.lift FileStore.depthLimit :
      ExceptT WalkError (StateM FileSystem) Nat) fs = (.ok (depth + 1), fs) := by
    rw [← enough]
    rfl
  exact ⟨depth, named, by omega, kind, by
    rw [filesBelow, runOn_bind_of_ok limit, runOn_bind_of_ok names]⟩

/-- **What a walk finds below a directory without links.** -/
theorem runOn_filesEndingIn (holds : Holds fs directory entries)
    (fits : DirectoriesFit directory entries) (ending : String) :
    runOn (filesEndingIn ending directory) fs =
      (.ok ((matching ending directory entries).map fun file => pathBelow directory file.names),
        fs) := by
  obtain ⟨location, here⟩ := holds.here
  obtain ⟨depth, named, deep, kind, whole⟩ := holds.runOn_filesBelow
  have inOrder : InOrder entries := holds.ordered [] entries rfl
  have below : runOn (filesBelow directory) fs =
      (.ok (pathsFrom directory [] (.directory entries)), fs) := by
    rw [whole, pathsFrom_directory]
    refine runOn_filesFrom_of_inside here inOrder (kind.imp_right fun link => ⟨link, rfl⟩)
      fun pair hpair => ?_
    have lookup := (Entry.lookup_eq_some_iff_mem inOrder).mpr hpair
    have child : (Entry.directory entries).at? [pair.1] = some pair.2 := by
      simp [Entry.at?, lookup]
    have lower := Entry.height_le_heights hpair
    exact holds.runOn_filesFrom fits child (by omega)
  rw [filesEndingIn, runOn_bind_of_ok below, matching, pathsFrom]
  simp only [List.nil_append, List.filter_map]
  rfl

/-- **A walk that goes into a directory finds no directory with a path that is too long**, by
induction on how deep it may go. -/
lemma pathFits_of_runOn_filesFrom (holds : Holds fs directory entries) {depth : Nat}
    {ancestors : List Ancestor} {named : EntryKind} {names paths : List String}
    {inside : List (String × Entry)} {location : List String}
    (found : (Entry.directory entries).at? names = some (.directory inside))
    (there : fs.entry true (pathBelow directory names) = .ok (location, .directory inside))
    (entered : named = .directory ∨ named = .link ∧ ancestors = [])
    (walked : runOn (filesFrom depth ancestors named (pathBelow directory names)) fs =
      (.ok paths, fs)) {inner : List String} {deeper : List (String × Entry)}
    (below : (Entry.directory inside).at? inner = some (.directory deeper)) :
    pathFits (pathBelow directory (names ++ inner)) = true := by
  induction depth generalizing ancestors named names paths inside location inner with
  | zero => cases walked
  | succ depth ih =>
      cases inner with
      | nil =>
          rw [List.append_nil]
          exact pathFits_of_entry there
      | cons name rest =>
          have inOrder : InOrder inside := holds.ordered names inside found
          obtain ⟨_, child, same, lookup, further⟩ := Entry.at?_cons_eq_some_iff.mp below
          obtain rfl := Entry.directory.inj same
          have found' : (Entry.directory entries).at? (names ++ [name]) = some child := by
            simp [Entry.at?_append, found, Entry.at?, lookup]
          rw [runOn_filesFrom_directory there inOrder entered] at walked
          obtain ⟨_, each, -⟩ := exists_of_runOn_bind walked
            (.mapM fun _ => onlyLooks_filesFrom _ _ _ _)
          obtain ⟨paths', walked'⟩ := exists_of_runOn_mapM each
            (fun _ => onlyLooks_filesFrom _ _ _ _)
            ((Entry.lookup_eq_some_iff_mem inOrder).mp lookup)
          cases child with
          | file bytes => cases rest <;> simp [Entry.at?] at further
          | link target => exact absurd found' (holds.linkless _ target)
          | directory inside' =>
              have short := pathFits_of_walked walked'
              have unlinked (target : String) : Entry.directory inside' ≠ .link target := by
                rintro ⟨⟩
              have there' := entry_joinPath there (holds.named _ _ found' name (by simp)) short
                lookup unlinked
              rw [← pathBelow_append] at walked' there'
              have fits := ih found' there' (.inl rfl) walked' further
              rwa [List.append_assoc] at fits

/-- **A walk comes to an end only if no directory has a path that is too long.** -/
theorem directoriesFit (holds : Holds fs directory entries) {ending : String}
    {paths : List String}
    (h : runOn (filesEndingIn ending directory) fs = (.ok paths, fs)) :
    DirectoriesFit directory entries := by
  intro names inside found
  obtain ⟨location, here⟩ := holds.here
  obtain ⟨depth, named, -, kind, whole⟩ := holds.runOn_filesBelow
  obtain ⟨all, walked, -⟩ := exists_of_runOn_bind h (onlyLooks_filesBelow directory)
  rw [whole] at walked
  have start : (Entry.directory entries).at? [] = some (.directory entries) := rfl
  exact holds.pathFits_of_runOn_filesFrom start here (kind.imp_right fun link => ⟨link, rfl⟩)
    walked found

end Holds

end AvroTypes
