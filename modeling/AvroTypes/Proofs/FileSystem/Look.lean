import AvroTypes.FileSystem.Tree
import Mathlib.Data.List.Infix
import Mathlib.Tactic.Lemma
import Mathlib.Tactic.SplitIfs

/-!
# Looking at a tree

What a file system is can be said place by place: at each location there is a directory, a file, a
link, or nothing.  Putting something at a location in a directory changes what is there and below,
and nothing elsewhere.

* `Shape`, `FileSystem.look` — what stands at a location.
* `Entry.Ordered` — every directory keeps its entries in the order of their names.
* `lookup_putEntry` — one directory.
* `FileSystem.look_put` — **what is seen after putting something at a location.**
-/

namespace AvroTypes

/-- What stands at a location, without what is below it. -/
inductive Shape where
  | file (bytes : ByteArray)
  | link (target : String)
  | directory

/-- What an entry is, without what is below it. -/
def Entry.shape : Entry → Shape
  | .file bytes => .file bytes
  | .link target => .link target
  | .directory _ => .directory

/-- **What stands at a location.** -/
def FileSystem.look (fs : FileSystem) (location : List String) : Option Shape :=
  (fs.root.at? location).map Entry.shape

/-- The entries of a directory are in the order of their names, and no name occurs twice. -/
def InOrder (entries : List (String × Entry)) : Prop :=
  entries.Pairwise fun first second => first.1 < second.1

/-- Every directory of a tree keeps its entries in order. -/
def Entry.Ordered (root : Entry) : Prop :=
  ∀ location entries, root.at? location = some (.directory entries) → InOrder entries

namespace Entry

/-! ## One directory -/

lemma lookup_cons_eq_ite (name key : String) (entry : Entry) (rest : List (String × Entry)) :
    ((key, entry) :: rest).lookup name = if name = key then some entry else rest.lookup name := by
  by_cases h : name = key
  · simp [h]
  · have : (name == key) = false := beq_eq_false_iff_ne.mpr h
    simp [List.lookup_cons, h, this]

lemma lookup_eq_none_of_lt {name : String} {entries : List (String × Entry)}
    (h : ∀ other ∈ entries, name < other.1) : entries.lookup name = none := by
  rw [List.lookup_eq_none_iff]
  intro other hother
  have hlt := h other hother
  rw [bne_iff_ne]
  rintro rfl
  exact absurd hlt (String.lt_irrefl _)

/-- Something or nothing in front of entries none of which has its name. -/
lemma lookup_in_front (name : String) (new : Option Entry) {entries : List (String × Entry)}
    (absent : new = none → entries.lookup name = none) (other : String) :
    (new.toList.map (fun entry => (name, entry)) ++ entries).lookup other =
      if other = name then new else entries.lookup other := by
  cases new with
  | none =>
      by_cases h : other = name
      · simp [h, absent rfl]
      · simp [h]
  | some entry => exact lookup_cons_eq_ite other name entry entries

/-- **One directory after an entry was put into it or taken out of it.**  Taking one out relies on
the order of the names, since the search for it stops at the first greater one. -/
theorem lookup_putEntry {name : String} {new : Option Entry} {entries : List (String × Entry)}
    (ordered : new = none → InOrder entries) (other : String) :
    (putEntry name new entries).lookup other =
      if other = name then new else entries.lookup other := by
  induction entries with
  | nil =>
      have : ([] : List (String × Entry)).lookup name = none := rfl
      simpa [putEntry] using lookup_in_front name new (fun _ => this) other
  | cons first rest ih =>
      obtain ⟨key, entry⟩ := first
      have ih := ih fun h => (List.pairwise_cons.mp (ordered h)).2
      rw [putEntry]
      by_cases same : key = name
      · subst same
        have absent (h : new = none) : rest.lookup key = none :=
          lookup_eq_none_of_lt (List.pairwise_cons.mp (ordered h)).1
        rw [if_pos rfl, lookup_in_front key new absent, lookup_cons_eq_ite]
        split_ifs <;> rfl
      · by_cases before : name < key
        · have absent (h : new = none) : ((key, entry) :: rest).lookup name = none := by
            refine lookup_eq_none_of_lt fun next hnext => ?_
            rcases List.mem_cons.mp hnext with rfl | hnext
            · exact before
            · exact String.lt_trans before ((List.pairwise_cons.mp (ordered h)).1 next hnext)
          rw [if_neg same, if_pos before, lookup_in_front name new absent]
        · rw [if_neg same, if_neg before, lookup_cons_eq_ite, ih, lookup_cons_eq_ite]
          by_cases here : other = key
          · simp [here, same]
          · simp [here]

lemma mem_putEntry {name : String} {new : Option Entry} {entries : List (String × Entry)}
    {pair : String × Entry} (h : pair ∈ putEntry name new entries) :
    pair.1 = name ∨ pair ∈ entries := by
  induction entries with
  | nil =>
      cases new with
      | none => simp [putEntry] at h
      | some entry =>
          obtain rfl : pair = (name, entry) := by simpa [putEntry] using h
          exact .inl rfl
  | cons first rest ih =>
      obtain ⟨key, entry⟩ := first
      have put : ∀ {tail}, pair ∈ new.toList.map (fun entry => (name, entry)) ++ tail →
          pair.1 = name ∨ pair ∈ tail := by
        intro tail hpair
        rcases List.mem_append.mp hpair with hpair | hpair
        · obtain ⟨_, -, rfl⟩ := List.mem_map.mp hpair
          exact .inl rfl
        · exact .inr hpair
      rw [putEntry] at h
      split_ifs at h with same before
      · exact (put h).imp_right (List.mem_cons_of_mem _)
      · exact put h
      · rcases List.mem_cons.mp h with rfl | h
        · exact .inr List.mem_cons_self
        · exact (ih h).imp_right (List.mem_cons_of_mem _)

/-- Putting an entry into a directory keeps the order. -/
lemma InOrder.putEntry {name : String} {new : Option Entry} {entries : List (String × Entry)}
    (ordered : InOrder entries) : InOrder (putEntry name new entries) := by
  induction entries with
  | nil => cases new <;> simp [InOrder, Entry.putEntry]
  | cons first rest ih =>
      obtain ⟨key, entry⟩ := first
      obtain ⟨least, ordered'⟩ := List.pairwise_cons.mp ordered
      rw [Entry.putEntry]
      split_ifs with same before
      · subst same
        cases new with
        | none => exact ordered'
        | some entry => exact List.pairwise_cons.mpr ⟨least, ordered'⟩
      · cases new with
        | none => exact ordered
        | some entry =>
            refine List.pairwise_cons.mpr ⟨fun next hnext => ?_, ordered⟩
            rcases List.mem_cons.mp hnext with rfl | hnext
            · exact before
            · exact String.lt_trans before (least next hnext)
      · refine List.pairwise_cons.mpr ⟨fun next hnext => ?_, ih ordered'⟩
        rcases mem_putEntry hnext with hnext | hnext
        · rw [hnext]
          by_contra after
          exact same (String.le_antisymm (String.not_lt.mp before) (String.not_lt.mp after))
        · exact least next hnext

/-! ## A tree -/

lemma at?_cons_eq_some_iff {root found : Entry} {name : String} {rest : List String} :
    root.at? (name :: rest) = some found ↔
      ∃ entries entry, root = .directory entries ∧ entries.lookup name = some entry ∧
        entry.at? rest = some found := by
  cases root <;> simp [at?, Option.bind_eq_some_iff]

lemma at?_append (root : Entry) (first second : List String) :
    root.at? (first ++ second) = (root.at? first).bind (·.at? second) := by
  induction first generalizing root with
  | nil => simp [at?]
  | cons name rest ih => cases root <;> simp [at?, ih, Option.bind_assoc]

lemma update_append_singleton {new : Option Entry} {first : String} {rest : List String}
    {name : String} {entries : List (String × Entry)} {entry : Entry}
    (found : entries.lookup first = some entry) :
    update new (first :: (rest ++ [name])) (.directory entries) =
      .directory (putEntry first (some (update new (rest ++ [name]) entry)) entries) := by
  cases rest with
  | nil => simp [update, found]
  | cons second rest => simp [update, found]

lemma at?_putEntry {name : String} {new : Option Entry} {entries : List (String × Entry)}
    (ordered : new = none → InOrder entries) (first : String) (rest : List String) :
    (directory (putEntry name new entries)).at? (first :: rest) =
      if first = name then new.bind (·.at? rest) else (directory entries).at? (first :: rest) := by
  simp only [at?, lookup_putEntry ordered]
  split_ifs <;> rfl

/-- What an entry, or nothing, has under some names. -/
def lookBelow (new : Option Entry) (rest : List String) : Option Shape :=
  (new.bind (·.at? rest)).map Entry.shape

/-- **A tree after an entry was put somewhere or taken away.**  The induction goes down the
directories that lead there. -/
theorem shape_at?_update {new : Option Entry} {above : List String} {name : String}
    {root : Entry} {entries : List (String × Entry)}
    (found : root.at? above = some (.directory entries))
    (ordered : new = none → InOrder entries) (location : List String) :
    ((update new (above ++ [name]) root).at? location).map Entry.shape =
      if above ++ [name] <+: location then lookBelow new (location.drop (above.length + 1))
      else (root.at? location).map Entry.shape := by
  induction above generalizing root location with
  | nil =>
      obtain rfl : root = .directory entries := by simpa [at?] using found
      cases location with
      | nil => simp [update, at?, shape]
      | cons first rest =>
          rw [List.nil_append, update, at?_putEntry ordered]
          by_cases here : first = name
          · simp [here, lookBelow]
          · simp [here, Ne.symm here]
  | cons next above ih =>
      obtain ⟨outer, entry, rfl, hlookup, inner⟩ := at?_cons_eq_some_iff.mp found
      rw [List.cons_append, update_append_singleton hlookup]
      cases location with
      | nil => simp [at?, shape]
      | cons first rest =>
          rw [at?_putEntry (by simp)]
          by_cases here : first = next
          · subst here
            simpa [at?, hlookup] using ih inner rest
          · simp [here, Ne.symm here]

/-- **A tree stays as it is if something is put into what is no directory**, by the same
induction. -/
theorem shape_at?_update_nowhere {new : Option Entry} {above : List String} {name : String}
    {root : Entry} (nowhere : ∀ entries, root.at? above ≠ some (.directory entries))
    (location : List String) :
    ((update new (above ++ [name]) root).at? location).map Entry.shape =
      (root.at? location).map Entry.shape := by
  induction above generalizing root location with
  | nil =>
      cases root with
      | directory entries => exact absurd rfl (nowhere entries)
      | file bytes => rfl
      | link target => rfl
  | cons next above ih =>
      cases root with
      | file bytes => cases above <;> rfl
      | link target => cases above <;> rfl
      | directory entries =>
          cases hlookup : entries.lookup next with
          | none => cases above <;> simp [update, hlookup]
          | some entry =>
              rw [List.cons_append, update_append_singleton hlookup]
              cases location with
              | nil => simp [at?, shape]
              | cons first rest =>
                  rw [at?_putEntry (by simp)]
                  by_cases here : first = next
                  · subst here
                    have inner : ∀ inside, entry.at? above ≠ some (.directory inside) := by
                      simpa [at?, hlookup] using nowhere
                    simpa [at?, hlookup] using ih inner rest
                  · simp [here]

/-- The directory itself, after an entry was put into it or taken away. -/
lemma at?_update_above {new : Option Entry} {above : List String} {name : String} {root : Entry}
    {entries : List (String × Entry)} (found : root.at? above = some (.directory entries)) :
    (update new (above ++ [name]) root).at? above =
      some (.directory (putEntry name new entries)) := by
  induction above generalizing root with
  | nil =>
      obtain rfl : root = .directory entries := by simpa [at?] using found
      simp [update, at?]
  | cons next above ih =>
      obtain ⟨outer, entry, rfl, hlookup, inner⟩ := at?_cons_eq_some_iff.mp found
      rw [List.cons_append, update_append_singleton hlookup]
      simp [at?, lookup_putEntry, ih inner]

end Entry

/-! ## A file system -/

/-- A directory is ordered if its entries are in order and ordered themselves. -/
lemma Entry.ordered_directory {entries : List (String × Entry)} (ordered : InOrder entries)
    (inside : ∀ pair ∈ entries, pair.2.Ordered) : (Entry.directory entries).Ordered := by
  intro location found h
  cases location with
  | nil =>
      obtain rfl : entries = found := by simpa [Entry.at?] using h
      exact ordered
  | cons name rest =>
      obtain ⟨_, entry, hsame, hlookup, hrest⟩ := Entry.at?_cons_eq_some_iff.mp h
      obtain rfl := Entry.directory.inj hsame
      obtain ⟨before, after, rfl, -⟩ := List.lookup_eq_some_iff.mp hlookup
      exact inside (name, entry) (by simp) rest found hrest

lemma Entry.ordered_file (bytes : ByteArray) : (Entry.file bytes).Ordered := by
  intro location found h
  cases location with
  | nil => simp [Entry.at?] at h
  | cons name rest => simp [Entry.at?] at h

/-- What is below a location is not above it. -/
lemma not_below_of_ne_nil {location rest : List String} (more : rest ≠ []) :
    ¬ location ++ rest <+: location := by
  intro h
  have := h.length_le
  have := List.length_pos_of_ne_nil more
  simp only [List.length_append] at *
  omega

namespace FileSystem

variable {fs : FileSystem} {above : List String} {name : String} {entries : List (String × Entry)}

lemma look_eq_directory_iff {location : List String} :
    fs.look location = some .directory ↔
      ∃ entries, fs.root.at? location = some (.directory entries) := by
  rw [look]
  cases fs.root.at? location with
  | none => simp
  | some entry => cases entry <;> simp [Entry.shape]

/-- What is above something is a directory. -/
lemma look_of_look_append {location rest : List String} (more : rest ≠ [])
    (h : fs.look (location ++ rest) ≠ none) : fs.look location = some .directory := by
  rw [look, Entry.at?_append] at h
  rw [look_eq_directory_iff]
  obtain ⟨name, rest, rfl⟩ := List.exists_cons_of_ne_nil more
  cases hentry : fs.root.at? location with
  | none => simp [hentry] at h
  | some entry =>
      cases entry with
      | directory entries => exact ⟨entries, rfl⟩
      | file bytes => simp [hentry, Entry.at?] at h
      | link target => simp [hentry, Entry.at?] at h

/-- Below what is no directory there is nothing. -/
lemma look_append_eq_none {location rest : List String} (more : rest ≠ [])
    (h : fs.look location ≠ some .directory) : fs.look (location ++ rest) = none := by
  by_contra something
  exact h (look_of_look_append more something)

/-- All the way up from a directory there are directories. -/
lemma look_of_directory_below {location front : List String}
    (h : fs.look location = some .directory) (hfront : front <+: location) :
    fs.look front = some .directory := by
  obtain ⟨rest, rfl⟩ := hfront
  by_cases more : rest = []
  · simpa [more] using h
  · exact look_of_look_append more (by rw [h]; simp)

/-- Below nothing there is nothing. -/
lemma look_eq_none_below {location p : List String} (h : fs.look location = none)
    (hp : location <+: p) : fs.look p = none := by
  obtain ⟨rest, rfl⟩ := hp
  by_cases more : rest = []
  · simpa [more] using h
  · exact look_append_eq_none more (by rw [h]; simp)

/-- **What is seen after putting a file or an empty directory into a directory.** -/
theorem look_put {new : Entry} (bare : ∀ name rest, new.at? (name :: rest) = none)
    (found : fs.look above = some .directory) (location : List String) :
    (fs.put (above ++ [name]) (some new)).look location =
      if location = above ++ [name] then some new.shape
      else if above ++ [name] <+: location then none else fs.look location := by
  obtain ⟨entries, found⟩ := look_eq_directory_iff.mp found
  rw [look, put, Entry.shape_at?_update found (by simp)]
  by_cases here : location = above ++ [name]
  · subst here
    simp [Entry.lookBelow, Entry.at?]
  · rw [if_neg here]
    split_ifs with below
    · obtain ⟨rest, rfl⟩ := below
      cases rest with
      | nil => simp at here
      | cons next rest => simp [Entry.lookBelow, bare]
    · rfl

/-- In what is no directory nothing can be put. -/
lemma look_put_nowhere {new : Option Entry} (nowhere : fs.look above ≠ some .directory)
    (location : List String) :
    (fs.put (above ++ [name]) new).look location = fs.look location := by
  refine Entry.shape_at?_update_nowhere (fun entries found => nowhere ?_) location
  exact look_eq_directory_iff.mpr ⟨entries, found⟩

/-- What is seen after taking something out of a directory. -/
theorem look_put_none (found : fs.root.at? above = some (.directory entries))
    (ordered : InOrder entries) (location : List String) :
    (fs.put (above ++ [name]) none).look location =
      if above ++ [name] <+: location then none else fs.look location := by
  rw [look, put, Entry.shape_at?_update found (fun _ => ordered)]
  rfl

end FileSystem

end AvroTypes
