import AvroTypes.Proofs.FileSystem.Following
import AvroTypes.Proofs.Text.Lines

/-!
# Paths put together

The paths that an operation makes up lead where they should: the ones to the directories on the way
to a place, and the ones to places below a directory.

* `NameOnly`, `Spells` — a text that stands for one step down, and a path made of such.
* `pathSegments_append`, `pathSegments_intercalate` — what everything rests on: a slash parts a path
  in two.
* `Route.namedSegments_eq`, `route_of_names` — the names on a path, and the path that spells names.
* `Route.ancestorPaths_eq` — the paths to the directories on the way.
* `Route.below`, `Route.directoryOf` — **the path of something below a directory**, and that of the
  directory which holds it.
-/

namespace AvroTypes

/-- A text that stands for one step down in a path. -/
structure NameOnly (name : String) : Prop where
  noSlash : '/' ∉ name.toList
  noNul : '\x00' ∉ name.toList
  noEmpty : name ≠ ""
  noDot : name ≠ "."
  noDots : name ≠ ".."

instance (name : String) : Decidable (NameOnly name) :=
  decidable_of_iff
    ('/' ∉ name.toList ∧ '\x00' ∉ name.toList ∧ name ≠ "" ∧ name ≠ "." ∧ name ≠ "..")
    ⟨fun ⟨noSlash, noNul, noEmpty, noDot, noDots⟩ => ⟨noSlash, noNul, noEmpty, noDot, noDots⟩,
      fun ⟨noSlash, noNul, noEmpty, noDot, noDots⟩ => ⟨noSlash, noNul, noEmpty, noDot, noDots⟩⟩

lemma NameOnly.partOf {name : String} (h : NameOnly name) : partOf name = .down name := by
  simp [AvroTypes.partOf, h.noDot, h.noDots]

/-! ## Segments -/

lemma pathSegments_append (first second : String) :
    pathSegments (first ++ "/" ++ second) = pathSegments first ++ pathSegments second := by
  have : (first ++ "/" ++ second).toList = first.toList ++ '/' :: second.toList := by
    simp [List.append_assoc]
  rw [pathSegments, this, List.splitOn_append_cons_self, List.map_append]
  rfl

lemma namedParts_append (first second : String) :
    namedParts (first ++ "/" ++ second) = namedParts first ++ namedParts second := by
  simp [namedParts, pathSegments_append]

/-- A slash at the end adds nothing. -/
lemma namedParts_append_slash (path : String) : namedParts (path ++ "/") = namedParts path := by
  have := namedParts_append path ""
  simpa [show namedParts "" = [] by decide] using this

lemma pathSegments_intercalate {names : List String} (more : names ≠ [])
    (h : ∀ name ∈ names, '/' ∉ name.toList) : pathSegments ("/".intercalate names) = names := by
  have parts : (("/".intercalate names).toList).splitOn '/' = names.map String.toList := by
    rw [String.toList_intercalate]
    refine List.splitOn_intercalate '/' ?_ (by simpa using more)
    simpa using h
  rw [pathSegments, parts, List.map_map]
  simp

lemma namedParts_intercalate {names : List String} (h : ∀ name ∈ names, NameOnly name) :
    namedParts ("/".intercalate names) = names.map Part.down := by
  by_cases none : names = []
  · subst none
    decide
  · rw [namedParts, pathSegments_intercalate none fun name hname => (h name hname).noSlash,
      List.filter_eq_self.mpr fun name hname => by simpa using (h name hname).noEmpty]
    exact List.map_congr_left fun name hname => (h name hname).partOf

lemma nameOnly_of_mem_namedParts {path name : String} (noNul : '\x00' ∉ path.toList)
    (h : Part.down name ∈ namedParts path) : NameOnly name := by
  obtain ⟨segment, hmem, hpart⟩ := List.mem_map.mp h
  obtain ⟨hmem, hempty⟩ := List.mem_filter.mp hmem
  obtain ⟨chars, hchars, rfl⟩ := List.mem_map.mp hmem
  obtain ⟨noSlash, inside⟩ := Text.mem_of_mem_splitOn hchars
  rw [partOf] at hpart
  split_ifs at hpart with hdot hdots
  obtain rfl := Part.down.inj hpart
  exact ⟨by simpa using noSlash, fun hnul => noNul (inside _ (by simpa using hnul)),
    by simpa using hempty, hdot, hdots⟩

lemma Descends.mem {parts : List Part} {names : List String} {name : String}
    (h : Descends parts names) (hname : name ∈ names) : Part.down name ∈ parts := by
  induction h with
  | nil => simp at hname
  | stay _ ih => exact List.mem_cons_of_mem _ (ih hname)
  | down _ ih =>
      rcases List.mem_cons.mp hname with rfl | hname
      · exact List.mem_cons_self
      · exact List.mem_cons_of_mem _ (ih hname)

lemma Descends.append {parts parts' : List Part} {names names' : List String}
    (h : Descends parts names) (h' : Descends parts' names') :
    Descends (parts ++ parts') (names ++ names') := by
  induction h with
  | nil => exact h'
  | stay _ ih => exact .stay ih
  | down _ ih => exact .down ih

lemma Descends.of_names (names : List String) : Descends (names.map Part.down) names := by
  induction names with
  | nil => exact .nil
  | cons name rest ih => exact .down ih

/-- The names on a path. -/
lemma Route.nameOnly {path : String} {names : List String} {last : String}
    (route : Route path names last) : ∀ name ∈ names ++ [last], NameOnly name := by
  obtain ⟨before, hbefore, hparts⟩ := route.parts
  intro name hname
  refine nameOnly_of_mem_namedParts route.noNul ?_
  rw [hparts]
  rcases List.mem_append.mp hname with hname | hname
  · exact List.mem_append_left _ (hbefore.mem hname)
  · obtain rfl := List.mem_singleton.mp hname
    simp

/-! ## Paths that spell names -/

lemma mem_intercalate {names : List String} {c : Char} (h : c ∈ ("/".intercalate names).toList) :
    c = '/' ∨ ∃ name ∈ names, c ∈ name.toList := by
  induction names with
  | nil => simp at h
  | cons name rest ih =>
      cases rest with
      | nil => exact .inr ⟨name, List.mem_cons_self, by simpa using h⟩
      | cons next rest =>
          rw [String.intercalate_cons_of_ne_nil (by simp)] at h
          simp only [String.toList_append, List.mem_append] at h
          rcases h with (h | h) | h
          · exact .inr ⟨name, List.mem_cons_self, h⟩
          · exact .inl (by simpa using h)
          · rcases ih h with h | ⟨other, hother, h⟩
            · exact .inl h
            · exact .inr ⟨other, List.mem_cons_of_mem _ hother, h⟩

/-- A path that starts with a name starts with a character of it. -/
lemma isAbsolute_intercalate {name : String} {names : List String} (h : NameOnly name) :
    isAbsolute ("/".intercalate (name :: names)) = false := by
  have hne : name.toList ≠ [] := fun hnil => h.noEmpty (String.toList_eq_nil_iff.mp hnil)
  obtain ⟨c, chars, hchars⟩ := List.exists_cons_of_ne_nil hne
  have hc : c ≠ '/' := by
    rintro rfl
    exact h.noSlash (by simp [hchars])
  have hhead : ("/".intercalate (name :: names)).toList.head? = some c := by
    cases names with
    | nil => simp [hchars]
    | cons next rest => simp [String.intercalate_cons_of_ne_nil, hchars]
  rw [isAbsolute, hhead]
  simpa using hc

/-- What a path has in front of its names. -/
def frontOf (path : String) : String := if isAbsolute path then "/" else ""

/-- **The path that spells names** leads along them, from where the path in front starts. -/
lemma route_of_names (path : String) {names : List String} {last : String}
    (h : ∀ name ∈ names ++ [last], NameOnly name) :
    Route (frontOf path ++ "/".intercalate (names ++ [last])) names last ∧
      isAbsolute (frontOf path ++ "/".intercalate (names ++ [last])) = isAbsolute path := by
  have noNul : '\x00' ∉ ("/".intercalate (names ++ [last])).toList := by
    intro hmem
    rcases mem_intercalate hmem with hmem | ⟨name, hname, hmem⟩
    · simp at hmem
    · exact (h name hname).noNul hmem
  have hparts : namedParts ("/".intercalate (names ++ [last])) =
      names.map Part.down ++ [.down last] := by simp [namedParts_intercalate h]
  have relative : isAbsolute ("/".intercalate (names ++ [last])) = false := by
    cases names with
    | nil => exact isAbsolute_intercalate (h last (by simp))
    | cons name rest => exact isAbsolute_intercalate (h name (by simp))
  rw [frontOf]
  split_ifs with absolute
  · refine ⟨⟨by simpa using noNul, _, .of_names names, ?_⟩, by rw [absolute]; simp [isAbsolute]⟩
    have := namedParts_append "" ("/".intercalate (names ++ [last]))
    simpa [show namedParts "" = [] by decide, hparts] using this
  · refine ⟨⟨by simpa using noNul, _, .of_names names, by simpa using hparts⟩, ?_⟩
    simpa [relative] using absolute

lemma Descends.filter_eq {segments names : List String}
    (h : Descends ((segments.filter (· ≠ "")).map AvroTypes.partOf) names) :
    segments.filter (fun segment => segment ≠ "" && segment ≠ ".") = names := by
  induction segments generalizing names with
  | nil =>
      cases h with
      | nil => rfl
  | cons segment rest ih =>
      by_cases empty : segment = ""
      · simpa [empty] using ih (by simpa [empty] using h)
      · rw [List.filter_cons_of_pos (by simpa using empty), List.map_cons, AvroTypes.partOf] at h
        split_ifs at h with dot dots
        · cases h with
          | stay h => simpa [dot] using ih h
        · cases h
        · cases h with
          | down h => simpa [empty, dot] using ih h

/-- The names on a path are its named segments. -/
lemma Route.namedSegments_eq {path : String} {names : List String} {last : String}
    (route : Route path names last) : namedSegments path = names ++ [last] := by
  obtain ⟨before, hbefore, hparts⟩ := route.parts
  have descends := hbefore.append (Descends.of_names [last])
  rw [List.map_singleton, ← hparts] at descends
  exact descends.filter_eq

/-- The paths to the directories that lead to the last of some names, the longest first. -/
def pathsAbove (front : String) (names : List String) : List String :=
  (List.range names.length).reverse.map fun count =>
    front ++ "/".intercalate (names.take (count + 1))

lemma pathsAbove_append (front : String) (names : List String) (last : String) :
    pathsAbove front (names ++ [last]) =
      (front ++ "/".intercalate (names ++ [last])) :: pathsAbove front names := by
  simp only [pathsAbove, List.length_append, List.length_singleton, List.range_succ,
    List.reverse_append, List.reverse_singleton, List.singleton_append, List.map_cons]
  have whole : (names ++ [last]).take (names.length + 1) = names ++ [last] :=
    List.take_of_length_le (by simp)
  refine congrArg₂ List.cons (by rw [whole]) (List.map_congr_left fun count hcount => ?_)
  have : count < names.length := by simpa using hcount
  rw [List.take_append_of_le_length this]

/-- **A path and the paths to the directories on the way.** -/
lemma Route.ancestorPaths_eq {path : String} {names : List String} {last : String}
    (route : Route path names last) :
    ancestorPaths path = path :: pathsAbove (frontOf path) names := by
  have nonempty : path.isEmpty = false := by simpa using route.ne_empty
  simp only [ancestorPaths, nonempty, Bool.false_eq_true, if_false, route.namedSegments_eq,
    pathsAbove, frontOf, List.length_append, List.length_singleton, Nat.add_sub_cancel]
  refine congrArg _ (List.map_congr_left fun count hcount => ?_)
  have : count < names.length := by simpa using hcount
  rw [List.take_append_of_le_length this]

/-- **A path that spells names**: those of directories, and that of what is in them. -/
structure Spells (path : String) (inside : List String) (leaf : String) : Prop where
  path_eq : path = "/".intercalate (inside ++ [leaf])
  nameOnly : ∀ name ∈ inside ++ [leaf], NameOnly name

lemma Spells.pathSegments_eq {path : String} {inside : List String} {leaf : String}
    (h : Spells path inside leaf) : pathSegments path = inside ++ [leaf] := by
  rw [h.path_eq]
  exact pathSegments_intercalate (by simp) fun name hname => (h.nameOnly name hname).noSlash

lemma Spells.namedSegments_eq {path : String} {inside : List String} {leaf : String}
    (h : Spells path inside leaf) : namedSegments path = inside ++ [leaf] := by
  rw [namedSegments, h.pathSegments_eq, List.filter_eq_self]
  intro name hname
  simp [(h.nameOnly name hname).noEmpty, (h.nameOnly name hname).noDot]

/-- Neither of two paths is on the way to the other. -/
def Apart (first second : String) : Prop :=
  ¬ namedSegments first <+: namedSegments second ∧ ¬ namedSegments second <+: namedSegments first

/-- Such a path is a plain relative one. -/
lemma Spells.isPlainRelative {path : String} {inside : List String} {leaf : String}
    (h : Spells path inside leaf) : isPlainRelative path = true := by
  have relative : isAbsolute path = false := by
    rw [h.path_eq]
    cases inside with
    | nil => exact isAbsolute_intercalate (h.nameOnly leaf (by simp))
    | cons name rest => exact isAbsolute_intercalate (h.nameOnly name (by simp))
  have noDot : (inside ++ [leaf]).head? ≠ some "." := by
    intro hhead
    exact (h.nameOnly _ (List.mem_of_head? hhead)).noDot rfl
  have noDots : ".." ∉ inside ++ [leaf] := fun hmem => (h.nameOnly _ hmem).noDots rfl
  simp only [AvroTypes.isPlainRelative, h.pathSegments_eq, h.namedSegments_eq, relative]
  simpa using ⟨by simpa using noDot, by simpa using noDots⟩

/-! ## Paths below a directory -/

lemma joinPath_eq {directory : String} (h : directory ≠ "") (name : String) :
    ∃ front, joinPath directory name = front ++ "/" ++ name ∧
      namedParts front = namedParts directory := by
  rw [joinPath]
  have hne : directory.isEmpty = false := by simpa using h
  by_cases slash : directory.toList.getLast? = some '/'
  · obtain ⟨front, hfront⟩ := List.getLast?_eq_some_iff.mp slash
    have hdirectory : directory = String.ofList front ++ "/" := by
      apply String.toList_injective
      simpa using hfront
    refine ⟨String.ofList front, by simp [slash, ← hdirectory], ?_⟩
    rw [hdirectory, namedParts_append_slash]
  · exact ⟨directory, by simp [hne, slash], rfl⟩

lemma exists_intercalate_append (inside : List String) (leaf : String) :
    ∃ front, "/".intercalate (inside ++ [leaf]) = front ++ leaf := by
  cases inside with
  | nil => exact ⟨"", by simp⟩
  | cons name rest =>
      refine ⟨"/".intercalate (name :: rest) ++ "/", ?_⟩
      rw [String.intercalate_append_of_ne_nil (by simp) (by simp), String.intercalate_singleton]

lemma joinPath_eq_or (directory name : String) :
    joinPath directory name = directory ++ name ∨
      joinPath directory name = directory ++ "/" ++ name := by
  rw [joinPath]
  split_ifs
  · exact .inl rfl
  · exact .inr rfl

lemma isAbsolute_append {path : String} (h : path ≠ "") (rest : String) :
    isAbsolute (path ++ rest) = isAbsolute path := by
  have hne : path.toList ≠ [] := fun hnil => h (String.toList_eq_nil_iff.mp hnil)
  obtain ⟨c, chars, hchars⟩ := List.exists_cons_of_ne_nil hne
  simp [isAbsolute, hchars]

/-- **The path of something below a directory** leads there by way of the directory. -/
lemma Route.below {path : String} {names : List String} {last : String}
    (route : Route path names last) {inside : List String} {leaf : String}
    (h : ∀ name ∈ inside ++ [leaf], NameOnly name) :
    Route (joinPath path ("/".intercalate (inside ++ [leaf]))) (names ++ [last] ++ inside) leaf ∧
      isAbsolute (joinPath path ("/".intercalate (inside ++ [leaf]))) = isAbsolute path ∧
      (joinPath path ("/".intercalate (inside ++ [leaf]))).toList.getLast? ≠ some '/' := by
  obtain ⟨before, hbefore, hparts⟩ := route.parts
  obtain ⟨front, hjoin, hfront⟩ := joinPath_eq route.ne_empty ("/".intercalate (inside ++ [leaf]))
  refine ⟨⟨?_, before ++ [.down last] ++ inside.map Part.down, ?_, ?_⟩, ?_, ?_⟩
  · have noNul : '\x00' ∉ ("/".intercalate (inside ++ [leaf])).toList := by
      intro hmem
      rcases mem_intercalate hmem with hmem | ⟨name, hname, hmem⟩
      · simp at hmem
      · exact (h name hname).noNul hmem
    rcases joinPath_eq_or path ("/".intercalate (inside ++ [leaf])) with heq | heq
    · rw [heq, String.toList_append, List.mem_append]
      exact not_or.mpr ⟨route.noNul, noNul⟩
    · rw [heq, String.toList_append, String.toList_append, List.mem_append, List.mem_append]
      exact not_or.mpr ⟨not_or.mpr ⟨route.noNul, by simp⟩, noNul⟩
  · exact (hbefore.append (.of_names [last])).append (.of_names inside)
  · rw [hjoin, namedParts_append, hfront, hparts, namedParts_intercalate h]
    simp [List.append_assoc]
  · rcases joinPath_eq_or path ("/".intercalate (inside ++ [leaf])) with heq | heq
    · rw [heq, isAbsolute_append route.ne_empty]
    · rw [heq, String.append_assoc, isAbsolute_append route.ne_empty]
  · -- the path ends with the last name, which has no slash in it
    obtain ⟨stem, hstem⟩ := exists_intercalate_append inside leaf
    have hleaf := h leaf (by simp)
    have hne : leaf.toList ≠ [] := fun hnil => hleaf.noEmpty (String.toList_eq_nil_iff.mp hnil)
    rw [hjoin, hstem, ← String.append_assoc, String.toList_append,
      List.getLast?_append_of_ne_nil _ hne]
    intro slash
    exact hleaf.noSlash (List.mem_of_getLast? slash)

/-- The path of the directory that holds such a thing. -/
lemma Route.directoryOf {path : String} {names : List String} {last : String}
    (route : Route path names last) {name : String} {inside : List String} {leaf : String}
    (h : Spells name inside leaf) :
    ∃ names' last', Route (directoryOf path name) names' last' ∧
      names' ++ [last'] = names ++ [last] ++ inside ∧
      isAbsolute (directoryOf path name) = isAbsolute path := by
  have hdrop : (namedSegments name).dropLast = inside := by
    rw [h.namedSegments_eq, List.dropLast_concat]
  rcases List.eq_nil_or_concat' inside with rfl | ⟨front, inner, rfl⟩
  · have same : AvroTypes.directoryOf path name = path := by simp [AvroTypes.directoryOf, hdrop]
    exact ⟨names, last, by rwa [same], by simp, by rw [same]⟩
  · have same : AvroTypes.directoryOf path name =
        joinPath path ("/".intercalate (front ++ [inner])) := by
      rw [AvroTypes.directoryOf, hdrop]
      split
      · next empty => simp at empty
      · rfl
    obtain ⟨route', absolute, -⟩ := route.below fun other hother =>
      h.nameOnly other (List.mem_append_left [leaf] hother)
    exact ⟨names ++ [last] ++ front, inner, by rwa [same], by simp, by rw [same, absolute]⟩

end AvroTypes
