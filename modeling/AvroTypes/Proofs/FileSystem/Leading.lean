import AvroTypes.Proofs.FileSystem.Naming

/-!
# Where a path that only goes down can lead

A path that goes up nowhere has one location that it can lead to, whatever the file system is: the
one that its names lead down to.  Following it comes to that location, or to nothing, as long as no
link is met on the way.  A link at the location itself does no harm if it is not followed.

* `Component`, `componentsOf` — what a path consists of, the way the check of file names sees it.
* `isPlainRelative_iff` — **the check of file names, said by components.**
* `Downward`, `FileSystem.locationOf` — the paths that only go down, and the location.
* `LeadsTo` — **what following such a path can come to.**
* `NoDetour`, `Straight` — paths on which no link is followed.
* `Straight.leadsTo_locateNamed`, `Straight.leadsTo_locate` — the ways of following them.
* `Downward.joinPath`, `Downward.directoryOf` — paths put together.
* `Straight.of_mem_ancestorPaths` — the paths to the directories on the way.
-/

namespace AvroTypes

/-! ## Components -/

/-- One component of a path. -/
inductive Component where
  /-- The slash that a path starts with. -/
  | root
  /-- The dot that a path starts with. -/
  | current
  /-- Two dots. -/
  | parent
  /-- Anything else between slashes. -/
  | normal (name : String)
  deriving DecidableEq, Repr

/-- The component that a named segment is. -/
def Component.ofSegment (segment : String) : Component :=
  if segment = ".." then .parent else .normal segment

/-- **The components of a path.**  Nothing between slashes counts for nothing, and so does a dot
unless the path starts with it. -/
def componentsOf (path : String) : List Component :=
  (if isAbsolute path then [.root] else [])
    ++ (if (pathSegments path).head? = some "." then [.current] else [])
    ++ (namedSegments path).map Component.ofSegment

lemma Component.parent_mem_iff {path : String} :
    Component.parent ∈ componentsOf path ↔ ".." ∈ pathSegments path := by
  have front : Component.parent ∈ componentsOf path ↔
      Component.parent ∈ (namedSegments path).map Component.ofSegment := by
    rw [componentsOf]
    split_ifs <;> simp
  rw [front, List.mem_map]
  constructor
  · rintro ⟨segment, hsegment, hparent⟩
    rw [Component.ofSegment] at hparent
    split_ifs at hparent with dots
    exact dots ▸ List.mem_of_mem_filter hsegment
  · intro hmem
    exact ⟨"..", List.mem_filter.mpr ⟨hmem, by decide⟩, by decide⟩

lemma Component.normal_mem_iff {path name : String} :
    Component.normal name ∈ componentsOf path ↔ name ∈ namedSegments path ∧ name ≠ ".." := by
  have front : Component.normal name ∈ componentsOf path ↔
      Component.normal name ∈ (namedSegments path).map Component.ofSegment := by
    rw [componentsOf]
    split_ifs <;> simp
  rw [front, List.mem_map]
  constructor
  · rintro ⟨segment, hsegment, hnormal⟩
    rw [Component.ofSegment] at hnormal
    split_ifs at hnormal with dots
    obtain rfl := Component.normal.inj hnormal
    exact ⟨hsegment, dots⟩
  · rintro ⟨hmem, other⟩
    exact ⟨name, hmem, if_neg other⟩

/-- **A file name is accepted exactly if it has components and all of them are normal.** -/
theorem isPlainRelative_iff {path : String} :
    isPlainRelative path = true ↔
      componentsOf path ≠ [] ∧
        ∀ component ∈ componentsOf path, ∃ name, component = .normal name := by
  simp only [isPlainRelative, Bool.and_eq_true, Bool.not_eq_true', List.contains_eq_mem,
    decide_eq_true_eq, decide_eq_false_iff_not, List.isEmpty_eq_false_iff]
  constructor
  · rintro ⟨⟨⟨relative, noDot⟩, noDots⟩, named⟩
    have components : componentsOf path = (namedSegments path).map Component.ofSegment := by
      simp [componentsOf, relative, noDot]
    refine ⟨by simpa [components] using named, fun component hcomponent => ?_⟩
    rw [components] at hcomponent
    obtain ⟨segment, hsegment, rfl⟩ := List.mem_map.mp hcomponent
    have other : segment ≠ ".." := fun dots => noDots (dots ▸ List.mem_of_mem_filter hsegment)
    exact ⟨segment, if_neg other⟩
  · rintro ⟨some, normal⟩
    have relative : isAbsolute path = false := by
      by_contra absolute
      have : Component.root ∈ componentsOf path := by
        simp [componentsOf, Bool.not_eq_false _ ▸ absolute]
      simpa using normal _ this
    have noDot : (pathSegments path).head? ≠ .some "." := by
      intro dot
      have : Component.current ∈ componentsOf path := by simp [componentsOf, dot]
      simpa using normal _ this
    refine ⟨⟨⟨relative, noDot⟩, fun dots => ?_⟩, ?_⟩
    · simpa using normal _ (Component.parent_mem_iff.mpr dots)
    · simpa [componentsOf, relative, noDot] using some

/-! ## Paths that only go down -/

/-- **A path that goes up nowhere and down somewhere.** -/
structure Downward (path : String) : Prop where
  noUp : Part.up ∉ namedParts path
  named : namedSegments path ≠ []

/-- The location that the names on a path lead down to. -/
def FileSystem.locationOf (fs : FileSystem) (path : String) : List String :=
  fs.start path ++ namedSegments path

lemma up_mem_namedParts_iff {path : String} :
    Part.up ∈ namedParts path ↔ ".." ∈ pathSegments path := by
  constructor
  · intro hmem
    obtain ⟨segment, hsegment, hup⟩ := List.mem_map.mp hmem
    rw [partOf] at hup
    split_ifs at hup with dot dots
    exact dots ▸ List.mem_of_mem_filter hsegment
  · intro hmem
    exact List.mem_map.mpr ⟨"..", List.mem_filter.mpr ⟨hmem, by decide⟩, by decide⟩

lemma downward_of_components {path : String} (noParent : .parent ∉ componentsOf path)
    (named : ∃ name, .normal name ∈ componentsOf path) : Downward path where
  noUp hup := noParent (Component.parent_mem_iff.mpr (up_mem_namedParts_iff.mp hup))
  named := by
    obtain ⟨name, hname⟩ := named
    exact List.ne_nil_of_mem (Component.normal_mem_iff.mp hname).1

lemma downward_of_isPlainRelative {path : String} (h : isPlainRelative path = true) :
    Downward path := by
  simp only [isPlainRelative, Bool.and_eq_true, Bool.not_eq_true', List.contains_eq_mem,
    decide_eq_false_iff_not, List.isEmpty_eq_false_iff] at h
  exact ⟨fun hup => h.1.2 (up_mem_namedParts_iff.mp hup), h.2⟩

lemma Downward.ne_empty {path : String} (h : Downward path) : path ≠ "" := by
  rintro rfl
  exact h.named (by decide)

/-- The parts of such a path lead down along its named segments. -/
lemma Downward.descends {path : String} (h : Downward path) :
    Descends (namedParts path) (namedSegments path) := by
  obtain ⟨names, hnames⟩ := exists_descends h.noUp
  have same : namedSegments path = names := hnames.filter_eq
  exact same ▸ hnames

lemma Route.locationOf_eq {path : String} {names : List String} {last : String}
    (route : Route path names last) (fs : FileSystem) :
    fs.locationOf path = fs.start path ++ names ++ [last] := by
  rw [FileSystem.locationOf, route.namedSegments_eq, List.append_assoc]

/-! ## Where following leads -/

/-- **What following a path to a location can come to**: the entry there, or the name that is free
there, or a failure; and if that is for want of something, there is nothing at the location. -/
def LeadsTo (fs : FileSystem) (location : List String) : Except IoError Place → Prop
  | .ok (.found place entry) => place = location ∧ fs.root.at? location = some entry
  | .ok (.free directory name) => directory ++ [name] = location ∧ fs.look location = none
  | .error error => error = .notFound → fs.look location = none

/-- No link is met on the way from a directory to a location, unless at the end, unfollowed. -/
structure Unmet (fs : FileSystem) (followLast : Bool) (here names : List String)
    (parts : List Part) : Prop where
  above : ∀ front, front <+: names → front ≠ names → ∀ target,
    fs.look (here ++ front) ≠ some (.link target)
  atEnd : ∀ target, fs.look (here ++ names) = some (.link target) →
    followLast = false ∧ ∃ name, parts.getLast? = some (.down name)

lemma Descends.eq_nil {names : List String} (h : Descends [] names) : names = [] := by
  cases h
  rfl

/-- Parts that lead nowhere do not end with a name. -/
lemma Descends.getLast?_ne {parts : List Part} (h : Descends parts []) (name : String) :
    parts.getLast? ≠ some (.down name) := by
  intro hlast
  generalize hnames : ([] : List String) = names at h
  have hmem := List.mem_of_getLast? hlast
  induction h with
  | nil => simp at hmem
  | @stay parts names rest ih =>
      cases parts with
      | nil => simp at hlast
      | cons part parts =>
          rw [List.getLast?_cons_cons] at hlast
          exact ih hlast hnames (List.mem_of_getLast? hlast)
  | down rest ih => simp at hnames

section

variable {fs : FileSystem} {followLast : Bool} {parts : List Part} {here names : List String}
  {jump : List String → List Part → Except IoError Place}

/-- What is met after going down to a directory. -/
lemma Unmet.next {name : String}
    (h : Unmet fs followLast here (name :: names) (.down name :: parts))
    (descends : Descends parts names)
    (directory : fs.look (here ++ [name]) = some .directory) :
    Unmet fs followLast (here ++ [name]) names parts where
  above front hfront shorter target := by
    have := h.above (name :: front) ((List.prefix_cons_inj name).mpr hfront)
      (by simpa using shorter)
    simpa using this target
  atEnd target hlink := by
    obtain ⟨unfollowed, last, hlast⟩ := h.atEnd target (by simpa using hlink)
    refine ⟨unfollowed, last, ?_⟩
    cases parts with
    | nil =>
        obtain rfl := descends.eq_nil
        simp [directory] at hlink
    | cons part rest => simpa [List.getLast?_cons_cons] using hlast

/-- A link is only met at the end, and is not followed there. -/
lemma Unmet.last {name target : String}
    (h : Unmet fs followLast here (name :: names) (.down name :: parts))
    (descends : Descends parts names) (hlink : fs.look (here ++ [name]) = some (.link target)) :
    names = [] ∧ parts = [] ∧ followLast = false := by
  obtain rfl : names = [] := by
    by_contra more
    exact h.above [name] ((List.prefix_cons_inj name).mpr List.nil_prefix)
      (by simpa using Ne.symm more) target hlink
  obtain ⟨unfollowed, last, hlast⟩ := h.atEnd target hlink
  refine ⟨rfl, ?_, unfollowed⟩
  by_contra more
  obtain ⟨part, parts, rfl⟩ := List.exists_cons_of_ne_nil more
  rw [List.getLast?_cons_cons] at hlast
  exact descends.getLast?_ne last hlast

/-- **Following parts that lead down along some names**, by induction on the parts. -/
lemma Descends.leadsTo (h : Descends parts names) (unmet : Unmet fs followLast here names parts) :
    LeadsTo fs (here ++ names) (followParts fs.root followLast jump here parts) := by
  induction h generalizing here with
  | nil =>
      rw [List.append_nil, followParts]
      cases hentry : fs.root.at? here with
      | none => exact fun _ => by rw [FileSystem.look, hentry]; rfl
      | some entry => exact ⟨rfl, hentry⟩
  | @stay parts names rest ih =>
      rw [followParts]
      refine ih ⟨unmet.above, fun target hlink => ?_⟩
      obtain ⟨unfollowed, last, hlast⟩ := unmet.atEnd target hlink
      refine ⟨unfollowed, last, ?_⟩
      cases parts with
      | nil => simp at hlast
      | cons part rest => simpa [List.getLast?_cons_cons] using hlast
  | @down parts name names rest ih =>
      have below : here ++ [name] <+: here ++ name :: names := ⟨names, by simp⟩
      have noMore : parts.isEmpty = true → names = [] := by
        intro empty
        obtain rfl := List.isEmpty_iff.mp empty
        exact rest.eq_nil
      by_cases tooLong : nameLimit < name.utf8ByteSize
      · simp only [followParts, if_pos tooLong]
        exact fun other => by cases other
      cases hentry : fs.root.at? (here ++ [name]) with
      | none =>
          have free : fs.look (here ++ name :: names) = none :=
            FileSystem.look_eq_none_below (by rw [FileSystem.look, hentry]; rfl) below
          simp only [followParts, if_neg tooLong, hentry]
          split_ifs with last
          · obtain rfl := noMore last
            exact ⟨rfl, free⟩
          · exact fun _ => free
      | some entry =>
          cases entry with
          | directory entries =>
              have directory := FileSystem.look_eq_directory_iff.mpr ⟨entries, hentry⟩
              have further := ih (unmet.next rest directory)
              rw [← List.append_cons] at further
              simpa only [followParts, if_neg tooLong, hentry] using further
          | file bytes =>
              simp only [followParts, if_neg tooLong, hentry]
              split_ifs with last
              · obtain rfl := noMore last
                exact ⟨rfl, hentry⟩
              · exact fun other => by cases other
          | link target =>
              have hlink : fs.look (here ++ [name]) = some (.link target) := by
                rw [FileSystem.look, hentry]
                rfl
              obtain ⟨rfl, empty, unfollowed⟩ := unmet.last rest hlink
              simp only [followParts, if_neg tooLong, hentry, empty, unfollowed, List.isEmpty_nil,
                Bool.not_false, Bool.and_self, if_true]
              exact ⟨rfl, hentry⟩

end

/-- **No link is followed on the way to the location of a path.**  None stands above the location,
and if there is one at the location itself, the path ends with its name, so that it is not
followed. -/
structure NoDetour (fs : FileSystem) (path : String) : Prop where
  above : ∀ front, front <+: fs.locationOf path → front ≠ fs.locationOf path → ∀ target,
    fs.look front ≠ some (.link target)
  atEnd : ∀ target, fs.look (fs.locationOf path) = some (.link target) →
    ∃ name, (partsOf path).getLast? = some (.down name)

/-- **A path that leads straight down to its location.** -/
structure Straight (fs : FileSystem) (path : String) : Prop
    extends Downward path, NoDetour fs path

section

variable {fs : FileSystem} {path : String}

lemma Downward.leadsTo_follow (h : Downward path) {followLast : Bool} {parts : List Part}
    (descends : Descends parts (namedSegments path))
    (unmet : Unmet fs followLast (fs.start path) (namedSegments path) parts) :
    LeadsTo fs (fs.locationOf path) (fs.follow followLast path parts) := by
  have nonempty : path.isEmpty = false := by simpa using h.ne_empty
  rw [FileSystem.follow, if_neg (by simp [nonempty] : ¬ path.isEmpty = true)]
  split_ifs
  · exact fun other => by cases other
  · exact fun other => by cases other
  · exact descends.leadsTo unmet

/-- A slash at the end of a path leads nowhere else. -/
lemma Downward.descends_partsOf (h : Downward path) :
    Descends (partsOf path) (namedSegments path) := by
  have whole := h.descends
  rw [partsOf]
  split_ifs
  · simpa using whole.append (.stay .nil)
  · simpa using whole

lemma namedParts_eq_of_getLast? {name : String}
    (h : (partsOf path).getLast? = some (.down name)) : namedParts path = partsOf path := by
  rw [partsOf] at h ⊢
  split_ifs at h ⊢ with slash
  · simp at h
  · simp

/-- What a straight path names. -/
lemma Straight.leadsTo_locateNamed (h : Straight fs path) :
    LeadsTo fs (fs.locationOf path) (fs.locateNamed path) := by
  refine h.leadsTo_follow h.descends ⟨fun front hfront shorter => ?_, fun target hlink => ?_⟩
  · exact h.above _ ((List.prefix_append_right_inj _).mpr hfront)
      (by simpa [FileSystem.locationOf] using shorter)
  · obtain ⟨name, hlast⟩ := h.atEnd target hlink
    exact ⟨rfl, name, namedParts_eq_of_getLast? hlast ▸ hlast⟩

/-- Where a straight path leads, if a link at its end is not followed. -/
lemma Straight.leadsTo_locate (h : Straight fs path) :
    LeadsTo fs (fs.locationOf path) (fs.locate false path) := by
  refine h.leadsTo_follow h.descends_partsOf
    ⟨fun front hfront shorter => ?_, fun target hlink => ?_⟩
  · exact h.above _ ((List.prefix_append_right_inj _).mpr hfront)
      (by simpa [FileSystem.locationOf] using shorter)
  · exact ⟨rfl, h.atEnd target hlink⟩

/-- Where a path leads on which there is no link at all. -/
lemma Downward.leadsTo_locate (h : Downward path)
    (unlinked : ∀ front, front <+: fs.locationOf path → ∀ target,
      fs.look front ≠ some (.link target)) (followLast : Bool) :
    LeadsTo fs (fs.locationOf path) (fs.locate followLast path) := by
  refine h.leadsTo_follow h.descends_partsOf ⟨fun front hfront _ => ?_, fun target hlink => ?_⟩
  · exact unlinked _ ((List.prefix_append_right_inj _).mpr hfront)
  · exact absurd hlink (unlinked _ List.prefix_rfl target)

end

/-! ## Paths put together -/

lemma Descends.up_not_mem {parts : List Part} {names : List String} (h : Descends parts names) :
    Part.up ∉ parts := by
  induction h with
  | nil => simp
  | stay _ ih => simpa using ih
  | down _ ih => simpa using ih

lemma Route.downward {path : String} {names : List String} {last : String}
    (route : Route path names last) : Downward path := by
  obtain ⟨before, hbefore, hparts⟩ := route.parts
  refine ⟨?_, by simp [route.namedSegments_eq]⟩
  rw [hparts]
  exact (hbefore.append (.of_names [last])).up_not_mem

section

variable {path name : String}

/-- **A path below a directory** leads down by way of the directory. -/
lemma Downward.joinPath (h : Downward path) (h' : Downward name) :
    Downward (joinPath path name) ∧
      namedSegments (joinPath path name) = namedSegments path ++ namedSegments name ∧
      isAbsolute (joinPath path name) = isAbsolute path := by
  obtain ⟨front, hjoin, hfront⟩ := joinPath_eq h.ne_empty name
  have hparts : namedParts (AvroTypes.joinPath path name) = namedParts path ++ namedParts name := by
    rw [hjoin, namedParts_append, hfront]
  have hnames : namedSegments (AvroTypes.joinPath path name) =
      namedSegments path ++ namedSegments name := by
    have descends := h.descends.append h'.descends
    rw [← hparts] at descends
    exact descends.filter_eq
  refine ⟨⟨?_, ?_⟩, hnames, ?_⟩
  · rw [hparts, List.mem_append]
    exact not_or.mpr ⟨h.noUp, h'.noUp⟩
  · rw [hnames]
    simp [h.named]
  · rcases joinPath_eq_or path name with heq | heq
    · rw [heq, isAbsolute_append h.ne_empty]
    · rw [heq, String.append_assoc, isAbsolute_append h.ne_empty]

/-- The path of names taken from another path. -/
lemma Downward.intercalate (h : Downward name) {names : List String} (some : names ≠ [])
    (sub : names ⊆ namedSegments name) :
    Downward ("/".intercalate names) ∧ namedSegments ("/".intercalate names) = names := by
  have noSlash : ∀ segment ∈ names, '/' ∉ segment.toList := by
    intro segment hsegment
    obtain ⟨chars, hchars, rfl⟩ := List.mem_map.mp (List.mem_of_mem_filter (sub hsegment))
    simpa using (Text.mem_of_mem_splitOn hchars).1
  have hsegments := pathSegments_intercalate some noSlash
  have hnames : namedSegments ("/".intercalate names) = names := by
    rw [namedSegments, hsegments, List.filter_eq_self]
    exact fun segment hsegment => (List.mem_filter.mp (sub hsegment)).2
  refine ⟨⟨fun up => ?_, by rwa [hnames]⟩, hnames⟩
  rw [up_mem_namedParts_iff, hsegments] at up
  exact h.noUp (up_mem_namedParts_iff.mpr (List.mem_of_mem_filter (sub up)))

/-- The path of the directory that holds what a path below a directory leads to. -/
lemma Downward.directoryOf (h : Downward path) (h' : Downward name) :
    Downward (directoryOf path name) ∧
      namedSegments (directoryOf path name) =
        namedSegments path ++ (namedSegments name).dropLast ∧
      isAbsolute (directoryOf path name) = isAbsolute path := by
  rw [AvroTypes.directoryOf]
  split
  · next none => exact ⟨h, by rw [none, List.append_nil], rfl⟩
  · next some =>
      obtain ⟨inside, hinside⟩ := h'.intercalate some (List.dropLast_subset _)
      have joined := h.joinPath inside
      rwa [hinside] at joined

end

/-! ## The directories on the way -/

/-- A location above another one, as that of a path. -/
lemma straight_of_above {fs : FileSystem} {path other : String} (h : Straight fs path)
    (downward : Downward other) (above : fs.locationOf other <+: fs.locationOf path)
    (shorter : fs.locationOf other ≠ fs.locationOf path) : Straight fs other where
  toDownward := downward
  above front hfront _ := by
    refine h.above front (hfront.trans above) ?_
    rintro rfl
    exact shorter (above.eq_of_length_le hfront.length_le)
  atEnd target hlink := absurd hlink (h.above _ above shorter target)

/-- **The paths to the directories on the way** are straight, and lead to locations above. -/
lemma Straight.of_mem_ancestorPaths {fs : FileSystem} {path other : String} (h : Straight fs path)
    (noNul : '\x00' ∉ path.toList) (hother : other ∈ ancestorPaths path) :
    Straight fs other ∧ fs.locationOf other <+: fs.locationOf path := by
  have nonempty : path.isEmpty = false := by simpa using h.ne_empty
  rw [ancestorPaths, nonempty, if_neg Bool.false_ne_true, List.mem_cons, List.mem_map] at hother
  rcases hother with rfl | ⟨count, hcount, rfl⟩
  · exact ⟨h, List.prefix_rfl⟩
  have inside : count + 1 < (namedSegments path).length := by
    have := List.mem_range.mp (List.mem_reverse.mp hcount)
    omega
  obtain ⟨names, last, htake⟩ : ∃ names last, (namedSegments path).take (count + 1) =
      names ++ [last] := by
    rcases List.eq_nil_or_concat' ((namedSegments path).take (count + 1)) with none | some
    · rw [List.take_eq_nil_iff] at none
      exact absurd none (by simp [h.named])
    · exact some
  have nameOnly : ∀ name ∈ names ++ [last], NameOnly name := by
    intro name hname
    rw [← htake] at hname
    exact nameOnly_of_mem_namedParts noNul (h.descends.mem (List.mem_of_mem_take hname))
  obtain ⟨route, absolute⟩ := route_of_names path nameOnly
  have place : fs.locationOf (frontOf path ++ "/".intercalate (names ++ [last])) =
      fs.start path ++ (namedSegments path).take (count + 1) := by
    rw [FileSystem.locationOf, route.namedSegments_eq, FileSystem.start, absolute, htake]
    rfl
  have onTheWay : fs.start path ++ (namedSegments path).take (count + 1) <+:
      fs.locationOf path := (List.prefix_append_right_inj _).mpr (List.take_prefix _ _)
  have shorter : fs.start path ++ (namedSegments path).take (count + 1) ≠ fs.locationOf path := by
    intro same
    have := congrArg List.length (List.append_cancel_left same)
    rw [List.length_take] at this
    omega
  rw [← place] at onTheWay shorter
  rw [htake]
  exact ⟨straight_of_above h route.downward onTheWay shorter, onTheWay⟩

end AvroTypes
