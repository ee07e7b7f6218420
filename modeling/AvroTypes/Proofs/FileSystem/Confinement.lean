import AvroTypes.Proofs.FileSystem.Clearing
import AvroTypes.Proofs.FileSystem.Leading

/-!
# Changes that stay in one place

Each operation on a file system changes something at the location of its path, if anything, and
nowhere else; only the directories that lead there may come into being.  That rests on links: none
is met on the way to the location, none is left at the location once it has been removed, and none
is ever made.

* `Confined` — **the changes that are allowed.**
* `Grown` — directories where nothing was, on the way to a location.
* `FreeOfLinks` — a location without links above it, at it or below it.
* `Straight.createDirectories_grown`, `Straight.removeAll_confined`, `Downward.writeBytes_confined`
  — **each operation.**
-/

namespace AvroTypes

/-- **Changes at a location and below it only.**  Elsewhere a directory may have come into being on
the way to the location, where nothing was.  And nowhere there is a link that was not there. -/
structure Confined (fs fs' : FileSystem) (location : List String) : Prop where
  workingDirectory : fs'.workingDirectory = fs.workingDirectory
  elsewhere : ∀ p, ¬ location <+: p → fs'.look p = fs.look p ∨
    p <+: location ∧ fs.look p = none ∧ fs'.look p = some .directory
  links : ∀ p target, fs'.look p = some (.link target) → fs.look p = some (.link target)

/-- Directories on the way to a location, where nothing was. -/
structure Grown (fs grown : FileSystem) (location : List String) : Prop where
  workingDirectory : grown.workingDirectory = fs.workingDirectory
  look : ∀ p, grown.look p = fs.look p ∨
    p <+: location ∧ fs.look p = none ∧ grown.look p = some .directory

section

variable {fs fs' fs'' : FileSystem} {location rest : List String}

lemma Confined.refl (fs : FileSystem) (location : List String) : Confined fs fs location :=
  ⟨rfl, fun _ _ => .inl rfl, fun _ _ hlink => hlink⟩

lemma Confined.trans (h : Confined fs fs' location) (h' : Confined fs' fs'' location) :
    Confined fs fs'' location where
  workingDirectory := h'.workingDirectory.trans h.workingDirectory
  elsewhere p hp := by
    rcases h'.elsewhere p hp with same | ⟨above, free, made⟩
    · rw [same]
      exact h.elsewhere p hp
    · rcases h.elsewhere p hp with same | ⟨-, -, made'⟩
      · exact .inr ⟨above, same ▸ free, made⟩
      · simp [made'] at free
  links p target hlink := h.links p target (h'.links p target hlink)

/-- What is below a location is also below what is above it. -/
lemma Confined.of_below (h : Confined fs fs' (location ++ rest)) : Confined fs fs' location where
  workingDirectory := h.workingDirectory
  elsewhere p hp := by
    have outside : ¬ location ++ rest <+: p := fun below =>
      hp ((List.prefix_append _ _).trans below)
    refine (h.elsewhere p outside).imp_right fun ⟨above, free, made⟩ => ⟨?_, free, made⟩
    exact (List.prefix_or_prefix_of_prefix above (List.prefix_append _ _)).resolve_right hp
  links := h.links

lemma Grown.refl (fs : FileSystem) (location : List String) : Grown fs fs location :=
  ⟨rfl, fun _ => .inl rfl⟩

lemma Grown.trans (h : Grown fs fs' location) (h' : Grown fs' fs'' location) :
    Grown fs fs'' location where
  workingDirectory := h'.workingDirectory.trans h.workingDirectory
  look p := by
    rcases h'.look p with same | ⟨above, free, made⟩
    · rw [same]
      exact h.look p
    · rcases h.look p with same | ⟨-, -, made'⟩
      · exact .inr ⟨above, same ▸ free, made⟩
      · simp [made'] at free

lemma Grown.of_above (h : Grown fs fs' location) {below : List String}
    (above : location <+: below) : Grown fs fs' below :=
  ⟨h.workingDirectory, fun p => (h.look p).imp_right fun ⟨hp, new⟩ => ⟨hp.trans above, new⟩⟩

lemma Grown.confined (h : Grown fs fs' location) : Confined fs fs' location where
  workingDirectory := h.workingDirectory
  elsewhere p _ := h.look p
  links p target hlink := by
    rcases h.look p with same | ⟨-, -, made⟩
    · exact same ▸ hlink
    · simp [made] at hlink

lemma locationOf_eq_of_workingDirectory (same : fs'.workingDirectory = fs.workingDirectory)
    (path : String) : fs'.locationOf path = fs.locationOf path := by
  rw [FileSystem.locationOf, FileSystem.locationOf, start_eq_of_workingDirectory same rfl]

/-- A path stays straight as long as no link is made. -/
lemma Straight.of_confined {path : String} (h : Straight fs path) (h' : Confined fs fs' location) :
    Straight fs' path := by
  have place := locationOf_eq_of_workingDirectory h'.workingDirectory path
  refine ⟨h.toDownward, fun front hfront shorter target hlink => ?_, fun target hlink => ?_⟩
  · rw [place] at hfront shorter
    exact h.above front hfront shorter target (h'.links _ _ hlink)
  · rw [place] at hlink
    exact h.atEnd target (h'.links _ _ hlink)

end

/-! ## Putting something at a location -/

section

variable {fs : FileSystem} {location above : List String} {name : String}

/-- A directory in a directory, or nothing at all. -/
lemma grown_put (free : fs.look (above ++ [name]) = none) :
    Grown fs (fs.put (above ++ [name]) (some (.directory []))) (above ++ [name]) := by
  by_cases directory : fs.look above = some .directory
  · obtain ⟨same, look⟩ := FileSystem.made_put directory free
    refine ⟨same, fun p => ?_⟩
    rw [look]
    split_ifs with onTheWay
    · rcases List.prefix_concat_iff.mp onTheWay with rfl | hp
      · exact .inr ⟨List.prefix_rfl, free, rfl⟩
      · exact .inl (FileSystem.look_of_directory_below directory hp).symm
    · exact .inl rfl
  · exact ⟨rfl, fun p => .inl (FileSystem.look_put_nowhere directory p)⟩

/-- A file in a directory, or an empty directory in the place of what was there, or nothing at
all. -/
lemma confined_put {new : Entry} (bare : ∀ name rest, new.at? (name :: rest) = none)
    (unlinked : ∀ target, new.shape ≠ .link target) :
    Confined fs (fs.put (above ++ [name]) (some new)) (above ++ [name]) := by
  by_cases directory : fs.look above = some .directory
  · have look := @FileSystem.look_put _ _ name new bare directory
    refine ⟨rfl, fun p hp => .inl ?_, fun p target hlink => ?_⟩
    · rw [look, if_neg hp, if_neg]
      rintro rfl
      exact hp List.prefix_rfl
    · rw [look] at hlink
      split_ifs at hlink
      · exact absurd (Option.some.inj hlink) (unlinked target)
      · exact hlink
  · have look := @FileSystem.look_put_nowhere _ _ name (some new) directory
    exact ⟨rfl, fun p _ => .inl (look p), fun p target hlink => look p ▸ hlink⟩

/-- Nothing in the place of what was there. -/
lemma confined_put_none {entries : List (String × Entry)}
    (found : fs.root.at? above = some (.directory entries)) (ordered : InOrder entries) :
    Confined fs (fs.put (above ++ [name]) none) (above ++ [name]) := by
  have look := @FileSystem.look_put_none _ _ name _ found ordered
  refine ⟨rfl, fun p hp => .inl ?_, fun p target hlink => ?_⟩
  · rw [look, if_neg hp]
  · rw [look] at hlink
    split_ifs at hlink
    exact hlink

end

/-! ## Making directories -/

lemma Downward.exists_concat {path : String} (h : Downward path) (fs : FileSystem) :
    ∃ above name, fs.locationOf path = above ++ [name] := by
  obtain ⟨front, last, hnames⟩ :=
    (List.eq_nil_or_concat' (namedSegments path)).resolve_left h.named
  exact ⟨fs.start path ++ front, last, by rw [FileSystem.locationOf, hnames, List.append_assoc]⟩

namespace Straight

variable {fs : FileSystem} {path : String}

/-- What is made at a straight path is made at its location, where nothing was. -/
lemma create_grown (h : Straight fs path) {made : FileSystem}
    (hmade : fs.create path (.directory []) = .ok made) :
    fs.look (fs.locationOf path) = none ∧ Grown fs made (fs.locationOf path) := by
  have leads := h.leadsTo_locateNamed
  rw [FileSystem.create] at hmade
  cases hlocated : fs.locateNamed path with
  | error error =>
      rw [hlocated] at hmade
      cases hmade
  | ok place =>
      rw [hlocated] at leads hmade
      cases place with
      | found location entry => cases hmade
      | free directory name =>
          obtain ⟨place, free⟩ := leads
          obtain rfl : fs.put (directory ++ [name]) (some (.directory [])) = made :=
            Except.ok.inj hmade
          rw [← place] at free ⊢
          exact ⟨free, grown_put free⟩

/-- It cannot be made for want of something above only if there is nothing at the location. -/
lemma look_of_create_notFound (h : Straight fs path) {new : Entry}
    (missing : fs.create path new = .error .notFound) : fs.look (fs.locationOf path) = none := by
  have leads := h.leadsTo_locateNamed
  rw [FileSystem.create] at missing
  cases hlocated : fs.locateNamed path with
  | error error =>
      rw [hlocated] at leads missing
      exact leads (Except.error.inj missing)
  | ok place =>
      rw [hlocated] at missing
      cases place with
      | found location entry => cases missing
      | free directory name => cases missing

/-- What is made, or was there already. -/
lemma ensureDirectory_grown (h : Straight fs path) {made : FileSystem}
    (hmade : fs.ensureDirectory path = .ok made) : Grown fs made (fs.locationOf path) := by
  rw [FileSystem.ensureDirectory] at hmade
  cases hcreate : fs.create path (.directory []) with
  | ok created =>
      rw [hcreate] at hmade
      obtain rfl : created = made := Except.ok.inj hmade
      exact (h.create_grown hcreate).2
  | error error =>
      rw [hcreate] at hmade
      dsimp only at hmade
      split_ifs at hmade
      obtain rfl : fs = made := Except.ok.inj hmade
      exact .refl fs _

/-- **Directories made one above the other**, by induction on the paths to them. -/
lemma createChain_grown {paths : List String} {location : List String}
    (straight : ∀ path ∈ paths, Straight fs path ∧ fs.locationOf path <+: location) :
    Grown fs (fs.createChain paths).2 location := by
  induction paths with
  | nil => exact .refl fs location
  | cons path paths ih =>
      obtain ⟨hpath, above⟩ := straight path List.mem_cons_self
      cases hensure : fs.ensureDirectory path with
      | ok made =>
          rw [FileSystem.createChain, hensure]
          exact (hpath.ensureDirectory_grown hensure).of_above above
      | error error =>
          by_cases missing : error = .notFound
          · subst missing
            have ih := ih fun other hother => straight other (List.mem_cons_of_mem path hother)
            cases hchain : fs.createChain paths with
            | mk result made =>
                rw [hchain] at ih
                cases result with
                | error error => simpa [FileSystem.createChain, hensure, hchain] using ih
                | ok _ =>
                    have hpath' := hpath.of_confined ih.confined
                    have place := locationOf_eq_of_workingDirectory ih.workingDirectory path
                    cases hagain : made.ensureDirectory path with
                    | error error =>
                        simpa [FileSystem.createChain, hensure, hchain, hagain] using ih
                    | ok done =>
                        have grown := (hpath'.ensureDirectory_grown hagain).of_above (place ▸ above)
                        simpa [FileSystem.createChain, hensure, hchain, hagain] using ih.trans grown
          · have stays : fs.createChain (path :: paths) = (.error error, fs) := by
              rw [FileSystem.createChain, hensure]
              cases error with
              | notFound => exact absurd rfl missing
              | _ => rfl
            rw [stays]
            exact .refl fs location

/-- **A directory is made with all that lead to it**, and if that fails, some of those may have
been. -/
theorem createDirectories_grown (h : Straight fs path) :
    Grown fs (fs.createDirectories path).2 (fs.locationOf path) := by
  by_cases nul : '\x00' ∈ path.toList
  · rw [Route.createDirectories_fails (ensureDirectory_of_nul fs nul) (by simp)]
    exact .refl fs _
  · exact createChain_grown fun other hother => h.of_mem_ancestorPaths nul hother

/-- Where a path leads nowhere, a directory is made only if nothing stands there, not even a
link. -/
lemma look_of_createDirectories (h : Straight fs path) {error : IoError}
    (nowhere : fs.entry true path = .error error) (made : (fs.createDirectories path).1 = .ok ()) :
    fs.look (fs.locationOf path) = none := by
  have nonempty : path.isEmpty = false := by simpa using h.ne_empty
  have other : fs.isDirectory path = false := by rw [FileSystem.isDirectory, nowhere]
  cases hcreate : fs.create path (.directory []) with
  | ok created => exact (h.create_grown hcreate).1
  | error stop =>
      by_cases missing : stop = .notFound
      · exact h.look_of_create_notFound (missing ▸ hcreate)
      · have hensure : fs.ensureDirectory path = .error stop := by
          simp [FileSystem.ensureDirectory, hcreate, other]
        rw [Route.createDirectories_fails hensure missing] at made
        cases made

end Straight

/-! ## Removing and writing -/

/-- No link above a location, at it or below it. -/
def FreeOfLinks (fs : FileSystem) (location : List String) : Prop :=
  ∀ p, p <+: location ∨ location <+: p → ∀ target, fs.look p ≠ some (.link target)

lemma FreeOfLinks.of_confined {fs fs' : FileSystem} {location : List String}
    (h : FreeOfLinks fs location) (h' : Confined fs fs' location) : FreeOfLinks fs' location :=
  fun p hp target hlink => h p hp target (h'.links p target hlink)

namespace Straight

variable {fs : FileSystem} {path : String}

lemma freeOfLinks (h : Straight fs path)
    (below : ∀ p, fs.locationOf path <+: p → ∀ target, fs.look p ≠ some (.link target)) :
    FreeOfLinks fs (fs.locationOf path) := by
  intro p hp target
  by_cases here : p = fs.locationOf path
  · exact below p (here ▸ List.prefix_rfl) target
  · rcases hp with above | further
    · exact h.above p above here target
    · exact below p further target

/-- What a straight path leads to, if a link at its end is not followed. -/
lemma entry_eq (h : Straight fs path) {place : List String} {entry : Entry}
    (hentry : fs.entry false path = .ok (place, entry)) :
    place = fs.locationOf path ∧ fs.root.at? (fs.locationOf path) = some entry := by
  have leads := h.leadsTo_locate
  rw [FileSystem.entry] at hentry
  cases hlocated : fs.locate false path with
  | error error =>
      rw [hlocated] at hentry
      cases hentry
  | ok reached =>
      rw [hlocated] at leads hentry
      cases reached with
      | free directory name => cases hentry
      | found location other =>
          obtain ⟨rfl, rfl⟩ : location = place ∧ other = entry :=
            Prod.mk.inj (Except.ok.inj hentry)
          obtain ⟨rfl, found⟩ := leads
          exact ⟨rfl, found⟩

/-- An empty directory is removed from its location. -/
lemma removeDirectory_eq (h : Straight fs path) {removed : FileSystem}
    (hremove : fs.removeDirectory path = .ok removed) :
    removed = fs.put (fs.locationOf path) none := by
  have leads := h.leadsTo_locateNamed
  rw [FileSystem.removeDirectory] at hremove
  cases hlocated : fs.locateNamed path with
  | error error =>
      rw [hlocated] at hremove
      cases hremove
  | ok reached =>
      rw [hlocated] at leads hremove
      dsimp only [bind, Except.bind] at hremove
      split at hremove
      · obtain ⟨place, -⟩ := leads
        rw [← place]
        exact (Except.ok.inj hremove).symm
      all_goals cases hremove

/-- What stands at a straight path stands in a directory. -/
lemma exists_above (h : Straight fs path) {entry : Entry}
    (found : fs.root.at? (fs.locationOf path) = some entry) :
    ∃ above name entries, fs.locationOf path = above ++ [name] ∧
      fs.root.at? above = some (.directory entries) := by
  obtain ⟨above, name, place⟩ := h.exists_concat fs
  rw [place] at found
  obtain ⟨entries, habove⟩ := FileSystem.look_eq_directory_iff.mp (Route.look_above found)
  exact ⟨above, name, entries, place, habove⟩

/-- What is left once nothing is at the location of a straight path any more. -/
lemma put_none (h : Straight fs path) {above : List String} {name : String}
    {entries : List (String × Entry)} (place : fs.locationOf path = above ++ [name])
    (found : fs.root.at? above = some (.directory entries)) (ordered : InOrder entries) :
    Confined fs (fs.put (fs.locationOf path) none) (fs.locationOf path) ∧
      FreeOfLinks (fs.put (fs.locationOf path) none) (fs.locationOf path) := by
  have confined : Confined fs (fs.put (fs.locationOf path) none) (fs.locationOf path) := by
    rw [place]
    exact confined_put_none found ordered
  refine ⟨confined, (h.of_confined confined).freeOfLinks fun p below target => ?_⟩
  have below' : above ++ [name] <+: p := place ▸ below
  rw [place, FileSystem.look_put_none found ordered, if_pos below']
  simp

/-- What is left once an empty directory is there instead. -/
lemma put_empty (h : Straight fs path) {above : List String} {name : String}
    (place : fs.locationOf path = above ++ [name]) (directory : fs.look above = some .directory) :
    Confined fs (fs.put (fs.locationOf path) (some (.directory []))) (fs.locationOf path) ∧
      FreeOfLinks (fs.put (fs.locationOf path) (some (.directory []))) (fs.locationOf path) := by
  have bare : ∀ name rest, (Entry.directory []).at? (name :: rest) = none := fun _ _ => rfl
  have confined :
      Confined fs (fs.put (fs.locationOf path) (some (.directory []))) (fs.locationOf path) := by
    rw [place]
    exact confined_put bare (by simp [Entry.shape])
  refine ⟨confined, (h.of_confined confined).freeOfLinks fun p below target => ?_⟩
  have below' : above ++ [name] <+: p := place ▸ below
  rw [place, FileSystem.look_put bare directory, if_pos below']
  split_ifs <;> simp [Entry.shape]

/-- **Emptying a directory and removing it.**  If it cannot be removed, the empty directory
stays. -/
lemma removeAll_directory (h : Straight fs path) (ordered : fs.root.Ordered)
    {entries : List (String × Entry)}
    (hentry : fs.entry false path = .ok (fs.locationOf path, .directory entries)) :
    Confined fs (fs.removeAll path).2 (fs.locationOf path) ∧
      FreeOfLinks (fs.removeAll path).2 (fs.locationOf path) := by
  obtain ⟨-, found⟩ := h.entry_eq hentry
  obtain ⟨above, name, outer, place, habove⟩ := h.exists_above found
  have outer' : (fs.put (fs.locationOf path) (some (.directory []))).root.at? above =
      some (.directory (Entry.putEntry name (some (.directory [])) outer)) := by
    rw [place]
    exact Entry.at?_update_above habove
  obtain ⟨emptying, free⟩ :=
    h.put_empty place (FileSystem.look_eq_directory_iff.mpr ⟨outer, habove⟩)
  generalize hemptied : fs.put (fs.locationOf path) (some (.directory [])) = emptied at *
  cases hremove : emptied.removeDirectory path with
  | ok removed =>
      have hresult : (fs.removeAll path).2 = removed := by
        rw [FileSystem.removeAll, hentry]
        simp only [hemptied, hremove]
      have straight := h.of_confined emptying
      have here := locationOf_eq_of_workingDirectory emptying.workingDirectory path
      have gone := straight.put_none (here.trans place) outer'
        (Entry.InOrder.putEntry (ordered _ _ habove))
      rw [← straight.removeDirectory_eq hremove, here, ← hresult] at gone
      exact ⟨emptying.trans gone.1, gone.2⟩
  | error error =>
      have hresult : (fs.removeAll path).2 = emptied := by
        rw [FileSystem.removeAll, hentry]
        cases error <;> simp only [hemptied, hremove]
      rw [hresult]
      exact ⟨emptying, free⟩

/-- **What stands at a straight path is removed**, with what is below it. -/
theorem removeAll_confined (h : Straight fs path) (ordered : fs.root.Ordered) :
    Confined fs (fs.removeAll path).2 (fs.locationOf path) ∧
      ((fs.removeAll path).1 = .ok () →
        FreeOfLinks (fs.removeAll path).2 (fs.locationOf path)) := by
  cases hentry : fs.entry false path with
  | error error =>
      rw [FileSystem.removeAll, hentry]
      exact ⟨.refl fs _, fun removed => by cases removed⟩
  | ok reached =>
      obtain ⟨place, entry⟩ := reached
      obtain ⟨rfl, found⟩ := h.entry_eq hentry
      cases entry with
      | file bytes =>
          rw [FileSystem.removeAll, hentry]
          exact ⟨.refl fs _, fun removed => by cases removed⟩
      | link target =>
          obtain ⟨above, name, entries, place, habove⟩ := h.exists_above found
          have gone := h.put_none place habove (ordered _ _ habove)
          rw [FileSystem.removeAll, hentry]
          exact ⟨gone.1, fun _ => gone.2⟩
      | directory entries =>
          have gone := h.removeAll_directory ordered hentry
          exact ⟨gone.1, fun _ => gone.2⟩

end Straight

/-- **A file is written at its location**, if no link is met on the way there. -/
theorem Downward.writeBytes_confined {fs written : FileSystem} {path : String} {bytes : ByteArray}
    (h : Downward path) (unlinked : ∀ front, front <+: fs.locationOf path → ∀ target,
      fs.look front ≠ some (.link target))
    (hwrite : fs.writeBytes path bytes = .ok written) :
    Confined fs written (fs.locationOf path) := by
  have leads := h.leadsTo_locate unlinked true
  have put :
      Confined fs (fs.put (fs.locationOf path) (some (.file bytes))) (fs.locationOf path) := by
    obtain ⟨above, name, place⟩ := h.exists_concat fs
    rw [place]
    exact confined_put (fun _ _ => rfl) (by simp [Entry.shape])
  rw [FileSystem.writeBytes] at hwrite
  cases hlocated : fs.locate true path with
  | error error =>
      rw [hlocated] at hwrite
      cases hwrite
  | ok reached =>
      rw [hlocated] at leads hwrite
      dsimp only [bind, Except.bind] at hwrite
      split at hwrite
      · cases hwrite
      · rw [leads.1] at hwrite
        exact Except.ok.inj hwrite ▸ put
      · rw [leads.1] at hwrite
        exact Except.ok.inj hwrite ▸ put

end AvroTypes
