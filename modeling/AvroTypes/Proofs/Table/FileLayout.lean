import AvroTypes.Proofs.Table.Collisions
import AvroTypes.Proofs.TypeScript.FileNames

/-!
# The layout of the files of a schema

The namespaces of a schema keep to the grammar, and the grammar settles how their files lie: each
has a plain relative name, and none has the name of a directory that another one is in.  Two
namespaces can share a file in one way only, so there is at most one collision to report: of the
default namespace and the one called `default`, the one that is seen first owns the file.

* `fileCollisions` — the collisions in the report of a table.
* `SharedFile`, `SharedFile.unique` — **who collides with whom**, and that this happens once.
* `enumerates_fileCollisions`, `fileCollisions_of_valid` — the collision that is reported.
* `FileName.not_way_inside` — no file is a directory.
* `fileLayout_of_tableOf` — **the files of a schema.**
-/

namespace AvroTypes

open AvroTypes.Schema (isNamespace)

/-- The collisions in the report of a table. -/
def fileCollisions (options : Options) (table : List NamedType) : List Issue :=
  (issues options (SymbolIndex.ofTable table) table).filter (·.problem.concernsFile)

/-- One of two namespaces is the default one, and the other is called `default`. -/
def ShareDefault (first second : String) : Prop :=
  first = "" ∧ second = "default" ∨ first = "default" ∧ second = ""

/-- The type that opens a namespace, and the one that owns its file `default.ts`: one is in the
default namespace, the other in the namespace `default`. -/
structure SharedFile (table : List NamedType) (i : Nat) (late owner : NamedType) : Prop where
  opens : FirstWith table (·.space = late.space) i late
  owns : OwnsFile table late.space owner
  spaces : ShareDefault late.space owner.space

section

variable {options : Options} {table : List NamedType} {i j : Nat}
  {late owner late' owner' : NamedType}

lemma ShareDefault.fileName_eq {first second : String} (h : ShareDefault first second) :
    fileName first = "default.ts" := by
  obtain ⟨rfl, -⟩ | ⟨rfl, -⟩ := h <;> rfl

lemma ShareDefault.eq_left {first second other : String} (h : ShareDefault first second)
    (h' : ShareDefault other second) : first = other := by
  have different : "" ≠ "default" := by decide
  obtain ⟨rfl, second⟩ | ⟨rfl, second⟩ := h <;> obtain ⟨rfl, second'⟩ | ⟨rfl, second'⟩ := h'
  · rfl
  · exact absurd (second'.symm.trans second) different
  · exact absurd (second.symm.trans second') different
  · rfl

/-- **Only one namespace finds its file owned by another.** -/
theorem SharedFile.unique (h : SharedFile table i late owner)
    (h' : SharedFile table j late' owner') : i = j ∧ late = late' ∧ owner = owner' := by
  have file : fileName late.space = fileName late'.space :=
    h.spaces.fileName_eq.trans h'.spaces.fileName_eq.symm
  have sameOwner : owner = owner' := by
    obtain ⟨-, _, first⟩ := h.owns
    obtain ⟨-, _, first'⟩ := h'.owns
    exact (FirstWith.unique first (file ▸ first')).2
  have sameSpace : late.space = late'.space := h.spaces.eq_left (sameOwner ▸ h'.spaces)
  obtain ⟨rfl, rfl⟩ := h.opens.unique (sameSpace ▸ h'.opens)
  exact ⟨rfl, rfl, sameOwner⟩

/-- Where all namespaces keep to the grammar, a file that is owned by another namespace is
`default.ts`. -/
lemma shareDefault_of_ownsFile (valid : ∀ type ∈ table, isNamespace type.space = true)
    (hlate : late ∈ table) (owns : OwnsFile table late.space owner) :
    ShareDefault late.space owner.space := by
  obtain ⟨different, j, first⟩ := owns
  exact (fileName_eq_iff (valid late hlate) (valid owner (List.mem_of_getElem? first.found))
    different.symm).mp first.holds.symm

/-- If both namespaces occur, one of them finds its file owned by the other. -/
lemma exists_sharedFile (valid : ∀ type ∈ table, isNamespace type.space = true)
    (empty : ∃ type ∈ table, type.space = "") (default : ∃ type ∈ table, type.space = "default") :
    ∃ i late owner, SharedFile table i late owner := by
  obtain ⟨type, htype, hempty⟩ := empty
  obtain ⟨other, hother, hdefault⟩ := default
  have share : ShareDefault type.space other.space := .inl ⟨hempty, hdefault⟩
  obtain ⟨late, hlate, -, owner, owns⟩ := exists_ownsFile htype hother
    (by rw [hempty, hdefault]; rfl) (by rw [hempty, hdefault]; decide)
  obtain ⟨k, found⟩ := List.getElem?_of_mem hlate
  obtain ⟨i, -, opener, opens⟩ := exists_firstWith (·.space = late.space) found rfl
  have hopener := List.mem_of_getElem? opens.found
  rw [← opens.holds] at owns opens
  exact ⟨i, opener, owner, opens, owns, shareDefault_of_ownsFile valid hopener owns⟩

/-- The collisions of a table are its namespaces that find their file owned by another. -/
lemma enumerates_fileCollisions (several : options.singleFile = false)
    (valid : ∀ type ∈ table, isNamespace type.space = true) :
    Enumerates (fun rank issue => ∃ i late owner, SharedFile table i late owner ∧
        rank = [1, i, 1] ∧ issue = ⟨late.fullName, .fileCollision "default.ts" owner.space⟩)
      (fileCollisions options table) := by
  refine ((enumerates_issues options table).filter _).congr fun rank issue => ⟨?_, ?_⟩
  · rintro ⟨violation, collision⟩
    cases violation with
    | type found violation =>
        cases violation <;> cases collision
    | space opens violation =>
        cases violation with
        | segment => cases collision
        | collision _ owns =>
            have spaces := shareDefault_of_ownsFile valid (List.mem_of_getElem? opens.found) owns
            exact ⟨_, _, _, ⟨opens, owns, spaces⟩, rfl, by rw [spaces.fileName_eq]⟩
  · rintro ⟨i, late, owner, ⟨opens, owns, spaces⟩, rfl, rfl⟩
    have violation : SpaceViolation options table late.space _ _ := .collision several owns
    rw [spaces.fileName_eq] at violation
    exact ⟨.space opens violation, rfl⟩

/-- **There is at most one collision**, and it is reported exactly if the default namespace and the
one called `default` both occur. -/
theorem fileCollisions_of_valid (several : options.singleFile = false)
    (valid : ∀ type ∈ table, isNamespace type.space = true) :
    (fileCollisions options table ≠ [] ↔
      (∃ type ∈ table, type.space = "") ∧ ∃ type ∈ table, type.space = "default") ∧
    (fileCollisions options table ≠ [] → ∃ i late owner, SharedFile table i late owner ∧
      fileCollisions options table =
        [⟨late.fullName, .fileCollision "default.ts" owner.space⟩]) := by
  have reported := enumerates_fileCollisions several valid
  have one : ∀ {i late owner}, SharedFile table i late owner → fileCollisions options table =
      [⟨late.fullName, .fileCollision "default.ts" owner.space⟩] := by
    intro i late owner shared
    refine reported.eq_singleton ⟨i, late, owner, shared, rfl, rfl⟩ ?_
    rintro rank issue ⟨j, late', owner', shared', rfl, -⟩
    rw [(shared.unique shared').1]
  have found (some : fileCollisions options table ≠ []) :
      ∃ i late owner, SharedFile table i late owner := by
    rw [ne_eq, reported.eq_nil_iff] at some
    push Not at some
    obtain ⟨_, _, i, late, owner, shared, -⟩ := some
    exact ⟨i, late, owner, shared⟩
  refine ⟨⟨fun some => ?_, fun ⟨empty, default⟩ => ?_⟩, fun some => ?_⟩
  · obtain ⟨i, late, owner, shared⟩ := found some
    have hlate := List.mem_of_getElem? shared.opens.found
    obtain ⟨-, j, first⟩ := shared.owns
    have howner := List.mem_of_getElem? first.found
    obtain ⟨empty, default⟩ | ⟨default, empty⟩ := shared.spaces
    · exact ⟨⟨late, hlate, empty⟩, owner, howner, default⟩
    · exact ⟨⟨owner, howner, empty⟩, late, hlate, default⟩
  · obtain ⟨i, late, owner, shared⟩ := exists_sharedFile valid empty default
    rw [one shared]
    exact List.cons_ne_nil _ _
  · obtain ⟨i, late, owner, shared⟩ := found some
    exact ⟨i, late, owner, shared, one shared⟩

end

/-! ## Files and directories -/

/-- A file name is not the way to the directory of a file, since only file names have a dot. -/
lemma FileName.not_way_inside {first second leaf leaf' : String} {inside inside' : List String}
    (h : FileName first inside leaf) (h' : FileName second inside' leaf') :
    ¬ namedSegments first <+: (namedSegments second).dropLast := by
  rw [h.namedSegments_eq, h'.namedSegments_eq, List.dropLast_concat]
  intro way
  exact h'.dotless leaf (way.subset (by simp)) h.dotted

/-! ## The files of a schema -/

/-- **How the files of a schema lie.**  There is a collision in the report exactly if the schema has
types in the default namespace and types in the one called `default`, and then there is one: it is
about `default.ts`, and names the one of these namespaces that is seen first as the owner.  All
other namespaces have files of their own, each with a plain relative name, and no file is on the way
to the directory of a file. -/
theorem fileLayout_of_tableOf {options : Options} (several : options.singleFile = false)
    {document : Json.Value} {around : String} {table : List NamedType}
    (h : Schema.tableOf document around = .ok table) :
    ((fileCollisions options table ≠ [] ↔
        (∃ type ∈ table, type.space = "") ∧ ∃ type ∈ table, type.space = "default") ∧
      (fileCollisions options table ≠ [] → ∃ i late owner, SharedFile table i late owner ∧
        fileCollisions options table =
          [⟨late.fullName, .fileCollision "default.ts" owner.space⟩])) ∧
    ∀ type ∈ table, isPlainRelative (fileName type.space) = true ∧
      ∀ other ∈ table,
        (type.space ≠ other.space → (fileName type.space = fileName other.space ↔
          ShareDefault type.space other.space)) ∧
        ¬ namedSegments (fileName type.space) <+:
          (namedSegments (fileName other.space)).dropLast := by
  have valid : ∀ type ∈ table, isNamespace type.space = true := fun type htype =>
    Schema.isNamespace_of_mem_table h htype
  refine ⟨fileCollisions_of_valid several valid, fun type htype => ?_⟩
  obtain ⟨inside, leaf, name⟩ := fileName_of_isNamespace (valid type htype)
  refine ⟨name.isPlainRelative, fun other hother => ?_⟩
  obtain ⟨inside', leaf', name'⟩ := fileName_of_isNamespace (valid other hother)
  exact ⟨fileName_eq_iff (valid type htype) (valid other hother), name.not_way_inside name'⟩

/-- A schema with types in the default namespace, in the one called `default`, and in another. -/
def defaultsDocument : Json.Value :=
  .array [.object
      [("name", .string "A"), ("namespace", .string "default"), ("type", .string "int")],
    .object [("name", .string "B"), ("type", .string "int")],
    .object [("name", .string "C"), ("namespace", .string "default.a"), ("type", .string "int")]]

/-- Its table. -/
def defaultsTable : List NamedType :=
  [{ name := "A", space := "default", alternatives := [.plain .number]
     schema := .object
      [("name", .string "A"), ("namespace", .string "default"), ("type", .string "int")] },
    { name := "B", space := "", alternatives := [.plain .number]
      schema := .object [("name", .string "B"), ("type", .string "int")] },
    { name := "C", space := "default.a", alternatives := [.plain .number]
      schema := .object
        [("name", .string "C"), ("namespace", .string "default.a"), ("type", .string "int")] }]

/-- The two default namespaces collide once, and the third namespace keeps apart from them. -/
theorem fileLayout_defaults :
    Schema.tableOf defaultsDocument "" = .ok defaultsTable ∧
      (∃ issue, fileCollisions {} defaultsTable = [issue]) ∧
      fileName "default" ≠ fileName "default.a" ∧
      ¬ namedSegments (fileName "default") <+: (namedSegments (fileName "default.a")).dropLast := by
  have htable : Schema.tableOf defaultsDocument "" = .ok defaultsTable := by rfl
  obtain ⟨⟨both, one⟩, files⟩ := @fileLayout_of_tableOf {} rfl _ _ _ htable
  have collides := both.mpr ⟨⟨_, .tail _ (.head _), rfl⟩, _, .head _, rfl⟩
  obtain ⟨_, late, owner, -, only⟩ := one collides
  obtain ⟨share, way⟩ := (files _ (.head _)).2 _ (.tail _ (.tail _ (.head _)))
  have different : ¬ ShareDefault "default" "default.a" := by simp [ShareDefault]
  exact ⟨htable, ⟨_, only⟩, fun same => different ((share (by decide)).mp same), way⟩

end AvroTypes
