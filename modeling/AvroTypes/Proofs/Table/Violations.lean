import AvroTypes.Proofs.Table.FirstSeen
import AvroTypes.Proofs.Table.Lookup
import AvroTypes.Proofs.TypeScript.Assembly

/-!
# What the check of a table reports

A table can be written if its types and their namespaces keep to a few rules.  Where one of them is
broken there is a violation, which has a rank: first come the types in the order of the table, each
with its name, its alternatives, and the references in itself and in its fields, and then the
namespaces in the order in which they are first seen, each with its parts and its file.

* `TypeExpr.MentionsAt`, `MentionsIn` — the references in a type, with their ranks.
* `TypeViolation`, `SpaceViolation`, `Violation` — **what can be wrong, and at which rank.**
* `Sound` — **the rules.**
* `enumerates_references` — the walk over a type finds the references in it.
* `enumerates_issues`, `issues_eq_nil_iff` — the check reports the violations, and nothing exactly
  if there are none.
* `issues_complete` — **the check reports every violation, once and in order, and a table without
  any keeps to the rules.**
-/

namespace AvroTypes

open AvroTypes.Schema (segments)

/-! ## References and their ranks -/

/-- **A type mentions a name at a rank**: the indices that lead to the reference. -/
inductive TypeExpr.MentionsAt : TypeExpr → Rank → String → Prop
  | here {name : String} {elements : List TypeExpr} :
      MentionsAt (.of (.reference name) elements) [] name
  | inside {kind : Kind} {elements : List TypeExpr} {i : Nat} {element : TypeExpr} {rank : Rank}
      {name : String} (found : elements[i]? = some element) (h : element.MentionsAt rank name) :
      MentionsAt (.of kind elements) (i :: rank) name

/-- A list of alternatives mentions a name at a rank. -/
def MentionsIn (alternatives : List TypeExpr) (rank : Rank) (name : String) : Prop :=
  ∃ i type rest, alternatives[i]? = some type ∧ rank = i :: rest ∧ type.MentionsAt rest name

/-- The walk over a type finds the references in it, from left to right and each before those
inside it. -/
lemma enumerates_references (type : TypeExpr) : Enumerates type.MentionsAt type.references := by
  induction type using TypeExpr.induction_elements with
  | of kind elements ih =>
      have inside : Enumerates (MentionsIn elements) (referencesIn elements) := by
        rw [referencesIn_eq_flatMap]
        exact .flatMap ih
      cases kind with
      | reference name =>
          refine ((Enumerates.singleton name).append inside ?_).congr fun rank other => ?_
          · rintro _ _ _ _ ⟨rfl, -⟩ ⟨i, element, rest, -, rfl, -⟩
            exact List.nil_lt_cons _ _
          · constructor
            · rintro (⟨rfl, rfl⟩ | ⟨i, element, rest, found, rfl, mentions⟩)
              · exact .here
              · exact .inside found mentions
            · intro mentions
              cases mentions with
              | here => exact .inl ⟨rfl, rfl⟩
              | inside found mentions => exact .inr ⟨_, _, _, found, rfl, mentions⟩
      | _ =>
          refine inside.congr fun rank name => ⟨?_, ?_⟩
          · rintro ⟨i, element, rest, found, rfl, mentions⟩
            exact .inside found mentions
          · intro mentions
            cases mentions with
            | inside found mentions => exact ⟨_, _, _, found, rfl, mentions⟩

lemma enumerates_referencesIn (alternatives : List TypeExpr) :
    Enumerates (MentionsIn alternatives) (referencesIn alternatives) := by
  rw [referencesIn_eq_flatMap]
  exact .flatMap fun type _ => enumerates_references type

/-! ## Violations -/

section

variable (options : Options) (table : List NamedType)

/-- A name is mentioned at a rank in some alternatives, and means nothing in a namespace. -/
def Dangles (alternatives : List TypeExpr) (space : String) (rank : Rank) (name : String) : Prop :=
  MentionsIn alternatives rank name ∧ (SymbolIndex.ofTable table).resolve? name space = none

/-- **What can be wrong with a type of a table**: its identifier is reserved, it does not have
exactly one alternative, or it or one of its fields refers to something that is not there. -/
inductive TypeViolation (type : NamedType) : Rank → Problem → Prop
  | reserved (h : TypeScript.isReserved (TypeScript.identifierOf type.name) = true) :
      TypeViolation type [0] (.reservedWord (TypeScript.identifierOf type.name))
  | union (h : type.alternatives.length ≠ 1) :
      TypeViolation type [1] (.rootUnion type.alternatives.length)
  | own {rank : Rank} {name : String} (deny : options.denyDangling = true)
      (h : Dangles table type.alternatives type.space rank name) :
      TypeViolation type (2 :: rank) (.danglingReference none name)
  | field {i : Nat} {field : Field} {rank : Rank} {name : String}
      (deny : options.denyDangling = true) (found : type.fields[i]? = some field)
      (h : Dangles table field.alternatives type.space rank name) :
      TypeViolation type (3 :: i :: rank) (.danglingReference field.name name)

/-- A type owns the file of a namespace: it is the first of the table whose namespace has that file,
and its namespace is another one. -/
def OwnsFile (space : String) (owner : NamedType) : Prop :=
  owner.space ≠ space ∧
    ∃ i, FirstWith table (fun type => fileName type.space = fileName space) i owner

/-- **What can be wrong with a namespace of a table**: a part of it is reserved, or its file is that
of another namespace which is seen first. -/
inductive SpaceViolation (space : String) : Rank → Problem → Prop
  | segment {i : Nat} {part : List Char} (blocks : options.namespaceBlocks = true)
      (found : (segments space.toList)[i]? = some part)
      (h : TypeScript.isReserved (String.ofList part) = true) :
      SpaceViolation space [0, i] (.reservedWord (String.ofList part))
  | collision {owner : NamedType} (several : options.singleFile = false)
      (owns : OwnsFile table space owner) :
      SpaceViolation space [1] (.fileCollision (fileName space) owner.space)

/-- **What can be wrong with a table, and at which rank.**  The violations of a namespace are
reported against the first type in it. -/
inductive Violation : Rank → Issue → Prop
  | type {i : Nat} {type : NamedType} {rank : Rank} {problem : Problem}
      (found : table[i]? = some type) (h : TypeViolation options table type rank problem) :
      Violation (0 :: i :: rank) ⟨type.fullName, problem⟩
  | space {i : Nat} {first : NamedType} {rank : Rank} {problem : Problem}
      (opens : FirstWith table (·.space = first.space) i first)
      (h : SpaceViolation options table first.space rank problem) :
      Violation (1 :: i :: rank) ⟨first.fullName, problem⟩

/-- **The rules for a table that can be written.** -/
structure Sound : Prop where
  names : ∀ type ∈ table, TypeScript.isReserved (TypeScript.identifierOf type.name) = false
  single : ∀ type ∈ table, type.alternatives.length = 1
  closed : options.denyDangling = true → ∀ type ∈ table,
    (∀ rank name, MentionsIn type.alternatives rank name →
      ((SymbolIndex.ofTable table).resolve? name type.space).isSome) ∧
    ∀ field ∈ type.fields, ∀ rank name, MentionsIn field.alternatives rank name →
      ((SymbolIndex.ofTable table).resolve? name type.space).isSome
  segments : options.namespaceBlocks = true → ∀ type ∈ table,
    ∀ part ∈ segments type.space.toList, TypeScript.isReserved (String.ofList part) = false
  files : options.singleFile = false → ∀ type ∈ table, ∀ other ∈ table,
    fileName type.space = fileName other.space → type.space = other.space

end

/-! ## The check of the types -/

section

variable {options : Options} {table : List NamedType}

lemma enumerates_dangling (table : List NamedType) (space : String)
    (alternatives : List TypeExpr) :
    Enumerates (Dangles table alternatives space)
      (dangling (SymbolIndex.ofTable table) space alternatives) := by
  rw [TypeScript.dangling_eq_filter]
  refine ((enumerates_referencesIn alternatives).filter _).congr fun rank name => ?_
  rw [Dangles, Option.isNone_iff_eq_none]

/-- The problems of a type are its violations. -/
lemma enumerates_problemsOfType (options : Options) (table : List NamedType) (type : NamedType) :
    Enumerates (TypeViolation options table type)
      (problemsOfType options (SymbolIndex.ofTable table) type) := by
  have reserved := Enumerates.ite
    (TypeScript.isReserved (TypeScript.identifierOf type.name) = true)
    fun _ => .singleton (Problem.reservedWord (TypeScript.identifierOf type.name))
  have union := Enumerates.ite (type.alternatives.length ≠ 1)
    fun _ => .singleton (Problem.rootUnion type.alternatives.length)
  have own := (enumerates_dangling table type.space type.alternatives).map
    (Problem.danglingReference none)
  have fields : Enumerates _ (type.fields.flatMap fun field =>
      (dangling (SymbolIndex.ofTable table) type.space field.alternatives).map
        (Problem.danglingReference field.name)) :=
    .flatMap fun field _ => (enumerates_dangling table type.space field.alternatives).map _
  have references := Enumerates.ite (options.denyDangling = true) fun _ =>
    own.under_append 2 (fields.under 3) fun _ _ ⟨rest, hrank, _⟩ => ⟨3, rest, by omega, hrank⟩
  rw [problemsOfType, ← ite_not (type.alternatives.length = 1), List.append_assoc]
  refine (reserved.under_append 0 (union.under_append 1 references ?_) ?_).congr ?_
  · rintro rank problem ⟨-, ⟨rest, rfl, -⟩ | ⟨rest, rfl, -⟩⟩
    · exact ⟨2, rest, by omega, rfl⟩
    · exact ⟨3, rest, by omega, rfl⟩
  · rintro rank problem (⟨rest, rfl, -⟩ | ⟨-, ⟨rest, rfl, -⟩ | ⟨rest, rfl, -⟩⟩)
    · exact ⟨1, rest, by omega, rfl⟩
    · exact ⟨2, rest, by omega, rfl⟩
    · exact ⟨3, rest, by omega, rfl⟩
  · intro rank problem
    constructor
    · rintro (⟨_, rfl, h, rfl, rfl⟩ | ⟨_, rfl, h, rfl, rfl⟩ | ⟨deny, ⟨rest, rfl, name, h, rfl⟩ |
        ⟨_, rfl, i, field, rest, found, rfl, name, h, rfl⟩⟩)
      · exact .reserved h
      · exact .union h
      · exact .own deny h
      · exact .field deny found h
    · rintro (h | h | ⟨deny, h⟩ | ⟨deny, found, h⟩)
      · exact .inl ⟨_, rfl, h, rfl, rfl⟩
      · exact .inr (.inl ⟨_, rfl, h, rfl, rfl⟩)
      · exact .inr (.inr ⟨deny, .inl ⟨_, rfl, _, h, rfl⟩⟩)
      · exact .inr (.inr ⟨deny, .inr ⟨_, rfl, _, _, _, found, rfl, _, h, rfl⟩⟩)

end

/-! ## The check of the namespaces -/

section

variable {options : Options} {table : List NamedType}

lemma OwnsFile.unique {space : String} {owner other : NamedType} (h : OwnsFile table space owner)
    (h' : OwnsFile table space other) : owner = other := by
  obtain ⟨-, _, first⟩ := h
  obtain ⟨-, _, first'⟩ := h'
  exact (first.unique first').2

/-- What is reported of the file of a namespace, if looking among the namespaces before it finds the
owner of its file. -/
lemma enumerates_fileCollision {space : String} {earlier : List String}
    (owner : ∀ name, earlier.find? (fileName · = fileName space) = some name ↔
      ∃ type, OwnsFile table space type ∧ type.space = name) :
    Enumerates (fun rank (problem : Problem) => rank = [] ∧
        ∃ type, OwnsFile table space type ∧ problem = .fileCollision (fileName space) type.space)
      (match earlier.find? (fileName · = fileName space) with
      | some owner => [.fileCollision (fileName space) owner]
      | none => []) := by
  cases hfind : earlier.find? (fileName · = fileName space) with
  | none =>
      refine .of_false ?_
      rintro rank problem ⟨-, type, owns, -⟩
      simpa [hfind] using (owner _).mpr ⟨type, owns, rfl⟩
  | some name =>
      obtain ⟨type, owns, rfl⟩ := (owner name).mp hfind
      refine (Enumerates.singleton _).congr fun rank problem => ?_
      constructor
      · rintro ⟨rfl, rfl⟩
        exact ⟨rfl, type, owns, rfl⟩
      · rintro ⟨rfl, type', owns', rfl⟩
        exact ⟨rfl, by rw [owns.unique owns']⟩

/-- The problems of a namespace are its violations, if looking among the namespaces before it finds
the owner of its file. -/
lemma enumerates_problemsOfSpace {space : String} {earlier : List String}
    (owner : ∀ name, earlier.find? (fileName · = fileName space) = some name ↔
      ∃ type, OwnsFile table space type ∧ type.space = name) :
    Enumerates (SpaceViolation options table space) (problemsOfSpace options earlier space) := by
  have parts := Enumerates.ite (options.namespaceBlocks = true) fun _ =>
    ((Enumerates.indexed ((segments space.toList).map String.ofList)).filter
      TypeScript.isReserved).map Problem.reservedWord
  have collision := Enumerates.ite (options.singleFile ≠ true) fun _ =>
    enumerates_fileCollision owner
  rw [problemsOfSpace, reservedSegments, ← ite_not (options.singleFile = true)]
  refine (parts.under_append 0 (collision.under 1) ?_).congr fun rank problem => ⟨?_, ?_⟩
  · rintro rank problem ⟨rest, rfl, -⟩
    exact ⟨1, rest, by omega, rfl⟩
  · rintro (⟨_, rfl, blocks, _, ⟨⟨i, found, rfl⟩, reserved⟩, rfl⟩ |
      ⟨_, rfl, several, rfl, type, owns, rfl⟩)
    · rw [List.getElem?_map, Option.map_eq_some_iff] at found
      obtain ⟨part, found, rfl⟩ := found
      exact .segment blocks found reserved
    · exact .collision (by simpa using several) owns
  · rintro (⟨blocks, found, reserved⟩ | ⟨several, owns⟩)
    · exact .inl ⟨_, rfl, blocks, _, ⟨⟨_, by simp [found], rfl⟩, reserved⟩, rfl⟩
    · exact .inr ⟨_, rfl, by simpa using several, rfl, _, owns, rfl⟩

/-- The namespaces that are seen before an index of the table. -/
def spacesBefore (openers : List (NamedType × Nat)) (i : Nat) : List String :=
  (openers.filter (·.2 < i)).map (·.1.space)

/-- The issues of the groups, one block for each of the types that open them. -/
lemma issuesOfGroups_eq_flatMap {before after : List (NamedType × Nat)} {groups : List Group}
    (opened : List.Forall₂ Group.OpenedBy after groups)
    (ordered : (before ++ after).Pairwise fun first second => first.2 < second.2) :
    issuesOfGroups options (before.map (·.1.space)) groups = after.flatMap fun entry =>
      (problemsOfSpace options (spacesBefore (before ++ after) entry.2) entry.1.space).map
        (Issue.mk entry.1.fullName) := by
  induction opened generalizing before with
  | nil => rfl
  | @cons opener group openers groups opened _ ih =>
      have ih := @ih (before ++ [opener]) (by simpa using ordered)
      have here : spacesBefore (before ++ opener :: openers) opener.2 =
          before.map (·.1.space) := by
        obtain ⟨-, behind, apart⟩ := List.pairwise_append.mp ordered
        have kept : before.filter (·.2 < opener.2) = before :=
          List.filter_eq_self.mpr fun entry hentry => by
            simpa using apart entry hentry opener List.mem_cons_self
        have dropped : (opener :: openers).filter (·.2 < opener.2) = [] :=
          List.filter_eq_nil_iff.mpr fun entry hentry => by
            rcases List.mem_cons.mp hentry with rfl | hentry
            · simp
            · simpa using Nat.le_of_lt ((List.pairwise_cons.mp behind).1 entry hentry)
        rw [spacesBefore, List.filter_append, kept, dropped, List.append_nil]
      rw [issuesOfGroups, List.flatMap_cons, here, opened.1, opened.2]
      simpa using ih

/-- Looking among the namespaces before a type that opens its own finds the owner of the file. -/
lemma find?_spacesBefore {i : Nat} {first : NamedType}
    (opens : FirstWith table (·.space = first.space) i first) (name : String) :
    (spacesBefore (openers table) i).find? (fileName · = fileName first.space) = some name ↔
      ∃ owner, OwnsFile table first.space owner ∧ owner.space = name := by
  have found : ∀ owner j, ((openers table).filter (·.2 < i)).find?
      ((fileName · = fileName first.space) ∘ (·.1.space)) = some (owner, j) ↔
      j < i ∧ FirstWith table (fun type => fileName type.space = fileName first.space) j owner := by
    intro owner j
    rw [← find?_openers (fileName · = fileName first.space), List.find?_filter]
    simp only [Function.comp, Bool.decide_and, Bool.decide_eq_true]
  rw [spacesBefore, List.find?_map, Option.map_eq_some_iff, Prod.exists]
  constructor
  · rintro ⟨owner, j, hfind, rfl⟩
    obtain ⟨less, owns⟩ := (found owner j).mp hfind
    exact ⟨owner, ⟨opens.before j less owner owns.found, j, owns⟩, rfl⟩
  · rintro ⟨owner, ⟨other, j, owns⟩, rfl⟩
    refine ⟨owner, j, (found owner j).mpr ⟨?_, owns⟩, rfl⟩
    -- the type itself has the file, so the owner is not after it
    by_contra notLess
    rcases Nat.lt_or_eq_of_le (Nat.le_of_not_lt notLess) with less | rfl
    · exact owns.before i less first opens.found rfl
    · exact other (congrArg NamedType.space
        (Option.some.inj (owns.found.symm.trans opens.found)))

/-- The issues of the groups are the violations of the namespaces. -/
lemma enumerates_issuesOfGroups (options : Options) (table : List NamedType) :
    Enumerates (fun rank (issue : Issue) => ∃ i first rest problem,
        FirstWith table (·.space = first.space) i first ∧ rank = i :: rest ∧
          SpaceViolation options table first.space rest problem ∧
          issue = ⟨first.fullName, problem⟩)
      (issuesOfGroups options [] (Group.ofTable table)) := by
  have blocks := @issuesOfGroups_eq_flatMap options [] _ _
    (Group.forall₂_openers_ofTable table) (pairwise_openers table)
  rw [List.map_nil, List.nil_append] at blocks
  rw [blocks]
  refine (Enumerates.flatMap_keyed (pairwise_openers table) fun entry hentry =>
    (enumerates_problemsOfSpace
      (find?_spacesBefore (mem_openers.mp hentry))).map (Issue.mk entry.1.fullName)).congr ?_
  intro rank issue
  constructor
  · rintro ⟨⟨first, i⟩, hentry, rest, rfl, problem, h, rfl⟩
    exact ⟨i, first, rest, problem, mem_openers.mp hentry, rfl, h, rfl⟩
  · rintro ⟨i, first, rest, problem, opens, rfl, h, rfl⟩
    exact ⟨(first, i), mem_openers.mpr opens, rest, rfl, problem, h, rfl⟩

/-! ## The whole check -/

/-- **The check of a table reports its violations.** -/
theorem enumerates_issues (options : Options) (table : List NamedType) :
    Enumerates (Violation options table) (issues options (SymbolIndex.ofTable table) table) := by
  have types : Enumerates _ (table.flatMap fun type =>
      (problemsOfType options (SymbolIndex.ofTable table) type).map (Issue.mk type.fullName)) :=
    .flatMap fun type _ => (enumerates_problemsOfType options table type).map _
  refine (types.under_append 0 ((enumerates_issuesOfGroups options table).under 1) ?_).congr ?_
  · rintro rank issue ⟨rest, rfl, -⟩
    exact ⟨1, rest, by omega, rfl⟩
  · intro rank issue
    constructor
    · rintro (⟨_, rfl, i, type, rest, found, rfl, problem, h, rfl⟩ |
        ⟨_, rfl, i, first, rest, problem, opens, rfl, h, rfl⟩)
      · exact .type found h
      · exact .space opens h
    · rintro (⟨found, h⟩ | ⟨opens, h⟩)
      · exact .inl ⟨_, rfl, _, _, _, found, rfl, _, h, rfl⟩
      · exact .inr ⟨_, rfl, _, _, _, _, opens, rfl, h, rfl⟩

/-- A table that keeps to the rules has no violation. -/
lemma Sound.no_violation (h : Sound options table) {rank : Rank} {issue : Issue} :
    ¬ Violation options table rank issue := by
  rintro (⟨found, violation⟩ | ⟨opens, violation⟩)
  · have hmem := List.mem_of_getElem? found
    cases violation with
    | reserved reserved => simp [h.names _ hmem] at reserved
    | union several => exact several (h.single _ hmem)
    | own deny dangles =>
        have means := (h.closed deny _ hmem).1 _ _ dangles.1
        simp [dangles.2] at means
    | field deny found dangles =>
        have means := (h.closed deny _ hmem).2 _ (List.mem_of_getElem? found) _ _ dangles.1
        simp [dangles.2] at means
  · have hmem := List.mem_of_getElem? opens.found
    cases violation with
    | segment blocks found reserved =>
        simp [h.segments blocks _ hmem _ (List.mem_of_getElem? found)] at reserved
    | collision several owns =>
        obtain ⟨other, i, first⟩ := owns
        exact other (h.files several _ (List.mem_of_getElem? first.found) _ hmem first.holds)

/-- What is wrong with a namespace is a violation at the first type in it. -/
lemma exists_violation_of_space {type : NamedType} (htype : type ∈ table) {rank : Rank}
    {problem : Problem} (h : SpaceViolation options table type.space rank problem) :
    ∃ rank name, Violation options table rank ⟨name, problem⟩ := by
  obtain ⟨i, found⟩ := List.getElem?_of_mem htype
  obtain ⟨j, -, first, opens⟩ := exists_firstWith (·.space = type.space) found rfl
  rw [← opens.holds] at h opens
  exact ⟨_, _, .space opens h⟩

/-- A table without a violation keeps to the rules. -/
lemma sound_of_no_violation (h : ∀ rank issue, ¬ Violation options table rank issue) :
    Sound options table where
  names type htype := by
    obtain ⟨i, found⟩ := List.getElem?_of_mem htype
    simpa using fun reserved => h _ _ (.type found (.reserved reserved))
  single type htype := by
    obtain ⟨i, found⟩ := List.getElem?_of_mem htype
    by_contra several
    exact h _ _ (.type found (.union several))
  closed deny type htype := by
    obtain ⟨i, found⟩ := List.getElem?_of_mem htype
    constructor
    · intro rank name mentions
      by_contra nothing
      exact h _ _ (.type found (.own deny ⟨mentions, by simpa using nothing⟩))
    · intro field hfield rank name mentions
      obtain ⟨k, hk⟩ := List.getElem?_of_mem hfield
      by_contra nothing
      exact h _ _ (.type found (.field deny hk ⟨mentions, by simpa using nothing⟩))
  segments blocks type htype part hpart := by
    obtain ⟨k, hk⟩ := List.getElem?_of_mem hpart
    by_contra reserved
    have violates : SpaceViolation options table type.space _ _ :=
      .segment blocks hk (by simpa using reserved)
    obtain ⟨_, _, violation⟩ := exists_violation_of_space htype violates
    exact h _ _ violation
  files several := by
    have owned : ∀ type ∈ table, ∀ owner, ¬ OwnsFile table type.space owner := by
      intro type htype owner owns
      have violates : SpaceViolation options table type.space _ _ := .collision several owns
      obtain ⟨_, _, violation⟩ := exists_violation_of_space htype violates
      exact h _ _ violation
    intro type htype other hother same
    obtain ⟨i, found⟩ := List.getElem?_of_mem htype
    obtain ⟨j, -, owner, owns⟩ := exists_firstWith
      (fun owner => fileName owner.space = fileName type.space) found rfl
    have first : owner.space = type.space := by
      by_contra different
      exact owned type htype owner ⟨different, j, owns⟩
    have second : owner.space = other.space := by
      by_contra different
      exact owned other hother owner ⟨different, j, same ▸ owns⟩
    exact first.symm.trans second

/-- A table keeps to the rules exactly if it has no violation. -/
lemma sound_iff : Sound options table ↔ ∀ rank issue, ¬ Violation options table rank issue :=
  ⟨fun h _ _ => h.no_violation, sound_of_no_violation⟩

/-- **A table can be written exactly if it keeps to the rules.** -/
lemma issues_eq_nil_iff :
    issues options (SymbolIndex.ofTable table) table = [] ↔ Sound options table :=
  (enumerates_issues options table).eq_nil_iff.trans sound_iff.symm

/-- **The check of a table is sound and complete, and reports each violation once.**  It finds
nothing exactly if the table keeps to the rules, and what it finds is the violations of the table in
the order of their ranks. -/
theorem issues_complete (options : Options) (table : List NamedType) :
    (issues options (SymbolIndex.ofTable table) table = [] ↔ Sound options table) ∧
      Enumerates (Violation options table)
        (issues options (SymbolIndex.ofTable table) table) :=
  ⟨issues_eq_nil_iff, enumerates_issues options table⟩

end

end AvroTypes
