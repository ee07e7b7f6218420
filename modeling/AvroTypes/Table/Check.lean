import AvroTypes.Options
import AvroTypes.Table.Index
import AvroTypes.TypeScript.Identifier

/-!
# Checking a table

Before anything is written the whole table is checked, and every problem is reported, so that one
run shows all that has to be mended.  Problems of the types come first, in the order of the table;
then those of the namespaces, each reported against the first type of its group.

* `Problem`, `Issue` — what can be wrong, and with which type.
* `dangling` — the references in a type that mean nothing.
* `issuesOfType`, `issuesOfGroups`, `issues` — the checks.
* `issuesMessage` — the wording of the whole report.
-/

namespace AvroTypes

/-- What can be wrong with a table. -/
inductive Problem where
  /-- A type has more than one alternative, or none. -/
  | rootUnion (alternatives : Nat)
  /-- A reference, in the type itself or in a field, means nothing. -/
  | danglingReference (field : Option String) (reference : String)
  /-- An identifier or a part of a namespace is a reserved word. -/
  | reservedWord (word : String)
  /-- The file of a namespace is also that of an earlier one. -/
  | fileCollision (file : String) (owner : String)
  deriving DecidableEq, Repr

/-- The wording of a problem. -/
def Problem.message : Problem → String
  | rootUnion alternatives =>
    s!"root type must have exactly one type alternative, found {alternatives}"
  | danglingReference (some field) reference =>
    s!"field '{field}' references unknown type '{reference}'"
  | danglingReference none reference => s!"references unknown type '{reference}'"
  | reservedWord word => s!"'{word}' is a reserved word in TypeScript"
  | fileCollision file owner =>
    s!"output file '{file}' is already written for namespace '{owner}'"

/-- A problem, and the full name of the type it is reported against. -/
structure Issue where
  /-- The full name of the type. -/
  type : String
  /-- The problem. -/
  problem : Problem
  deriving DecidableEq, Repr

/-- The wording of an issue. -/
def Issue.message (issue : Issue) : String := s!"{issue.type}: {issue.problem.message}"

/-- The wording of a report. -/
def issuesMessage (issues : List Issue) : String :=
  issues.foldl (fun text issue => text ++ "\n  " ++ issue.message)
    s!"cannot generate {issues.length} element(s):"

/-! ## Dangling references -/

mutual

/-- The references in a type that mean nothing when asked from a namespace, from left to right,
each before those inside it. -/
def danglingIn (index : SymbolIndex) (space : String) : TypeExpr → List String
  | .of (.reference name) elements =>
    (if (index.resolve? name space).isNone then [name] else []) ++ dangling index space elements
  | .of _ elements => dangling index space elements

/-- The references in a list of alternatives that mean nothing. -/
def dangling (index : SymbolIndex) (space : String) : List TypeExpr → List String
  | [] => []
  | first :: rest => danglingIn index space first ++ dangling index space rest

end

/-- The dangling references of a type: its own, then those of its fields. -/
def danglingProblems (index : SymbolIndex) (type : NamedType) : List Problem :=
  (dangling index type.space type.alternatives).map (.danglingReference none)
    ++ type.fields.flatMap fun field =>
      (dangling index type.space field.alternatives).map (.danglingReference field.name)

/-! ## The checks -/

/-- The problems of one type. -/
def problemsOfType (options : Options) (index : SymbolIndex) (type : NamedType) : List Problem :=
  let identifier := TypeScript.identifierOf type.name
  (if TypeScript.isReserved identifier then [.reservedWord identifier] else [])
    ++ (if type.alternatives.length = 1 then [] else [.rootUnion type.alternatives.length])
    ++ (if options.denyDangling then danglingProblems index type else [])

/-- The parts of a namespace that are reserved words. -/
def reservedSegments (space : String) : List String :=
  ((Schema.segments space.toList).map String.ofList).filter TypeScript.isReserved

/-- The problems of a namespace, given the namespaces before it. -/
def problemsOfSpace (options : Options) (earlier : List String) (space : String) : List Problem :=
  (if options.namespaceBlocks then (reservedSegments space).map .reservedWord else [])
    ++ if options.singleFile then []
      else match earlier.find? (fileName · = fileName space) with
        | some owner => [.fileCollision (fileName space) owner]
        | none => []

/-- The issues of the groups that follow the given namespaces. -/
def issuesOfGroups (options : Options) : (earlier : List String) → List Group → List Issue
  | _, [] => []
  | earlier, group :: rest =>
    (group.types.head?.toList.flatMap fun first =>
      (problemsOfSpace options earlier group.space).map (Issue.mk first.fullName))
      ++ issuesOfGroups options (earlier ++ [group.space]) rest

/-- **Every issue of a table**; an empty list means that it can be written. -/
def issues (options : Options) (index : SymbolIndex) (table : List NamedType) : List Issue :=
  (table.flatMap fun type =>
      (problemsOfType options index type).map (Issue.mk type.fullName))
    ++ issuesOfGroups options [] (Group.ofTable table)

end AvroTypes
