import AvroTypes.Table.Check
import AvroTypes.TypeScript.Declaration

/-!
# Output files

A checked table is written as one file for each of its namespaces.  The declarations of a namespace
stand in a block of its name, one level deeper, unless blocks are turned off or it is the default
namespace; an empty line follows each of them.  The files can be merged into a single one.

* `OutputFile` — a file name and a content.
* `blockLines`, `fileOf` — the file of a namespace.
* `filesOf`, `merge`, `assembled` — all files of a table.
* `generate`, `assemble` — the same for a table that still has to be checked.
-/

namespace AvroTypes

/-- A generated file. -/
structure OutputFile where
  /-- Its path relative to the output directory. -/
  name : String
  /-- What it contains. -/
  content : String
  deriving DecidableEq, Repr

namespace TypeScript

open AvroTypes.Text

/-- The declarations of a namespace, an empty line after each. -/
def groupLines (options : Options) (scope : Scope) (types : List NamedType) : List Line :=
  types.flatMap fun type => declarationLines options scope type ++ [Line.flush []]

/-- The declarations of a namespace stand in a block. -/
def inBlock (options : Options) (space : String) : Bool :=
  options.namespaceBlocks && !space.isEmpty

/-- The line that opens the block of a namespace. -/
def blockHead (space : String) : List Char :=
  "export namespace ".toList ++ pathChars space.toList ++ [' ', '\x7b']

/-- The lines of a namespace, in its block if it has one. -/
def blockLines (options : Options) (space : String) (body : List Line) : List Line :=
  if inBlock options space then
    Line.flush (blockHead space) :: deeper body ++ [Line.flush ['\x7d']]
  else body

/-- The scope of a namespace. -/
def scopeOf (options : Options) (index : SymbolIndex) (space : String) : Scope :=
  { space, index, qualified := options.namespaceBlocks }

/-- The lines of the file of a group. -/
def fileLines (options : Options) (index : SymbolIndex) (group : Group) : List Line :=
  blockLines options group.space
    (groupLines options (scopeOf options index group.space) group.types)

/-- **The file of a group.** -/
def fileOf (options : Options) (index : SymbolIndex) (group : Group) : OutputFile :=
  { name := fileName group.space
    content := String.ofList
      (renderLines options.tabulator.toList (fileLines options index group)) }

/-- The files of a table, one for each namespace. -/
def filesOf (options : Options) (index : SymbolIndex) (table : List NamedType) :
    List OutputFile :=
  (Group.ofTable table).map (fileOf options index)

/-- The name of the file that holds everything. -/
def mergedName : String := "index.ts"

/-- Several files as one, with two line feeds between their contents. -/
def merge (files : List OutputFile) : OutputFile :=
  { name := mergedName
    content :=
      String.ofList (['\n', '\n'].intercalate (files.map fun file => file.content.toList)) }

/-- **The files of a table, one for each namespace**, or everything that keeps the table from being
written. -/
def generate (options : Options) (table : List NamedType) : Except (List Issue) (List OutputFile) :=
  let index := SymbolIndex.ofTable table
  match issues options index table with
  | [] => .ok (filesOf options index table)
  | found => .error found

/-- The files of a table, merged into one if the options say so. -/
def assemble (options : Options) (table : List NamedType) :
    Except (List Issue) (List OutputFile) := do
  let files ← generate options table
  return if options.singleFile then [merge files] else files

end TypeScript

end AvroTypes
