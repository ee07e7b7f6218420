/-!
# Options

What a conversion can be asked to do differently.  One value serves the whole run.
-/

namespace AvroTypes

/-- The style of the declarations.  Only type aliases are implemented. -/
inductive ExportMode where
  | typeAlias | interfaceDecl | abstractClass
  deriving DecidableEq, Repr

namespace ExportMode

/-- The word that selects a style. -/
def word : ExportMode → String
  | typeAlias => "type"
  | interfaceDecl => "interface"
  | abstractClass => "abstract"

/-- The style that a word selects. -/
def ofWord? (word : String) : Option ExportMode :=
  [typeAlias, interfaceDecl, abstractClass].find? (·.word = word)

end ExportMode

/-- What a conversion can be asked to do differently. -/
structure Options where
  /-- Merge everything into one file, instead of one file for each namespace. -/
  singleFile : Bool := false
  /-- The style of the declarations. -/
  exportMode : ExportMode := .typeAlias
  /-- Put the declarations of a namespace into a block of that name. -/
  namespaceBlocks : Bool := true
  /-- Follow every record by a constant that holds its schema. -/
  exportSchema : Bool := true
  /-- One level of indentation. -/
  tabulator : String := "\t"
  /-- How the path of an input file has to end. -/
  inputExtension : String := ".avro"
  /-- The namespace of schemas that declare and inherit none. -/
  defaultNamespace : String := ""
  /-- Refuse references to types that are not in the table. -/
  denyDangling : Bool := true
  deriving DecidableEq, Repr

end AvroTypes
