import AvroTypes.FileSystem.Directory
import AvroTypes.Schema.Resolve

/-!
# Conversions

A conversion reads schemas, from a text or from the files of a directory, and yields declarations,
as files, as one text, or in a directory whose content they replace.  It fails before it writes
anything, unless writing itself fails.

* `ConversionError` — why a conversion fails, with its wording.
* `checkMode`, `generateTable`, `assembleTable` — from a table to files.
* `filesOfText`, `mergedOfText` — from a text.
* `loadDirectory`, `dumpTable`, `convertDirectory` — from and to directories.
-/

namespace AvroTypes

/-- Why a conversion fails. -/
inductive ConversionError where
  /-- A document is no schema. -/
  | malformedSchema (fault : Schema.Fault)
  /-- The files of a directory could not be found. -/
  | sourceUnavailable (directory : String) (error : WalkError)
  /-- The declarations cannot be written in this style. -/
  | unimplementedMode (mode : ExportMode)
  /-- The table has problems. -/
  | generation (issues : List Issue)
  /-- A failure with one particular file. -/
  | inFile (path : String) (error : ConversionError)
  /-- Reading or writing failed. -/
  | io (error : IoError)

/-- The wording of a failure. -/
def ConversionError.message : ConversionError → String
  | malformedSchema fault => fault.message
  | sourceUnavailable directory error =>
    s!"cannot list input directory '{directory}': {error.message}"
  | unimplementedMode mode => s!"export mode '{mode.word}' is not implemented"
  | generation issues => issuesMessage issues
  | inFile path error => s!"{path}: {error.message}"
  | io error => error.message

namespace Conversion

/-! ## Tables and texts -/

/-- Refuses the styles that are not implemented. -/
def checkMode (options : Options) : Except ConversionError Unit :=
  match options.exportMode with
  | .typeAlias => .ok ()
  | mode => .error (.unimplementedMode mode)

/-- The table of a text. -/
def tableOfText (options : Options) (text : String) : Except ConversionError (List NamedType) :=
  (Schema.tableOfText text options.defaultNamespace).mapError .malformedSchema

/-- The files of a table, one for each namespace. -/
def generateTable (options : Options) (table : List NamedType) :
    Except ConversionError (List OutputFile) := do
  checkMode options
  (TypeScript.generate options table).mapError .generation

/-- The files of a table, merged into one if the options say so. -/
def assembleTable (options : Options) (table : List NamedType) :
    Except ConversionError (List OutputFile) := do
  checkMode options
  (TypeScript.assemble options table).mapError .generation

/-- **The files of a text.**  A style that is not implemented is refused before the text is read. -/
def filesOfText (options : Options) (text : String) : Except ConversionError (List OutputFile) := do
  checkMode options
  assembleTable options (← tableOfText options text)

/-- All declarations of a text as one text. -/
def mergedOfText (options : Options) (text : String) : Except ConversionError String := do
  return (TypeScript.merge (← filesOfText options text)).content

/-- The text that bytes spell. -/
def decodeText (bytes : ByteArray) : Except ConversionError String :=
  match String.fromUTF8? bytes with
  | some text => .ok text
  | none => .error (.io .notUtf8)

/-- The table of the text that bytes spell. -/
def tableOfBytes (options : Options) (bytes : ByteArray) :
    Except ConversionError (List NamedType) := do
  tableOfText options (← decodeText bytes)

/-! ## Files and directories -/

variable {m : Type → Type} [Monad m] [FileStore m]

/-- The table of one file. -/
def loadFile (options : Options) (path : String) : ExceptT ConversionError m (List NamedType) := do
  let bytes ← (FileStore.readBytes path).adapt fun error =>
    ConversionError.inFile path (.io error)
  liftExcept ((tableOfBytes options bytes).mapError (ConversionError.inFile path))

/-- **The table of the schema files of a directory**, in the order of the walk. -/
def loadDirectory (options : Options) (directory : String) :
    ExceptT ConversionError m (List NamedType) := do
  let paths ← (filesEndingIn options.inputExtension directory).adapt
    (ConversionError.sourceUnavailable directory)
  let tables ← paths.mapM (loadFile options)
  return tables.flatten

/-- Makes a directory hold the files of a table. -/
def dumpTable (options : Options) (table : List NamedType) (directory : String) :
    ExceptT ConversionError m Unit := do
  let files ← liftExcept (assembleTable options table)
  (replaceDirectory directory files).adapt .io

/-- **Makes one directory hold the declarations for the schema files of another.**  A style that is
not implemented is refused before any file is looked for. -/
def convertDirectory (options : Options) (input output : String) :
    ExceptT ConversionError m Unit := do
  liftExcept (checkMode options)
  dumpTable options (← loadDirectory options input) output

end Conversion

end AvroTypes
