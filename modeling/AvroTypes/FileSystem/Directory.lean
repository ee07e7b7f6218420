import AvroTypes.FileSystem.Path
import AvroTypes.FileSystem.Store
import AvroTypes.TypeScript.OutputFile

/-!
# Walking and replacing directories

A walk goes through a directory and everything below it, depth first, the entries of each
directory in the order of their names.  What an entry is, its directory says, so the walk itself
never looks at a file.  Links are followed, and a link to a directory that the walk is already in is
an error, since the walk would not end.

The generated files take the place of whatever the output directory held.  Before anything is
removed every file name is checked: it has to lead down from the output directory and nowhere else.

* `WalkError` — why a walk fails, with its wording.
* `filesBelow` — the paths of all files.
* `filesEndingIn` — those that end in a given way.
* `listing` — a directory as the paths below it with the contents of the files.
* `replaceDirectory` — a directory is made to hold the given files.
* `writeBelow` — one file below a directory.
-/

namespace AvroTypes

/-! ## Walking a directory -/

/-- Why a walk fails. -/
inductive WalkError where
  /-- An operation on a path failed. -/
  | failed (path : String) (error : IoError)
  /-- A link leads back to a directory that the walk is in. -/
  | loop (link ancestor : String)
  deriving DecidableEq, Repr

/-- The wording of a failure. -/
def WalkError.message : WalkError → String
  | failed path error => s!"IO error for operation on {path}: {error.message}"
  | loop link ancestor => s!"File system loop found: {link} points to an ancestor {ancestor}"

/-- A directory that the walk is in. -/
structure Ancestor where
  /-- The path by which the walk came to it. -/
  path : String
  /-- Where it is. -/
  location : List String

variable {m : Type → Type} [Monad m] [FileStore m]

/-- An operation of a walk on a path. -/
def onPath {α : Type} (path : String) (operation : ExceptT IoError m α) : ExceptT WalkError m α :=
  operation.adapt (WalkError.failed path)

/-- What a path leads to that names an entry of the given kind, and where that is.  Only directories
and links are looked at. -/
def arrive (named : EntryKind) (path : String) : ExceptT WalkError m (EntryKind × List String) :=
  match named with
  | .directory | .link => onPath path (FileStore.destination path)
  | kind => return (kind, [])

/-- The order of names. -/
def inNameOrder (first second : String) : Bool := decide (first ≤ second)

/-- The paths of the files at a path or below it, if the path names an entry of the given kind, and
the walk is in the given directories, the innermost first, and may go `depth` levels down. -/
def filesFrom : (depth : Nat) → List Ancestor → (named : EntryKind) → (path : String) →
    ExceptT WalkError m (List String)
  | 0, _, _, path => throw (.failed path .nameTooLong)
  | depth + 1, ancestors, named, path => do
    let (kind, location) ← arrive named path
    match kind with
    | .file => return [path]
    | .directory =>
      if named = .link then
        if let some ancestor := ancestors.find? (·.location = location) then
          throw (.loop path ancestor.path)
      let entries ← onPath path (FileStore.entries path)
      let inside ← (entries.mergeSort fun first second => inNameOrder first.1 second.1).mapM
        fun entry =>
          filesFrom depth (⟨path, location⟩ :: ancestors) entry.2 (joinPath path entry.1)
      return inside.flatten
    | _ => return []

/-- **The paths of the files at a path or below it**, in the order of the walk. -/
def filesBelow (path : String) : ExceptT WalkError m (List String) := do
  let depth ← ExceptT.lift FileStore.depthLimit
  filesFrom depth [] (← onPath path (FileStore.entryKind path)) path

/-- A path ends in a given way. -/
def endsIn (ending path : String) : Bool := ending.toList.isSuffixOf path.toList

/-- The paths of the files at a path or below it that end in a given way. -/
def filesEndingIn (ending path : String) : ExceptT WalkError m (List String) := do
  return (← filesBelow path).filter (endsIn ending)

/-! ## Listings -/

/-- The entries below a path, as paths relative to some directory above: a directory with a slash
at the end and no content, a file with its content. -/
def listingFrom : (depth : Nat) → (front path : String) →
    ExceptT IoError m (List (String × Option ByteArray))
  | 0, _, _ => throw .nameTooLong
  | depth + 1, front, path => do
    let names := (← FileStore.entries path).map Prod.fst
    let inside ← (names.mergeSort inNameOrder).mapM fun name => do
      let below := joinPath path name
      match (← FileStore.destination below).1 with
      | .directory =>
        let inner ← listingFrom depth (front ++ name ++ "/") below
        return (front ++ name ++ "/", none) :: inner
      | _ => return [(front ++ name, some (← FileStore.readBytes below))]
    return inside.flatten

/-- Everything below a directory, in the order of the relative paths. -/
def listing (directory : String) : ExceptT IoError m (List (String × Option ByteArray)) := do
  let entries ← listingFrom (← ExceptT.lift FileStore.depthLimit) "" directory
  return entries.mergeSort fun first second => inNameOrder first.1 second.1

/-! ## Replacing a directory -/

/-- Writes a file below a directory, creating the directories that lead to it. -/
def writeBelow (directory : String) (file : OutputFile) : ExceptT IoError m Unit := do
  FileStore.createDirectories (directoryOf directory file.name)
  FileStore.writeBytes (joinPath directory file.name) file.content.toUTF8

/-- Removes what a path leads to, if it leads anywhere. -/
def clear (path : String) : ExceptT IoError m Unit := do
  if ← ExceptT.lift (FileStore.leadsSomewhere path) then FileStore.removeAll path

/-- **Makes a directory hold the given files and nothing else.**  If a file name leads out of it,
nothing is changed. -/
def replaceDirectory (directory : String) (files : List OutputFile) : ExceptT IoError m Unit := do
  match files.find? fun file => !isPlainRelative file.name with
  | some file => throw (.leavesOutput file.name)
  | none =>
    clear directory
    FileStore.createDirectories directory
    files.forM (writeBelow directory)

end AvroTypes
