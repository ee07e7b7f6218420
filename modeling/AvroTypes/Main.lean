import AvroTypes.CommandLine
import AvroTypes.FileSystem.Tree

/-!
# The program

The file system of the machine as a `FileStore`, and the entry point.  Nothing is decided here:
each operation hands a path to the system and words the failure as the library does.
-/

namespace AvroTypes.Machine

/-- A number of a failure without its sign, which not every operation leaves out. -/
def withoutSign (number : UInt32) : Nat :=
  if number < 0x80000000 then number.toNat else (0 - number).toNat

/-- The number by which the system calls a failure, and its words for it. -/
def numberOf : IO.Error → Option (Nat × String)
  | .alreadyExists _ code words | .resourceBusy code words | .resourceVanished code words
  | .otherError code words | .unsupportedOperation code words | .hardwareFault code words
  | .unsatisfiedConstraints code words | .illegalOperation code words
  | .protocolError code words | .timeExpired code words | .interrupted _ code words
  | .noFileOrDirectory _ code words | .invalidArgument _ code words
  | .permissionDenied _ code words | .resourceExhausted _ code words
  | .inappropriateType _ code words | .noSuchThing _ code words => some (withoutSign code, words)
  | .unexpectedEof | .userError _ => none

/-- A failure of the system as the library words it. -/
def describe (error : IO.Error) : IoError :=
  match numberOf error with
  | some (2, _) => .notFound
  | some (16, _) => .busy
  | some (17, _) => .alreadyThere
  | some (20, _) => .notADirectory
  | some (21, _) => .isADirectory
  | some (22, _) => .invalidArgument
  | some (36, _) => .nameTooLong
  | some (39, _) => .notEmpty
  | some (40, _) => .tooManyLinks
  | some (number, words) => .other s!"{words} (os error {number})"
  | none => .other (toString error)

/-- An action of the system as an operation that can fail. -/
def attempt {α : Type} (action : IO α) : ExceptT IoError IO α :=
  ExceptT.mk do
    match ← action.toBaseIO with
    | .ok result => return .ok result
    | .error error => return .error (describe error)

/-- A path of the library as the system takes it. -/
def entryAt (path : String) : IO.FS.DirEntry := { root := path, fileName := "" }

/-- What the system calls a kind of entry. -/
def kindOf : IO.FS.FileType → EntryKind
  | .dir => .directory
  | .file => .file
  | .symlink => .link
  | .other => .special

/-- What a path leads to. -/
def kindAt (path : String) : IO EntryKind :=
  return kindOf (← (entryAt path).root.metadata).type

/-- What a path names. -/
def namedKindAt (path : String) : IO EntryKind :=
  return kindOf (← (entryAt path).root.symlinkMetadata).type

/-- The names in a directory. -/
def namesIn (path : String) : IO (List String) :=
  return (← (entryAt path).root.readDir).toList.map (·.fileName)

/-- The names in a directory with what each of them names.  The entries are looked at from where the
directory really is, since their paths may be too long where that of the directory is not. -/
def entriesIn (path : String) : IO (List (String × EntryKind)) := do
  let place := (← IO.FS.realPath path).toString
  (← namesIn path).mapM fun name => return (name, ← namedKindAt (joinPath place name))

/-- Creates a directory where there is none, or leaves the one that is there. -/
def ensureDirectory (path : String) : IO Unit := do
  try IO.FS.createDir path
  catch error =>
    match ← (kindAt path).toBaseIO with
    | .ok .directory => return ()
    | _ => throw error

/-- Creates the first of some directories, each the one above the one before it. -/
def createChain : List String → IO Unit
  | [] => return ()
  | path :: above => do
    try ensureDirectory path
    catch error =>
      if describe error = .notFound then
        createChain above
        ensureDirectory path
      else throw error

/-- Removes everything below a directory. -/
partial def removeContent (directory : String) : IO Unit := do
  for name in ← namesIn directory do
    let below := joinPath directory name
    if (← namedKindAt below) = .directory then
      removeContent below
      IO.FS.removeDir below
    else IO.FS.removeFile below

/-- Removes what a path names, links only as links.  What is below a directory is removed from where
the directory really is, because the path may lead through it; the directory stays if the path then
leads nowhere any more. -/
def removeAll (path : String) : IO Unit := do
  if (← namedKindAt path) = .link then IO.FS.removeFile path
  else
    removeContent (← IO.FS.realPath path).toString
    try IO.FS.removeDir path
    catch error => unless describe error = .notFound do throw error

/-- No path is longer than 4095 bytes, so none has more names than this. -/
instance : FileStore IO where
  depthLimit := return 4096
  entryKind path := attempt (namedKindAt path)
  destination path := attempt do
    return (← kindAt path, (← IO.FS.realPath path).components)
  entries path := attempt (entriesIn path)
  readBytes path := attempt (IO.FS.readBinFile path)
  writeBytes path bytes := attempt (IO.FS.writeBinFile path bytes)
  createDirectories path := attempt (createChain (ancestorPaths path))
  removeAll path := attempt (removeAll path)

end AvroTypes.Machine

/-- Runs the program on the arguments of the process. -/
def main (arguments : List String) : IO UInt32 := do
  let readInput : IO ByteArray := do (← IO.getStdin).readBinToEnd
  let outcome ← AvroTypes.CommandLine.run arguments readInput
  IO.print outcome.output
  IO.eprint outcome.errors
  return outcome.exitCode.toUInt32
