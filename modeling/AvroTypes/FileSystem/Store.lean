/-!
# File stores

What a conversion needs from a file system, as operations that a program can be written against
without saying which file system it is.  Paths are texts, as they were given, because messages show
them; two paths may lead to the same place, and only the store knows.

* `IoError` — why an operation fails, with its wording.
* `EntryKind`, `FileStore` — the operations.
* `FileStore.leadsSomewhere` — whether a path leads to anything at all.
-/

namespace AvroTypes

/-- Why an operation on files fails. -/
inductive IoError where
  | notFound | alreadyThere | notADirectory | isADirectory | invalidArgument
  | nameTooLong | notEmpty | busy | tooManyLinks
  /-- A name with a NUL character in it. -/
  | nulInName
  /-- Bytes that are not UTF-8, in the place of a text. -/
  | notUtf8
  /-- The name of an output file that does not stay below the output directory. -/
  | leavesOutput (name : String)
  /-- Any other failure, in the words of the system. -/
  | other (message : String)
  deriving DecidableEq, Repr

/-- The wording of a failure. -/
def IoError.message : IoError → String
  | notFound => "No such file or directory (os error 2)"
  | alreadyThere => "File exists (os error 17)"
  | notADirectory => "Not a directory (os error 20)"
  | isADirectory => "Is a directory (os error 21)"
  | invalidArgument => "Invalid argument (os error 22)"
  | nameTooLong => "File name too long (os error 36)"
  | notEmpty => "Directory not empty (os error 39)"
  | busy => "Device or resource busy (os error 16)"
  | tooManyLinks => "Too many levels of symbolic links (os error 40)"
  | nulInName => "file name contained an unexpected NUL byte"
  | notUtf8 => "stream did not contain valid UTF-8"
  | leavesOutput name =>
    s!"output file '{name}' is not a relative path inside the output directory"
  | other message => message

/-- What a directory entry is. -/
inductive EntryKind where
  | file | directory | link
  /-- A device or the like, which no one reads. -/
  | special
  deriving DecidableEq, Repr

/-- The operations of a file system.  An operation that fails may have been carried out in part. -/
class FileStore (m : Type → Type) where
  /-- How deep the directories below any place may be nested, links included. -/
  depthLimit : m Nat
  /-- What a path names; a link is not followed. -/
  entryKind : String → ExceptT IoError m EntryKind
  /-- What a path leads to when links are followed, and where that is: the names that lead there
  from the root. -/
  destination : String → ExceptT IoError m (EntryKind × List String)
  /-- The names in a directory with what each of them names, in no particular order; a link is not
  followed. -/
  entries : String → ExceptT IoError m (List (String × EntryKind))
  /-- What a file contains. -/
  readBytes : String → ExceptT IoError m ByteArray
  /-- Makes a file contain something, whether it existed or not. -/
  writeBytes : String → ByteArray → ExceptT IoError m Unit
  /-- Creates a directory, and the directories that lead to it as far as they are missing. -/
  createDirectories : String → ExceptT IoError m Unit
  /-- Removes a directory with everything below it; of a link only the link. -/
  removeAll : String → ExceptT IoError m Unit

/-- A path leads to something that exists. -/
def FileStore.leadsSomewhere {m : Type → Type} [Monad m] [FileStore m] (path : String) :
    m Bool := do
  match ← (FileStore.destination path).run with
  | .ok _ => return true
  | .error _ => return false

end AvroTypes
