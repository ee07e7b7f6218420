import AvroTypes.FileSystem.Path
import AvroTypes.FileSystem.Store

/-!
# File systems as trees

A file system is a value: a tree of directories, files and links, and the directory that relative
paths start from.  The entries of a directory are kept in the order of their names, so two file
systems with the same entries are equal however they came about.

A path is followed step by step from a directory.  A link on the way is replaced by the path it
holds; at most `linkLimit` of them may be met, which also ends the endless ones.  Names and paths
have a greatest length.  An operation that takes several steps follows its paths anew at each step,
so it sees what the steps before it have changed.

* `Entry`, `FileSystem` — the data.
* `Entry.at?`, `Entry.update` — an entry by the names that lead to it.
* `followParts`, `FileSystem.locate` — where a path leads.
* `Action` and the operations that make a file system a `FileStore`.
-/

namespace AvroTypes

/-- An entry of a directory. -/
inductive Entry where
  | file (bytes : ByteArray)
  /-- A link to the place that a path leads to from the directory of the link. -/
  | link (target : String)
  | directory (entries : List (String × Entry))
  deriving Inhabited

namespace Entry

/-- What an entry is. -/
def kind : Entry → EntryKind
  | file _ => .file
  | link _ => .link
  | directory _ => .directory

/-- The entry that names lead down to, through directories only. -/
def at? : Entry → List String → Option Entry
  | entry, [] => some entry
  | directory entries, name :: rest => (entries.lookup name).bind (·.at? rest)
  | _, _ :: _ => none

/-- The entries of a directory with something else under a name, or with nothing there. -/
def putEntry (name : String) (new : Option Entry) : List (String × Entry) → List (String × Entry)
  | [] => new.toList.map fun entry => (name, entry)
  | (other, entry) :: rest =>
    if other = name then new.toList.map (fun entry => (name, entry)) ++ rest
    else if name < other then
      new.toList.map (fun entry => (name, entry)) ++ (other, entry) :: rest
    else (other, entry) :: putEntry name new rest

/-- The tree with something else, or nothing, at the place that names lead to.  Nothing changes if
the place is in no directory.  At no names at all the tree itself is exchanged, but there is always
one. -/
def update (new : Option Entry) : List String → Entry → Entry
  | [], entry => new.getD entry
  | [name], directory entries => directory (putEntry name new entries)
  | name :: rest, directory entries =>
    match entries.lookup name with
    | some entry => directory (putEntry name (some (update new rest entry)) entries)
    | none => directory entries
  | _, entry => entry

mutual

/-- How many levels of directories an entry has. -/
def height : Entry → Nat
  | directory entries => heights entries + 1
  | _ => 0

/-- The greatest height among entries. -/
def heights : List (String × Entry) → Nat
  | [] => 0
  | (_, entry) :: rest => max entry.height (heights rest)

/-- How many directories an entry is or holds. -/
def directoryCount : Entry → Nat
  | directory entries => directoryCounts entries + 1
  | _ => 0

/-- How many directories are among entries or in them. -/
def directoryCounts : List (String × Entry) → Nat
  | [] => 0
  | (_, entry) :: rest => entry.directoryCount + directoryCounts rest

end

end Entry

/-- A file system. -/
structure FileSystem where
  /-- Everything there is. -/
  root : Entry
  /-- The names that lead from the root to the directory where relative paths start. -/
  workingDirectory : List String

/-! ## Following paths -/

/-- Where a path leads. -/
inductive Place where
  /-- To an entry that exists. -/
  | found (location : List String) (entry : Entry)
  /-- To a name that is free in a directory that exists. -/
  | free (directory : List String) (name : String)

/-- How many bytes a name may have. -/
def nameLimit : Nat := 255

/-- How many bytes a path may have. -/
def pathLimit : Nat := 4095

/-- Follows parts from the directory `here`.  A link that is met is left to `jump`, unless it is the
last part and links there are not to be followed. -/
def followParts (root : Entry) (followLast : Bool)
    (jump : List String → List Part → Except IoError Place) :
    (here : List String) → List Part → Except IoError Place
  | here, [] =>
    match root.at? here with
    | some entry => .ok (.found here entry)
    | none => .error .notFound
  | here, .stay :: rest => followParts root followLast jump here rest
  | here, .up :: rest => followParts root followLast jump here.dropLast rest
  | here, .down name :: rest =>
    let next := here ++ [name]
    if nameLimit < name.utf8ByteSize then .error .nameTooLong
    else match root.at? next with
    | none => if rest.isEmpty then .ok (.free here name) else .error .notFound
    | some (.directory _) => followParts root followLast jump next rest
    | some (.file bytes) =>
      if rest.isEmpty then .ok (.found next (.file bytes)) else .error .notADirectory
    | some (.link target) =>
      if rest.isEmpty && !followLast then .ok (.found next (.link target))
      else if target.isEmpty then .error .notFound
      else jump (if isAbsolute target then [] else here) (partsOf target ++ rest)

/-- Follows parts through at most the given number of links. -/
def followLinks (root : Entry) (followLast : Bool) :
    (links : Nat) → (here : List String) → List Part → Except IoError Place
  | 0 => followParts root followLast fun _ _ => .error .tooManyLinks
  | links + 1 => followParts root followLast (followLinks root followLast links)

/-- How many links may be met on the way. -/
def linkLimit : Nat := 40

namespace FileSystem

/-- Where a path starts. -/
def start (fs : FileSystem) (path : String) : List String :=
  if isAbsolute path then [] else fs.workingDirectory

/-- Where parts of a path lead, from where the path starts. -/
def follow (fs : FileSystem) (followLast : Bool) (path : String) (parts : List Part) :
    Except IoError Place :=
  if path.toList.contains '\x00' then .error .nulInName
  else if path.isEmpty then .error .notFound
  else if pathLimit < path.utf8ByteSize then .error .nameTooLong
  else followLinks fs.root followLast linkLimit (fs.start path) parts

/-- **Where a path leads.**  A link at its end is followed only if `followLast` says so, or if a
slash follows it. -/
def locate (fs : FileSystem) (followLast : Bool) (path : String) : Except IoError Place :=
  fs.follow followLast path (partsOf path)

/-- What a path names, whether or not it ends with a slash. -/
def locateNamed (fs : FileSystem) (path : String) : Except IoError Place :=
  fs.follow false path (namedParts path)

/-- The entry that a path leads to, and its location. -/
def entry (fs : FileSystem) (followLast : Bool) (path : String) :
    Except IoError (List String × Entry) := do
  match ← fs.locate followLast path with
  | .found location entry => return (location, entry)
  | .free _ _ => throw .notFound

/-- The file system with something else, or nothing, at a location. -/
def put (fs : FileSystem) (location : List String) (new : Option Entry) : FileSystem :=
  { fs with root := fs.root.update new location }

/-- The names in a directory with what each of them names. -/
def entries (fs : FileSystem) (path : String) : Except IoError (List (String × EntryKind)) := do
  match ← fs.entry true path with
  | (_, .directory entries) => return entries.map fun (name, entry) => (name, entry.kind)
  | _ => throw .notADirectory

/-- What a file contains. -/
def readBytes (fs : FileSystem) (path : String) : Except IoError ByteArray := do
  match ← fs.entry true path with
  | (_, .file bytes) => return bytes
  | _ => throw .isADirectory

/-- What a path leads to, and where that is. -/
def destination (fs : FileSystem) (path : String) : Except IoError (EntryKind × List String) := do
  let (location, entry) ← fs.entry true path
  return (entry.kind, location)

/-- Makes a file contain something.  At the end of a link to nowhere a file comes into being. -/
def writeBytes (fs : FileSystem) (path : String) (bytes : ByteArray) :
    Except IoError FileSystem := do
  match ← fs.locate true path with
  | .found _ (.directory _) => throw .isADirectory
  | .found location _ => return fs.put location (some (.file bytes))
  | .free directory name => return fs.put (directory ++ [name]) (some (.file bytes))

/-- Creates one entry where there is none. -/
def create (fs : FileSystem) (path : String) (new : Entry) : Except IoError FileSystem := do
  match ← fs.locateNamed path with
  | .found _ _ => throw .alreadyThere
  | .free directory name => return fs.put (directory ++ [name]) (some new)

/-- Removes what a path names, whatever it is. -/
def remove (fs : FileSystem) (path : String) : Except IoError FileSystem := do
  return fs.put (← fs.entry false path).1 none

/-- A path leads to a directory. -/
def isDirectory (fs : FileSystem) (path : String) : Bool :=
  match fs.entry true path with
  | .ok (_, .directory _) => true
  | _ => false

/-- Creates a directory where there is none, or leaves the one that is there. -/
def ensureDirectory (fs : FileSystem) (path : String) : Except IoError FileSystem :=
  match fs.create path (.directory []) with
  | .ok made => .ok made
  | .error error => if fs.isDirectory path then .ok fs else .error error

/-- Creates the first of some directories, each the one above the one before it, creating the ones
above only when that is not possible without.  What was created stays even if it ends in a
failure. -/
def createChain (fs : FileSystem) : List String → Except IoError Unit × FileSystem
  | [] => (.ok (), fs)
  | path :: above =>
    match fs.ensureDirectory path with
    | .ok made => (.ok (), made)
    | .error .notFound =>
      match createChain fs above with
      | (.error error, made) => (.error error, made)
      | (.ok (), made) =>
        match made.ensureDirectory path with
        | .ok done => (.ok (), done)
        | .error error => (.error error, made)
    | .error error => (.error error, fs)

/-- Creates a directory and the missing ones that lead to it. -/
def createDirectories (fs : FileSystem) (path : String) : Except IoError Unit × FileSystem :=
  fs.createChain (ancestorPaths path)

/-- Removes an empty directory, which has to be called by its name. -/
def removeDirectory (fs : FileSystem) (path : String) : Except IoError FileSystem := do
  match ← fs.locateNamed path, (namedParts path).getLast? with
  | .found location (.directory []), some (.down _) => return fs.put location none
  | .found _ (.directory _), some (.down _) => throw .notEmpty
  | .found _ _, some (.down _) => throw .notADirectory
  | .found _ _, some .stay => throw .invalidArgument
  | .found _ _, some .up => throw .notEmpty
  | .found _ _, none => throw .busy
  | .free _ _, _ => throw .notFound

/-- Removes a directory with everything below it; of a link only the link.  The content goes first,
and if the path then leads nowhere any more, because it led through the content, the empty directory
stays. -/
def removeAll (fs : FileSystem) (path : String) : Except IoError Unit × FileSystem :=
  match fs.entry false path with
  | .error error => (.error error, fs)
  | .ok (_, .file _) => (.error .notADirectory, fs)
  | .ok (location, .link _) => (.ok (), fs.put location none)
  | .ok (location, .directory _) =>
    let emptied := fs.put location (some (.directory []))
    match emptied.removeDirectory path with
    | .ok removed => (.ok (), removed)
    | .error .notFound => (.ok (), emptied)
    | .error error => (.error error, emptied)

end FileSystem

/-! ## A file system as a store -/

/-- An operation that only looks. -/
def looking {α : Type} (look : FileSystem → Except IoError α) :
    ExceptT IoError (StateM FileSystem) α :=
  ExceptT.mk fun fs => (look fs, fs)

/-- An operation that changes the file system unless it fails. -/
def changing (change : FileSystem → Except IoError FileSystem) :
    ExceptT IoError (StateM FileSystem) Unit :=
  ExceptT.mk fun fs => match change fs with
    | .ok changed => (.ok (), changed)
    | .error error => (.error error, fs)

/-- Entering a directory through a link is only possible where it is not entered already, so below
any place there are at most as many such steps as directories, and between two of them at most as
many others as the tree is high. -/
instance : FileStore (StateM FileSystem) where
  depthLimit := fun fs => ((fs.root.directoryCount + 2) * (fs.root.height + 2), fs)
  entryKind path := looking fun fs => return (← fs.entry false path).2.kind
  destination path := looking (·.destination path)
  entries path := looking (·.entries path)
  readBytes path := looking (·.readBytes path)
  writeBytes path bytes := changing (·.writeBytes path bytes)
  createDirectories path := ExceptT.mk fun fs => fs.createDirectories path
  removeAll path := ExceptT.mk fun fs => fs.removeAll path

end AvroTypes
