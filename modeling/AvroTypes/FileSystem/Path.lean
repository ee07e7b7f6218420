/-!
# Paths

A path is a text in which slashes separate names; repeated slashes count as one.  A single dot
means the place itself and two dots the directory above.

* `pathSegments` — a path taken apart.
* `isPlainRelative` — paths that lead further down from any directory, and nowhere else.
* `joinPath`, `directoriesOf` — paths put together, and the directories that a path needs.
* `ancestorPaths` — the paths to the directories on the way.
* `Part`, `partsOf`, `isAbsolute` — the form in which a path is followed.
-/

namespace AvroTypes

/-- What stands between the slashes of a path. -/
def pathSegments (path : String) : List String :=
  (path.toList.splitOn '/').map String.ofList

/-- A path that starts at the root. -/
def isAbsolute (path : String) : Bool := path.toList.head? = some '/'

/-- The segments of a path that name something to go down to. -/
def namedSegments (path : String) : List String :=
  (pathSegments path).filter fun segment => segment ≠ "" && segment ≠ "."

/-- **A path that only leads down**: it has a name, and neither starts at the root, nor starts with
a dot, nor goes up anywhere. -/
def isPlainRelative (path : String) : Bool :=
  let segments := pathSegments path
  !isAbsolute path && segments.head? ≠ some "." && !segments.contains ".."
    && !(namedSegments path).isEmpty

/-- The path of something inside a directory. -/
def joinPath (directory name : String) : String :=
  if directory.isEmpty || directory.toList.getLast? = some '/' then directory ++ name
  else directory ++ "/" ++ name

/-- The directory that holds the file which a plain relative path names below a directory. -/
def directoryOf (directory name : String) : String :=
  match (namedSegments name).dropLast with
  | [] => directory
  | names => joinPath directory ("/".intercalate names)

/-- A path as it stands, and the shorter paths that its names lead along, longest first.  Dots for
the place itself are left out of these.  The empty path has none, as nothing has to be made for
it. -/
def ancestorPaths (path : String) : List String :=
  let names := namedSegments path
  let front := if isAbsolute path then "/" else ""
  if path.isEmpty then []
  else path :: (List.range (names.length - 1)).reverse.map fun count =>
    front ++ "/".intercalate (names.take (count + 1))

/-- One part of a path that is followed. -/
inductive Part where
  /-- Down to the entry of a name. -/
  | down (name : String)
  /-- Up to the directory above. -/
  | up
  /-- Nowhere; but what has been reached has to be a directory. -/
  | stay
  deriving DecidableEq, Repr

/-- The part that a segment stands for. -/
def partOf (segment : String) : Part :=
  if segment = "." then .stay else if segment = ".." then .up else .down segment

/-- The parts of a path, whether or not it ends with a slash. -/
def namedParts (path : String) : List Part :=
  ((pathSegments path).filter (· ≠ "")).map partOf

/-- The parts of a path; what a slash at its end follows has to be a directory. -/
def partsOf (path : String) : List Part :=
  namedParts path ++ if path.toList.getLast? = some '/' then [.stay] else []

end AvroTypes
