import DesignTree.Data.Reader
import DesignTree.Diagnostics.Fault
import DesignTree.Text.Search

/-! # The files around a command

The files that a command can read, and the directories in which it can write. A path leads from the
working directory or from the root, one part after the other, and what is on its way has to be a
directory.
-/

namespace DesignTree.CommandLine

/-- The parts of a path that lead somewhere. -/
def pathParts (path : Text) : List Text :=
  (path.split '/').filter fun p => !(p.isEmpty || p = ".")

/-- The slashes that stay at the start of a path: two are kept, more count as one. -/
def pathRoot (path : Text) : Text :=
  if path.startsWith "///" then "/"
  else if path.startsWith "//" then "//"
  else if path.startsWith "/" then "/"
  else ""

/-- A path without its empty parts and the parts that stay where they are. -/
def normalPath (path : Text) : Text :=
  let normal := pathRoot path ++ Text.intercalate "/" (pathParts path)
  if normal.isEmpty then "." else normal

/-- The place of a path, with every name on its way taken for a directory. -/
def placeOf (home : List Text) (path : Text) : List Text :=
  let start := if (pathRoot path).isEmpty then home else []
  (pathParts path).foldl (fun place (name : Text) =>
    if name = ".." then place.dropLast else place ++ [name]) start

/-- What a command finds around it. Places are lists of names from the root. -/
structure Workspace where
  /-- The working directory. -/
  home : List Text := []
  /-- The files with their texts. -/
  files : List (List Text × String) := []
  /-- Further directories. -/
  directories : List (List Text) := []

namespace Workspace

/-- Bytes in the longest name. -/
def nameLimit : Nat := 255

/-- Bytes in the longest path. -/
def pathLimit : Nat := 4095

/-- The text of the file at a place. -/
def textAt? (w : Workspace) (place : List Text) : Option String :=
  (w.files.find? (·.1 == place)).map (·.2)

/-- Whether there is a directory at a place. -/
def isDirectory (w : Workspace) (place : List Text) : Bool :=
  (w.home :: w.directories ++ w.files.map (·.1.dropLast)).any (place.isPrefixOf ·)

/-- The place to which names lead from a place. -/
def follow (w : Workspace) (place : List Text) : List Text → Except Obstacle (List Text)
  | [] => .ok place
  | name :: rest =>
    if !w.isDirectory place then
      .error (if (w.textAt? place).isSome then .fileInPath else .missing)
    else if nameLimit < name.byteSize then .error .nameTooLong
    else w.follow (if name = ".." then place.dropLast else place ++ [name]) rest

/-- The place to which a normal path leads. -/
def locate (w : Workspace) (path : Text) : Except Fault (List Text) := do
  if let some run := path.surrogateRun? (!·.standsForByte) then throw (.unencodable run)
  if path.toList.contains '\x00' then throw .endInPath
  let start := if (pathRoot path).isEmpty then w.home else []
  let place :=
    if pathLimit < path.byteSize then .error .nameTooLong
    else w.follow start (pathParts path)
  place.mapError (.unopened · path)

/-- The text of the file of a normal path. -/
def read (w : Workspace) (path : Text) : Except Fault String := do
  let place ← w.locate path
  match w.textAt? place with
  | some text => return text
  | none => throw (.unopened (if w.isDirectory place then .isDirectory else .missing) path)

/-- The place of the file that is written under a normal path. -/
def placeToWrite (w : Workspace) (path : Text) : Except Fault (List Text) := do
  let place ← w.locate path
  if w.isDirectory place then throw (.unopened .isDirectory path) else return place

/-- The path from the working directory to the place of a file that is not there yet. -/
def newPath? (w : Workspace) (place : List Text) : Option Text :=
  if w.home.isPrefixOf place && (w.textAt? place).isNone then
    some (Text.intercalate "/" (place.drop w.home.length))
  else none

/-- The value that a file holds as JSON. -/
def readJson (w : Workspace) (path : Text) : Except Fault Value := do
  match Json.read (← w.read (normalPath path)) with
  | .ok v => return v
  | .error .malformed => throw .malformed
  | .error (.tooManyDigits count) => throw (.tooManyDigits count)
  | .error (.tooDeep isList) => throw (.tooDeep isList)

end Workspace

end DesignTree.CommandLine
