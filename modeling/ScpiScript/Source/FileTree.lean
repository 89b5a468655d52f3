import ScpiScript.Source.Failure
import ScpiScript.Text.Utf8
/-!
# A tree of files

The files that a run can see are a finite tree. A path is walked component by
component, as an operating system walks it: each component but the last has to be a
directory, and so does the last one if a slash follows.

- `FileTree.find` is the file or directory at a path, or why there is none.
-/

namespace ScpiScript

/-- What stands at a place of a file tree. -/
inductive Node
  | file (content : Bytes)
  | directory
  deriving DecidableEq, Repr

/-- The files that can be seen, by the components of their absolute paths.
Directories that hold something need not be listed. -/
structure FileTree where
  /-- The components of the path that relative paths begin at. -/
  workingDirectory : List String
  nodes : List (List String × Node)
  deriving Repr

namespace FileTree

/-- The longest name of a file, in bytes. -/
def maxNameLength : Nat := 255

/-- The longest path, in bytes. -/
def maxPathLength : Nat := 4095

/-- The components of a path, in order; consecutive slashes have an empty one
between them. -/
def components (path : List Char) : List String :=
  (path.splitOn '/').map String.ofList

/-- What stands at an absolute path, given its components. -/
def node? (tree : FileTree) (at_ : List String) : Option Node :=
  match tree.nodes.lookup at_ with
  | some node => some node
  | none =>
    if at_.isPrefixOf tree.workingDirectory || tree.nodes.any fun n => at_.isPrefixOf n.1 then
      some .directory
    else none

/-- The place that one component leads to from a directory. A place is the list of
the components that lead there, the last one first. -/
def step (tree : FileTree) (place : List String) (name : String) :
    Except IoError (List String) :=
  if name = "" || name = "." then .ok place
  else if name = ".." then .ok place.tail
  else if maxNameLength < name.utf8ByteSize then .error .nameTooLong
  else if (tree.node? (name :: place).reverse).isSome then .ok (name :: place)
  else .error .notFound

/-- The place that components lead to. -/
def walk (tree : FileTree) (place : List String) : List String → Except IoError (List String)
  | [] => .ok place
  | name :: rest =>
    match tree.node? place.reverse with
    | some .directory =>
      match tree.step place name with
      | .ok next => tree.walk next rest
      | .error e => .error e
    | some (.file _) => .error .notDirectory
    | none => .error .notFound

/-- Where a path begins, and the components that lead on from there. -/
def start (tree : FileTree) (path : String) : List String × List String :=
  match path.toList with
  | '/' :: rest => ([], components rest)
  | cs => (tree.workingDirectory.reverse, components cs)

/-- The file or directory at a path. -/
def find (tree : FileTree) (path : String) : Except IoError Node :=
  if path.toList.contains '\x00' then .error .nulInPath
  else if path = "" then .error .notFound
  else if maxPathLength < path.utf8ByteSize then .error .nameTooLong
  else
    let (place, names) := tree.start path
    match tree.walk place names with
    | .error e => .error e
    | .ok place =>
      match tree.node? place.reverse with
      | some node => .ok node
      | none => .error .notFound

/-- Something stands at a path. -/
def exists? (tree : FileTree) (path : String) : Bool := (tree.find path).isOk

end FileTree

end ScpiScript
