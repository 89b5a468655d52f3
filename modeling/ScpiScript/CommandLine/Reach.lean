import ScpiScript.CommandLine.Program
/-!
# The files that a run can reach

A run is a function of its files, so they are read before it begins. Which files it
can reach is seen from its arguments, its settings and the include lines of scripts.

- `Source.includes` are the paths that the include lines of a source name.
- `Invocation.firstPaths` are the paths that a run can begin with.
- `FileTree.add` puts what was found at a path into a tree.
-/

namespace ScpiScript

/-- The paths that the include lines of a source name, up to a line that cannot be
read. -/
def Source.includes (source : Source) : List String :=
  match _h : source.readItem with
  | (.ok (some item), rest) =>
    match item.directive with
    | some (.includeFile path) => path :: rest.includes
    | _ => rest.includes
  | _ => []
termination_by source.remaining.length
decreasing_by all_goals exact Source.length_readItem _h

/-- The include lines of what stands at a place. -/
def Node.includes (node : Node) : List String := (Source.ofNode "" node).includes

namespace FileTree

/-- The components that a path comes down to: those of its own that are no dots,
without the ones that two dots undo. -/
def locate (tree : FileTree) (path : String) : List String :=
  let (place, names) := tree.start path
  (names.foldl (fun place name =>
    if name = "" || name = "." then place
    else if name = ".." then place.tail
    else name :: place) place).reverse

/-- The tree with something put at a path. -/
def add (tree : FileTree) (path : String) (node : Node) : FileTree :=
  { tree with nodes := (tree.locate path, node) :: tree.nodes }

/-- Something was put at a path. -/
def holds (tree : FileTree) (path : String) : Bool :=
  (tree.nodes.lookup (tree.locate path)).isSome

end FileTree

namespace Action

/-- The script file of an action. -/
def path? : Action → Option String
  | runFile path => some path
  | _ => none

/-- The action reads standard input. -/
def readsStdin : Action → Bool
  | runStdin => true
  | _ => false

end Action

/-- The actions that an argument list asks for. -/
def requestedActions (list : List String) : List Action :=
  match Arguments.read list with
  | .ok arguments => arguments.actions
  | .error _ => []

/-- The paths that a run can begin with: settings, scripts, and what the script on
standard input includes. -/
def firstPaths (arguments : List String) (stdin : Bytes) (environment : Environment) :
    List String :=
  environment.candidates ++ (requestedActions arguments).filterMap Action.path? ++
    (Source.ofBytes Source.stdinTag stdin).includes

end ScpiScript
