import ScpiScript.CommandLine.Reach
import ScpiScript.CommandLine.Setup
/-!
# The command line

Everything a run depends on is read first: arguments, environment, standard input if
some action wants it, and the files that the run can reach. Then the program is run
as a function, and what it says is printed.
-/

namespace ScpiScript.CommandLine

/-- What stands at a path on the disk. -/
def readNode? (path : String) : IO (Option Node) := do
  try return some (.file (← IO.FS.readBinFile path).toList)
  catch _ =>
    try
      let _ ← ((← IO.currentDir) / path).readDir
      return some .directory
    catch _ => return none

/-- A tree with what stands at some paths, and at all that is included from there. -/
partial def collect (tree : FileTree) : List String → IO FileTree
  | [] => return tree
  | path :: rest => do
    if tree.holds path then collect tree rest
    else
      match ← readNode? path with
      | some node => collect (tree.add path node) (node.includes ++ rest)
      | none => collect tree rest

/-- How deep modules are looked for below a directory. -/
def moduleDepth : Nat := 4

/-- The module files in a directory and below it. -/
def moduleFiles (directory : String) : (depth : Nat) → IO (List String)
  | 0 => return []
  | depth + 1 => do
    let entries ← try ((← IO.currentDir) / directory).readDir catch _ => pure #[]
    let found ← entries.toList.mapM fun entry => do
      let path := entry.path.toString
      if path.endsWith ".lua" then return [path] else moduleFiles path depth
    return found.flatten

/-- The part of a path before its last slash. -/
def parentOf (path : String) : String :=
  String.ofList ((path.toList.reverse.dropWhile (· ≠ '/')).drop 1).reverse

/-- What the program takes from its environment. -/
def readEnvironment : IO Environment := do
  return {
    settingsPath := ← IO.getEnv "ARBSCRIPT_RC"
    configHome := ← IO.getEnv "XDG_CONFIG_HOME"
    home := (← IO.getEnv "HOME").getD "/"
    modulePath := ← IO.getEnv "ARBSCRIPT_LUA_PATH"
    programDirectory := parentOf (← IO.appPath).toString }

/-- Standard input, if some action reads it. -/
def readStdin (arguments : List String) : IO Bytes := do
  if (requestedActions arguments).any Action.readsStdin then
    return (← (← IO.getStdin).readBinToEnd).toList
  else return []

/-- All that a run depends on. -/
def readInvocation (arguments : List String) : IO Invocation := do
  let stdin ← readStdin arguments
  let environment ← readEnvironment
  let root := FileTree.components ((← IO.currentDir).toString.toList.drop 1)
  let files ← collect ⟨root, []⟩ (firstPaths arguments stdin environment)
  let invocation : Invocation := ⟨arguments, stdin, files, environment⟩
  let settings := match Arguments.read arguments with
    | .ok a => (Program.loadSettings a invocation).1
    | .error _ => .default
  let directories := "." :: moduleDirectories environment settings
  let modules ← directories.mapM fun directory => moduleFiles directory moduleDepth
  return { invocation with files := ← collect files modules.flatten }

end ScpiScript.CommandLine

open ScpiScript in
/-- Run the program with its arguments. -/
def main (arguments : List String) : IO UInt32 := do
  let invocation ← CommandLine.readInvocation arguments
  let outcome := Program.run Setup.offline invocation
  IO.print outcome.stdout
  IO.eprint outcome.stderr
  return UInt32.ofNat outcome.code
