import ScpiScript.Settings.Basic
import ScpiScript.Source.FileTree
/-!
# Where settings are looked for

- `Environment` is what the program takes from its environment.
- `Environment.candidates` are the places of a settings file, in order of
  preference; the first that exists is read.
-/

namespace ScpiScript

/-- What the program takes from its environment. -/
structure Environment where
  /-- A settings file named by the user. -/
  settingsPath : Option String
  /-- The directory of configuration files, if the user chose one. -/
  configHome : Option String
  /-- The home directory. -/
  home : String
  /-- Directories with modules of the script engine, separated by semicolons. -/
  modulePath : Option String
  /-- The directory that holds the program. -/
  programDirectory : String

namespace Environment

/-- A path below a directory. -/
def join (directory name : String) : String :=
  if directory.toList.getLast? = some '/' then directory ++ name else directory ++ "/" ++ name

/-- The directory of configuration files; one that is not absolute does not count. -/
def configDirectory (env : Environment) : String :=
  match env.configHome with
  | some path => if path.toList.head? = some '/' then path else join env.home ".config"
  | none => join env.home ".config"

/-- The places where a settings file may be. -/
def candidates (env : Environment) : List String :=
  env.settingsPath.toList ++
    [join (join env.configDirectory "arbscript") "arbscript.rc",
     join env.home ".arbscriptrc",
     "./.arbscriptrc"]

/-- The settings file to read, if there is one. -/
def findSettings (env : Environment) (files : FileTree) : Option String :=
  env.candidates.find? files.exists?

end Environment

/-- The text of the file at a path. -/
def FileTree.readText (files : FileTree) (path : String) : Except IoError String :=
  match files.find path with
  | .error e => .error e
  | .ok .directory => .error .isDirectory
  | .ok (.file content) =>
    match Utf8.decode? content with
    | some text => .ok text
    | none => .error .invalidUtf8

/-- The settings in the file at a path. -/
def Settings.loadFile (files : FileTree) (path : String) :
    Except IoError (Settings × List SettingFailure) :=
  (files.readText path).map Settings.load

end ScpiScript
