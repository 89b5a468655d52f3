import ScpiScript.CommandLine.Program
import ScpiScript.Link.Memory
import ScpiScript.Lua.Machine
/-!
# The program as it is used

- `Setup.offline` runs scripts with the Lua engine. It reaches no host, so that the
  only session it can open is a dry run.
-/

namespace ScpiScript

open Lua

/-- The directories of modules: that of the program, those of the environment, and
those of the settings. -/
def moduleDirectories (environment : Environment) (settings : Settings) : List String :=
  environment.programDirectory ::
    Machine.directories (environment.modulePath.getD "") ++ settings.modulePath

/-- The engine of a run at its start. -/
def startMachine (settings : Settings) (invocation : Invocation) : Machine :=
  Machine.start invocation.files (moduleDirectories invocation.environment settings)

/-- Scripts with the Lua engine, and no hosts. -/
def Setup.offline : Setup Machine MemoryLink where
  engine := startMachine
  dial _ _ := .error .unreachable

end ScpiScript
