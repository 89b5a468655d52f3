/-!
# Command-line arguments

An argument list is a sequence of options. Some are flags, some take the argument
after them as a parameter and add an action, whatever that argument looks like.
A request for help ends the list.

- `Arguments.read` reads an argument list.
-/

namespace ScpiScript

/-- Something to do, in the order given on the command line. -/
inductive Action
  /-- Open a session. -/
  | openSession (address : String)
  /-- Evaluate code; its option stands at a position of the list, from one. -/
  | evaluate (code : String) (index : Nat)
  /-- Run a script file. -/
  | runFile (path : String)
  /-- Run a script from standard input. -/
  | runStdin
  deriving DecidableEq, Repr

/-- What an argument list asks for. -/
structure Arguments where
  actions : List Action
  help : Bool
  debug : Bool
  /-- Do not look for settings. -/
  noSettings : Bool
  deriving DecidableEq, Repr

/-- Why an argument list is refused. -/
inductive UsageError
  | noParameter (option : String)
  | unknownOption (option : String)
  deriving DecidableEq, Repr

/-- The message for a refused argument list. -/
def UsageError.message : UsageError → String
  | noParameter option => s!"option {option} has no parameter"
  | unknownOption option => s!"unknown option: {option}"

/-- What an option does. -/
inductive OptionKind
  | help
  | flag (set : Arguments → Arguments)
  | parameter (action : String → Nat → Action)
  | unknown

/-- The action of running a script, a hyphen standing for standard input. -/
def Action.ofTarget (target : String) : Action :=
  if target = "-" then runStdin else runFile target

/-- What an option does, by its spelling. -/
def OptionKind.ofText (option : String) : OptionKind :=
  if option = "-h" || option = "-?" || option = "--help" then help
  else if option = "-d" then flag fun a => { a with debug := true }
  else if option = "-n" then flag fun a => { a with noSettings := true }
  else if option = "-i" then parameter fun address _ => .openSession address
  else if option = "-e" then parameter .evaluate
  else if option = "-f" then parameter fun target _ => .ofTarget target
  else unknown

namespace Arguments

/-- An empty argument list. -/
def empty : Arguments := ⟨[], false, false, false⟩

/-- The arguments with one more action. -/
def push (a : Arguments) (action : Action) : Arguments :=
  { a with actions := a.actions ++ [action] }

/-- What the rest of an argument list adds; `position` is that of its first. -/
def readFrom (position : Nat) (a : Arguments) : List String → Except UsageError Arguments
  | [] => .ok a
  | option :: rest =>
    match OptionKind.ofText option with
    | .help => .ok { a with help := true }
    | .flag set => readFrom (position + 1) (set a) rest
    | .parameter action =>
      match rest with
      | [] => .error (.noParameter option)
      | parameter :: rest => readFrom (position + 2) (a.push (action parameter position)) rest
    | .unknown => .error (.unknownOption option)

/-- The spellings of a request for help that stands alone. -/
def loneHelp : List String :=
  ["-", "--", "/"].flatMap fun lead =>
    ["h", "H", "help", "Help", "?"].map fun word => lead ++ word

/-- What an argument list asks for. -/
def read (list : List String) : Except UsageError Arguments :=
  match list with
  | [only] =>
    if only ∈ loneHelp then .ok { empty with help := true } else readFrom 1 empty [only]
  | _ => readFrom 1 empty list

end Arguments

end ScpiScript
