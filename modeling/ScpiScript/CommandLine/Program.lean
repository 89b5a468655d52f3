import ScpiScript.CommandLine.Arguments
import ScpiScript.CommandLine.Usage
import ScpiScript.Script.Interpreter
import ScpiScript.Settings.Search
/-!
# The program

The program reads its arguments, loads settings, and carries out its actions in
order up to the first that fails. At the end a session has to be open.

- `Invocation` is all that a run of the program depends on, `Outcome` all that can
  be seen of it.
- `Program.run` is the whole program, over any engine and any kind of link.
-/

namespace ScpiScript

/-- What a run of the program depends on. -/
structure Invocation where
  arguments : List String
  stdin : Bytes
  files : FileTree
  environment : Environment

/-- What can be seen of a run of the program. On standard error these are the lines that name
what went wrong. Those that tell what is being done, among them all that `-d` asks for, are
outside of this development, so that the flag changes nothing here. -/
structure Outcome where
  code : Nat
  stdout : String
  stderr : String
  deriving DecidableEq, Repr

/-- How the program starts an engine and reaches an instrument. -/
structure Setup (ε τ : Type) where
  engine : Settings → Invocation → ε
  dial : String → Nat → Except IoError τ

namespace Program

/-- The exit codes: all went well, a usage error, any failure of a run. -/
def success : Nat := 0

@[inherit_doc success] def usageFailure : Nat := 1

@[inherit_doc success] def runFailure : Nat := 2

/-- Why a run ended before its last action. -/
inductive Failure
  /-- A session could not be opened. -/
  | session (address : String) (cause : InstrumentError)
  | script (cause : RunError)
  deriving DecidableEq, Repr

/-- The state of the program between actions. -/
structure State (ε τ : Type) where
  interpreter : Interpreter ε τ
  /-- What is left of standard input. -/
  stdin : Source
  /-- Warnings and other lines for standard error, oldest first. -/
  notices : List String

/-- A part of the program. -/
abbrev ProgramM (ε τ : Type) := EStateM Failure (State ε τ)

variable {ε τ : Type} [Engine ε] [Link τ]

/-- A warning, as the log shows it. -/
def warning (text : String) : String := "[WARN  arbscript] " ++ text

/-- Add a line for standard error. -/
def notice (text : String) : ProgramM ε τ Unit :=
  modify fun s => { s with notices := s.notices ++ [text] }

/-- Run a script part; its failure is the program's. -/
def script {α : Type} (act : RunM ε τ α) : ProgramM ε τ α := fun s =>
  match act s.interpreter with
  | .ok a interpreter => .ok a { s with interpreter }
  | .error e interpreter => .error (.script e) { s with interpreter }

/-- Use the instrument; its failure is a result. -/
def instrument {α : Type} (operation : InstrumentM τ α) :
    ProgramM ε τ (Except InstrumentError α) := script (Interpreter.onInstrument operation)

/-- End the session, with a warning if its link cannot be closed. -/
def closeSession : ProgramM ε τ Unit := do
  if let .error e ← instrument Instrument.close then
    notice (warning ("closing instrument: " ++ e.message))

/-- End the session and open another. -/
def openSession (setup : Setup ε τ) (address : String) : ProgramM ε τ Unit := do
  closeSession
  if let .error e ← instrument (Instrument.connect setup.dial address) then
    throw (.session address e)

/-- Run the script on standard input, from where the last one left off. Its lines
are counted from one. -/
def runStdin (files : FileTree) : ProgramM ε τ Unit := do
  let rest ← script (Interpreter.runSource files Interpreter.openLimit (← get).stdin)
  modify fun s => { s with stdin := { rest with lineNo := 0 } }

/-- Carry out an action. -/
def act (setup : Setup ε τ) (files : FileTree) : Action → ProgramM ε τ Unit
  | .openSession address => openSession setup address
  | .evaluate code index => script (Interpreter.evaluateArgument code index)
  | .runFile path => script (Interpreter.runPath files Interpreter.openLimit path)
  | .runStdin => runStdin files

/-- Open the session that the settings name, then carry out the actions in order. -/
def actions (setup : Setup ε τ) (files : FileTree) (address : Option String)
    (list : List Action) : ProgramM ε τ Unit := do
  if let some a := address then openSession setup a
  list.forM (act setup files)

/-- What a failure prints on standard output. An exit has been reported when it
was asked for. -/
def Failure.output : Failure → String
  | script (.exit _) => ""
  | script cause => "Error: " ++ cause.message ++ "\n"
  | session _ _ => ""

/-- What a failure prints on standard error. -/
def Failure.notices : Failure → List String
  | session address cause => [s!"Cannot open {address}: " ++ cause.message]
  | script _ => []

/-- The line for a run that ends without a session. -/
def notOpened : String := "Instrument not opened."

/-- The last lines of a run for standard error, before its session is closed. -/
def lastNotices (failure : Option Failure) (isOpen : Bool) : List String :=
  match failure with
  | some e => e.notices
  | none => if isOpen then [] else [notOpened]

/-- What is printed at the end of a run. -/
def ending (failure : Option Failure) (help : Bool) : String :=
  match failure with
  | some e => e.output
  | none => if help then usage else ""

/-- The outcome of a run that has come to its end or failed. Whether there is a
session is decided before the session is closed. -/
def conclude (help : Bool) (result : EStateM.Result Failure (State ε τ) Unit) : Outcome :=
  let (failure, s) := match result with
    | .ok _ s => (none, s)
    | .error e s => (some e, s)
  let isOpen := s.interpreter.instrument.isOpen
  let told := { s with notices := s.notices ++ lastNotices failure isOpen }
  let closed := match closeSession told with
    | .ok _ s => s
    | .error _ s => s
  { code := if failure.isNone && isOpen then success else runFailure
    stdout := s.interpreter.output ++ ending failure help
    stderr := String.join (closed.notices.map (· ++ "\n")) }

/-- The settings of a run, and the warnings about them. -/
def loadSettings (arguments : Arguments) (invocation : Invocation) : Settings × List String :=
  if arguments.noSettings then (.default, [])
  else
    match invocation.environment.findSettings invocation.files with
    | none => (.default, [])
    | some path =>
      match Settings.loadFile invocation.files path with
      | .ok (settings, failures) =>
        (settings, failures.map fun f => warning (path ++ ": " ++ f.message))
      | .error e => (.default, [warning (path ++ ": " ++ e.message)])

/-- Bind the variables of the settings in the engine's scope, with a warning for
each that it refuses. -/
def bindVars (engine : ε) : List (String × ScopeValue) → ε × List String
  | [] => (engine, [])
  | (name, value) :: rest =>
    match Scope.assign engine name value with
    | .ok engine => bindVars engine rest
    | .error e =>
      let (engine, warnings) := bindVars engine rest
      (engine, warning (s!"rc variable '{name}': " ++ e.message) :: warnings)

/-- Run the program for arguments that were understood and ask for some action. -/
def runArguments (setup : Setup ε τ) (arguments : Arguments) (invocation : Invocation) :
    Outcome :=
  let (settings, warnings) := loadSettings arguments invocation
  let (engine, more) := bindVars (setup.engine settings invocation) settings.vars.sorted
  let interpreter : Interpreter ε τ :=
    { Interpreter.new engine (Instrument.new settings.byteOrder) with
      vectorName := settings.vector.getD Interpreter.defaultVector }
  let start : State ε τ :=
    ⟨interpreter, Source.ofBytes Source.stdinTag invocation.stdin, warnings ++ more⟩
  conclude arguments.help
    ((actions setup invocation.files settings.address arguments.actions).run start)

/-- Run the program. -/
def run (setup : Setup ε τ) (invocation : Invocation) : Outcome :=
  match Arguments.read invocation.arguments with
  | .error e =>
    ⟨usageFailure, "", "arbscript: " ++ e.message ++ "\n" ++ usage⟩
  | .ok arguments =>
    if arguments.help && arguments.actions.isEmpty then ⟨success, usage, ""⟩
    else runArguments setup arguments invocation

end Program

end ScpiScript
