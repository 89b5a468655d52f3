import ScpiScript.Engine.Plain
import ScpiScript.Reference
import ScpiScript.Script.Report
import ScpiScript.Source.Item
/-!
# Running scripts

The interpreter reads the items of a source in order and acts on each. Problems
with a single item are printed and the run goes on; a source that cannot be opened
or read, and an exit that code asks for, end the run at every level.

- `Interpreter` is the state that a source shares with all it includes.
- `Interpreter.perform` acts on one item, `runSource` on all items of a source.
- `runPath` opens a file and runs it. Files that include each other without end
  run into the number of files that can be open at once.
-/

namespace ScpiScript

/-- The state of a run, over engines of type `ε` and links of type `τ`. -/
structure Interpreter (ε τ : Type) where
  engine : ε
  instrument : Instrument τ
  /-- The name of the vector to send when a line names none. -/
  vectorName : String
  /-- The code handed to the engine so far, oldest first. -/
  evaluated : List CodeBlock
  /-- The messages printed so far, oldest first. -/
  transcript : List Report

/-- A part of a run. It keeps what it did before it fails. -/
abbrev RunM (ε τ : Type) := EStateM RunError (Interpreter ε τ)

namespace Interpreter

variable {ε τ : Type}

/-- The name of the vector to send when nothing else is set. -/
def defaultVector : String := "samples"

/-- How many script files can be open at once. -/
def openLimit : Nat := 1000

/-- An interpreter at the beginning of a run. -/
def new (engine : ε) (instrument : Instrument τ) : Interpreter ε τ :=
  ⟨engine, instrument, defaultVector, [], []⟩

/-- The text printed so far. -/
def output (r : Interpreter ε τ) : String := String.join (r.transcript.map Report.text)

/-- Print a message. -/
def say (report : Report) : RunM ε τ Unit :=
  modify fun r => { r with transcript := r.transcript ++ [report] }

variable [Engine ε] [Link τ]

/-- Use the instrument; its failure is a result. -/
def onInstrument {α : Type} (operation : InstrumentM τ α) :
    RunM ε τ (Except InstrumentError α) := fun r =>
  let (result, instrument) := Instrument.outcome operation r.instrument
  .ok result { r with instrument }

/-- Use the instrument and print its failure, if it fails. -/
def reporting {α : Type} (operation : InstrumentM τ α) : RunM ε τ Unit := do
  if let .error e ← onInstrument operation then say (.instrumentFailure e)

/-- A text with its references replaced by what the engine's scope holds. -/
def expand (text : String) : RunM ε τ (Except ScopeError String) := do
  return Reference.substitute (Scope.textOf (← get).engine) text

/-- Act on a text with its references replaced, or print why they cannot be. -/
def expanding (text : String) (act : String → RunM ε τ Unit) : RunM ε τ Unit := do
  match ← expand text with
  | .ok expanded => act expanded
  | .error e => say (.scopeFailure e)

/-- Act only if there is a session. -/
def whenOpen (act : RunM ε τ Unit) : RunM ε τ Unit := do
  if (← get).instrument.isOpen then act

/-- Send the vector that a line names at its end, or the default one, behind the
rest of the line. The vector is looked up before the references of the rest. -/
def sendVector (tail : String) : RunM ε τ Unit := do
  let (lead, name) := Reference.splitTail tail (← get).vectorName
  match Scope.vectorOf (← get).engine name with
  | .error e => say (.lookupFailure tail e)
  | .ok samples =>
    match ← expand lead with
    | .error e => say (.lookupFailure tail e)
    | .ok lead => reporting (Instrument.sendBlock lead samples)

/-- Send a query as it stands and print the reply. -/
def ask (text : String) : RunM ε τ Unit := do
  match ← onInstrument (Instrument.query text) with
  | .ok line => say (.reply line)
  | .error e => say (.instrumentFailure e)

/-- Hand code to the engine, which may use the instrument meanwhile. -/
def runCode (block : CodeBlock) : RunM ε τ (Except EvalError Unit) := fun r =>
  let dialogue := Engine.execute r.engine block.code block.chunk
  let ((result, engine), instrument) := r.instrument.converse dialogue
  .ok result { r with engine, instrument, evaluated := r.evaluated ++ [block] }

/-- Act on how code ended, given the message for code that cannot be read. -/
def conclude (result : Except EvalError Unit)
    (badCode : Nat → Option Nat → String → RunM ε τ Unit) : RunM ε τ Unit :=
  match result with
  | .ok () => pure ()
  | .error (.badCode line column snippet) => badCode line column snippet
  | .error (.failure message) => say (.engineFailure message)
  | .error (.exit message) => do
    say (.exit message)
    throw (.exit message)

/-- Evaluate the code at a line of a source. Empty code is not handed on. -/
def evaluate (tag : String) (line : Nat) (code : String) : RunM ε τ Unit := do
  if code ≠ "" then
    let result ← runCode ⟨s!"{tag}:{line}", code⟩
    let block := (← get).evaluated.length
    conclude result fun at_ column snippet => say (.badBlock (at_, column) line tag block snippet)

/-- Evaluate code given on the command line as the argument at a position. -/
def evaluateArgument (code : String) (index : Nat) : RunM ε τ Unit := do
  let result ← runCode ⟨s!"argument {index}", code⟩
  conclude result fun _ column snippet => say (.badArgument index column snippet)

/-- A failure below an include line, with the place of the line added. -/
def within {α : Type} (tag : String) (line : Nat) (act : RunM ε τ α) : RunM ε τ α := fun r =>
  match act r with
  | .ok a r => .ok a r
  | .error e r => .error (.nested tag line e) r

/-- Act on one item of the source with a tag, given how to run a file. The result
says whether the source goes on. -/
def perform (runFile : String → RunM ε τ Unit) (tag : String) (item : Item) :
    RunM ε τ Bool := do
  match item.directive with
  | none => pure ()
  | some .terminate => return false
  | some (.immediate tail) =>
    whenOpen (expanding tail fun text => reporting (Instrument.command text true))
  | some (.buffered tail) =>
    whenOpen (expanding tail fun text => reporting (Instrument.command text false))
  | some (.parameterBlock tail) =>
    expanding tail fun text => reporting (Instrument.sendParameter text)
  | some (.sampleBlock tail) => whenOpen (sendVector tail)
  | some (.query tail) => whenOpen (ask tail)
  | some (.echo tail) => expanding tail fun text => say (.echo text)
  | some (.evaluate code) => evaluate tag item.line code
  | some (.includeFile path) =>
    if path ≠ "" then within tag item.line (runFile path)
  | some .comment => pure ()
  | some (.unknown _) => pure ()
  return true

/-- Run the items of a source until it ends, an item stops it, or the run fails.
The result is what is left of the source. -/
def runItems (runFile : String → RunM ε τ Unit) (source : Source) : RunM ε τ Source :=
  match _h : source.readItem with
  | (.error e, _) => throw (.unreadable source.tag e)
  | (.ok none, rest) => pure rest
  | (.ok (some item), rest) => do
    if ← perform runFile source.tag item then runItems runFile rest else return rest
termination_by source.remaining.length
decreasing_by exact Source.length_readItem _h

/-- Run the file at a path, with so many files left to open. -/
def runPath (files : FileTree) : (limit : Nat) → (path : String) → RunM ε τ Unit
  | 0, path => throw (.unopened path .tooManyOpen)
  | limit + 1, path =>
    match Source.openPath files path with
    | .error e => throw (.unopened path e)
    | .ok source => do
      let _ ← runItems (runPath files limit) source

/-- Run a source that is already open. The result is what is left of it. -/
def runSource (files : FileTree) (limit : Nat) (source : Source) : RunM ε τ Source :=
  runItems (runPath files limit) source

end Interpreter

end ScpiScript
