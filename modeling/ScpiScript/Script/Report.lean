import ScpiScript.Engine.Basic
import ScpiScript.Source.Failure
/-!
# What a run prints, and how it fails

- `Report` is one message of the interpreter; `Report.text` is its wording, line
  ends included.
- `RunError` is a condition that ends a run at every level. Each level of included
  files adds the place of its include line.
-/

namespace ScpiScript

/-- A message that the interpreter prints. -/
inductive Report
  | echo (text : String)
  | reply (line : String)
  /-- A directive was abandoned because a name could not be read. -/
  | scopeFailure (cause : ScopeError)
  /-- A block of samples was abandoned because a name could not be read. -/
  | lookupFailure (tail : String) (cause : ScopeError)
  | instrumentFailure (cause : InstrumentError)
  /-- Code in a script could not be read: where in the code, and the line, source
  and number of the block that holds it. -/
  | badBlock (place : Nat × Option Nat) (line : Nat) (tag : String) (block : Nat)
      (snippet : String)
  /-- Code given as an argument could not be read. -/
  | badArgument (index : Nat) (column : Option Nat) (snippet : String)
  | exit (message : String)
  /-- Code failed while it ran. -/
  | engineFailure (message : String)
  deriving DecidableEq, Repr

namespace Report

/-- A reply without the line ending after it. -/
def shownReply (line : String) : String :=
  String.ofList ((line.toList.reverse.dropWhile fun c => c = '\r' || c = '\n').reverse)

/-- What is shown of code that could not be read. -/
def snippetLine (snippet : String) : String := s!"(Could not compile |{snippet}|.)"

/-- The lines of a message. -/
def lines : Report → List String
  | echo text => [text]
  | reply line => ["Reply: " ++ shownReply line]
  | scopeFailure cause => ["Error: " ++ cause.message]
  | lookupFailure tail cause => [s!"Error: Lookup failed in '{tail}': " ++ cause.message]
  | instrumentFailure cause => ["Error: " ++ cause.message]
  | badBlock (at_, column) line tag block snippet =>
    [placeText s!"Error: Bad syntax in line {at_}" column,
     s!"Code at line {line} of {tag}, block #{block}.",
     snippetLine snippet]
  | badArgument index column snippet =>
    [placeText s!"Error: Bad syntax in argument {index}" column, snippetLine snippet]
  | exit message => ["Error exit: " ++ message]
  | engineFailure message => [message]

/-- The text of a message. -/
def text (r : Report) : String := String.join (r.lines.map (· ++ "\n"))

end Report

/-- A condition that ends a whole run. -/
inductive RunError
  /-- A script file could not be opened. -/
  | unopened (path : String) (cause : IoError)
  /-- Reading an open source failed. -/
  | unreadable (tag : String) (cause : IoError)
  /-- Code asked for the run to stop. -/
  | exit (message : String)
  /-- A file failed that a line of another source includes. -/
  | nested (tag : String) (line : Nat) (cause : RunError)
  deriving DecidableEq, Repr

namespace RunError

/-- The message for a run error. -/
def message : RunError → String
  | unopened path cause => s!"{path}: " ++ cause.message
  | unreadable tag cause => s!"reading {tag}: " ++ cause.message
  | exit m => s!"exit requested: {m}"
  | nested tag line cause => s!"{tag}, line {line}: " ++ cause.message

/-- The innermost error. -/
def root : RunError → RunError
  | nested _ _ cause => cause.root
  | e => e

/-- The messages of the causes below an error, outermost first. -/
def causes : RunError → List String
  | unopened _ cause => [cause.message]
  | unreadable _ cause => [cause.message]
  | exit _ => []
  | nested _ _ cause => cause.message :: cause.causes

/-- The places of the include lines that lead to the innermost error. -/
def chain : RunError → List (String × Nat)
  | nested tag line cause => (tag, line) :: cause.chain
  | _ => []

end RunError

end ScpiScript
