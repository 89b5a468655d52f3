import ScpiScript.Instrument.Basic
import ScpiScript.Scope.Basic
/-!
# Script engines

An engine is a scope that can also run code. Code reaches the instrument only by
asking: running it is a dialogue of requests and answers that ends in a result.
What an engine can do to the instrument is therefore fixed by the type of its
requests, and an engine never sees the link.

- `Request` and `Request.Answer` are the questions and the types of their answers.
- `Dialogue` is a computation that may ask; `Instrument.converse` answers it.
- `Engine` is any type of engines.
-/

namespace ScpiScript

/-- What code may ask of the instrument. -/
inductive Request
  | isOpen
  | command (text : String) (flush : Bool)
  | query (text : String)
  | sendBlock (lead : String) (samples : List Binary32)
  | sendFloats (lead : String) (samples : List Binary32)
  | sendParameter (text : String)
  deriving DecidableEq, Repr

/-- The type of the answer to a request. -/
def Request.Answer : Request → Type
  | isOpen => Bool
  | command _ _ => Except InstrumentError Unit
  | query _ => Except InstrumentError String
  | sendBlock _ _ => Except InstrumentError Unit
  | sendFloats _ _ => Except InstrumentError Bool
  | sendParameter _ => Except InstrumentError Bool

/-- A computation that may ask the instrument on its way to a result. -/
inductive Dialogue (α : Type) : Type
  | done (result : α)
  | ask (request : Request) (next : request.Answer → Dialogue α)

namespace Dialogue

variable {α β : Type}

/-- Go on with the result of a dialogue. -/
def bind (d : Dialogue α) (f : α → Dialogue β) : Dialogue β :=
  match d with
  | done a => f a
  | ask request next => ask request fun answer => (next answer).bind f

instance : Monad Dialogue where
  pure := done
  bind := bind

/-- Ask one question. -/
def inquire (request : Request) : Dialogue request.Answer := ask request done

end Dialogue

namespace Instrument

variable {τ : Type} [Link τ]

/-- An operation's outcome, failure included, and the instrument after it. -/
def outcome {α : Type} (operation : InstrumentM τ α) (i : Instrument τ) :
    Except InstrumentError α × Instrument τ :=
  match operation i with
  | .ok a i => (.ok a, i)
  | .error e i => (.error e, i)

/-- Answer a request. -/
def answer (i : Instrument τ) : (request : Request) → request.Answer × Instrument τ
  | .isOpen => (i.isOpen, i)
  | .command text flush => outcome (command text flush) i
  | .query text => outcome (query text) i
  | .sendBlock lead samples => outcome (sendBlock lead samples) i
  | .sendFloats lead samples => outcome (sendFloats lead samples) i
  | .sendParameter text => outcome (sendParameter text) i

/-- Answer the requests of a dialogue, in order, until it ends. -/
def converse {α : Type} (i : Instrument τ) : Dialogue α → α × Instrument τ
  | .done a => (a, i)
  | .ask request next => converse (i.answer request).2 (next (i.answer request).1)

end Instrument

/-- Why code did not run to its end. -/
inductive EvalError
  /-- The code could not be read; the line counts from its own first one. -/
  | badCode (line : Nat) (column : Option Nat) (snippet : String)
  /-- The code asked for the whole run to stop. -/
  | exit (message : String)
  | failure (message : String)
  deriving DecidableEq, Repr

/-- Where code could not be read. -/
def placeText (place : String) (column : Option Nat) : String :=
  match column with
  | some c => s!"{place}, column {c}"
  | none => place

/-- The message for an evaluation error. -/
def EvalError.message : EvalError → String
  | badCode line column _ => placeText s!"bad syntax in line {line}" column
  | exit message => s!"exit requested: {message}"
  | failure message => message

/-- A type of script engines. What code did before it failed is kept. -/
class Engine (ε : Type) extends Scope ε where
  /-- Run code under the name by which diagnostics call it. -/
  execute : ε → (code chunk : String) → Dialogue (Except EvalError Unit × ε)

end ScpiScript
