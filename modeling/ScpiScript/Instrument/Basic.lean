import ScpiScript.Block.Sample
import ScpiScript.Link.Address
import ScpiScript.Link.Basic
/-!
# The instrument session

An instrument has one session: closed, connected over a link, or a dry run that
takes everything and sends nothing. A buffered command is written without its
terminator, which is written before whatever is sent next; blocks and immediate
commands leave nothing pending.

- `command`, `query`, `sendBlock`, `sendFloats` and `sendParameter` send.
- `connect`, `attach` and `close` change the session. A link that leaves the
  session is kept in `released`.
-/

namespace ScpiScript

open Block

/-- The state of a session. -/
inductive Session (τ : Type)
  | closed
  | connected (address : String) (link : τ)
  | dryRun

/-- Why an operation on the instrument failed. -/
inductive InstrumentError
  | io (cause : IoError)
  | unsupportedAddress (address : String)
  | block (cause : BlockError)
  deriving DecidableEq, Repr

/-- The message for an instrument error. -/
def InstrumentError.message : InstrumentError → String
  | io cause => cause.message
  | unsupportedAddress address => s!"unsupported instrument address '{address}'"
  | block cause => cause.message

/-- The instrument, over links of type `τ`. -/
structure Instrument (τ : Type) where
  session : Session τ
  /-- The last command was written without its terminator. -/
  pendingTerminator : Bool
  byteOrder : ByteOrder
  /-- The links that have left the session, oldest first. -/
  released : List τ

/-- An operation on the instrument. It keeps what it did before it fails. -/
abbrev InstrumentM (τ : Type) := EStateM InstrumentError (Instrument τ)

namespace Instrument

variable {τ : Type}

/-- The reply of an instrument without errors; every query of a dry run gets it. -/
def noErrorReply : String := "+0,\"No error\"\n"

/-- The command after a block, on which the instrument waits for its transfer. -/
def waitCommand : String := "*WAI"

/-- An instrument without a session. -/
def new (byteOrder : ByteOrder) : Instrument τ := ⟨.closed, false, byteOrder, []⟩

/-- There is a session, dry run included. -/
def isOpen (i : Instrument τ) : Bool :=
  match i.session with
  | .closed => false
  | _ => true

/-- The session is a dry run. -/
def isDryRun (i : Instrument τ) : Bool :=
  match i.session with
  | .dryRun => true
  | _ => false

/-- The link of the session, if it has one. -/
def link? (i : Instrument τ) : Option τ :=
  match i.session with
  | .connected _ link => some link
  | _ => none

/-- Every link ever attached, in order. -/
def links (i : Instrument τ) : List τ := i.released ++ i.link?.toList

/-- The session is replaced by another, and its link released. -/
def enter (session : Session τ) (i : Instrument τ) : Instrument τ :=
  { i with session, released := i.links, pendingTerminator := false }

/-- Set whether a terminator is pending. -/
def setPending (pending : Bool) : InstrumentM τ Unit :=
  modify fun i => { i with pendingTerminator := pending }

variable [Link τ]

/-- An operation of the link, on the session's link; without one, nothing happens
and the result is `absent`. -/
def onLink {α : Type} (absent : α) (operation : τ → Except IoError α × τ) : InstrumentM τ α :=
  fun i =>
    match i.session with
    | .connected address link =>
      match operation link with
      | (.ok a, link) => .ok a { i with session := .connected address link }
      | (.error e, link) => .error (.io e) { i with session := .connected address link }
    | _ => .ok absent i

/-- Write bytes to the link, if there is one. -/
def write (data : Bytes) (final : Bool) : InstrumentM τ Unit :=
  onLink () fun link => Link.write link ⟨data, final⟩

/-- Complete a buffered command, if there is one. It counts as completed before its
terminator is written, whether or not the writing succeeds. -/
def terminatePending : InstrumentM τ Unit := do
  if (← get).pendingTerminator then
    setPending false
    write [terminator] false

/-- Send a command, with its terminator if `flush` is set and else left pending. An
empty command does not complete the one before it. -/
def command (text : String) (flush : Bool) : InstrumentM τ Unit := do
  if text ≠ "" then terminatePending
  write (Utf8.encode text) flush
  setPending (!flush)

/-- Send a query and read one reply line. Without a link the reply is the one
without errors. -/
def query (text : String) : InstrumentM τ String := do
  command text true
  onLink noErrorReply Link.readLine

/-- An outcome of encoding, as an operation. -/
def ofBlock {α : Type} (encoded : Except BlockError α) : InstrumentM τ α :=
  match encoded with
  | .ok a => pure a
  | .error e => throw (.block e)

/-- Send a vector behind a lead text, and a command to wait for it. An empty vector
only completes a buffered command. -/
def sendBlock (lead : String) (samples : List Binary32) : InstrumentM τ Unit := do
  if (← get).isDryRun then setPending false
  else
    terminatePending
    if !samples.isEmpty then
      let message ← ofBlock (encodeSampleBlock lead samples (← get).byteOrder)
      write message true
      write (Utf8.encode waitCommand) true
      setPending false

/-- Send a vector if there is a session; the result says whether there is one. -/
def sendFloats (lead : String) (samples : List Binary32) : InstrumentM τ Bool := do
  if (← get).isOpen then
    sendBlock lead samples
    return true
  else return false

/-- Send a command with a counted parameter. The result is false, and nothing is
sent, without a session or without a place for the count. -/
def sendParameter (text : String) : InstrumentM τ Bool := do
  if (← get).isOpen then
    match ← ofBlock (encodeParameterBlock text) with
    | some encoded =>
      command encoded true
      return true
    | none => return false
  else return false

/-- Begin a session over a link. -/
def attach (address : String) (link : τ) : InstrumentM τ Unit :=
  modify (enter (.connected address link))

/-- Begin the session that an address names. A host is reached by `dial`. -/
def connect (dial : String → Nat → Except IoError τ) (address : String) : InstrumentM τ Unit :=
  match Address.ofText? address with
  | some .fake => modify (enter .dryRun)
  | some (.socket host port) =>
    match dial host port with
    | .ok link => attach address link
    | .error e => throw (.io e)
  | none => throw (.unsupportedAddress address)

/-- End the session and close its link. The session ends even if closing fails. -/
def close : InstrumentM τ Unit := fun i =>
  match i.session with
  | .connected address link =>
    let (result, link) := Link.close link
    let ended := enter .closed { i with session := .connected address link }
    match result with
    | .ok () => .ok () ended
    | .error e => .error (.io e) ended
  | _ => .ok () (enter .closed i)

/-- The instrument after it is given up: its session ended, whatever closing says. -/
def dispose (i : Instrument τ) : Instrument τ :=
  match close i with
  | .ok _ i => i
  | .error _ i => i

end Instrument

end ScpiScript
