import ScpiScript.Proofs.Instrument.Recording
import ScpiScript.Script.Interpreter
/-!
# What an item does

Acting on an item is one of a few actions, each of which reads the scope, asks at most
one thing of the instrument or runs code, and prints at most one message.

- `Interpreter.action` is what an item does apart from ending its source.
- `whenOpen_eq` and the lemmas after it open each action at the state it begins in.
- `Interpreter.requests` is what an item asks of the instrument, and
  `instrument_action` says that it acts on the instrument in no other way.
-/

namespace ScpiScript

/-- The path of the file that an item includes, if it includes one. -/
def Item.included? (item : Item) : Option String :=
  match item.directive with
  | some (.includeFile path) => if path ≠ "" then some path else none
  | _ => none

namespace Interpreter

variable {ε τ : Type}

/-- A state with another instrument. -/
def withInstrument (r : Interpreter ε τ) (i : Instrument τ) : Interpreter ε τ :=
  { r with instrument := i }

/-- A state with one more message printed. -/
def said (r : Interpreter ε τ) (report : Report) : Interpreter ε τ :=
  { r with transcript := r.transcript ++ [report] }

variable [Engine ε] [Link τ]

/-- The state after the instrument has answered a request. -/
def asked (r : Interpreter ε τ) (request : Request) : Interpreter ε τ :=
  r.withInstrument (r.instrument.answer request).2

/-- What an item does apart from ending its source. -/
def action (runFile : String → RunM ε τ Unit) (tag : String) (item : Item) : RunM ε τ Unit :=
  match item.directive with
  | some (.immediate tail) =>
    whenOpen (expanding tail fun text => reporting (Instrument.command text true))
  | some (.buffered tail) =>
    whenOpen (expanding tail fun text => reporting (Instrument.command text false))
  | some (.parameterBlock tail) =>
    expanding tail fun text => reporting (Instrument.sendParameter text)
  | some (.sampleBlock tail) => whenOpen (sendVector tail)
  | some (.query tail) => whenOpen (ask tail)
  | some (.echo tail) => expanding tail fun text => say (.echo text)
  | some (.evaluate code) => evaluate tag item.line code
  | some (.includeFile path) => if path ≠ "" then within tag item.line (runFile path) else pure ()
  | _ => pure ()

/-- Only one directive ends the source. -/
theorem perform_terminate (runFile : String → RunM ε τ Unit) (tag : String) {item : Item}
    (h : item.directive = some .terminate) : perform runFile tag item = pure false := by
  unfold perform
  rw [h]

theorem perform_eq (runFile : String → RunM ε τ Unit) (tag : String) {item : Item}
    (h : item.directive ≠ some .terminate) :
    perform runFile tag item = (action runFile tag item >>= fun _ => pure true) := by
  unfold perform action
  rcases hd : item.directive with _ | d
  · rfl
  · cases d with
    | terminate => exact absurd hd h
    | includeFile path =>
      by_cases hpath : path = ""
      · subst hpath
        rfl
      · simp only [ne_eq, hpath, not_false_eq_true, ↓reduceIte]
    | _ => rfl

/-- An item that includes a file runs it, and does nothing else. -/
theorem action_of_included (runFile : String → RunM ε τ Unit) (tag : String) {item : Item}
    {path : String} (h : item.included? = some path) :
    action runFile tag item = within tag item.line (runFile path) := by
  unfold Item.included? at h
  unfold action
  split at h
  · rename_i path' hd
    split at h
    · rename_i hpath
      obtain rfl := Option.some.inj h
      rw [hd]
      exact if_pos hpath
    · cases h
  · cases h

/-- An item that includes a file goes on after it. -/
theorem perform_of_included (runFile : String → RunM ε τ Unit) (tag : String) {item : Item}
    {path : String} (h : item.included? = some path) :
    perform runFile tag item =
      (within tag item.line (runFile path) >>= fun _ => pure true) := by
  rw [perform_eq runFile tag, action_of_included runFile tag h]
  intro hd
  rw [Item.included?, hd] at h
  cases h

/-- The item succeeds with its file, and fails with it. -/
theorem perform_ok_of_included {runFile : String → RunM ε τ Unit} (tag : String) {item : Item}
    {path : String} {r r' : Interpreter ε τ} (hpath : item.included? = some path)
    (h : runFile path r = .ok () r') : perform runFile tag item r = .ok true r' := by
  have hwithin : within tag item.line (runFile path) r = .ok () r' := by rw [within, h]
  rw [perform_of_included runFile tag hpath, bind_of_ok hwithin]
  rfl

theorem perform_error_of_included {runFile : String → RunM ε τ Unit} (tag : String)
    {item : Item} {path : String} {r r' : Interpreter ε τ} {cause : RunError}
    (hpath : item.included? = some path) (h : runFile path r = .error cause r') :
    perform runFile tag item r = .error (.nested tag item.line cause) r' := by
  have hwithin : within tag item.line (runFile path) r =
      .error (.nested tag item.line cause) r' := by rw [within, h]
  rw [perform_of_included runFile tag hpath, bind_of_error hwithin]

/-! ## The actions step by step -/

section Steps

variable (r : Interpreter ε τ)

omit [Engine ε] [Link τ] in
theorem whenOpen_eq (act : RunM ε τ Unit) :
    whenOpen act r = if r.instrument.isOpen then act r else .ok () r := by
  unfold whenOpen
  rw [bind_get]
  cases r.instrument.isOpen <;> rfl

omit [Link τ] in
theorem expand_eq (text : String) :
    expand text r = .ok (Reference.substitute (Scope.textOf r.engine) text) r := rfl

omit [Link τ] in
theorem expanding_eq (text : String) (act : String → RunM ε τ Unit) :
    expanding text act r =
      match Reference.substitute (Scope.textOf r.engine) text with
      | .ok expanded => act expanded r
      | .error e => .ok () (r.said (.scopeFailure e)) := by
  unfold expanding
  rw [bind_of_ok (expand_eq r text)]
  cases Reference.substitute (Scope.textOf r.engine) text <;> rfl

omit [Engine ε] [Link τ] in
theorem onInstrument_eq {α : Type} (operation : InstrumentM τ α) :
    onInstrument operation r =
      .ok (Instrument.outcome operation r.instrument).1
        (r.withInstrument (Instrument.outcome operation r.instrument).2) := rfl

omit [Engine ε] [Link τ] in
/-- An operation on the instrument prints nothing but its failure. -/
theorem reporting_eq {α : Type} (operation : InstrumentM τ α) :
    reporting operation r =
      match Instrument.outcome operation r.instrument with
      | (.ok _, i) => .ok () (r.withInstrument i)
      | (.error e, i) => .ok () ((r.withInstrument i).said (.instrumentFailure e)) := by
  unfold reporting
  rw [bind_of_ok (onInstrument_eq r operation)]
  rcases Instrument.outcome operation r.instrument with ⟨e | a, i⟩ <;> rfl

theorem sendVector_eq (tail : String) :
    sendVector tail r =
      match Scope.vectorOf r.engine (Reference.splitTail tail r.vectorName).2,
          Reference.substitute (Scope.textOf r.engine)
            (Reference.splitTail tail r.vectorName).1 with
      | .error e, _ => .ok () (r.said (.lookupFailure tail e))
      | .ok _, .error e => .ok () (r.said (.lookupFailure tail e))
      | .ok samples, .ok lead => reporting (Instrument.sendBlock lead samples) r := by
  unfold sendVector
  rw [bind_get]
  rcases Reference.splitTail tail r.vectorName with ⟨lead, name⟩
  dsimp only
  rw [bind_get]
  cases Scope.vectorOf r.engine name with
  | error e => rfl
  | ok samples =>
    dsimp only
    rw [bind_of_ok (expand_eq r lead)]
    cases Reference.substitute (Scope.textOf r.engine) lead <;> rfl

omit [Engine ε] in
theorem ask_eq (text : String) :
    ask text r =
      match Instrument.outcome (Instrument.query text) r.instrument with
      | (.ok line, i) => .ok () ((r.withInstrument i).said (.reply line))
      | (.error e, i) => .ok () ((r.withInstrument i).said (.instrumentFailure e)) := by
  unfold ask
  rw [bind_of_ok (onInstrument_eq r (Instrument.query text))]
  rcases Instrument.outcome (Instrument.query text) r.instrument with ⟨e | a, i⟩ <;> rfl

/-- The name under which the code of a line is run. -/
def chunkName (tag : String) (line : Nat) : String := s!"{tag}:{line}"

/-- The result of running code, and the state after it. -/
def ran (block : CodeBlock) : Except EvalError Unit × Interpreter ε τ :=
  let ended := r.instrument.converse (Engine.execute r.engine block.code block.chunk)
  (ended.1.1,
    { r with
      engine := ended.1.2, instrument := ended.2, evaluated := r.evaluated ++ [block] })

theorem runCode_eq (block : CodeBlock) :
    runCode block r = .ok (r.ran block).1 (r.ran block).2 := rfl

/-- Code that ends without asking for an end of the run leads to at most one message. -/
theorem evaluate_eq (tag : String) (line : Nat) {code : String} (h : code ≠ "") :
    evaluate tag line code r =
      let ended := r.ran ⟨chunkName tag line, code⟩
      match ended.1 with
      | .ok () => .ok () ended.2
      | .error (.badCode at_ column snippet) =>
        .ok () (ended.2.said
          (.badBlock (at_, column) line tag ended.2.evaluated.length snippet))
      | .error (.failure message) => .ok () (ended.2.said (.engineFailure message))
      | .error (.exit message) => .error (.exit message) (ended.2.said (.exit message)) := by
  unfold evaluate
  rw [if_pos h]
  show (runCode ⟨chunkName tag line, code⟩ >>= _) r = _
  rw [bind_of_ok (runCode_eq r _), bind_get]
  dsimp only
  rcases (r.ran ⟨chunkName tag line, code⟩).1 with e | _
  · cases e <;> rfl
  · rfl

end Steps

/-! ## What an item asks of the instrument -/

/-- The request made with a text, if its references can be replaced. -/
def requestWith (r : Interpreter ε τ) (text : String) (request : String → Request) :
    List Request :=
  match Reference.substitute (Scope.textOf r.engine) text with
  | .ok expanded => [request expanded]
  | .error _ => []

/-- The request that sends a vector, if the vector and the text before it can be read. -/
def vectorRequest (r : Interpreter ε τ) (tail : String) : List Request :=
  match Scope.vectorOf r.engine (Reference.splitTail tail r.vectorName).2 with
  | .ok samples =>
    r.requestWith (Reference.splitTail tail r.vectorName).1 fun lead => .sendBlock lead samples
  | .error _ => []

/-- What an item asks of the instrument in a state, in order. The file it may include
asks on its own behalf. -/
def requests (r : Interpreter ε τ) (tag : String) (item : Item) : List Request :=
  let ifOpen (requests : List Request) := if r.instrument.isOpen then requests else []
  match item.directive with
  | some (.immediate tail) => ifOpen (r.requestWith tail fun text => .command text true)
  | some (.buffered tail) => ifOpen (r.requestWith tail fun text => .command text false)
  | some (.parameterBlock tail) => r.requestWith tail .sendParameter
  | some (.sampleBlock tail) => ifOpen (r.vectorRequest tail)
  | some (.query tail) => ifOpen [.query tail]
  | some (.evaluate code) =>
    if code ≠ "" then
      r.instrument.requestsOf (Engine.execute r.engine code (chunkName tag item.line))
    else []
  | _ => []

omit [Engine ε] [Link τ] in
/-- What is printed does not touch the instrument. -/
theorem instrument_reporting {α : Type} (r : Interpreter ε τ) (operation : InstrumentM τ α) :
    (finalState (reporting operation r)).instrument =
      (Instrument.outcome operation r.instrument).2 := by
  rw [reporting_eq]
  rcases Instrument.outcome operation r.instrument with ⟨e | a, i⟩ <;> rfl

theorem instrument_expanding (r : Interpreter ε τ) (text : String) {act : String → RunM ε τ Unit}
    {request : String → Request}
    (hact : ∀ t, (finalState (act t r)).instrument = (r.instrument.answer (request t)).2) :
    (finalState (expanding text act r)).instrument =
      r.instrument.after (r.requestWith text request) := by
  rw [expanding_eq, requestWith]
  cases Reference.substitute (Scope.textOf r.engine) text with
  | error e => rfl
  | ok expanded => exact hact expanded

omit [Engine ε] in
theorem instrument_whenOpen (r : Interpreter ε τ) {act : RunM ε τ Unit} {requests : List Request}
    (hact : (finalState (act r)).instrument = r.instrument.after requests) :
    (finalState (whenOpen act r)).instrument =
      r.instrument.after (if r.instrument.isOpen then requests else []) := by
  rw [whenOpen_eq]
  split
  · exact hact
  · rfl

theorem instrument_sendVector (r : Interpreter ε τ) (tail : String) :
    (finalState (sendVector tail r)).instrument = r.instrument.after (r.vectorRequest tail) := by
  rw [sendVector_eq, vectorRequest]
  cases Scope.vectorOf r.engine (Reference.splitTail tail r.vectorName).2 with
  | error e => rfl
  | ok samples =>
    dsimp only
    rw [requestWith]
    cases Reference.substitute (Scope.textOf r.engine)
        (Reference.splitTail tail r.vectorName).1 with
    | error e => rfl
    | ok lead => exact instrument_reporting r (Instrument.sendBlock lead samples)

omit [Engine ε] in
theorem instrument_ask (r : Interpreter ε τ) (text : String) :
    (finalState (ask text r)).instrument = r.instrument.after [.query text] := by
  rw [ask_eq]
  show _ = (Instrument.outcome (Instrument.query text) r.instrument).2
  rcases Instrument.outcome (Instrument.query text) r.instrument with ⟨e | a, i⟩ <;> rfl

theorem instrument_evaluate (r : Interpreter ε τ) (tag : String) (line : Nat) {code : String}
    (h : code ≠ "") :
    (finalState (evaluate tag line code r)).instrument =
      r.instrument.after
        (r.instrument.requestsOf (Engine.execute r.engine code (chunkName tag line))) := by
  rw [evaluate_eq r tag line h, ← Instrument.converse_eq_after]
  dsimp only
  split <;> rfl

/-- An item acts on the instrument only by its requests, the file it includes aside. -/
theorem instrument_action (runFile : String → RunM ε τ Unit) (tag : String) {item : Item}
    (h : item.included? = none) (r : Interpreter ε τ) :
    (finalState (action runFile tag item r)).instrument =
      r.instrument.after (r.requests tag item) := by
  unfold action requests
  rcases hd : item.directive with _ | d
  · rfl
  cases d with
  | immediate tail =>
    exact instrument_whenOpen r (instrument_expanding r tail fun t =>
      instrument_reporting r (Instrument.command t true))
  | buffered tail =>
    exact instrument_whenOpen r (instrument_expanding r tail fun t =>
      instrument_reporting r (Instrument.command t false))
  | parameterBlock tail =>
    exact instrument_expanding r tail fun t =>
      instrument_reporting r (Instrument.sendParameter t)
  | sampleBlock tail => exact instrument_whenOpen r (instrument_sendVector r tail)
  | query tail => exact instrument_whenOpen r (instrument_ask r tail)
  | echo tail =>
    dsimp only
    rw [expanding_eq]
    cases Reference.substitute (Scope.textOf r.engine) tail <;> rfl
  | evaluate code =>
    by_cases hcode : code = ""
    · subst hcode
      rfl
    · dsimp only
      rw [instrument_evaluate r tag item.line hcode, if_pos hcode]
  | includeFile path =>
    rw [Item.included?, hd] at h
    dsimp only at h ⊢
    split at h
    · cases h
    · rename_i hpath
      rw [if_neg hpath]
      rfl
  | comment => rfl
  | terminate => rfl
  | unknown lead => rfl

end Interpreter

end ScpiScript
