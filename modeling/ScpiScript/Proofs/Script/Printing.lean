import ScpiScript.Proofs.Instrument.Sending
import ScpiScript.Proofs.Script.Trace
/-!
# What a run prints

An item that includes no file and runs no code always succeeds: it makes its requests and
prints what their answers call for. What a run prints is what its items print one after
another, those of included files in the place of their include lines.

- `Request.reports` is what is printed of the answer to a request.
- `Interpreter.reports` is what an item prints in a state, `action_eq_ok` says that it
  prints just that.
- `Adds` collects what single items add to a list that runs make longer, and
  `Adds.runSource` is what a run adds.
- `transcript_runSource` is the case of the messages printed.
-/

namespace ScpiScript

namespace Request

/-- What is printed of the answer to a request: a failure, or the reply to a query. -/
def reports : (request : Request) → request.Answer → List Report
  | query _, .ok line => [.reply line]
  | request, answer => (request.failure? answer).toList.map .instrumentFailure

end Request

namespace Interpreter

variable {ε τ : Type} [Engine ε] [Link τ]

/-! ## One item -/

/-- What is printed of the answer to a request in a state. -/
def answered (r : Interpreter ε τ) (request : Request) : List Report :=
  request.reports (r.instrument.answer request).1

/-- What is printed of a text, given what its expansion leads to. -/
def reportsWith (r : Interpreter ε τ) (text : String) (expanded : String → List Report) :
    List Report :=
  match Reference.substitute (Scope.textOf r.engine) text with
  | .ok t => expanded t
  | .error e => [.scopeFailure e]

/-- What is printed when a vector is sent. -/
def vectorReports (r : Interpreter ε τ) (tail : String) : List Report :=
  match Scope.vectorOf r.engine (Reference.splitTail tail r.vectorName).2,
      Reference.substitute (Scope.textOf r.engine) (Reference.splitTail tail r.vectorName).1 with
  | .error e, _ => [.lookupFailure tail e]
  | .ok _, .error e => [.lookupFailure tail e]
  | .ok samples, .ok lead => r.answered (.sendBlock lead samples)

/-- What is printed when the code at a line of a source is run. -/
def codeReports (r : Interpreter ε τ) (tag : String) (line : Nat) (code : String) :
    List Report :=
  let ended := r.ran ⟨chunkName tag line, code⟩
  match ended.1 with
  | .ok () => []
  | .error (.badCode at_ column snippet) =>
    [.badBlock (at_, column) line tag ended.2.evaluated.length snippet]
  | .error (.failure message) => [.engineFailure message]
  | .error (.exit message) => [.exit message]

/-- What an item prints in a state. The file it may include prints on its own behalf. -/
def reports (r : Interpreter ε τ) (tag : String) (item : Item) : List Report :=
  let ifOpen (reports : List Report) := if r.instrument.isOpen then reports else []
  match item.directive with
  | some (.immediate tail) =>
    ifOpen (r.reportsWith tail fun text => r.answered (.command text true))
  | some (.buffered tail) =>
    ifOpen (r.reportsWith tail fun text => r.answered (.command text false))
  | some (.parameterBlock tail) => r.reportsWith tail fun text => r.answered (.sendParameter text)
  | some (.sampleBlock tail) => ifOpen (r.vectorReports tail)
  | some (.query tail) => ifOpen (r.answered (.query tail))
  | some (.echo tail) => r.reportsWith tail fun text => [.echo text]
  | some (.evaluate code) => if code ≠ "" then r.codeReports tag item.line code else []
  | _ => []

/-- The state after requests were answered and messages printed. -/
def acted (r : Interpreter ε τ) (requests : List Request) (reports : List Report) :
    Interpreter ε τ :=
  { r with instrument := r.instrument.after requests, transcript := r.transcript ++ reports }

section Actions

variable (r : Interpreter ε τ)

omit [Engine ε] in
theorem acted_nil : r.acted [] [] = r := by
  rw [acted, List.append_nil, Instrument.after_nil]

omit [Engine ε] [Link τ] in
/-- An operation on the instrument succeeds, and prints its failure if it has one. -/
theorem reporting_eq_ok {α : Type} (operation : InstrumentM τ α) :
    reporting operation r = .ok ()
      { r with
        instrument := (Instrument.outcome operation r.instrument).2
        transcript := r.transcript ++
          ((errorOf? (Instrument.outcome operation r.instrument).1).toList.map
            .instrumentFailure) } := by
  rw [reporting_eq]
  rcases Instrument.outcome operation r.instrument with ⟨e | a, i⟩
  · rfl
  · dsimp only [errorOf?]
    rw [Option.toList_none, List.map_nil, List.append_nil]
    rfl

omit [Engine ε] in
theorem whenOpen_acted {act : RunM ε τ Unit} {requests : List Request} {reports : List Report}
    (hact : act r = .ok () (r.acted requests reports)) :
    whenOpen act r =
      .ok () (r.acted (if r.instrument.isOpen then requests else [])
        (if r.instrument.isOpen then reports else [])) := by
  rw [whenOpen_eq]
  split
  · exact hact
  · rw [acted_nil]

theorem expanding_acted (text : String) {act : String → RunM ε τ Unit}
    {request : String → Request} {reports : String → List Report}
    (hact : ∀ t, act t r = .ok () (r.acted [request t] (reports t))) :
    expanding text act r =
      .ok () (r.acted (r.requestWith text request) (r.reportsWith text reports)) := by
  rw [expanding_eq, requestWith, reportsWith]
  cases Reference.substitute (Scope.textOf r.engine) text with
  | error e => rfl
  | ok expanded => exact hact expanded

theorem sendVector_acted (tail : String) :
    sendVector tail r = .ok () (r.acted (r.vectorRequest tail) (r.vectorReports tail)) := by
  rw [sendVector_eq, vectorRequest, vectorReports]
  cases Scope.vectorOf r.engine (Reference.splitTail tail r.vectorName).2 with
  | error e => rfl
  | ok samples =>
    dsimp only
    rw [requestWith]
    cases Reference.substitute (Scope.textOf r.engine)
        (Reference.splitTail tail r.vectorName).1 with
    | error e => rfl
    | ok lead => exact reporting_eq_ok r (Instrument.sendBlock lead samples)

omit [Engine ε] in
theorem ask_acted (text : String) :
    ask text r = .ok () (r.acted [.query text] (r.answered (.query text))) := by
  rw [ask_eq]
  show _ = EStateM.Result.ok () { r with
    instrument := (Instrument.outcome (Instrument.query text) r.instrument).2
    transcript := r.transcript ++
      Request.reports (.query text) (Instrument.outcome (Instrument.query text) r.instrument).1 }
  rcases Instrument.outcome (Instrument.query text) r.instrument with ⟨e | line, i⟩ <;> rfl

/-- An item that includes no file and runs no code makes its requests and prints its
messages, and does nothing else. -/
theorem action_eq_ok (runFile : String → RunM ε τ Unit) (tag : String) {item : Item}
    (hincluded : item.included? = none) (hcode : ∀ code, item.directive ≠ some (.evaluate code)) :
    action runFile tag item r =
      .ok () (r.acted (r.requests tag item) (r.reports tag item)) := by
  unfold action requests reports
  rcases hd : item.directive with _ | d
  · rw [acted_nil]
    rfl
  cases d with
  | immediate tail =>
    exact whenOpen_acted r (expanding_acted r tail fun t =>
      reporting_eq_ok r (Instrument.command t true))
  | buffered tail =>
    exact whenOpen_acted r (expanding_acted r tail fun t =>
      reporting_eq_ok r (Instrument.command t false))
  | parameterBlock tail =>
    exact expanding_acted r tail fun t => reporting_eq_ok r (Instrument.sendParameter t)
  | sampleBlock tail => exact whenOpen_acted r (sendVector_acted r tail)
  | query tail => exact whenOpen_acted r (ask_acted r tail)
  | echo tail =>
    dsimp only
    rw [expanding_eq, reportsWith]
    cases Reference.substitute (Scope.textOf r.engine) tail <;> rfl
  | evaluate code => exact absurd hd (hcode code)
  | includeFile path =>
    rw [Item.included?, hd] at hincluded
    dsimp only at hincluded ⊢
    split at hincluded
    · cases hincluded
    · rename_i hpath
      rw [if_neg hpath, acted_nil]
      rfl
  | comment =>
    rw [acted_nil]
    rfl
  | terminate =>
    rw [acted_nil]
    rfl
  | unknown lead =>
    rw [acted_nil]
    rfl

/-- Such an item is one moment of a run. -/
theorem traceReading_item (runFile : String → RunM ε τ Unit)
    (traceFile : String → Interpreter ε τ → List (Moment ε τ)) (tag : String) {item : Item}
    (rest : Reading) (hincluded : item.included? = none)
    (hcode : ∀ code, item.directive ≠ some (.evaluate code))
    (hend : item.directive ≠ some .terminate) :
    traceReading runFile traceFile tag (.item item rest) r =
      ⟨tag, item, r, r.acted (r.requests tag item) (r.reports tag item)⟩ ::
        traceReading runFile traceFile tag rest
          (r.acted (r.requests tag item) (r.reports tag item)) := by
  have hperform : perform runFile tag item r =
      .ok true (r.acted (r.requests tag item) (r.reports tag item)) := by
    rw [perform_eq runFile tag hend, bind_of_ok (action_eq_ok r runFile tag hincluded hcode)]
    rfl
  rw [traceReading, traceItem, hincluded, hperform]
  rfl

/-- Code that asks for an exit is the only one to fail, and prints that it does. -/
theorem transcript_evaluate (tag : String) (line : Nat) (code : String) :
    (finalState (evaluate tag line code r)).transcript =
      r.transcript ++ if code ≠ "" then r.codeReports tag line code else [] := by
  by_cases hcode : code = ""
  · subst hcode
    exact (List.append_nil _).symm
  · rw [if_pos hcode, evaluate_eq r tag line hcode, codeReports]
    dsimp only
    rcases (r.ran ⟨chunkName tag line, code⟩).1 with e | _
    · cases e <;> rfl
    · exact (List.append_nil _).symm

/-- An item prints its messages, whether or not it fails or ends its source. -/
theorem transcript_perform (runFile : String → RunM ε τ Unit) (tag : String) {item : Item}
    (hincluded : item.included? = none) :
    (finalState (perform runFile tag item r)).transcript =
      r.transcript ++ r.reports tag item := by
  rw [finalState_perform]
  by_cases hcode : ∃ code, item.directive = some (.evaluate code)
  · obtain ⟨code, hd⟩ := hcode
    rw [action, reports, hd]
    exact transcript_evaluate r tag item.line code
  · rw [action_eq_ok r runFile tag hincluded fun code hd => hcode ⟨code, hd⟩]
    rfl

end Actions

/-! ## A run -/

/-- What single items add to a list in the state that runs make longer. An include line
adds nothing to what its file does. -/
structure Adds {α : Type} (view : Interpreter ε τ → List α) (added : Moment ε τ → List α) :
    Prop where
  item : ∀ (runFile : String → RunM ε τ Unit) (tag : String) (item : Item)
    (r : Interpreter ε τ), item.included? = none →
    view (finalState (perform runFile tag item r)) =
      view r ++ added ⟨tag, item, r, finalState (perform runFile tag item r)⟩
  included : ∀ m : Moment ε τ, m.item.included? ≠ none → added m = []

namespace Adds

variable {α : Type} {view : Interpreter ε τ → List α} {added : Moment ε τ → List α}

/-- What an item adds, with the file it may include. -/
theorem traceItem (h : Adds view added) {runFile : String → RunM ε τ Unit}
    {traceFile : String → Interpreter ε τ → List (Moment ε τ)}
    (hfiles : ∀ path r, view (finalState (runFile path r)) =
      view r ++ (traceFile path r).flatMap added)
    (tag : String) (item : Item) (r : Interpreter ε τ) :
    view (finalState (perform runFile tag item r)) =
      view r ++ (traceItem runFile traceFile tag item r).flatMap added := by
  unfold Interpreter.traceItem
  rw [List.flatMap_append, List.flatMap_singleton]
  rcases hpath : item.included? with _ | path
  · exact h.item runFile tag item r hpath
  · have hstate : finalState (perform runFile tag item r) = finalState (runFile path r) := by
      rcases hrun : runFile path r with ⟨_, s⟩ | ⟨e, s⟩
      · rw [perform_ok_of_included tag hpath hrun]
        rfl
      · rw [perform_error_of_included tag hpath hrun]
        rfl
    -- the line adds nothing to what its file has added
    rw [h.included _ (by simp [hpath]), List.append_nil, hstate, hfiles]

theorem runReading (h : Adds view added) {runFile : String → RunM ε τ Unit}
    {traceFile : String → Interpreter ε τ → List (Moment ε τ)}
    (hfiles : ∀ path r, view (finalState (runFile path r)) =
      view r ++ (traceFile path r).flatMap added)
    (tag : String) (reading : Reading) (r : Interpreter ε τ) :
    view (finalState (runReading runFile tag reading r)) =
      view r ++ (traceReading runFile traceFile tag reading r).flatMap added := by
  induction reading generalizing r with
  | finished => exact (List.append_nil _).symm
  | failed cause => exact (List.append_nil _).symm
  | item first rest ih =>
    have hitem := h.traceItem hfiles tag first r
    rw [traceReading, List.flatMap_append, ← List.append_assoc, ← hitem]
    rcases hperform : perform runFile tag first r with ⟨goesOn, s⟩ | ⟨e, s⟩
    · rw [runReading_item hperform]
      cases goesOn with
      | true => exact ih s
      | false => exact (List.append_nil _).symm
    · rw [runReading_item_error hperform]
      exact (List.append_nil _).symm

theorem runPath (h : Adds view added) (files : FileTree) (limit : Nat) (path : String)
    (r : Interpreter ε τ) :
    view (finalState (runPath files limit path r)) =
      view r ++ (tracePath files limit path r).flatMap added := by
  induction limit generalizing path r with
  | zero => exact (List.append_nil _).symm
  | succ limit ih =>
    rw [tracePath]
    rcases hopen : Source.openPath files path with e | source
    · rw [runPath_of_error limit hopen]
      exact (List.append_nil _).symm
    · rw [runPath_of_ok limit hopen, finalState_discard]
      exact h.runReading ih source.tag source.reading r

/-- A run of a source adds what the items of the source and of all it includes add, in
the order in which they are acted on. -/
theorem runSource (h : Adds view added) (files : FileTree) (limit : Nat) (source : Source)
    (r : Interpreter ε τ) :
    view (finalState (runSource files limit source r)) =
      view r ++ (trace files limit source r).flatMap added := by
  unfold Interpreter.runSource
  rw [← finalState_discard, runItems_eq_runReading, finalState_discard]
  exact h.runReading (h.runPath files limit) source.tag source.reading r

end Adds

/-- What an item printed when it was acted on. -/
def Moment.printed (m : Moment ε τ) : List Report := m.before.reports m.tag m.item

theorem adds_printed : Adds (ε := ε) (τ := τ) Interpreter.transcript Moment.printed where
  item runFile tag item r hincluded := transcript_perform r runFile tag hincluded
  included m hincluded := by
    unfold Item.included? at hincluded
    split at hincluded
    · rename_i path hd
      rw [Moment.printed, reports, hd]
    · exact absurd rfl hincluded

/-- A run prints what its items print. -/
theorem transcript_runSource (files : FileTree) (limit : Nat) (source : Source)
    (r : Interpreter ε τ) :
    (finalState (runSource files limit source r)).transcript =
      r.transcript ++ (trace files limit source r).flatMap Moment.printed :=
  adds_printed.runSource files limit source r

end Interpreter

end ScpiScript
