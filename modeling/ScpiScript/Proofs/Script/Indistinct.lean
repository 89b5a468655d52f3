import ScpiScript.Proofs.Script.Simulation
/-!
# States that items cannot tell apart

Items that ask for the same do the same in two states if whatever they look at is the
same in both: whether there is a session, the scope, the answers to their requests, and
what becomes of the code they run.

- `Indistinct` collects this for a relation between states.
- `Indistinct.perform` is the step of a comparison of two runs.
-/

namespace ScpiScript

namespace Interpreter

variable {ε τ ε' τ' : Type} [Engine ε] [Link τ] [Engine ε'] [Link τ']

/-- Related states cannot be told apart by items that make only allowed requests. Two
items may stand at different places if these are related by `P`. -/
structure Indistinct (R : Interpreter ε τ → Interpreter ε' τ' → Prop)
    (P : String → Nat → String → Nat → Prop) (allowed : Request → Prop) : Prop where
  isOpen : ∀ {r r'}, R r r' → r.instrument.isOpen = r'.instrument.isOpen
  lookup : ∀ {r r'}, R r r' → ∀ name, Scope.lookup r.engine name = Scope.lookup r'.engine name
  vectorName : ∀ {r r'}, R r r' → r.vectorName = r'.vectorName
  said : ∀ {r r'} report, R r r' → R (r.said report) (r'.said report)
  saidBadBlock : ∀ {r r' tag line tag' line'} place snippet, P tag line tag' line' → R r r' →
    R (r.said (.badBlock place line tag r.evaluated.length snippet))
      (r'.said (.badBlock place line' tag' r'.evaluated.length snippet))
  asked : ∀ {r r'} request, allowed request → R r r' →
    (r.instrument.answer request).1 = (r'.instrument.answer request).1 ∧
      R (r.asked request) (r'.asked request)
  ran : ∀ {r r' tag line tag' line'} code, P tag line tag' line' →
    (∀ request ∈ r.instrument.requestsOf (Engine.execute r.engine code (chunkName tag line)),
      allowed request) → R r r' →
    (r.ran ⟨chunkName tag line, code⟩).1 = (r'.ran ⟨chunkName tag' line', code⟩).1 ∧
      R (r.ran ⟨chunkName tag line, code⟩).2 (r'.ran ⟨chunkName tag' line', code⟩).2

namespace Indistinct

variable {R : Interpreter ε τ → Interpreter ε' τ' → Prop}
  {P : String → Nat → String → Nat → Prop} {allowed : Request → Prop}
  {E : RunError → RunError → Prop} {r : Interpreter ε τ} {r' : Interpreter ε' τ'}

omit [Link τ] [Link τ'] in
theorem textOf_eq (h : ∀ name, Scope.lookup r.engine name = Scope.lookup r'.engine name) :
    Scope.textOf r.engine = Scope.textOf r'.engine := by
  funext name
  rw [Scope.textOf, Scope.textOf, h name]

omit [Link τ] [Link τ'] in
theorem vectorOf_eq (h : ∀ name, Scope.lookup r.engine name = Scope.lookup r'.engine name) :
    Scope.vectorOf r.engine = Scope.vectorOf r'.engine := by
  funext name
  rw [Scope.vectorOf, Scope.vectorOf, h name]

theorem whenOpen (h : Indistinct R P allowed) (hstate : R r r') {act : RunM ε τ Unit}
    {act' : RunM ε' τ' Unit}
    (hact : r.instrument.isOpen = true → Corresponds Eq E R (act r) (act' r')) :
    Corresponds Eq E R (whenOpen act r) (whenOpen act' r') := by
  rw [whenOpen_eq, whenOpen_eq, ← h.isOpen hstate]
  split
  · exact hact ‹_›
  · exact .ok rfl hstate

theorem expanding (h : Indistinct R P allowed) (hstate : R r r') {text : String}
    {act : String → RunM ε τ Unit} {act' : String → RunM ε' τ' Unit}
    (hact : ∀ t, Reference.substitute (Scope.textOf r.engine) text = .ok t →
      Corresponds Eq E R (act t r) (act' t r')) :
    Corresponds Eq E R (expanding text act r) (expanding text act' r') := by
  rw [expanding_eq, expanding_eq, ← textOf_eq (h.lookup hstate)]
  cases hsubstitute : Reference.substitute (Scope.textOf r.engine) text with
  | error e => exact .ok rfl (h.said _ hstate)
  | ok expanded => exact hact expanded hsubstitute

omit [Engine ε] [Engine ε'] [Link τ] [Link τ'] in
/-- An operation that has the same outcome in both states is reported alike. -/
theorem reporting {α : Type} {operation : InstrumentM τ α} {operation' : InstrumentM τ' α}
    (hsaid : ∀ {s s'} report, R s s' → R (s.said report) (s'.said report))
    (hresult : (Instrument.outcome operation r.instrument).1 =
      (Instrument.outcome operation' r'.instrument).1)
    (hstate : R (r.withInstrument (Instrument.outcome operation r.instrument).2)
      (r'.withInstrument (Instrument.outcome operation' r'.instrument).2)) :
    Corresponds Eq E R (reporting operation r) (reporting operation' r') := by
  rw [reporting_eq, reporting_eq]
  rcases hleft : Instrument.outcome operation r.instrument with ⟨result, i⟩
  rcases hright : Instrument.outcome operation' r'.instrument with ⟨result', i'⟩
  rw [hleft, hright] at hresult hstate
  obtain rfl : result = result' := hresult
  cases result with
  | error e => exact .ok rfl (hsaid _ hstate)
  | ok a => exact .ok rfl hstate

theorem sendVector (h : Indistinct R P allowed) (hstate : R r r') {tail : String}
    (hallowed : ∀ request ∈ r.vectorRequest tail, allowed request) :
    Corresponds Eq E R (sendVector tail r) (sendVector tail r') := by
  rw [sendVector_eq, sendVector_eq, ← h.vectorName hstate, ← textOf_eq (h.lookup hstate),
    ← vectorOf_eq (h.lookup hstate)]
  rw [vectorRequest] at hallowed
  cases hvector : Scope.vectorOf r.engine (Reference.splitTail tail r.vectorName).2 with
  | error e => exact .ok rfl (h.said _ hstate)
  | ok samples =>
    rw [hvector] at hallowed
    dsimp only at hallowed ⊢
    rw [requestWith] at hallowed
    cases hlead : Reference.substitute (Scope.textOf r.engine)
        (Reference.splitTail tail r.vectorName).1 with
    | error e => exact .ok rfl (h.said _ hstate)
    | ok lead =>
      rw [hlead] at hallowed
      obtain ⟨hresult, hafter⟩ := h.asked (.sendBlock lead samples)
        (hallowed _ List.mem_cons_self) hstate
      exact reporting h.said hresult hafter

theorem ask (h : Indistinct R P allowed) (hstate : R r r') {text : String}
    (hallowed : allowed (.query text)) : Corresponds Eq E R (ask text r) (ask text r') := by
  obtain ⟨hresult, hafter⟩ := h.asked (.query text) hallowed hstate
  change (Instrument.outcome (Instrument.query text) r.instrument).1 =
    (Instrument.outcome (Instrument.query text) r'.instrument).1 at hresult
  change R (r.withInstrument (Instrument.outcome (Instrument.query text) r.instrument).2)
    (r'.withInstrument (Instrument.outcome (Instrument.query text) r'.instrument).2) at hafter
  rw [ask_eq, ask_eq]
  rcases hleft : Instrument.outcome (Instrument.query text) r.instrument with ⟨result, i⟩
  rcases hright : Instrument.outcome (Instrument.query text) r'.instrument with ⟨result', i'⟩
  rw [hleft, hright] at hresult hafter
  obtain rfl : result = result' := hresult
  cases result with
  | error e => exact .ok rfl (h.said _ hafter)
  | ok line => exact .ok rfl (h.said _ hafter)

theorem evaluate (h : Indistinct R P allowed) (hexit : ∀ message, E (.exit message) (.exit message))
    (hstate : R r r') {tag tag' : String} {line line' : Nat} (hplace : P tag line tag' line')
    {code : String} (hcode : code ≠ "")
    (hallowed : ∀ request ∈
      r.instrument.requestsOf (Engine.execute r.engine code (chunkName tag line)),
      allowed request) :
    Corresponds Eq E R (evaluate tag line code r) (evaluate tag' line' code r') := by
  obtain ⟨hresult, hafter⟩ := h.ran code hplace hallowed hstate
  rw [evaluate_eq r tag line hcode, evaluate_eq r' tag' line' hcode]
  dsimp only
  rw [← hresult]
  rcases (r.ran ⟨chunkName tag line, code⟩).1 with e | _
  · cases e with
    | badCode at_ column snippet => exact .ok rfl (h.saidBadBlock _ _ hplace hafter)
    | exit message => exact .error (hexit message) (h.said _ hafter)
    | failure message => exact .ok rfl (h.said _ hafter)
  · exact .ok rfl hafter

/-- Items that ask for the same do the same, the files they include aside. -/
theorem action (h : Indistinct R P allowed) (hexit : ∀ message, E (.exit message) (.exit message))
    (hstate : R r r') {tag tag' : String} {a b : Item} (hplace : P tag a.line tag' b.line)
    (hdirective : a.directive = b.directive) (hincluded : a.included? = none)
    (hallowed : ∀ request ∈ r.requests tag a, allowed request)
    (runFile : String → RunM ε τ Unit) (runFile' : String → RunM ε' τ' Unit) :
    Corresponds Eq E R (action runFile tag a r) (action runFile' tag' b r') := by
  -- commands differ only in the flag they are sent with
  have hcommand : ∀ tail flush,
      (∀ request ∈ r.requestWith tail fun text => .command text flush, allowed request) →
      Corresponds Eq E R
        (Interpreter.expanding tail
          (fun text => Interpreter.reporting (Instrument.command text flush)) r)
        (Interpreter.expanding tail
          (fun text => Interpreter.reporting (Instrument.command text flush)) r') := by
    intro tail flush htail
    refine h.expanding hstate fun t ht => ?_
    rw [requestWith, ht] at htail
    obtain ⟨hresult, hafter⟩ := h.asked (.command t flush) (htail _ List.mem_cons_self) hstate
    exact reporting h.said hresult hafter
  unfold requests at hallowed
  unfold Interpreter.action
  rw [← hdirective]
  rcases hd : a.directive with _ | d
  · exact .ok rfl hstate
  rw [hd] at hallowed
  cases d with
  | immediate tail =>
    refine h.whenOpen hstate fun hopen => hcommand tail true ?_
    simpa [hopen] using hallowed
  | buffered tail =>
    refine h.whenOpen hstate fun hopen => hcommand tail false ?_
    simpa [hopen] using hallowed
  | parameterBlock tail =>
    refine h.expanding hstate fun t ht => ?_
    dsimp only at hallowed
    rw [requestWith, ht] at hallowed
    obtain ⟨hresult, hafter⟩ := h.asked (.sendParameter t)
      (hallowed _ List.mem_cons_self) hstate
    exact reporting h.said hresult hafter
  | sampleBlock tail =>
    refine h.whenOpen hstate fun hopen => h.sendVector hstate ?_
    simpa [hopen] using hallowed
  | query tail =>
    refine h.whenOpen hstate fun hopen => h.ask hstate ?_
    simpa [hopen] using hallowed
  | echo tail => exact h.expanding hstate fun t _ => .ok rfl (h.said (.echo t) hstate)
  | evaluate code =>
    by_cases hcode : code = ""
    · subst hcode
      exact .ok rfl hstate
    · refine h.evaluate hexit hstate hplace hcode ?_
      simpa [hcode] using hallowed
  | includeFile path =>
    rw [Item.included?, hd] at hincluded
    dsimp only at hincluded ⊢
    split at hincluded
    · cases hincluded
    · -- an include line without a path does nothing
      rename_i hpath
      rw [if_neg hpath, if_neg hpath]
      exact .ok rfl hstate
  | comment => exact .ok rfl hstate
  | terminate => exact .ok rfl hstate
  | unknown lead => exact .ok rfl hstate

/-- The step of a comparison: items that ask for the same succeed or fail alike. -/
theorem perform (h : Indistinct R P allowed)
    (hexit : ∀ message, E (.exit message) (.exit message))
    (hstate : R r r') {tag tag' : String} {a b : Item} (hplace : P tag a.line tag' b.line)
    (hdirective : a.directive = b.directive) (hincluded : a.included? = none)
    (hallowed : ∀ request ∈ r.requests tag a, allowed request)
    (runFile : String → RunM ε τ Unit) (runFile' : String → RunM ε' τ' Unit) :
    Corresponds Eq E R (perform runFile tag a r) (perform runFile' tag' b r') := by
  by_cases hend : a.directive = some .terminate
  · rw [perform_terminate runFile tag hend,
      perform_terminate runFile' tag' (hdirective ▸ hend)]
    exact .ok rfl hstate
  · rw [perform_eq runFile tag hend, perform_eq runFile' tag' (hdirective ▸ hend)]
    have haction := h.action hexit hstate hplace hdirective hincluded hallowed runFile runFile'
    exact haction.bind fun _ _ _ _ _ _ _ hafter => .ok rfl hafter

end Indistinct

end Interpreter

end ScpiScript
