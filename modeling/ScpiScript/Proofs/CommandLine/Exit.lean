import ScpiScript.CommandLine.Setup
import ScpiScript.Proofs.Script.Exit
/-!
# How the program ends at an exit

Code that asks for an exit ends the whole program, in whichever action and below however
many include lines it stands. The report of the exit is the last one that is made. The
failure itself is printed after it, though, if the code stands below an include line.

- `Program.startState` is what the actions begin with.
- `Program.ComesToExit` says that an action comes to code that asks for an exit.
- `exit_endsRun` is what the program then gives.
-/

namespace ScpiScript

namespace Program

open Interpreter

variable {ε τ : Type} [Engine ε]

/-- The state that the actions begin with. -/
def startState (setup : Setup ε τ) (arguments : Arguments) (invocation : Invocation) :
    State ε τ :=
  let (settings, warnings) := loadSettings arguments invocation
  let (engine, more) := bindVars (setup.engine settings invocation) settings.vars.sorted
  { interpreter := { Interpreter.new engine (Instrument.new settings.byteOrder) with
      vectorName := settings.vector.getD Interpreter.defaultVector }
    stdin := Source.ofBytes Source.stdinTag invocation.stdin
    notices := warnings ++ more }

variable [Link τ]

/-- The actions that a program carries out, after it has opened the session that its settings
name. -/
def carryOut (setup : Setup ε τ) (arguments : Arguments) (invocation : Invocation)
    (list : List Action) : EStateM.Result Failure (State ε τ) Unit :=
  (actions setup invocation.files (loadSettings arguments invocation).1.address list).run
    (startState setup arguments invocation)

/-- Unless it is asked for help only, the program carries out its actions and comes to an
end. -/
theorem run_of_read (setup : Setup ε τ) {invocation : Invocation} {arguments : Arguments}
    (hread : Arguments.read invocation.arguments = .ok arguments)
    (hhelp : ¬ (arguments.help = true ∧ arguments.actions = [])) :
    run setup invocation =
      conclude arguments.help (carryOut setup arguments invocation arguments.actions) := by
  have hsome : (arguments.help && arguments.actions.isEmpty) = false := by simpa using hhelp
  unfold run
  rw [hread]
  dsimp only
  rw [hsome]
  rfl

/-- With something to do, the program does it and comes to an end. -/
theorem run_eq (setup : Setup ε τ) {invocation : Invocation} {arguments : Arguments}
    (hread : Arguments.read invocation.arguments = .ok arguments)
    (hactions : arguments.actions ≠ []) :
    run setup invocation =
      conclude arguments.help (carryOut setup arguments invocation arguments.actions) :=
  run_of_read setup hread fun h => hactions h.2

/-! ## One action -/

/-- From a state, an action comes to code that asks for an exit, below the include lines at
some places, and leaves the interpreter in a state. -/
inductive ComesToExit (files : FileTree) : Action → State ε τ → List (String × Nat) → String →
    Interpreter ε τ → Prop
  | argument {code message : String} {index : Nat} {s : State ε τ} {r : Interpreter ε τ}
      (hran : s.interpreter.ran ⟨s!"argument {index}", code⟩ = (.error (.exit message), r)) :
      ComesToExit files (.evaluate code index) s [] message (r.said (.exit message))
  | file {path message : String} {source : Source} {s : State ε τ} {r : Interpreter ε τ}
      {chain : List (String × Nat)} (hopen : Source.openPath files path = .ok source)
      (hexit : Fatal files (openLimit - 1) source 0 s.interpreter chain (.exit message) r) :
      ComesToExit files (.runFile path) s chain message r
  | stdin {message : String} {s : State ε τ} {r : Interpreter ε τ} {chain : List (String × Nat)}
      (hexit : Fatal files openLimit s.stdin 0 s.interpreter chain (.exit message) r) :
      ComesToExit files .runStdin s chain message r

section Action

variable {s s' : State ε τ}

omit [Engine ε] [Link τ] in
theorem script_of_ok {α : Type} {act : RunM ε τ α} {a : α} {r : Interpreter ε τ}
    (h : act s.interpreter = .ok a r) : script act s = .ok a { s with interpreter := r } := by
  rw [script, h]

omit [Engine ε] [Link τ] in
theorem script_of_error {α : Type} {act : RunM ε τ α} {e : RunError} {r : Interpreter ε τ}
    (h : act s.interpreter = .error e r) :
    script act s = .error (.script e) { s with interpreter := r } := by
  rw [script, h]

omit [Engine ε] [Link τ] in
theorem script_eq_ok {α : Type} {act : RunM ε τ α} {a : α} (h : script act s = .ok a s') :
    ∃ r, act s.interpreter = .ok a r ∧ s' = { s with interpreter := r } := by
  rcases hact : act s.interpreter with ⟨b, r⟩ | ⟨e, r⟩
  · rw [script_of_ok hact] at h
    cases h
    exact ⟨r, rfl, rfl⟩
  · rw [script_of_error hact] at h
    cases h

/-- What is left of standard input is kept for a later action. -/
theorem runStdin_eq (files : FileTree) (s : State ε τ) :
    runStdin files s = (script (runSource files openLimit s.stdin) >>= fun rest =>
      modify fun s => { s with stdin := { rest with lineNo := 0 } }) s := rfl

theorem evaluateArgument_of_exit {code message : String} {index : Nat} {r r' : Interpreter ε τ}
    (h : r.ran ⟨s!"argument {index}", code⟩ = (.error (.exit message), r')) :
    evaluateArgument code index r = .error (.exit message) (r'.said (.exit message)) := by
  unfold evaluateArgument
  rw [bind_of_ok (runCode_eq _ _), h]
  rfl

/-- An action fails by the exit that it comes to. -/
theorem act_of_comesToExit (setup : Setup ε τ) {files : FileTree} {action : Action}
    {chain : List (String × Nat)} {message : String} {r : Interpreter ε τ}
    (h : ComesToExit files action s chain message r) :
    act setup files action s =
      .error (.script ((RunError.exit message).under chain)) { s with interpreter := r } := by
  cases h with
  | argument hran => exact script_of_error (evaluateArgument_of_exit hran)
  | file hopen hexit =>
    have hrun := hexit.runItems_eq
    rw [Source.skip_zero] at hrun
    refine script_of_error ?_
    rw [show openLimit = openLimit - 1 + 1 from rfl, runPath_opened _ hopen]
    exact discard_of_error hrun
  | stdin hexit =>
    have hrun := hexit.runItems_eq
    rw [Source.skip_zero] at hrun
    show runStdin files s = _
    rw [runStdin_eq]
    exact bind_of_error (script_of_error hrun)

omit [Engine ε] in
/-- What becomes of a session is not printed. -/
theorem transcript_closeSession (s : State ε τ) :
    ∃ s', closeSession s = .ok () s' ∧ s'.interpreter.transcript = s.interpreter.transcript := by
  have hclose : instrument Instrument.close s = .ok _ _ := script_of_ok (onInstrument_eq _ _)
  unfold closeSession
  rw [bind_of_ok hclose]
  rcases (Instrument.outcome Instrument.close s.interpreter.instrument).1 with e | _
  · exact ⟨_, rfl, rfl⟩
  · exact ⟨_, rfl, rfl⟩

omit [Engine ε] in
theorem transcript_openSession {setup : Setup ε τ} {address : String}
    (h : openSession setup address s = .ok () s') :
    s'.interpreter.transcript = s.interpreter.transcript := by
  obtain ⟨t, hclosed, htranscript⟩ := transcript_closeSession s
  have hconnect : instrument (Instrument.connect setup.dial address) t = .ok _ _ :=
    script_of_ok (onInstrument_eq _ _)
  unfold openSession at h
  rw [bind_of_ok hclosed, bind_of_ok hconnect] at h
  revert h
  rcases (Instrument.outcome (Instrument.connect setup.dial address)
    t.interpreter.instrument).1 with e | _
  · intro h
    cases h
  · intro h
    cases h
    exact htranscript

/-- An action that succeeds has reported no exit. -/
theorem goesOn_act {setup : Setup ε τ} {files : FileTree} {action : Action}
    (h : s.interpreter.GoesOn) (hact : act setup files action s = .ok () s') :
    s'.interpreter.GoesOn := by
  cases action with
  | openSession address =>
    unfold GoesOn
    rw [transcript_openSession hact]
    exact h
  | evaluate code index =>
    obtain ⟨r, hran, rfl⟩ := script_eq_ok hact
    have hreports := reportsOnce_evaluateArgument h code index
    rwa [hran] at hreports
  | runFile path =>
    obtain ⟨r, hran, rfl⟩ := script_eq_ok hact
    have hreports := reportsOnce_runPath files openLimit path h
    rwa [hran] at hreports
  | runStdin =>
    have hreports := reportsOnce_runSource files openLimit s.stdin h
    change runStdin files s = _ at hact
    rw [runStdin_eq] at hact
    rcases hran : runSource files openLimit s.stdin s.interpreter with ⟨rest, r⟩ | ⟨e, r⟩
    · rw [bind_of_ok (script_of_ok hran)] at hact
      rw [hran] at hreports
      cases hact
      exact hreports
    · rw [bind_of_error (script_of_error hran)] at hact
      cases hact

/-- An action that comes to an exit has reported it, and no other. -/
theorem endsWithExit_of_comesToExit {files : FileTree} {action : Action}
    {chain : List (String × Nat)} {message : String} {r : Interpreter ε τ}
    (hstart : s.interpreter.GoesOn) (h : ComesToExit files action s chain message r) :
    EndsWithExit r.transcript message := by
  -- the exit that a script fails by is the one at the code in it
  have hsource : ∀ {limit source}, Fatal files limit source 0 s.interpreter chain (.exit message) r →
      EndsWithExit r.transcript message := by
    intro limit source hexit
    have hreports := reportsOnce_runSource files limit source hstart
    rw [((fatal_iff _ _ _ _ _ _ _).mp hexit).2] at hreports
    exact hreports.endsWithExit
  cases h with
  | @argument code message index _ _ hran =>
    have hreports := reportsOnce_evaluateArgument hstart code index
    rw [evaluateArgument_of_exit hran] at hreports
    rw [← RunError.under_nil (.exit message)] at hreports
    exact hreports.endsWithExit
  | file hopen hexit => exact hsource hexit
  | stdin hexit => exact hsource hexit

end Action

/-! ## The whole program -/

/-- Open the session that the settings name, if they name one. -/
def opening (setup : Setup ε τ) (address : Option String) : ProgramM ε τ Unit :=
  match address with
  | some a => openSession setup a
  | none => pure ()

theorem actions_eq (setup : Setup ε τ) (files : FileTree) (address : Option String)
    (list : List Action) :
    actions setup files address list =
      (opening setup address >>= fun _ => list.forM (act setup files)) := by
  cases address <;> rfl

section Lists

variable {setup : Setup ε τ} {files : FileTree} {s s' : State ε τ}

theorem forM_act_cons (action : Action) (rest : List Action) :
    (action :: rest).forM (act setup files) =
      (act setup files action >>= fun _ => rest.forM (act setup files)) := rfl

/-- Actions go on after others that succeed. -/
theorem forM_act_append {earlier : List Action}
    (h : earlier.forM (act setup files) s = .ok ⟨⟩ s') (later : List Action) :
    (earlier ++ later).forM (act setup files) s = later.forM (act setup files) s' := by
  induction earlier generalizing s with
  | nil =>
    cases h
    rfl
  | cons action rest ih =>
    rw [forM_act_cons] at h
    rw [List.cons_append, forM_act_cons]
    rcases hact : act setup files action s with ⟨_, t⟩ | ⟨e, t⟩
    · rw [bind_of_ok hact] at h ⊢
      exact ih h
    · rw [bind_of_error hact] at h
      cases h

theorem goesOn_forM {list : List Action} (h : s.interpreter.GoesOn)
    (hrun : list.forM (act setup files) s = .ok ⟨⟩ s') : s'.interpreter.GoesOn := by
  induction list generalizing s with
  | nil =>
    cases hrun
    exact h
  | cons action rest ih =>
    rw [forM_act_cons] at hrun
    rcases hact : act setup files action s with ⟨_, t⟩ | ⟨e, t⟩
    · rw [bind_of_ok hact] at hrun
      exact ih (goesOn_act h hact) hrun
    · rw [bind_of_error hact] at hrun
      cases hrun

end Lists

section Program

variable {setup : Setup ε τ} {arguments : Arguments} {invocation : Invocation} {s : State ε τ}

/-- Actions succeed from the state in which the first session is open. -/
theorem carryOut_eq_ok {list : List Action}
    (h : carryOut setup arguments invocation list = .ok () s) :
    ∃ t, opening setup (loadSettings arguments invocation).1.address
        (startState setup arguments invocation) = .ok () t ∧
      list.forM (act setup invocation.files) t = .ok ⟨⟩ s := by
  unfold carryOut EStateM.run at h
  rw [actions_eq] at h
  rcases hopen : opening setup (loadSettings arguments invocation).1.address
    (startState setup arguments invocation) with ⟨_, t⟩ | ⟨e, t⟩
  · rw [bind_of_ok hopen] at h
    exact ⟨t, rfl, h⟩
  · rw [bind_of_error hopen] at h
    cases h

theorem goesOn_carryOut {list : List Action}
    (h : carryOut setup arguments invocation list = .ok () s) : s.interpreter.GoesOn := by
  obtain ⟨t, hopen, hrun⟩ := carryOut_eq_ok h
  have hstart : (startState setup arguments invocation).interpreter.GoesOn :=
    fun report hreport => by cases hreport
  refine goesOn_forM ?_ hrun
  rcases haddress : (loadSettings arguments invocation).1.address with _ | address
  · rw [haddress] at hopen
    cases hopen
    exact hstart
  · rw [haddress] at hopen
    unfold GoesOn
    rw [transcript_openSession hopen]
    exact hstart

theorem carryOut_append {earlier : List Action}
    (h : carryOut setup arguments invocation earlier = .ok () s) (later : List Action) :
    carryOut setup arguments invocation (earlier ++ later) =
      later.forM (act setup invocation.files) s := by
  obtain ⟨t, hopen, hrun⟩ := carryOut_eq_ok h
  unfold carryOut EStateM.run
  rw [actions_eq, bind_of_ok hopen]
  exact forM_act_append hrun later

end Program

/-- Code that asks for an exit ends the program, whatever its action and however deep it
stands. No later action is carried out: the program ends in the state in which the exit was
reported, with the report as its last message and no report of another. The exit code is
that of a failed run. Nothing is printed after the report exactly if the code does not stand
below an include line; otherwise the failure is printed as well. -/
theorem exit_endsRun (setup : Setup ε τ) {invocation : Invocation} {arguments : Arguments}
    (hread : Arguments.read invocation.arguments = .ok arguments) {earlier later : List Action}
    {action : Action} (hactions : arguments.actions = earlier ++ action :: later)
    {s : State ε τ} (hearlier : carryOut setup arguments invocation earlier = .ok () s)
    {chain : List (String × Nat)} {message : String} {r : Interpreter ε τ}
    (hexit : ComesToExit invocation.files action s chain message r) :
    carryOut setup arguments invocation arguments.actions =
        .error (.script ((RunError.exit message).under chain)) { s with interpreter := r } ∧
      EndsWithExit r.transcript message ∧
      (run setup invocation).code = runFailure ∧
      (run setup invocation).stdout = r.output ++
        (if chain = [] then ""
          else "Error: " ++ ((RunError.exit message).under chain).message ++ "\n") ∧
      ((run setup invocation).stdout = r.output ↔ chain = []) := by
  have hended : carryOut setup arguments invocation arguments.actions =
      .error (.script ((RunError.exit message).under chain)) { s with interpreter := r } := by
    rw [hactions, carryOut_append hearlier, forM_act_cons]
    exact bind_of_error (act_of_comesToExit setup hexit)
  have hnonempty : arguments.actions ≠ [] := by simp [hactions]
  have hrun := run_eq setup hread hnonempty
  rw [hended] at hrun
  have hstdout : (run setup invocation).stdout = r.output ++
      (if chain = [] then ""
        else "Error: " ++ ((RunError.exit message).under chain).message ++ "\n") := by
    rw [hrun]
    show r.output ++ Failure.output (.script ((RunError.exit message).under chain)) = _
    cases chain <;> rfl
  refine ⟨hended, endsWithExit_of_comesToExit (goesOn_carryOut hearlier) hexit, ?_, hstdout, ?_⟩
  · rw [hrun]
    rfl
  · rw [hstdout]
    by_cases hchain : chain = []
    · simp [hchain]
    · simp [hchain]

/-- A run of a script that includes another, in which code asks for an exit, and of code
after it. -/
def nestedExit : Invocation where
  arguments := ["-n", "-i", "fake", "-f", "top.arb", "-e", "x = 1"]
  stdin := []
  files := ⟨[], [(["top.arb"], .file (Utf8.encode "<inner.arb\n")),
    (["inner.arb"], .file (Utf8.encode "=exit('done')\n"))]⟩
  environment := ⟨none, none, "", none, ""⟩

/-- The exit is reported, and the failure is printed after it. -/
theorem nestedExit_printedTwice :
    run Setup.offline nestedExit =
      ⟨2, "Error exit: done\n" ++ "Error: top.arb, line 1: exit requested: done\n", ""⟩ := by
  decide +kernel

/-- What its arguments ask for. -/
def nestedArguments : Arguments :=
  ⟨[.openSession "fake", .runFile "top.arb", .evaluate "x = 1" 6], false, false, true⟩

theorem exit_endsRun_nestedExit :
    ∃ s r, carryOut Setup.offline nestedArguments nestedExit [.openSession "fake"] = .ok () s ∧
      ComesToExit nestedExit.files (.runFile "top.arb") s [("top.arb", 1)] "done" r ∧
      EndsWithExit r.transcript "done" ∧
      (run Setup.offline nestedExit).code = runFailure ∧
      (run Setup.offline nestedExit).stdout =
        r.output ++ "Error: top.arb, line 1: exit requested: done\n" := by
  have hread : Arguments.read nestedExit.arguments = .ok nestedArguments := rfl
  have hearlier : carryOut Setup.offline nestedArguments nestedExit [.openSession "fake"] =
      .ok () (finalState (carryOut Setup.offline nestedArguments nestedExit
        [.openSession "fake"])) := rfl
  have hexit : ∃ r, ComesToExit nestedExit.files (.runFile "top.arb")
      (finalState (carryOut Setup.offline nestedArguments nestedExit [.openSession "fake"]))
      [("top.arb", 1)] "done" r := by
    have htop : Source.openPath nestedExit.files "top.arb" =
        .ok (.ofBytes "top.arb" (Utf8.encode "<inner.arb\n")) := rfl
    have hinner : Source.openPath nestedExit.files "inner.arb" =
        .ok (.ofBytes "inner.arb" (Utf8.encode "=exit('done')\n")) := rfl
    have hinclude : ((Source.ofBytes "top.arb" (Utf8.encode "<inner.arb\n")).skip 0).readItem =
        (.ok (some ⟨some (.includeFile "inner.arb"), 1⟩),
          (Source.ofBytes "top.arb" (Utf8.encode "<inner.arb\n")).skip 1) := rfl
    have hcode : ((Source.ofBytes "inner.arb" (Utf8.encode "=exit('done')\n")).skip 0).readItem =
        (.ok (some ⟨some (.evaluate "exit('done')"), 1⟩),
          (Source.ofBytes "inner.arb" (Utf8.encode "=exit('done')\n")).skip 1) := rfl
    have hran : ((finalState (carryOut Setup.offline nestedArguments nestedExit
        [.openSession "fake"])).interpreter.ran
          ⟨chunkName "inner.arb" 1, "exit('done')"⟩).1 = .error (.exit "done") :=
      errorOf?_eq_some.mp (by decide +kernel)
    exact ⟨_, .file htop (.inside hinclude rfl hinner
      (.exit hcode rfl (by decide) (Prod.ext hran rfl)))⟩
  obtain ⟨r, hexit⟩ := hexit
  obtain ⟨-, hends, hcode, hstdout, -⟩ :=
    exit_endsRun Setup.offline hread rfl hearlier hexit
  exact ⟨_, r, hearlier, hexit, hends, hcode, hstdout⟩

end Program

end ScpiScript
