import ScpiScript.Proofs.CommandLine.Arguments
import ScpiScript.Proofs.CommandLine.Exit
/-!
# What decides the outcome of the program

The exit code tells apart arguments that are refused, runs in which all went well, and all
others. A run goes no further than the first action that fails: what stands behind it on the
command line, a request for help included, shows nowhere.

- `Program.Completes` says that the first session opens and actions succeed after it.
- `code_eq_success_iff` is when all went well.
- `run_withArguments` is a run whose later actions were taken out.
- `outcome_decided` is all of it.
-/

namespace ScpiScript

/-- The same invocation with another argument list. -/
def Invocation.withArguments (invocation : Invocation) (list : List String) : Invocation :=
  { invocation with arguments := list }

/-- A setup whose engine does not depend on the argument list. -/
def Setup.IgnoresArguments {ε τ : Type} (setup : Setup ε τ) : Prop :=
  ∀ settings invocation list,
    setup.engine settings (invocation.withArguments list) = setup.engine settings invocation

theorem ignoresArguments_offline : Setup.offline.IgnoresArguments := fun _ _ _ => rfl

namespace Program

open Interpreter

variable {ε τ : Type} [Engine ε] [Link τ]

/-- Actions that succeed one after another, from a state to a state. -/
inductive Succeed (setup : Setup ε τ) (files : FileTree) :
    State ε τ → List Action → State ε τ → Prop
  | nil (s : State ε τ) : Succeed setup files s [] s
  | cons {action : Action} {rest : List Action} {s t u : State ε τ}
      (first : act setup files action s = .ok () t) (later : Succeed setup files t rest u) :
      Succeed setup files s (action :: rest) u

theorem forM_eq_ok_iff {setup : Setup ε τ} {files : FileTree} {list : List Action}
    {s s' : State ε τ} :
    list.forM (act setup files) s = .ok ⟨⟩ s' ↔ Succeed setup files s list s' := by
  induction list generalizing s with
  | nil =>
    constructor
    · intro h
      cases h
      exact .nil _
    · intro h
      cases h
      rfl
  | cons action rest ih =>
    rw [forM_act_cons]
    constructor
    · intro h
      rcases hact : act setup files action s with ⟨_, t⟩ | ⟨e, t⟩
      · rw [bind_of_ok hact] at h
        exact .cons hact (ih.mp h)
      · rw [bind_of_error hact] at h
        cases h
    · intro h
      cases h with
      | cons first later =>
        rw [bind_of_ok first]
        exact ih.mpr later

/-- From the start of a run, the session that the settings name opens, if they name one, and
actions succeed after it. -/
def Completes (setup : Setup ε τ) (arguments : Arguments) (invocation : Invocation)
    (list : List Action) (s : State ε τ) : Prop :=
  ∃ t, opening setup (loadSettings arguments invocation).1.address
      (startState setup arguments invocation) = .ok () t ∧
    Succeed setup invocation.files t list s

section Run

variable {setup : Setup ε τ} {invocation : Invocation} {arguments : Arguments}

theorem carryOut_eq_ok_iff {list : List Action} {s : State ε τ} :
    carryOut setup arguments invocation list = .ok () s ↔
      Completes setup arguments invocation list s := by
  constructor
  · intro h
    obtain ⟨t, hopen, hrun⟩ := carryOut_eq_ok h
    exact ⟨t, hopen, forM_eq_ok_iff.mp hrun⟩
  · rintro ⟨t, hopen, hrun⟩
    unfold carryOut EStateM.run
    rw [actions_eq, bind_of_ok hopen]
    exact forM_eq_ok_iff.mpr hrun

theorem carryOut_of_failure {earlier : List Action} {action : Action} {s s' : State ε τ}
    {failure : Failure} (hearlier : Completes setup arguments invocation earlier s)
    (hfails : act setup invocation.files action s = .error failure s') (later : List Action) :
    carryOut setup arguments invocation (earlier ++ action :: later) = .error failure s' := by
  rw [carryOut_append (carryOut_eq_ok_iff.mpr hearlier), forM_act_cons]
  exact bind_of_error hfails

/-! ## The exit code -/

omit [Engine ε] in
theorem code_conclude_ok (help : Bool) (s : State ε τ) :
    (conclude help (.ok () s)).code = if s.interpreter.instrument.isOpen then 0 else 2 := by
  unfold conclude success runFailure
  simp

omit [Engine ε] in
theorem code_conclude_error (help : Bool) (failure : Failure) (s : State ε τ) :
    (conclude help (.error failure s)).code = 2 := rfl

/-- Arguments that are refused are the only ones with a code of their own. -/
theorem code_eq_usageFailure_iff :
    (run setup invocation).code = 1 ↔ ∃ e, Arguments.read invocation.arguments = .error e := by
  constructor
  · intro hcode
    rcases hread : Arguments.read invocation.arguments with e | arguments
    · exact ⟨e, rfl⟩
    · by_cases hhelp : arguments.help = true ∧ arguments.actions = []
      · unfold run at hcode
        rw [hread] at hcode
        simp [hhelp, success] at hcode
      · rw [run_of_read setup hread hhelp] at hcode
        rcases hrun : carryOut setup arguments invocation arguments.actions with ⟨_, s⟩ | ⟨e, s⟩
        · rw [hrun, code_conclude_ok] at hcode
          split at hcode <;> cases hcode
        · rw [hrun] at hcode
          cases hcode
  · rintro ⟨e, hread⟩
    unfold run
    rw [hread]
    rfl

/-- All went well if only help was asked for, or if the first session opened, all actions
succeeded and there is a session at the end. -/
theorem code_eq_success_iff (setup : Setup ε τ)
    (hread : Arguments.read invocation.arguments = .ok arguments) :
    ((run setup invocation).code = 0 ↔
      (arguments.help = true ∧ arguments.actions = []) ∨
        ∃ s, Completes setup arguments invocation arguments.actions s ∧
          s.interpreter.instrument.isOpen = true) ∧
      ((run setup invocation).code = 0 ∨ (run setup invocation).code = 2) := by
  by_cases hhelp : arguments.help = true ∧ arguments.actions = []
  · have hcode : (run setup invocation).code = 0 := by
      unfold run
      rw [hread]
      simp [hhelp, success]
    exact ⟨iff_of_true hcode (.inl hhelp), .inl hcode⟩
  rw [run_of_read setup hread hhelp, or_iff_right hhelp]
  simp only [← carryOut_eq_ok_iff]
  rcases carryOut setup arguments invocation arguments.actions with ⟨_, s⟩ | ⟨e, s⟩
  · rw [code_conclude_ok]
    cases hopen : s.interpreter.instrument.isOpen
    · refine ⟨iff_of_false (by simp) ?_, .inr rfl⟩
      rintro ⟨s', hsame, hopen'⟩
      cases hsame
      rw [hopen] at hopen'
      cases hopen'
    · exact ⟨iff_of_true rfl ⟨s, rfl, hopen⟩, .inl rfl⟩
  · refine ⟨iff_of_false (by simp [code_conclude_error]) ?_, .inr rfl⟩
    rintro ⟨s', hsame, -⟩
    cases hsame

/-! ## Actions taken out -/

omit [Link τ] in
theorem startState_withArguments (hsetup : setup.IgnoresArguments) (list : List String)
    (actions : List Action) (help : Bool) :
    startState setup { arguments with actions, help } (invocation.withArguments list) =
      startState setup arguments invocation := by
  have hload : loadSettings { arguments with actions, help } (invocation.withArguments list) =
      loadSettings arguments invocation := rfl
  unfold startState
  rw [hload]
  rcases loadSettings arguments invocation with ⟨settings, warnings⟩
  dsimp only
  rw [hsetup]
  rfl

/-- The actions behind the first one that fails can be taken out, and help can be asked for
or not. -/
theorem run_withArguments (hsetup : setup.IgnoresArguments)
    (hread : Arguments.read invocation.arguments = .ok arguments) {earlier later : List Action}
    {action : Action} (hactions : arguments.actions = earlier ++ action :: later)
    {s s' : State ε τ} {failure : Failure}
    (hearlier : Completes setup arguments invocation earlier s)
    (hfails : act setup invocation.files action s = .error failure s') {list : List String}
    {help : Bool}
    (hlist : Arguments.read list = .ok { arguments with actions := earlier ++ [action], help }) :
    run setup (invocation.withArguments list) = run setup invocation := by
  have hnonempty : arguments.actions ≠ [] := by simp [hactions]
  have hearlier' : Completes setup { arguments with actions := earlier ++ [action], help }
      (invocation.withArguments list) earlier s := by
    unfold Completes
    rw [startState_withArguments hsetup]
    exact hearlier
  have hcut := carryOut_of_failure hearlier' hfails []
  have hrun := carryOut_of_failure hearlier hfails later
  rw [run_eq setup hread hnonempty, run_eq setup hlist (by simp), hcut, hactions, hrun]
  rfl

end Run

/-- The outcome of the program. The exit code is 1 exactly if the arguments are refused.
Otherwise it is 0 if only help was asked for, or if the session of the settings opened, if
they name one, every action succeeded and there is a session at the end; else it is 2.

If an action fails after others that succeeded, the exit code is 2 and nothing is printed
but what was printed up to there and the failure, so no usage text even if help was asked
for. The run is then the same, with all that it prints, as for any argument list with the
same flags and the actions up to that one, such as the list that is left if the options of
the later actions are taken out. -/
theorem outcome_decided {setup : Setup ε τ} (hsetup : setup.IgnoresArguments)
    (invocation : Invocation) :
    ((run setup invocation).code = 1 ↔
      ∃ e, Arguments.read invocation.arguments = .error e) ∧
    ∀ arguments, Arguments.read invocation.arguments = .ok arguments →
      ((run setup invocation).code = 0 ∨ (run setup invocation).code = 2) ∧
      ((run setup invocation).code = 0 ↔
        (arguments.help = true ∧ arguments.actions = []) ∨
          ∃ s, Completes setup arguments invocation arguments.actions s ∧
            s.interpreter.instrument.isOpen = true) ∧
      ∀ earlier action later, arguments.actions = earlier ++ action :: later →
        ∀ s s' failure, Completes setup arguments invocation earlier s →
          act setup invocation.files action s = .error failure s' →
          (run setup invocation).code = 2 ∧
          (run setup invocation).stdout = s'.interpreter.output ++ failure.output ∧
          Arguments.read (Arguments.keep (earlier.length + 1) invocation.arguments) =
            .ok { arguments with actions := earlier ++ [action] } ∧
          ∀ list help, Arguments.read list =
              .ok { arguments with actions := earlier ++ [action], help } →
            run setup (invocation.withArguments list) = run setup invocation := by
  refine ⟨code_eq_usageFailure_iff, fun arguments hread => ?_⟩
  obtain ⟨hsuccess, hcode⟩ := code_eq_success_iff setup hread
  refine ⟨hcode, hsuccess, ?_⟩
  intro earlier action later hactions s s' failure hearlier hfails
  have hnonempty : arguments.actions ≠ [] := by simp [hactions]
  have hrun : run setup invocation = conclude arguments.help (.error failure s') := by
    rw [run_eq setup hread hnonempty, hactions, carryOut_of_failure hearlier hfails]
  have hkept : arguments.actions.take (earlier.length + 1) = earlier ++ [action] := by
    rw [hactions, List.take_length_add_append]
    rfl
  refine ⟨?_, ?_, ?_, fun list help hlist => ?_⟩
  · rw [hrun, code_conclude_error]
  · rw [hrun]
    rfl
  · have hlist := Arguments.read_keep hread (earlier.length + 1) (by simp [hkept])
    rwa [hkept] at hlist
  · exact run_withArguments hsetup hread hactions hearlier hfails hlist

/-- A run of a script that is missing, with code and a request for help after it. -/
def missingScript : Invocation where
  arguments := ["-i", "fake", "-f", "none.arb", "-n", "-e", "x = 1", "-h"]
  stdin := []
  files := ⟨[], []⟩
  environment := ⟨none, none, "", none, ""⟩

def missingArguments : Arguments :=
  ⟨[.openSession "fake", .runFile "none.arb", .evaluate "x = 1" 6], true, false, true⟩

/-- The code and the help might as well not be there. -/
theorem outcome_decided_missingScript :
    (run Setup.offline missingScript).code = 2 ∧
      (run Setup.offline missingScript).stdout =
        "Error: none.arb: No such file or directory (os error 2)\n" ∧
      run Setup.offline (missingScript.withArguments
        ["-i", "fake", "-f", "none.arb", "-n", "-h"]) = run Setup.offline missingScript ∧
      run Setup.offline (missingScript.withArguments
        ["-n", "-i", "fake", "-f", "none.arb"]) = run Setup.offline missingScript := by
  have hread : Arguments.read missingScript.arguments = .ok missingArguments := rfl
  have hearlier : ∃ s, Completes Setup.offline missingArguments missingScript
      [.openSession "fake"] s ∧ act Setup.offline missingScript.files (.runFile "none.arb") s =
        .error (.script (.unopened "none.arb" .notFound)) s ∧ s.interpreter.output = "" :=
    ⟨_, ⟨_, rfl, .cons rfl (.nil _)⟩, rfl, by decide +kernel⟩
  obtain ⟨s, hcompletes, hfails, houtput⟩ := hearlier
  obtain ⟨hcode, hstdout, hkeep, hsame⟩ :=
    ((outcome_decided ignoresArguments_offline missingScript).2 missingArguments hread).2.2
      [.openSession "fake"] (.runFile "none.arb") [.evaluate "x = 1" 6] rfl s s _ hcompletes hfails
  refine ⟨hcode, ?_, hsame _ true ?_, hsame _ false rfl⟩
  · rw [hstdout, houtput]
    decide +kernel
  · have hlist : Arguments.keep 2 missingScript.arguments =
        ["-i", "fake", "-f", "none.arb", "-n", "-h"] := rfl
    rw [← hlist]
    exact hkeep

end Program

end ScpiScript
