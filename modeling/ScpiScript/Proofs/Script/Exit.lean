import ScpiScript.Proofs.Script.Fatal
/-!
# Exits are reported once

Code that asks for an exit fails the run it belongs to, and the message that it does so is
the last one of the run. So a run that has not failed has reported no exit, and one that
fails by an exit has reported that one and no other.

- `Interpreter.GoesOn` says that no exit has been reported so far.
- `ReportsOnce` is what holds of how a run ended, and each kind of run keeps it.
-/

namespace ScpiScript

/-- The exit that a message reports. -/
def Report.exit? : Report → Option String
  | exit message => some message
  | _ => none

/-- The exit that an error comes from, below whatever include lines. -/
def RunError.exit? (e : RunError) : Option String :=
  match e.root with
  | exit message => some message
  | _ => none

@[simp] theorem RunError.exit?_nested (tag : String) (line : Nat) (cause : RunError) :
    (nested tag line cause).exit? = cause.exit? := rfl

theorem RunError.exit?_under (chain : List (String × Nat)) (message : String) :
    ((exit message).under chain).exit? = some message := by
  unfold exit?
  rw [root_under (by trivial)]

/-- Messages that end with a report of an exit and hold no other. -/
def EndsWithExit (reports : List Report) (message : String) : Prop :=
  ∃ before, reports = before ++ [.exit message] ∧ ∀ report ∈ before, report.exit? = none

namespace Interpreter

variable {ε τ : Type}

/-- No exit has been reported. -/
def GoesOn (r : Interpreter ε τ) : Prop := ∀ report ∈ r.transcript, report.exit? = none

/-- A run that succeeded has reported no exit. One that failed has reported the exit that
it failed by, at the end and only there, if it failed by one. -/
def ReportsOnce {α : Type} : EStateM.Result RunError (Interpreter ε τ) α → Prop
  | .ok _ r => r.GoesOn
  | .error e r =>
    match e.exit? with
    | some message => EndsWithExit r.transcript message
    | none => r.GoesOn

theorem ReportsOnce.endsWithExit {α : Type} {chain : List (String × Nat)} {message : String}
    {r : Interpreter ε τ}
    (h : ReportsOnce (.error ((RunError.exit message).under chain) r :
      EStateM.Result RunError (Interpreter ε τ) α)) : EndsWithExit r.transcript message := by
  unfold ReportsOnce at h
  dsimp only at h
  rwa [RunError.exit?_under] at h

theorem GoesOn.append {r s : Interpreter ε τ} (h : r.GoesOn) {reports : List Report}
    (htranscript : s.transcript = r.transcript ++ reports)
    (hreports : ∀ report ∈ reports, report.exit? = none) : s.GoesOn := by
  intro report hreport
  rw [htranscript, List.mem_append] at hreport
  exact hreport.elim (h report) (hreports report)

variable [Engine ε] [Link τ]

section Runs

variable {r : Interpreter ε τ}

omit [Engine ε] [Link τ] in
/-- How code ends is reported, and an exit is the last thing reported. -/
theorem reportsOnce_conclude (h : r.GoesOn) (result : Except EvalError Unit)
    {report : Nat → Option Nat → String → Report}
    (hreport : ∀ line column snippet, (report line column snippet).exit? = none) :
    ReportsOnce (conclude result (fun line column snippet => say (report line column snippet))
      r) := by
  rcases result with e | _
  · cases e with
    | badCode line column snippet => exact h.append rfl (by simpa using hreport line column snippet)
    | exit message => exact ⟨r.transcript, rfl, h⟩
    | failure message => exact h.append rfl (by simp [Report.exit?])
  · exact h

theorem GoesOn.ran (h : r.GoesOn) (block : CodeBlock) : (r.ran block).2.GoesOn := h

theorem reportsOnce_evaluate (h : r.GoesOn) (tag : String) (line : Nat) (code : String) :
    ReportsOnce (evaluate tag line code r) := by
  unfold evaluate
  split
  · rw [bind_of_ok (runCode_eq r _), bind_get]
    exact reportsOnce_conclude (h.ran _) _ fun _ _ _ => rfl
  · exact h

theorem reportsOnce_evaluateArgument (h : r.GoesOn) (code : String) (index : Nat) :
    ReportsOnce (evaluateArgument code index r) := by
  unfold evaluateArgument
  rw [bind_of_ok (runCode_eq r _)]
  exact reportsOnce_conclude (h.ran _) _ fun _ _ _ => rfl

/-- Items other than code report no exit. -/
theorem exit?_reports (tag : String) {item : Item}
    (hcode : ∀ code, item.directive ≠ some (.evaluate code)) :
    ∀ report ∈ r.reports tag item, report.exit? = none := by
  have hone : ∀ {one : Report}, one.exit? = none → ∀ report ∈ [one], report.exit? = none :=
    fun h => List.forall_mem_singleton.mpr h
  have hanswered : ∀ request, ∀ report ∈ r.answered request, report.exit? = none := by
    intro request report hreport
    unfold answered Request.reports at hreport
    split at hreport
    · exact hone rfl report hreport
    · obtain ⟨e, -, rfl⟩ := List.mem_map.mp hreport
      rfl
  have hwith : ∀ text (expanded : String → List Report),
      (∀ t, ∀ report ∈ expanded t, report.exit? = none) →
      ∀ report ∈ r.reportsWith text expanded, report.exit? = none := by
    intro text expanded hexpanded report hreport
    unfold reportsWith at hreport
    split at hreport
    · exact hexpanded _ report hreport
    · exact hone rfl report hreport
  have hvector : ∀ tail, ∀ report ∈ r.vectorReports tail, report.exit? = none := by
    intro tail report hreport
    unfold vectorReports at hreport
    split at hreport
    · exact hone rfl report hreport
    · exact hone rfl report hreport
    · exact hanswered _ report hreport
  intro report hreport
  unfold reports at hreport
  rcases hd : item.directive with _ | d
  all_goals
    rw [hd] at hreport
    dsimp only at hreport
  · cases hreport
  cases d with
  | immediate tail =>
    have hreport := (List.mem_ite_nil_right.mp hreport).2
    exact hwith tail _ (fun t => hanswered _) report hreport
  | buffered tail =>
    have hreport := (List.mem_ite_nil_right.mp hreport).2
    exact hwith tail _ (fun t => hanswered _) report hreport
  | parameterBlock tail => exact hwith tail _ (fun t => hanswered _) report hreport
  | sampleBlock tail => exact hvector tail report (List.mem_ite_nil_right.mp hreport).2
  | query tail => exact hanswered _ report (List.mem_ite_nil_right.mp hreport).2
  | echo tail => exact hwith tail _ (fun t => hone rfl) report hreport
  | evaluate code => exact absurd hd (hcode code)
  | _ => cases hreport

theorem reportsOnce_perform {runFile : String → RunM ε τ Unit}
    (hfiles : ∀ path (s : Interpreter ε τ), s.GoesOn → ReportsOnce (runFile path s))
    (h : r.GoesOn) (tag : String) (item : Item) :
    ReportsOnce (perform runFile tag item r) := by
  rcases hpath : item.included? with _ | path
  · by_cases hcode : ∃ code, item.directive = some (.evaluate code)
    · obtain ⟨code, hd⟩ := hcode
      have hend : item.directive ≠ some .terminate := by
        rw [hd]
        exact fun h => by cases h
      have hevaluate := reportsOnce_evaluate h tag item.line code
      have haction : action runFile tag item = evaluate tag item.line code := by
        rw [action, hd]
      rw [perform_eq runFile tag hend, haction]
      rcases hrun : evaluate tag item.line code r with ⟨_, s⟩ | ⟨e, s⟩
      · rw [hrun] at hevaluate
        rw [bind_of_ok hrun]
        exact hevaluate
      · rw [hrun] at hevaluate
        rw [bind_of_error hrun]
        exact hevaluate
    · -- all other items succeed
      have htranscript := transcript_perform r runFile tag hpath
      rcases hrun : perform runFile tag item r with ⟨goesOn, s⟩ | ⟨e, s⟩
      · rw [hrun] at htranscript
        exact h.append htranscript (exit?_reports tag fun code hd => hcode ⟨code, hd⟩)
      · rcases perform_error r hrun with ⟨path, _, hincluded, -⟩ | ⟨code, _, _, hd, -⟩
        · rw [hpath] at hincluded
          cases hincluded
        · exact absurd ⟨code, hd⟩ hcode
  · have hfile := hfiles path r h
    rcases hrun : runFile path r with ⟨_, s⟩ | ⟨e, s⟩
    · rw [hrun] at hfile
      rw [perform_ok_of_included tag hpath hrun]
      exact hfile
    · rw [hrun] at hfile
      rw [perform_error_of_included tag hpath hrun]
      exact hfile

theorem reportsOnce_runReading {runFile : String → RunM ε τ Unit}
    (hfiles : ∀ path (s : Interpreter ε τ), s.GoesOn → ReportsOnce (runFile path s))
    (tag : String) (reading : Reading) (h : r.GoesOn) :
    ReportsOnce (runReading runFile tag reading r) := by
  -- an item that the run goes on behind has reported no exit
  induction reading generalizing r with
  | finished => exact h
  | failed cause => exact h
  | item first rest ih =>
    have hperform := reportsOnce_perform hfiles h tag first
    rcases hrun : perform runFile tag first r with ⟨goesOn, s⟩ | ⟨e, s⟩
    · rw [hrun] at hperform
      rw [runReading_item hrun]
      cases goesOn with
      | true => exact ih hperform
      | false => exact hperform
    · rw [hrun] at hperform
      rw [runReading_item_error hrun]
      exact hperform

omit [Engine ε] [Link τ] in
theorem reportsOnce_discard {α : Type} {act : RunM ε τ α} :
    ReportsOnce (discard act r) ↔ ReportsOnce (act r) := by
  rcases hrun : act r with ⟨a, s⟩ | ⟨e, s⟩
  · rw [discard_of_ok hrun]
    rfl
  · rw [discard_of_error hrun]
    rfl

/-- A file reports an exit once, however deep below it the code is that asks for it. -/
theorem reportsOnce_runPath (files : FileTree) (limit : Nat) (path : String) (h : r.GoesOn) :
    ReportsOnce (runPath files limit path r) := by
  induction limit generalizing path r with
  | zero => exact h
  | succ limit ih =>
    rcases hopen : Source.openPath files path with e | source
    · rw [runPath_of_error limit hopen]
      exact h
    · rw [runPath_of_ok limit hopen, reportsOnce_discard]
      exact reportsOnce_runReading (fun path s hs => ih path hs) source.tag source.reading h

theorem reportsOnce_runSource (files : FileTree) (limit : Nat) (source : Source)
    (h : r.GoesOn) : ReportsOnce (runSource files limit source r) := by
  unfold runSource
  rw [← reportsOnce_discard, runItems_eq_runReading, reportsOnce_discard]
  exact reportsOnce_runReading (fun path s hs => reportsOnce_runPath files limit path hs)
    source.tag source.reading h

end Runs

end Interpreter

end ScpiScript
