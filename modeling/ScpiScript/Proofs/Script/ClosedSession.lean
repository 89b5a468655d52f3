import ScpiScript.Proofs.Script.Abandonment
import ScpiScript.Proofs.Script.LinkFailure
import ScpiScript.Proofs.Script.Nesting
import ScpiScript.Proofs.Source.FileTree
/-!
# Scripts without a session

Without a session nothing is sent. A line that sends a command, a vector or a query is
passed over before a name in it is read, so a comment in its place would do the same. Only
a line with a counted parameter is expanded first: it may print that a name in it cannot be
read.

- `Item.NeedsSession` are the items that are passed over, `perform_of_closed` says so.
- `instrument_perform_of_closed`: nothing that an item does touches the instrument.
- `sending_unseen_closed` compares the run of a script with that of the script some of whose
  sending lines, in any of its files, were turned into comments.
-/

namespace ScpiScript

/-- An item that does nothing without a session. -/
def Item.NeedsSession (item : Item) : Prop :=
  match item.directive with
  | some (.immediate _) => True
  | some (.buffered _) => True
  | some (.sampleBlock _) => True
  | some (.query _) => True
  | _ => False

instance (item : Item) : Decidable item.NeedsSession := by
  unfold Item.NeedsSession
  split <;> infer_instance

theorem Item.NeedsSession.included?_eq_none {item : Item} (h : item.NeedsSession) :
    item.included? = none := by
  unfold NeedsSession at h
  unfold included?
  split at h <;> simp_all

namespace Instrument

variable {τ : Type} {i : Instrument τ}

theorem isOpen_of_closed (h : i.session = .closed) : i.isOpen = false := by
  rw [isOpen, h]

variable [Link τ]

theorem answer_sendParameter_of_closed (h : i.session = .closed) (text : String) :
    i.answer (.sendParameter text) = (.ok false, i) := by
  have hsend : sendParameter text i = .ok false i := by
    unfold sendParameter
    rw [bind_get, isOpen_of_closed h]
    rfl
  show Instrument.outcome (sendParameter text) i = _
  unfold outcome
  rw [hsend]
  rfl

theorem after_of_closed (h : i.session = .closed) {requests : List Request}
    (hrequests : ∀ request ∈ requests, ∃ text, request = .sendParameter text) :
    i.after requests = i := by
  induction requests with
  | nil => rfl
  | cons request rest ih =>
    obtain ⟨text, rfl⟩ := hrequests request List.mem_cons_self
    rw [after_cons, answer_sendParameter_of_closed h]
    exact ih fun request hrequest => hrequests request (.tail _ hrequest)

end Instrument

namespace Interpreter

variable {ε τ : Type} [Engine ε] [Link τ]

/-! ## One item -/

section Item

variable {r : Interpreter ε τ} {item : Item}

/-- Without a session no item asks for more than a parameter to be sent, unless code does. -/
theorem requests_of_closed (hdetached : Detached ε) (hclosed : r.instrument.session = .closed)
    (tag : String) (item : Item) :
    ∀ request ∈ r.requests tag item, ∃ text, request = .sendParameter text := by
  have hnone : ∀ requests : List Request, ∀ request ∈
      (if r.instrument.isOpen then requests else []), ∃ text, request = .sendParameter text := by
    intro requests request hrequest
    rw [Instrument.isOpen_of_closed hclosed] at hrequest
    cases hrequest
  unfold requests
  rcases item.directive with _ | d
  · exact fun request hrequest => by cases hrequest
  cases d with
  | immediate tail => exact hnone _
  | buffered tail => exact hnone _
  | sampleBlock tail => exact hnone _
  | query tail => exact hnone _
  | parameterBlock tail =>
    intro request hrequest
    dsimp only at hrequest
    rw [requestWith] at hrequest
    split at hrequest
    · exact ⟨_, List.mem_singleton.mp hrequest⟩
    · cases hrequest
  | evaluate code =>
    obtain ⟨result, hdone⟩ := hdetached r.engine code (chunkName tag item.line)
    intro request hrequest
    dsimp only at hrequest
    rw [hdone] at hrequest
    split at hrequest <;> cases hrequest
  | _ => exact fun request hrequest => by cases hrequest

/-- Without a session no item touches the instrument, the file it may include aside. -/
theorem instrument_perform_of_closed (hdetached : Detached ε)
    (hclosed : r.instrument.session = .closed) (hincluded : item.included? = none)
    (runFile : String → RunM ε τ Unit) (tag : String) :
    (finalState (perform runFile tag item r)).instrument = r.instrument := by
  rw [finalState_perform, instrument_action runFile tag hincluded]
  exact Instrument.after_of_closed hclosed (requests_of_closed hdetached hclosed tag item)

theorem reports_of_closed (hclosed : r.instrument.session = .closed)
    (h : item.NeedsSession) (tag : String) : r.reports tag item = [] := by
  have hopen := Instrument.isOpen_of_closed hclosed
  unfold Item.NeedsSession at h
  unfold reports
  rcases hd : item.directive with _ | d
  · rfl
  rw [hd] at h
  cases d with
  | immediate _ | buffered _ | sampleBlock _ | query _ =>
    dsimp only
    rw [hopen]
    rfl
  | _ => cases h

theorem perform_of_closed (hclosed : r.instrument.session = .closed) (h : item.NeedsSession)
    (runFile : String → RunM ε τ Unit) (tag : String) :
    perform runFile tag item r = .ok true r := by
  have hopen := Instrument.isOpen_of_closed hclosed
  have hpassed : ∀ act : RunM ε τ Unit, whenOpen act r = .ok () r := by
    intro act
    rw [whenOpen_eq, hopen]
    rfl
  unfold Item.NeedsSession at h
  unfold perform
  rcases hd : item.directive with _ | d
  · rfl
  rw [hd] at h
  cases d with
  | immediate _ | buffered _ | sampleBlock _ | query _ =>
    dsimp only
    rw [bind_of_ok (hpassed _)]
    rfl
  | _ => cases h

/-- Without a session a parameter line prints why its text cannot be expanded, if it cannot,
and does nothing else. -/
theorem perform_parameterBlock_of_closed (hclosed : r.instrument.session = .closed)
    {tail : String} (hd : item.directive = some (.parameterBlock tail))
    (runFile : String → RunM ε τ Unit) (tag : String) :
    r.reports tag item = ((r.expansionError? tail).map .scopeFailure).toList ∧
      perform runFile tag item r = .ok true (r.acted [] (r.reports tag item)) := by
  have hreports : r.reports tag item = ((r.expansionError? tail).map .scopeFailure).toList := by
    rw [reports, hd]
    dsimp only
    rw [reportsWith, expansionError?]
    cases Reference.substitute (Scope.textOf r.engine) tail with
    | error e => rfl
    | ok text =>
      dsimp only
      rw [answered, Instrument.answer_sendParameter_of_closed hclosed]
      rfl
  refine ⟨hreports, ?_⟩
  unfold perform
  rw [hd, hreports]
  dsimp only
  have hexpanding : expanding tail (fun text => reporting (Instrument.sendParameter text)) r =
      .ok () (r.acted [] ((r.expansionError? tail).map .scopeFailure).toList) := by
    rw [expanding_eq, expansionError?]
    cases Reference.substitute (Scope.textOf r.engine) tail with
    | error e => rfl
    | ok text =>
      dsimp only
      have hanswer := Instrument.answer_sendParameter_of_closed hclosed text
      change Instrument.outcome (Instrument.sendParameter text) r.instrument = _ at hanswer
      rw [reporting_eq, hanswer]
      exact congrArg (EStateM.Result.ok ()) (acted_nil r).symm
  rw [bind_of_ok hexpanding]
  rfl

end Item

/-! ## A run -/

/-- The comparison of a script with one whose sending lines are comments, from a state
without a session. -/
theorem simulation_closed (hdetached : Detached ε) {i : Instrument τ}
    (hclosed : i.session = .closed) {marked : String → Item → Prop}
    (hmarked : ∀ tag item, marked tag item → item.NeedsSession) :
    Simulation (fun r s : Interpreter ε τ => r = s ∧ r.instrument = i) Eq Eq
      (fun tag a tag' b => tag = tag' ∧ Item.Commented (marked tag) a b) fun _ => True := by
  refine .ofComments (fun tag item h => (hmarked tag item h).included?_eq_none) ?_ ?_
  · rintro r _ tag item runFile runFile' ⟨rfl, rfl⟩ hincluded - -
    have hsame : perform runFile tag item = perform runFile' tag item :=
      perform_congr tag fun path hpath => by
        rw [hincluded] at hpath
        cases hpath
    rw [← hsame]
    exact corresponds_self (P := fun s => s.instrument = r.instrument)
      (instrument_perform_of_closed hdetached hclosed hincluded runFile tag)
  · rintro r _ tag item runFile ⟨rfl, rfl⟩ h -
    rw [perform_of_closed hclosed (hmarked tag item h)]
    exact .ok rfl ⟨rfl, rfl⟩

/-- Trees whose files are pairwise turned into one another by comments. -/
theorem filesCommented_of_alike {marked : String → Item → Prop} {files files' : FileTree}
    (h : files.Alike (fun content content' => ∀ tag,
      (Source.ofBytes tag content).Commented (marked tag) (Source.ofBytes tag content')) files') :
    FilesCommented marked files files' := by
  intro path
  rcases FileTree.openPath_alike h path with hfails | ⟨node, node', hleft, hright, hnode⟩
  · exact .inl hfails
  · refine .inr ⟨_, _, hleft, hright, ?_⟩
    cases hnode with
    | file hcontent => exact hcontent path
    | directory =>
      refine .same fun item hitem => ?_
      rw [Source.reading_directory] at hitem
      cases hitem

/-- Without a session, lines that send might as well be comments. A script is run with some
of these lines, in any of the files it includes, turned into comments that take as many
physical lines. Where code leaves the instrument alone, both runs are the same: they pass
the same states one by one and end the same way in the same state, whatever names the lines
that were replaced refer to.

The instrument stays as it is from the first item to the last: no link is written to, and
neither the session nor the pending terminator changes. A line that sends changes nothing at
all, and one with a counted parameter prints at most that it cannot be expanded. -/
theorem sending_unseen_closed (hdetached : Detached ε) {marked : String → Item → Prop}
    (hmarked : ∀ tag item, marked tag item → item.NeedsSession) {files files' : FileTree}
    (hfiles : FilesCommented marked files files') (limit : Nat) {source source' : Source}
    (hsource : source.Commented (marked source.tag) source') {r : Interpreter ε τ}
    (hclosed : r.instrument.session = .closed) :
    discard (runSource files' limit source') r = discard (runSource files limit source) r ∧
      List.Forall₂ (fun m m' => m'.tag = m.tag ∧ Item.Commented (marked m.tag) m.item m'.item ∧
          m'.before = m.before ∧ m'.after = m.after)
        (trace files limit source r) (trace files' limit source' r) ∧
      (finalState (runSource files limit source r)).instrument = r.instrument ∧
      ∀ m ∈ trace files limit source r,
        (m.before.instrument = r.instrument ∧ m.after.instrument = r.instrument) ∧
        (m.item.NeedsSession → m.printed = [] ∧ m.after = m.before) ∧
        ∀ tail, m.item.directive = some (.parameterBlock tail) →
          m.printed = ((m.before.expansionError? tail).map .scopeFailure).toList ∧
            m.after = m.before.acted [] m.printed := by
  obtain ⟨hrun, htrace⟩ := (simulation_closed hdetached hclosed hmarked).runSource
    hfiles.opensAlike limit hsource.tag_eq
    (hsource.matches_reading.imp fun _ _ hitem => ⟨hsource.tag_eq, hitem⟩)
    (⟨rfl, rfl⟩ : r = r ∧ r.instrument = r.instrument) fun _ _ => trivial
  -- what the comparison says of the left run alone
  have hkept : ∀ m ∈ trace files limit source r,
      m.before.instrument = r.instrument ∧ m.after.instrument = r.instrument :=
    ((List.forall₂_and_left _ _).mp
      (htrace.imp fun _ _ h => ⟨⟨h.before.2, h.after.2⟩, h⟩)).1
  refine ⟨?_, htrace.imp ?_, ?_, ?_⟩
  · generalize discard (runSource files limit source) r = outcome at hrun
    generalize discard (runSource files' limit source') r = outcome' at hrun
    cases hrun with
    | ok hresult hstate => rw [hresult, hstate.1]
    | error hcause hstate => rw [hcause, hstate.1]
  · rintro m m' ⟨⟨htag, hitem⟩, ⟨hbefore, -⟩, ⟨hafter, -⟩⟩
    exact ⟨htag.symm, hitem, hbefore.symm, hafter.symm⟩
  · have hfinal := hrun.finalState.2
    rwa [finalState_discard] at hfinal
  · intro m hm
    have hsession : m.before.instrument.session = .closed := by rw [(hkept m hm).1, hclosed]
    obtain ⟨runFile, hperformed⟩ := forall_mem_trace
      (p := fun m => ∃ runFile : String → RunM ε τ Unit,
        m.after = finalState (perform runFile m.tag m.item m.before))
      (fun runFile _ _ _ => ⟨runFile, rfl⟩) files limit source r m hm
    refine ⟨hkept m hm, fun hneeds => ⟨?_, ?_⟩, fun tail hd => ?_⟩
    · exact reports_of_closed hsession hneeds m.tag
    · rw [hperformed, perform_of_closed hsession hneeds]
      rfl
    · obtain ⟨hprinted, hafter⟩ := perform_parameterBlock_of_closed hsession hd runFile m.tag
      refine ⟨hprinted, ?_⟩
      rw [hperformed, hafter]
      rfl

/-- A script that sends, with names that are nowhere defined, and runs code. It includes a
file that sends as well. -/
def measure : Bytes :=
  Utf8.encode "!VOLT {x}\n&CURR \\\n{y}\n=v = 1\n<bench\n*DATA {z}\n>{v}\n"

/-- The script with comments in place of what it sends. -/
def bareMeasure : Bytes :=
  Utf8.encode "% set\n% two \\\nlines\n=v = 1\n<bench\n*DATA {z}\n>{v}\n"

/-- The files of the script. -/
def measureFiles : FileTree := ⟨[], [(["bench"], .file (Utf8.encode "?*IDN?\n@DATA w\n"))]⟩

def bareFiles : FileTree := ⟨[], [(["bench"], .file (Utf8.encode "% ask\n% send\n"))]⟩

def readyUnconnected : Interpreter Assigner MemoryLink := .new .fresh (.new .little)

theorem commented_bench (tag : String) :
    (Source.ofBytes tag (Utf8.encode "?*IDN?\n@DATA w\n")).Commented Item.NeedsSession
      (Source.ofBytes tag (Utf8.encode "% ask\n% send\n")) := by
  have hlines : Source.physicalLines (Utf8.encode "?*IDN?\n@DATA w\n") =
      [Utf8.encode "?*IDN?\n", Utf8.encode "@DATA w\n"] := by decide +kernel
  have hlines' : Source.physicalLines (Utf8.encode "% ask\n% send\n") =
      [Utf8.encode "% ask\n", Utf8.encode "% send\n"] := by decide +kernel
  rw [Source.ofBytes, Source.ofBytes, hlines, hlines']
  refine .single "?*IDN?" "% ask" (.query "*IDN?") ?_ ?_ ?_ ?_ trivial ?_ ?_ ?_
    (.single "@DATA w" "% send" (.sampleBlock "DATA w") ?_ ?_ ?_ ?_ trivial ?_ ?_ ?_
      (.same fun item hitem => ?_))
  case refine_15 =>
    rw [Source.reading_of_none (Source.readItem_nil tag 2)] at hitem
    cases hitem
  all_goals decide +kernel

theorem commented_measure : (Source.ofBytes "<script>" measure).Commented Item.NeedsSession
    (Source.ofBytes "<script>" bareMeasure) := by
  -- the command on two lines, and what stands behind it
  let tail : List Bytes := [Utf8.encode "=v = 1\n", Utf8.encode "<bench\n",
    Utf8.encode "*DATA {z}\n", Utf8.encode ">{v}\n"]
  have hlines : Source.physicalLines measure = Utf8.encode "!VOLT {x}\n" ::
      ([Utf8.encode "&CURR \\\n", Utf8.encode "{y}\n"] ++ tail) := by decide +kernel
  have hlines' : Source.physicalLines bareMeasure = Utf8.encode "% set\n" ::
      ([Utf8.encode "% two \\\n", Utf8.encode "lines\n"] ++ tail) := by decide +kernel
  have hcommand : Source.LineOf (some (.buffered "CURR {y}"))
      [Utf8.encode "&CURR \\\n", Utf8.encode "{y}\n"] tail := by
    have hdirective : Directive.ofLine? "&CURR {y}" = some (.buffered "CURR {y}") := by
      decide +kernel
    rw [← hdirective]
    have htext : Source.lineText? (Utf8.encode "&CURR \\\n") = some "&CURR \\" := by
      decide +kernel
    exact Source.lineOf_of_joinLines htext (by decide +kernel) (by decide +kernel)
  have hcomment : Source.LineOf (some .comment)
      [Utf8.encode "% two \\\n", Utf8.encode "lines\n"] tail := by
    have hdirective : Directive.ofLine? "% two lines" = some .comment := by decide +kernel
    rw [← hdirective]
    have htext : Source.lineText? (Utf8.encode "% two \\\n") = some "% two \\" := by
      decide +kernel
    exact Source.lineOf_of_joinLines htext (by decide +kernel) (by decide +kernel)
  rw [Source.ofBytes, Source.ofBytes, hlines, hlines']
  have hbehind : Source.Commented Item.NeedsSession
      ⟨"<script>", .ok ([Utf8.encode "&CURR \\\n", Utf8.encode "{y}\n"] ++ tail), 1⟩
      ⟨"<script>", .ok ([Utf8.encode "% two \\\n", Utf8.encode "lines\n"] ++ tail), 1⟩ :=
    .comment (Eq.refl 2) hcommand trivial hcomment (.same (by decide +kernel))
  refine .single "!VOLT {x}" "% set" (.immediate "VOLT {x}") ?_ ?_ ?_ ?_ trivial ?_ ?_ ?_ hbehind
  all_goals decide +kernel

/-- All that is printed is that a parameter cannot be expanded, and what is echoed. -/
theorem sending_unseen_closed_measure :
    discard (runSource bareFiles openLimit (Source.ofBytes "<script>" bareMeasure))
        readyUnconnected =
      discard (runSource measureFiles openLimit (Source.ofBytes "<script>" measure))
        readyUnconnected ∧
      (trace measureFiles openLimit (Source.ofBytes "<script>" measure) readyUnconnected).map
          (fun m => (m.tag, m.item.line, m.printed)) =
        [("<script>", 1, []), ("<script>", 3, []), ("<script>", 4, []), ("bench", 1, []),
          ("bench", 2, []), ("<script>", 5, []), ("<script>", 6, [.scopeFailure (.undefined "z")]),
          ("<script>", 7, [.echo "1"])] := by
  have hfiles : FilesCommented (fun _ => Item.NeedsSession) measureFiles bareFiles :=
    filesCommented_of_alike ⟨rfl, .cons ⟨rfl, .file commented_bench⟩ .nil⟩
  obtain ⟨hrun, -⟩ := sending_unseen_closed detached_assigner (fun _ _ h => h) hfiles openLimit
    commented_measure (rfl : readyUnconnected.instrument.session = .closed)
  exact ⟨hrun, by decide +kernel⟩

end Interpreter

end ScpiScript
