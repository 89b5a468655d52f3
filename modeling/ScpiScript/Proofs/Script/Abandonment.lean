import ScpiScript.Proofs.Reference.Substitution
import ScpiScript.Proofs.Script.Indistinct
import ScpiScript.Proofs.Script.Printing
import ScpiScript.Proofs.Source.Comment
/-!
# Lines that are abandoned

A line that sends or prints something is abandoned if a name in it cannot be read as it
has to be. It then prints one message and does nothing else: a comment in its place would
do the same without the message.

- `Interpreter.abandonment?` is the message with which an item is abandoned, if it is.
- `perform_of_abandoned` says that it does nothing but print it.
- `abandoned_unseen` compares the run of a script with that of the script whose abandoned
  lines were turned into comments.
-/

namespace ScpiScript

/-- A failure to read a name: it is not defined, has no text form or is no vector. -/
def ScopeError.Reads : ScopeError → Prop
  | undefined _ => True
  | notText _ _ => True
  | notVector _ _ => True
  | unassignable _ _ => False

theorem ScopeValue.reads_of_textFor {name : String} {value : Option ScopeValue} {e : ScopeError}
    (h : textFor name value = .error e) : e.Reads := by
  unfold textFor at h
  split at h
  · cases h
    trivial
  · split at h
    · cases h
    · cases h
      trivial

theorem ScopeValue.reads_of_vectorFor {name : String} {value : Option ScopeValue}
    {e : ScopeError} (h : vectorFor name value = .error e) : e.Reads := by
  unfold vectorFor at h
  split at h
  · cases h
    trivial
  · split at h
    · cases h
    · cases h
      trivial

/-- A message of a single line that tells of an error. -/
def Report.IsError (report : Report) : Prop := ∃ message, report.lines = ["Error: " ++ message]

theorem Report.isError_scopeFailure (cause : ScopeError) : (scopeFailure cause).IsError :=
  ⟨cause.message, rfl⟩

theorem Report.isError_lookupFailure (tail : String) (cause : ScopeError) :
    (lookupFailure tail cause).IsError := by
  refine ⟨"Lookup failed in '" ++ tail ++ "': " ++ cause.message, ?_⟩
  rw [← String.append_assoc, ← String.append_assoc, ← String.append_assoc]
  rfl

/-- An item that sends or prints what it reads in the scope. -/
def Item.Consults (item : Item) : Prop :=
  match item.directive with
  | some (.immediate _) => True
  | some (.buffered _) => True
  | some (.parameterBlock _) => True
  | some (.sampleBlock _) => True
  | some (.echo _) => True
  | _ => False

theorem Item.Consults.included?_eq_none {item : Item} (h : item.Consults) :
    item.included? = none := by
  unfold Consults at h
  unfold included?
  split at h <;> simp_all

namespace Interpreter

variable {ε τ : Type} [Engine ε] [Link τ]

/-! ## One item -/

/-- Why a text cannot be expanded, if it cannot. -/
def expansionError? (r : Interpreter ε τ) (text : String) : Option ScopeError :=
  errorOf? (Reference.substitute (Scope.textOf r.engine) text)

/-- Why a vector cannot be sent, if the vector or the text before it cannot be read. -/
def vectorError? (r : Interpreter ε τ) (tail : String) : Option ScopeError :=
  match Scope.vectorOf r.engine (Reference.splitTail tail r.vectorName).2 with
  | .error e => some e
  | .ok _ => r.expansionError? (Reference.splitTail tail r.vectorName).1

/-- The message with which an item is abandoned because a name in it cannot be read, if it
is. Without a session, most items do not come to read a name. -/
def abandonment? (r : Interpreter ε τ) (item : Item) : Option Report :=
  let ifOpen (report? : Option Report) := if r.instrument.isOpen then report? else none
  match item.directive with
  | some (.immediate tail) => ifOpen ((r.expansionError? tail).map .scopeFailure)
  | some (.buffered tail) => ifOpen ((r.expansionError? tail).map .scopeFailure)
  | some (.parameterBlock tail) => (r.expansionError? tail).map .scopeFailure
  | some (.sampleBlock tail) => ifOpen ((r.vectorError? tail).map (.lookupFailure tail))
  | some (.echo tail) => (r.expansionError? tail).map .scopeFailure
  | _ => none

section Item

variable {r : Interpreter ε τ} {item : Item} {report : Report} {text tail : String}
  {e : ScopeError}

omit [Link τ] in
theorem reads_of_expansionError? (h : r.expansionError? text = some e) : e.Reads := by
  obtain ⟨-, name, -, hname, -⟩ := Reference.substitute_eq_error_iff.mp (errorOf?_eq_some.mp h)
  exact ScopeValue.reads_of_textFor hname

omit [Link τ] in
theorem reads_of_vectorError? (h : r.vectorError? tail = some e) : e.Reads := by
  unfold vectorError? at h
  split at h
  · rename_i hvector
    cases h
    exact ScopeValue.reads_of_vectorFor hvector
  · exact reads_of_expansionError? h

omit [Link τ] in
/-- An item is abandoned because a name cannot be read, and says so in one line. -/
theorem isError_of_abandonment? (h : r.abandonment? item = some report) :
    report.IsError ∧ ∃ cause : ScopeError, cause.Reads ∧
      (report = .scopeFailure cause ∨ ∃ tail, report = .lookupFailure tail cause) := by
  have htext : ∀ text, (r.expansionError? text).map .scopeFailure = some report →
      report.IsError ∧ ∃ cause : ScopeError, cause.Reads ∧
        (report = .scopeFailure cause ∨ ∃ tail, report = .lookupFailure tail cause) := by
    intro text htext
    obtain ⟨cause, hcause, rfl⟩ := Option.map_eq_some_iff.mp htext
    exact ⟨Report.isError_scopeFailure cause, cause, reads_of_expansionError? hcause, .inl rfl⟩
  unfold abandonment? at h
  rcases hd : item.directive with _ | d
  all_goals
    rw [hd] at h
    dsimp only at h
  · cases h
  cases d with
  | immediate tail => exact htext tail (Option.ite_none_right_eq_some.mp h).2
  | buffered tail => exact htext tail (Option.ite_none_right_eq_some.mp h).2
  | parameterBlock tail => exact htext tail h
  | sampleBlock tail =>
    obtain ⟨cause, hcause, rfl⟩ :=
      Option.map_eq_some_iff.mp (Option.ite_none_right_eq_some.mp h).2
    exact ⟨Report.isError_lookupFailure tail cause, cause, reads_of_vectorError? hcause,
      .inr ⟨tail, rfl⟩⟩
  | echo tail => exact htext tail h
  | _ => cases h

omit [Link τ] in
theorem quiet_of_expansionError? (h : (r.expansionError? text).map .scopeFailure = some report)
    (request : String → Request) (reports : String → List Report) :
    r.requestWith text request = [] ∧ r.reportsWith text reports = [report] := by
  obtain ⟨cause, hcause, rfl⟩ := Option.map_eq_some_iff.mp h
  rw [requestWith, reportsWith, errorOf?_eq_some.mp hcause]
  exact ⟨rfl, rfl⟩

theorem quiet_of_vectorError? (h : (r.vectorError? tail).map (.lookupFailure tail) = some report) :
    r.vectorRequest tail = [] ∧ r.vectorReports tail = [report] := by
  obtain ⟨cause, hcause, rfl⟩ := Option.map_eq_some_iff.mp h
  rw [vectorRequest, vectorReports]
  unfold vectorError? at hcause
  split at hcause
  · rename_i hvector
    rw [hvector]
    cases hcause
    exact ⟨rfl, rfl⟩
  · rename_i hvector
    rw [hvector]
    dsimp only
    rw [requestWith, errorOf?_eq_some.mp hcause]
    exact ⟨rfl, rfl⟩

/-- An abandoned item asks for nothing and prints its message. -/
theorem quiet_of_abandonment? (h : r.abandonment? item = some report) (tag : String) :
    r.requests tag item = [] ∧ r.reports tag item = [report] := by
  unfold abandonment? at h
  unfold requests reports
  rcases hd : item.directive with _ | d
  all_goals
    rw [hd] at h
    dsimp only at h ⊢
  · cases h
  cases d with
  | immediate tail =>
    obtain ⟨hopen, herror⟩ := Option.ite_none_right_eq_some.mp h
    dsimp only
    rw [if_pos hopen, if_pos hopen]
    exact quiet_of_expansionError? herror _ _
  | buffered tail =>
    obtain ⟨hopen, herror⟩ := Option.ite_none_right_eq_some.mp h
    dsimp only
    rw [if_pos hopen, if_pos hopen]
    exact quiet_of_expansionError? herror _ _
  | parameterBlock tail => exact quiet_of_expansionError? h _ _
  | sampleBlock tail =>
    obtain ⟨hopen, herror⟩ := Option.ite_none_right_eq_some.mp h
    dsimp only
    rw [if_pos hopen, if_pos hopen]
    exact quiet_of_vectorError? herror
  | echo tail => exact ⟨rfl, (quiet_of_expansionError? h .sendParameter _).2⟩
  | _ => cases h

omit [Link τ] in
theorem consults_of_abandonment? (h : r.abandonment? item = some report) : item.Consults := by
  unfold abandonment? at h
  unfold Item.Consults
  rcases hd : item.directive with _ | d
  all_goals
    rw [hd] at h
    dsimp only at h ⊢
  · cases h
  cases d with
  | immediate _ | buffered _ | parameterBlock _ | sampleBlock _ | echo _ => trivial
  | _ => cases h

/-- An abandoned item does nothing but print its message. -/
theorem perform_of_abandoned (h : r.abandonment? item = some report)
    (runFile : String → RunM ε τ Unit) (tag : String) :
    perform runFile tag item r = .ok true (r.said report) := by
  have hconsults := consults_of_abandonment? h
  have hcode : ∀ code, item.directive ≠ some (.evaluate code) := by
    intro code hd
    rw [Item.Consults, hd] at hconsults
    exact hconsults
  have hend : item.directive ≠ some .terminate := by
    intro hd
    rw [Item.Consults, hd] at hconsults
    exact hconsults
  obtain ⟨hrequests, hreports⟩ := quiet_of_abandonment? h tag
  have haction := action_eq_ok r runFile tag hconsults.included?_eq_none hcode
  rw [hrequests, hreports] at haction
  rw [perform_eq runFile tag hend, bind_of_ok haction]
  rfl

theorem perform_comment (runFile : String → RunM ε τ Unit) (tag : String)
    (h : item.directive = some .comment) (r : Interpreter ε τ) :
    perform runFile tag item r = .ok true r := by
  unfold perform
  rw [h]
  rfl

end Item

/-! ## A run -/

/-- Two states are the same but for what was printed. -/
structure SameButMessages (r s : Interpreter ε τ) : Prop where
  engine : r.engine = s.engine
  instrument : r.instrument = s.instrument
  vectorName : r.vectorName = s.vectorName
  evaluated : r.evaluated = s.evaluated

omit [Engine ε] [Link τ] in
theorem SameButMessages.refl (r : Interpreter ε τ) : SameButMessages r r := ⟨rfl, rfl, rfl, rfl⟩

/-- Nothing that is done or printed depends on what was printed before. -/
theorem indistinct_sameButMessages :
    Indistinct (SameButMessages (ε := ε) (τ := τ))
      (fun tag line tag' line' => tag = tag' ∧ line = line') (fun _ => True) where
  isOpen h := by rw [h.instrument]
  lookup h name := by rw [h.engine]
  vectorName h := h.vectorName
  said report h := ⟨h.engine, h.instrument, h.vectorName, h.evaluated⟩
  saidBadBlock place snippet hplace h := ⟨h.engine, h.instrument, h.vectorName, h.evaluated⟩
  asked request _ h := by
    unfold asked
    rw [h.instrument]
    exact ⟨rfl, h.engine, rfl, h.vectorName, h.evaluated⟩
  ran code hplace _ h := by
    obtain ⟨rfl, rfl⟩ := hplace
    unfold ran
    rw [h.instrument, h.engine, h.evaluated]
    exact ⟨rfl, rfl, rfl, h.vectorName, rfl⟩

theorem SameButMessages.reports_eq {r s : Interpreter ε τ} (h : SameButMessages r s)
    (tag : String) (item : Item) : r.reports tag item = s.reports tag item := by
  obtain ⟨engine, instrument, vectorName, evaluated, transcript⟩ := r
  obtain ⟨engine', instrument', vectorName', evaluated', transcript'⟩ := s
  obtain ⟨rfl, rfl, rfl, rfl⟩ := h
  rfl

/-- An item was abandoned. -/
def Moment.Abandoned (m : Moment ε τ) : Prop :=
  ∃ report, m.before.abandonment? m.item = some report

instance (m : Moment ε τ) : Decidable m.Abandoned :=
  decidable_of_iff _ Option.isSome_iff_exists

/-- A script is compared with one whose marked lines are comments by what single items do:
the others are acted on alike, and acting on a marked one is as good as doing nothing. -/
theorem Simulation.ofComments {R : Interpreter ε τ → Interpreter ε τ → Prop}
    {G : Moment ε τ → Prop} {marked : String → Item → Prop}
    (hmarked : ∀ tag item, marked tag item → item.included? = none)
    (hkept : ∀ {r s} (tag : String) (item : Item) (runFile runFile' : String → RunM ε τ Unit),
      R r s → item.included? = none → ¬ marked tag item →
      G ⟨tag, item, r, finalState (perform runFile tag item r)⟩ →
      Corresponds Eq Eq R (perform runFile tag item r) (perform runFile' tag item s))
    (hcomment : ∀ {r s} (tag : String) (item : Item) (runFile : String → RunM ε τ Unit),
      R r s → marked tag item → G ⟨tag, item, r, finalState (perform runFile tag item r)⟩ →
      Corresponds Eq Eq R (perform runFile tag item r) (.ok true s)) :
    Simulation R Eq Eq (fun tag a tag' b => tag = tag' ∧ Item.Commented (marked tag) a b) G where
  step runFile runFile' hstate hitems hincluded hgood := by
    obtain ⟨rfl, hitems⟩ := hitems
    cases hitems with
    | kept h => exact hkept _ _ runFile runFile' hstate hincluded h hgood
    | comment h =>
      rw [perform_comment runFile' _ rfl]
      exact hcomment _ _ runFile hstate h hgood
  included hitems := by
    obtain ⟨rfl, hitems⟩ := hitems
    cases hitems with
    | kept h => rfl
    | comment h => exact hmarked _ _ h
  nested hitems herror := by
    obtain ⟨rfl, hitems⟩ := hitems
    obtain rfl := herror
    cases hitems <;> rfl
  unreadable cause htags := by rw [htags]
  unopened path cause := rfl

/-- The comparison of a script with one whose abandoned lines are comments. -/
theorem simulation_sameButMessages {marked : String → Item → Prop}
    (hmarked : ∀ tag item, marked tag item → item.Consults) :
    Simulation (SameButMessages (ε := ε) (τ := τ)) Eq Eq
      (fun tag a tag' b => tag = tag' ∧ Item.Commented (marked tag) a b)
      (fun m => marked m.tag m.item → m.Abandoned) := by
  refine .ofComments (fun tag item h => (hmarked tag item h).included?_eq_none) ?_ ?_
  · intro r s tag item runFile runFile' hstate hincluded _ _
    exact indistinct_sameButMessages.perform (fun _ => rfl) hstate ⟨rfl, rfl⟩ rfl hincluded
      (fun _ _ => trivial) runFile runFile'
  · intro r s tag item runFile hstate h hgood
    obtain ⟨report, habandoned⟩ := hgood h
    rw [perform_of_abandoned habandoned]
    exact .ok rfl ⟨hstate.engine, hstate.instrument, hstate.vectorName, hstate.evaluated⟩

/-- How the moments of a script compare with those of the script whose marked lines are
comments. -/
inductive CommentedAlike (marked : String → Item → Prop) (m m' : Moment ε τ) : Prop
  /-- Other lines do and print the same. -/
  | kept (h : ¬ marked m.tag m.item) (hitem : m'.item = m.item)
      (hprinted : m'.printed = m.printed)
  /-- A marked line printed one message and left all else as it was. The comment prints
  nothing. -/
  | comment {report : Report} (h : marked m.tag m.item)
      (hitem : m'.item = ⟨some .comment, m.item.line⟩) (hafter : m.after = m.before.said report)
      (hprinted : m.printed = [report]) (herror : report.IsError) (hsilent : m'.printed = [])

/-- A tree of files and one whose marked lines are comments. -/
def FilesCommented (marked : String → Item → Prop) (files files' : FileTree) : Prop :=
  ∀ path, (∃ cause, Source.openPath files path = .error cause ∧
      Source.openPath files' path = .error cause) ∨
    ∃ source source', Source.openPath files path = .ok source ∧
      Source.openPath files' path = .ok source' ∧ source.Commented (marked source.tag) source'

omit [Engine ε] [Link τ] in
theorem FilesCommented.opensAlike {marked : String → Item → Prop} {files files' : FileTree}
    (h : FilesCommented marked files files') (path : String) :
    OpensAlike Eq (fun tag a tag' b => tag = tag' ∧ Item.Commented (marked tag) a b)
      (Source.openPath files path) (Source.openPath files' path) := by
  rcases h path with ⟨cause, hleft, hright⟩ | ⟨source, source', hleft, hright, hsource⟩
  · rw [hleft, hright]
    exact .error cause
  · rw [hleft, hright]
    exact .ok hsource.tag_eq (hsource.matches_reading.imp fun _ _ hitem => ⟨hsource.tag_eq, hitem⟩)

/-- Lines whose names cannot be read might as well be comments. A script is run with some
of these lines, in any of the files it includes, turned into comments that take as many
physical lines. Both runs end the same way and in the same state but for the messages:
the same frames, code, scope and pending terminator. They act on the same items one by one,
and each marked line that is reached prints one message of an error and changes nothing
else, where the comment prints nothing. -/
theorem abandoned_unseen {marked : String → Item → Prop}
    (hmarked : ∀ tag item, marked tag item → item.Consults) {files files' : FileTree}
    (hfiles : FilesCommented marked files files') (limit : Nat) {source source' : Source}
    (hsource : source.Commented (marked source.tag) source') (r : Interpreter ε τ)
    (habandoned : ∀ m ∈ trace files limit source r, marked m.tag m.item → m.Abandoned) :
    Corresponds Eq Eq SameButMessages (discard (runSource files limit source) r)
        (discard (runSource files' limit source') r) ∧
      List.Forall₂ (fun m m' => m.tag = m'.tag ∧ SameButMessages m.before m'.before ∧
          SameButMessages m.after m'.after ∧ CommentedAlike marked m m')
        (trace files limit source r) (trace files' limit source' r) ∧
      (finalState (runSource files limit source r)).transcript =
        r.transcript ++ (trace files limit source r).flatMap Moment.printed ∧
      (finalState (runSource files' limit source' r)).transcript =
        r.transcript ++ (trace files' limit source' r).flatMap Moment.printed := by
  obtain ⟨hrun, htrace⟩ := (simulation_sameButMessages hmarked).runSource hfiles.opensAlike limit
    hsource.tag_eq (hsource.matches_reading.imp fun _ _ hitem => ⟨hsource.tag_eq, hitem⟩)
    (SameButMessages.refl r) habandoned
  refine ⟨hrun, ?_, transcript_runSource files limit source r,
    transcript_runSource files' limit source' r⟩
  -- what is known of a moment of the first run, beside its counterpart in the second
  have hperformed := forall_mem_trace
    (p := fun m => ∃ runFile : String → RunM ε τ Unit,
      m.after = finalState (perform runFile m.tag m.item m.before))
    (fun runFile _ _ _ => ⟨runFile, rfl⟩) files limit source r
  have hmoments := (List.forall₂_and_left _ _).mpr
    ⟨fun m hm => And.intro (hperformed m hm) (habandoned m hm), htrace⟩
  refine hmoments.imp ?_
  rintro ⟨tag, item, before, after⟩ ⟨tag', item', before', after'⟩
    ⟨⟨⟨runFile, hafter⟩, habandoned⟩, ⟨htag, hitems⟩, hbefore, hlater⟩
  obtain rfl : tag = tag' := htag
  refine ⟨rfl, hbefore, hlater, ?_⟩
  cases hitems with
  | kept h => exact .kept h rfl (hbefore.reports_eq tag item).symm
  | comment h =>
    obtain ⟨report, hreport⟩ := habandoned h
    rw [perform_of_abandoned hreport] at hafter
    exact .comment h rfl hafter (quiet_of_abandonment? hreport tag).2
      (isError_of_abandonment? hreport).1 rfl

/-- A script that leaves a command open, names nothing known in the text before a vector, on
two physical lines, and includes a file. -/
def chart : Bytes := Utf8.encode "&VOLT 1\n@DATA {x} \\\n{v}\n<tune\n"

/-- The script with a comment of two lines in place of the vector. -/
def bareChart : Bytes := Utf8.encode "&VOLT 1\n% no \\\ndata\n<tune\n"

/-- The file that it includes. -/
def chartFiles : FileTree := ⟨[], [(["tune"], .file (Utf8.encode "!FREQ 2\n"))]⟩

/-- The line with the vector. -/
def ChartVector (tag : String) (item : Item) : Prop :=
  tag = "<script>" ∧ item = ⟨some (.sampleBlock "DATA {x} {v}"), 3⟩

instance (tag : String) (item : Item) : Decidable (ChartVector tag item) :=
  inferInstanceAs (Decidable (tag = "<script>" ∧ item = _))

/-- A run about to begin on a memory link, with a vector in its scope. -/
def readyToChart : Interpreter Assigner MemoryLink :=
  .new ⟨Store.empty.set "v" (.vector [⟨0⟩]), []⟩
    ((Instrument.new .little).attached "memory" .fresh)

/-- The command that was left open stays so up to the next one. -/
theorem abandoned_unseen_chart :
    Corresponds Eq Eq SameButMessages
        (discard (runSource chartFiles openLimit (Source.ofBytes "<script>" chart)) readyToChart)
        (discard (runSource chartFiles openLimit (Source.ofBytes "<script>" bareChart))
          readyToChart) ∧
      (trace chartFiles openLimit (Source.ofBytes "<script>" chart) readyToChart).map
          (fun m => (m.printed, m.pending)) =
        [([], true), ([.lookupFailure "DATA {x} {v}" (.undefined "x")], true), ([], false),
          ([], false)] ∧
      (finalState (runSource chartFiles openLimit (Source.ofBytes "<script>" bareChart)
        readyToChart)).transcript = [] := by
  have hkinds : ∀ tag item, ChartVector tag item → item.Consults := by
    rintro tag item ⟨-, rfl⟩
    trivial
  -- only the script itself is changed
  have hfiles : FilesCommented ChartVector chartFiles chartFiles := by
    intro path
    rcases hopen : Source.openPath chartFiles path with cause | source
    · exact .inl ⟨cause, rfl, rfl⟩
    · refine .inr ⟨source, source, rfl, rfl, .same ?_⟩
      rintro item - ⟨htag, -⟩
      rw [Source.tag_openPath hopen] at htag
      subst htag
      have hmissing : chartFiles.find "<script>" = .error .notFound := by decide +kernel
      rw [Source.openPath, hmissing] at hopen
      cases hopen
  have hsource : (Source.ofBytes "<script>" chart).Commented (ChartVector "<script>")
      (Source.ofBytes "<script>" bareChart) := by
    have hlines : Source.physicalLines chart = [Utf8.encode "&VOLT 1\n"] ++
        ([Utf8.encode "@DATA {x} \\\n", Utf8.encode "{v}\n"] ++ [Utf8.encode "<tune\n"]) := by
      decide +kernel
    have hlines' : Source.physicalLines bareChart = [Utf8.encode "&VOLT 1\n"] ++
        ([Utf8.encode "% no \\\n", Utf8.encode "data\n"] ++ [Utf8.encode "<tune\n"]) := by
      decide +kernel
    have hvector : Source.LineOf (Directive.ofLine? "@DATA {x} {v}")
        [Utf8.encode "@DATA {x} \\\n", Utf8.encode "{v}\n"] [Utf8.encode "<tune\n"] := by
      have htext : Source.lineText? (Utf8.encode "@DATA {x} \\\n") = some "@DATA {x} \\" := by
        decide +kernel
      exact Source.lineOf_of_joinLines htext (by decide +kernel) (by decide +kernel)
    have hcomment : Source.LineOf (Directive.ofLine? "% no data")
        [Utf8.encode "% no \\\n", Utf8.encode "data\n"] [Utf8.encode "<tune\n"] := by
      have htext : Source.lineText? (Utf8.encode "% no \\\n") = some "% no \\" := by
        decide +kernel
      exact Source.lineOf_of_joinLines htext (by decide +kernel) (by decide +kernel)
    rw [Source.ofBytes, Source.ofBytes, hlines, hlines']
    exact .kept (by decide +kernel) (by decide +kernel)
      (.comment rfl hvector (by decide +kernel) hcomment (.same (by decide +kernel)))
  have habandoned : ∀ m ∈ trace chartFiles openLimit (Source.ofBytes "<script>" chart)
      readyToChart, ChartVector m.tag m.item → m.Abandoned := by
    decide +kernel
  obtain ⟨hrun, -, -, hprinted⟩ :=
    abandoned_unseen hkinds hfiles openLimit hsource readyToChart habandoned
  refine ⟨hrun, by decide +kernel, ?_⟩
  rw [hprinted]
  decide +kernel

end Interpreter

end ScpiScript
