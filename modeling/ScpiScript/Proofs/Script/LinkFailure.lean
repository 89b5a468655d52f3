import ScpiScript.Proofs.Reference.Tail
import ScpiScript.Proofs.Script.Printing
import ScpiScript.Proofs.Script.Simulation
/-!
# Link failures do not steer a script

A script over a link that may fail at any use is compared with the same script over a
link that never fails. Where code leaves the instrument alone, both runs act on the same
items, hand the same code to the engine, leave the same scope and end the same way. Only
what the lines that use the link print may differ, and that is one message a line.

- `Faultless` is a link that never fails, `Abreast` relates the states of the two runs.
- `PrintsAlike` says how the messages of one item compare.
- `linkFailures_contained` compares the runs of a script with all it includes.
- `linkFailure_longVector`: a vector too long for a block, behind an open command, prints a
  message over either link, and not the same one.
-/

namespace ScpiScript

/-- A link that takes every write and answers every read, however it is used. -/
def Faultless {τ : Type} [Link τ] (link : τ) : Prop :=
  ∀ l, Reaches link l →
    (∀ f, (Link.write l f).1 = .ok ()) ∧ ∃ reply, (Link.readLine l).1 = .ok reply

/-- Engines whose code makes no requests. -/
def Detached (ε : Type) [Engine ε] : Prop :=
  ∀ (engine : ε) (code chunk : String), ∃ result, Engine.execute engine code chunk = .done result

namespace Instrument

variable {τ : Type}

/-- A session at an address over a link with a property. -/
def Over (address : String) (good : τ → Prop) (i : Instrument τ) : Prop :=
  ∃ link, i.session = .connected address link ∧ good link

variable {address : String} {good : τ → Prop} {i : Instrument τ}

theorem Over.isOpen (h : i.Over address good) : i.isOpen = true := by
  obtain ⟨link, hsession, -⟩ := h
  rw [Instrument.isOpen, hsession]

theorem Over.isDryRun (h : i.Over address good) : i.isDryRun = false := by
  obtain ⟨link, hsession, -⟩ := h
  rw [Instrument.isDryRun, hsession]

/-- What an instrument refuses does not depend on the link of its session. -/
theorem refusal?_over {τ' : Type} {good' : τ' → Prop} {j : Instrument τ'}
    (h : i.Over address good) (h' : j.Over address good') (request : Request) :
    i.refusal? request = j.refusal? request := by
  cases request <;>
    simp only [refusal?, h.isOpen, h.isDryRun, h'.isOpen, h'.isDryRun]

variable [Link τ]

/-- A session over a link keeps what every use of a link keeps. -/
theorem sustained_over {mayFail : Prop} (address : String)
    (hwrite : ∀ link f, good link →
      good (Link.write link f).2 ∧ (mayFail ∨ (Link.write link f).1 = .ok ()))
    (hread : ∀ link, good link →
      good (Link.readLine link).2 ∧ (mayFail ∨ ∃ reply, (Link.readLine link).1 = .ok reply)) :
    Sustained (Over address good) mayFail where
  setPending _ h := h
  write f h hsession := by
    obtain ⟨link', hlink, hgood⟩ := h
    cases hlink.symm.trans hsession
    obtain ⟨hafter, hresult⟩ := hwrite _ f hgood
    exact ⟨⟨_, rfl, hafter⟩, hresult⟩
  read h hsession := by
    obtain ⟨link', hlink, hgood⟩ := h
    cases hlink.symm.trans hsession
    obtain ⟨hafter, hresult⟩ := hread _ hgood
    exact ⟨⟨_, rfl, hafter⟩, hresult⟩

theorem sustained_anyLink (address : String) :
    Sustained (Over (τ := τ) address fun _ => True) True :=
  sustained_over address (fun _ _ _ => ⟨trivial, .inl trivial⟩) fun _ _ => ⟨trivial, .inl trivial⟩

theorem sustained_faultless (address : String) :
    Sustained (Over (τ := τ) address Faultless) False :=
  sustained_over address
    (fun link f h => ⟨fun l hl => h l (.write f hl), .inr ((h link (.refl link)).1 f)⟩)
    fun link h => ⟨fun l hl => h l (.read hl), .inr (h link (.refl link)).2⟩

end Instrument

/-- An item that sends something and prints nothing if that succeeds. -/
def Item.Sends (item : Item) : Prop :=
  match item.directive with
  | some (.immediate _) => True
  | some (.buffered _) => True
  | some (.parameterBlock _) => True
  | some (.sampleBlock _) => True
  | _ => False

theorem Item.Sends.not_query {item : Item} (h : item.Sends) (text : String) :
    item.directive ≠ some (.query text) := by
  intro hd
  rw [Item.Sends, hd] at h
  exact h

namespace Interpreter

variable {ε τ τ' : Type} [Engine ε] [Link τ] [Link τ']

/-- Two runs have come equally far in sessions at the same address: the left one over any
link, the right one over a link that never fails. -/
structure Abreast (address : String) (r : Interpreter ε τ) (s : Interpreter ε τ') : Prop where
  engine : r.engine = s.engine
  vectorName : r.vectorName = s.vectorName
  evaluated : r.evaluated = s.evaluated
  left : r.instrument.Over address fun _ => True
  right : s.instrument.Over address Faultless

/-- The link failed while an item was acted on. -/
def Moment.LinkFails (m : Moment ε τ) : Prop :=
  ∃ request ∈ m.requests, ∃ cause,
    request.failure? (m.before.instrument.answer request).1 = some (.io cause)

/-- How the messages of an item over a link that may fail compare with those over a link
that never fails. -/
inductive PrintsAlike (m : Moment ε τ) (m' : Moment ε τ') : Prop
  /-- Without a failure of the link the messages are the same. -/
  | same (hquery : ∀ text, m.item.directive ≠ some (.query text)) (hsent : ¬ m.LinkFails)
      (hsame : m.printed = m'.printed)
  /-- Where sending fails with the link, one message says so and there would be none. -/
  | failed {cause : IoError} (hsends : m.item.Sends) (hfails : m.LinkFails)
      (hprinted : m.printed = [.instrumentFailure (.io cause)]) (hnothing : m'.printed = [])
  /-- A vector too long for a block is refused on any link, with one message. Where a command
  is still open in front of it and the link fails to end that, the message is the link's. -/
  | refused {tail lead : String} {samples : List Binary32} {cause : IoError}
      (hblock : m.item.directive = some (.sampleBlock tail))
      (hrequests : m.requests = [.sendBlock lead samples])
      (hlong : Request.maxSamples < samples.length)
      (hopen : m.before.instrument.pendingTerminator = true)
      (hfails : errorOf? (Instrument.outcome Instrument.terminatePending
        m.before.instrument).1 = some (.io cause))
      (hprinted : m.printed = [.instrumentFailure (.io cause)])
      (hrefused : m'.printed =
        [.instrumentFailure (.block (.lengthOverflow (4 * samples.length)))])
  /-- A query prints one message: a reply or a failure, or else the reply. -/
  | query {text line : String} (hquery : m.item.directive = some (.query text))
      (hprinted : (∃ cause, m.printed = [.instrumentFailure (.io cause)]) ∨
        ∃ reply, m.printed = [.reply reply])
      (hreply : m'.printed = [.reply line])

/-- Items that make no request print the same if they print what the scope decides. -/
theorem PrintsAlike.of_quiet {m : Moment ε τ} {m' : Moment ε τ'}
    (hquery : ∀ text, m.item.directive ≠ some (.query text)) (hquiet : m.requests = [])
    (hsame : m.printed = m'.printed) : PrintsAlike m m' := by
  refine .same hquery ?_ hsame
  rintro ⟨request, hrequest, -⟩
  rw [hquiet] at hrequest
  cases hrequest

/-- What is printed of an answer, the reply to a query aside. -/
theorem answered_eq {ε τ : Type} [Link τ] {r : Interpreter ε τ} {request : Request}
    (hquery : ∀ text, request ≠ .query text) :
    r.answered request =
      (request.failure? (r.instrument.answer request).1).toList.map .instrumentFailure := by
  unfold answered
  cases request with
  | query text => exact absurd rfl (hquery text)
  | _ => rfl

namespace Abreast

variable {address : String} {r after : Interpreter ε τ} {s after' : Interpreter ε τ'}
  {tag : String} {item : Item}

omit [Engine ε] in
/-- Requests and messages keep two runs abreast. -/
theorem acted (h : Abreast address r s) (requests requests' : List Request)
    (reports reports' : List Report) :
    Abreast address (r.acted requests reports) (s.acted requests' reports') where
  engine := h.engine
  vectorName := h.vectorName
  evaluated := h.evaluated
  left := (Instrument.sustained_anyLink address).after h.left requests
  right := (Instrument.sustained_faultless address).after h.right requests'

/-- A request that sends something is answered on both sides, by the right link without a
failure. What the instrument refuses, it refuses here before it uses the link. -/
theorem sent (h : Abreast address r s) {request : Request} (hsends : item.Sends)
    (hquery : ∀ text, request ≠ .query text)
    (hfirst : ∀ e, r.instrument.refusal? request = some e →
      request.failure? (r.instrument.answer request).1 = some (.block e))
    (hrequests : r.requests tag item = [request])
    (hprinted : r.reports tag item = r.answered request)
    (hprinted' : s.reports tag item = s.answered request) :
    PrintsAlike ⟨tag, item, r, after⟩ ⟨tag, item, s, after'⟩ := by
  have hmem : request ∈ Moment.requests ⟨tag, item, r, after⟩ := by
    rw [Moment.requests, hrequests]
    exact List.mem_cons_self
  rw [answered_eq hquery] at hprinted hprinted'
  -- the right link never fails, so only what the instrument refuses is reported there
  obtain ⟨-, hright⟩ := (Instrument.sustained_faultless address).answer h.right request
  have hright := hright.resolve_right fun hfails => hfails.1
  rw [← Instrument.refusal?_over h.left h.right] at hright
  rw [hright] at hprinted'
  obtain ⟨-, hleft⟩ := (Instrument.sustained_anyLink address).answer h.left request
  by_cases hfails : ∃ cause, request.failure? (r.instrument.answer request).1 = some (.io cause)
  · obtain ⟨cause, hio⟩ := hfails
    rw [hio] at hprinted
    rcases hrefusal : r.instrument.refusal? request with _ | e
    · rw [hrefusal] at hprinted'
      exact .failed hsends ⟨request, hmem, cause, hio⟩ hprinted hprinted'
    · -- the link was not used
      rw [hfirst e hrefusal] at hio
      cases hio
  · -- without a failure of the link the same is refused on the left
    have hleft := hleft.resolve_right fun hio => hfails hio.2
    refine .same hsends.not_query ?_ ?_
    · rintro ⟨other, hother, hio⟩
      rw [Moment.requests, hrequests, List.mem_singleton] at hother
      subst hother
      exact hfails hio
    · rw [hleft] at hprinted
      exact hprinted.trans hprinted'.symm

/-- A vector too long for a block is refused on both sides, unless the left link fails to end
a command in front of it. -/
theorem refusedVector (h : Abreast address r s) {tail lead : String} {samples : List Binary32}
    (hd : item.directive = some (.sampleBlock tail))
    (hlong : Request.maxSamples < samples.length)
    (hrequests : r.requests tag item = [.sendBlock lead samples])
    (hprinted : r.reports tag item = r.answered (.sendBlock lead samples))
    (hprinted' : s.reports tag item = s.answered (.sendBlock lead samples)) :
    PrintsAlike ⟨tag, item, r, after⟩ ⟨tag, item, s, after'⟩ := by
  have hquery : ∀ text, Request.sendBlock lead samples ≠ .query text := fun _ hquery => by
    cases hquery
  have hleft := Instrument.failure?_tooLong h.left.isDryRun lead hlong
  have hright := Instrument.failure?_tooLong h.right.isDryRun lead hlong
  rw [answered_eq hquery, hleft] at hprinted
  rw [answered_eq hquery, hright] at hprinted'
  -- the right link ends the command in front
  have hended := ((Instrument.sustained_faultless address).terminatePending_ends
    h.right).outcome.2.resolve_right fun hfails => hfails.1
  rw [hended] at hprinted'
  rcases ((Instrument.sustained_anyLink address).terminatePending_ends h.left).outcome.2 with
    hended | ⟨-, cause, hfails⟩
  · rw [hended] at hleft hprinted
    refine .same (fun text hd' => ?_) ?_ (hprinted.trans hprinted'.symm)
    · rw [hd] at hd'
      cases hd'
    · rintro ⟨other, hother, cause, hio⟩
      rw [Moment.requests, hrequests, List.mem_singleton] at hother
      subst hother
      rw [hleft] at hio
      cases hio
  · -- only an open command is ended
    have hopen : r.instrument.pendingTerminator = true := by
      refine (Bool.eq_false_or_eq_true _).resolve_right fun hidle => ?_
      rw [Instrument.outcome, Instrument.terminatePending_idle hidle] at hfails
      cases hfails
    rw [hfails] at hprinted
    exact .refused hd hrequests hlong hopen hfails hprinted hprinted'

/-- A text is expanded alike on both sides before it is sent. -/
theorem sentWith (h : Abreast address r s) {tail : String} {request : String → Request}
    (hsends : item.Sends) (hquery : ∀ t text, request t ≠ .query text)
    (hfirst : ∀ t e, r.instrument.refusal? (request t) = some e →
      (request t).failure? (r.instrument.answer (request t)).1 = some (.block e))
    (hrequests : r.requests tag item = r.requestWith tail request)
    (hprinted : r.reports tag item = r.reportsWith tail fun t => r.answered (request t))
    (hprinted' : s.reports tag item = s.reportsWith tail fun t => s.answered (request t)) :
    PrintsAlike ⟨tag, item, r, after⟩ ⟨tag, item, s, after'⟩ := by
  rw [requestWith] at hrequests
  rw [reportsWith] at hprinted hprinted'
  rw [← h.engine] at hprinted'
  cases hexpanded : Reference.substitute (Scope.textOf r.engine) tail with
  | error e =>
    rw [hexpanded] at hrequests hprinted hprinted'
    exact .of_quiet hsends.not_query hrequests (hprinted.trans hprinted'.symm)
  | ok t =>
    rw [hexpanded] at hrequests hprinted hprinted'
    exact h.sent hsends (hquery t) (hfirst t) hrequests hprinted hprinted'

/-- Commands differ only in the flag they are sent with. -/
theorem sentCommand (h : Abreast address r s) (tail : String) (flush : Bool)
    (hsends : item.Sends)
    (hrequests : r.requests tag item =
      if r.instrument.isOpen then r.requestWith tail fun text => .command text flush else [])
    (hprinted : r.reports tag item =
      if r.instrument.isOpen then
        r.reportsWith tail fun text => r.answered (.command text flush) else [])
    (hprinted' : s.reports tag item =
      if s.instrument.isOpen then
        s.reportsWith tail fun text => s.answered (.command text flush) else []) :
    PrintsAlike ⟨tag, item, r, after⟩ ⟨tag, item, s, after'⟩ := by
  rw [if_pos h.left.isOpen] at hrequests hprinted
  rw [if_pos h.right.isOpen] at hprinted'
  exact h.sentWith hsends (fun _ _ hquery => by cases hquery)
    (fun _ _ hrefusal => by cases hrefusal) hrequests hprinted hprinted'

/-- A vector and the text before it are read alike on both sides before they are sent. -/
theorem sentVector (h : Abreast address r s) {tail : String}
    (hd : item.directive = some (.sampleBlock tail))
    (hrequests : r.requests tag item = r.vectorRequest tail)
    (hprinted : r.reports tag item = r.vectorReports tail)
    (hprinted' : s.reports tag item = s.vectorReports tail) :
    PrintsAlike ⟨tag, item, r, after⟩ ⟨tag, item, s, after'⟩ := by
  have hsends : item.Sends := by
    rw [Item.Sends, hd]
    trivial
  rw [vectorRequest] at hrequests
  rw [vectorReports] at hprinted hprinted'
  rw [← h.engine, ← h.vectorName] at hprinted'
  cases hvector : Scope.vectorOf r.engine (Reference.splitTail tail r.vectorName).2 with
  | error e =>
    rw [hvector] at hrequests hprinted hprinted'
    exact .of_quiet hsends.not_query hrequests (hprinted.trans hprinted'.symm)
  | ok samples =>
    rw [hvector] at hrequests hprinted hprinted'
    dsimp only at hrequests
    rw [requestWith] at hrequests
    cases hlead : Reference.substitute (Scope.textOf r.engine)
        (Reference.splitTail tail r.vectorName).1 with
    | error e =>
      rw [hlead] at hrequests hprinted hprinted'
      exact .of_quiet hsends.not_query hrequests (hprinted.trans hprinted'.symm)
    | ok lead =>
      rw [hlead] at hrequests hprinted hprinted'
      by_cases hlong : Request.maxSamples < samples.length
      · exact h.refusedVector hd hlong hrequests hprinted hprinted'
      · have hfits : r.instrument.refusal? (.sendBlock lead samples) = none := by
          rw [Instrument.refusal?, Block.tooLong?_eq_none_iff.mpr (Nat.le_of_not_lt hlong),
            ite_self]
        refine h.sent hsends (fun _ hquery => by cases hquery) (fun e he => ?_) hrequests
          hprinted hprinted'
        rw [hfits] at he
        cases he

/-- A query is answered on both sides, by the right link with a reply. -/
theorem queried (h : Abreast address r s) {text : String}
    (hd : item.directive = some (.query text)) :
    PrintsAlike ⟨tag, item, r, after⟩ ⟨tag, item, s, after'⟩ := by
  have hprinted : r.reports tag item = r.answered (.query text) := by
    rw [reports, hd]
    exact if_pos h.left.isOpen
  have hprinted' : s.reports tag item = s.answered (.query text) := by
    rw [reports, hd]
    exact if_pos h.right.isOpen
  have hreply : ∀ answer : Request.Answer (.query text),
      Request.failure? (.query text) answer = none →
      ∃ line, Request.reports (.query text) answer = [.reply line] := by
    intro answer hnone
    rcases answer with e | line
    · cases hnone
    · exact ⟨line, rfl⟩
  obtain ⟨-, hright⟩ := (Instrument.sustained_faultless address).answer h.right (.query text)
  obtain ⟨line, hline⟩ := hreply _ (hright.resolve_right fun hfails => hfails.1)
  refine .query hd ?_ (hprinted'.trans hline)
  obtain ⟨-, hsucceeds | ⟨-, cause, hfails⟩⟩ :=
    (Instrument.sustained_anyLink address).answer h.left (.query text)
  · obtain ⟨reply, hreply⟩ := hreply _ hsucceeds
    exact .inr ⟨reply, hprinted.trans hreply⟩
  · refine .inl ⟨cause, hprinted.trans ?_⟩
    unfold answered
    revert hfails
    generalize (r.instrument.answer (.query text)).1 = answer
    intro hfails
    rcases answer with e | reply
    · cases hfails
      rfl
    · cases hfails

/-- Code that makes no requests does the same on both sides. -/
theorem ran (hdetached : Detached ε) (h : Abreast address r s) (block : CodeBlock) :
    (r.ran block).1 = (s.ran block).1 ∧ Abreast address (r.ran block).2 (s.ran block).2 := by
  obtain ⟨⟨result, engine⟩, hdone⟩ := hdetached r.engine block.code block.chunk
  have hdone' := hdone
  rw [h.engine] at hdone'
  unfold Interpreter.ran
  rw [hdone, hdone']
  refine ⟨rfl, rfl, h.vectorName, ?_, h.left, h.right⟩
  show r.evaluated ++ [block] = s.evaluated ++ [block]
  rw [h.evaluated]

omit [Engine ε] [Link τ] in
theorem said (h : Abreast address r s) (report report' : Report) :
    Abreast address (r.said report) (s.said report') :=
  ⟨h.engine, h.vectorName, h.evaluated, h.left, h.right⟩

theorem evaluate (hdetached : Detached ε) (h : Abreast address r s) (tag : String) (line : Nat)
    (code : String) :
    Corresponds Eq Eq (Abreast address) (evaluate tag line code r) (evaluate tag line code s) := by
  by_cases hcode : code = ""
  · subst hcode
    exact .ok rfl h
  rw [evaluate_eq r tag line hcode, evaluate_eq s tag line hcode]
  obtain ⟨hresult, hafter⟩ := h.ran hdetached ⟨chunkName tag line, code⟩
  dsimp only
  rw [← hresult]
  rcases (r.ran ⟨chunkName tag line, code⟩).1 with e | _
  · cases e with
    | badCode at_ column snippet => exact .ok rfl (hafter.said _ _)
    | exit message => exact .error rfl (hafter.said _ _)
    | failure message => exact .ok rfl (hafter.said _ _)
  · exact .ok rfl hafter

theorem codeReports (hdetached : Detached ε) (h : Abreast address r s) (tag : String)
    (line : Nat) (code : String) :
    r.codeReports tag line code = s.codeReports tag line code := by
  obtain ⟨hresult, hafter⟩ := h.ran hdetached ⟨chunkName tag line, code⟩
  unfold Interpreter.codeReports
  dsimp only
  rw [hresult, hafter.evaluated]

/-- The messages of an item compare so. -/
theorem printsAlike (hdetached : Detached ε) (h : Abreast address r s) (tag : String)
    (item : Item) : PrintsAlike ⟨tag, item, r, after⟩ ⟨tag, item, s, after'⟩ := by
  have hopen := h.left.isOpen
  have hopen' := h.right.isOpen
  by_cases hasks : ∃ text, item.directive = some (.query text)
  · obtain ⟨text, hd⟩ := hasks
    exact h.queried hd
  have hquery : ∀ text, item.directive ≠ some (.query text) := fun text hd => hasks ⟨text, hd⟩
  rcases hd : item.directive with _ | d
  · refine .of_quiet hquery ?_ ?_
    · rw [Moment.requests, requests, hd]
    · rw [Moment.printed, Moment.printed, reports, reports, hd]
  cases d with
  | immediate tail =>
    have hsends : item.Sends := by rw [Item.Sends, hd]; trivial
    exact h.sentCommand tail true hsends (by rw [requests, hd]) (by rw [reports, hd])
      (by rw [reports, hd])
  | buffered tail =>
    have hsends : item.Sends := by rw [Item.Sends, hd]; trivial
    exact h.sentCommand tail false hsends (by rw [requests, hd]) (by rw [reports, hd])
      (by rw [reports, hd])
  | parameterBlock tail =>
    have hsends : item.Sends := by rw [Item.Sends, hd]; trivial
    refine h.sentWith hsends (fun _ _ hquery => by cases hquery)
      (fun _ _ hrefusal => Instrument.failure?_parameter hrefusal)
      (?_ : _ = r.requestWith tail .sendParameter) ?_ ?_
    · rw [requests, hd]
    · rw [reports, hd]
    · rw [reports, hd]
  | sampleBlock tail =>
    refine h.sentVector hd (?_ : _ = r.vectorRequest tail) ?_ ?_
    · rw [requests, hd]
      exact if_pos hopen
    · rw [reports, hd]
      exact if_pos hopen
    · rw [reports, hd]
      exact if_pos hopen'
  | query text => exact absurd hd (hquery text)
  | echo tail =>
    refine .of_quiet hquery ?_ ?_
    · rw [Moment.requests, requests, hd]
    · rw [Moment.printed, Moment.printed, reports, reports, hd]
      dsimp only
      rw [reportsWith, reportsWith, h.engine]
  | evaluate code =>
    obtain ⟨result, hdone⟩ := hdetached r.engine code (chunkName tag item.line)
    refine .of_quiet hquery ?_ ?_
    · rw [Moment.requests, requests, hd]
      dsimp only
      rw [hdone]
      split <;> rfl
    · rw [Moment.printed, Moment.printed, reports, reports, hd]
      dsimp only
      rw [h.codeReports hdetached]
  | _ =>
    refine .of_quiet hquery ?_ ?_
    · rw [Moment.requests, requests, hd]
    · rw [Moment.printed, Moment.printed, reports, reports, hd]

end Abreast

/-- The comparison of two runs over links. -/
theorem simulation_abreast (hdetached : Detached ε) (address : String) :
    Simulation (Abreast address : Interpreter ε τ → Interpreter ε τ' → Prop) Eq Eq
      Simulation.SameItem fun _ => True := by
  refine .ofItems fun {r s} tag item runFile runFile' h hincluded _ => ?_
  by_cases hend : item.directive = some .terminate
  · rw [perform_terminate runFile tag hend, perform_terminate runFile' tag hend]
    exact .ok rfl h
  rw [perform_eq runFile tag hend, perform_eq runFile' tag hend]
  refine Corresponds.bind (A := Eq) ?_ fun _ _ _ _ _ _ _ hafter => .ok rfl hafter
  by_cases hcode : ∃ code, item.directive = some (.evaluate code)
  · obtain ⟨code, hd⟩ := hcode
    rw [action, action, hd]
    exact h.evaluate hdetached tag item.line code
  · -- all other items make requests and print, whatever the answers
    have hcode := fun code hd => hcode ⟨code, hd⟩
    rw [action_eq_ok r runFile tag hincluded hcode, action_eq_ok s runFile' tag hincluded hcode]
    exact .ok rfl (h.acted _ _ _ _)

/-- A script runs over a link with failures as over a link that never fails, with all it
includes, where code leaves the instrument alone: both runs act on the same items, hand the
same code to the engine, leave the same scope, keep the session and end the same way. They
print what their items print, and the messages of each item compare as `PrintsAlike` says. -/
theorem linkFailures_contained (hdetached : Detached ε) (files : FileTree) (limit : Nat)
    (source : Source) {address : String} {r : Interpreter ε τ} {s : Interpreter ε τ'}
    (hstart : Abreast address r s) :
    Corresponds Eq Eq (Abreast address) (discard (runSource files limit source) r)
        (discard (runSource files limit source) s) ∧
      List.Forall₂ (fun m m' => m.tag = m'.tag ∧ m.item = m'.item ∧ PrintsAlike m m')
        (trace files limit source r) (trace files limit source s) ∧
      (finalState (runSource files limit source r)).transcript =
        r.transcript ++ (trace files limit source r).flatMap Moment.printed ∧
      (finalState (runSource files limit source s)).transcript =
        s.transcript ++ (trace files limit source s).flatMap Moment.printed := by
  obtain ⟨hrun, htrace⟩ := (simulation_abreast hdetached address).sameSource files limit source
    hstart fun _ _ => trivial
  refine ⟨hrun, ?_, transcript_runSource files limit source r,
    transcript_runSource files limit source s⟩
  refine htrace.imp ?_
  rintro ⟨tag, item, before, after⟩ ⟨tag', item', before', after'⟩ ⟨⟨htag, hitem⟩, hbefore, -⟩
  obtain rfl : tag = tag' := htag
  obtain rfl : item = item' := hitem
  exact ⟨rfl, rfl, hbefore.printsAlike hdetached tag item⟩

theorem detached_assigner : Detached Assigner := fun _ _ _ => ⟨_, rfl⟩

/-- A file that sends a command, leaves it open and sets a name. -/
def powerFiles : FileTree :=
  ⟨[], [(["power"], .file (Utf8.encode "&VOLT 1\n=x = 5\n"))]⟩

/-- A script that includes it, uses the name and asks for errors. -/
def powerUp : Source := .ofText "<script>" "<power\n!FREQ {x}\n?SYST:ERR?\n>{x}\n"

/-- A run about to begin over a link. -/
def connectedTo {τ : Type} (link : τ) : Interpreter Assigner τ :=
  .new .fresh ((Instrument.new .little).attached "localhost" link)

/-- Over a link that takes one write and no more, all but the first command are lost, and
the script goes on all the same. -/
theorem linkFailures_contained_powerUp :
    Corresponds Eq Eq (Abreast "localhost")
        (discard (runSource powerFiles openLimit powerUp)
          (connectedTo (FaultyLink.fresh.failAfter (some 1))))
        (discard (runSource powerFiles openLimit powerUp) (connectedTo (AgreeableLink.mk []))) ∧
      (trace powerFiles openLimit powerUp
          (connectedTo (FaultyLink.fresh.failAfter (some 1)))).map Moment.printed =
        [[], [], [], [.instrumentFailure (.io .linkDown)], [.instrumentFailure (.io .linkDown)],
          [.echo "5"]] ∧
      (finalState (runSource powerFiles openLimit powerUp
          (connectedTo (AgreeableLink.mk [])))).transcript =
        [.reply Instrument.noErrorReply, .echo "5"] := by
  have hfaultless : Faultless (AgreeableLink.mk []) := fun _ _ => ⟨fun _ => rfl, _, rfl⟩
  have hstart : Abreast "localhost" (connectedTo (FaultyLink.fresh.failAfter (some 1)))
      (connectedTo (AgreeableLink.mk [])) :=
    ⟨rfl, rfl, rfl, ⟨_, rfl, trivial⟩, ⟨_, rfl, hfaultless⟩⟩
  obtain ⟨hrun, -, -, hprinted⟩ :=
    linkFailures_contained detached_assigner powerFiles openLimit powerUp hstart
  refine ⟨hrun, by decide +kernel, ?_⟩
  rw [hprinted]
  decide +kernel

/-! ### A vector too long behind an open command -/

section LongVector

variable {samples : List Binary32} {link link' : τ} {item : Item}

/-- A run over a link with a vector in its scope, with a command left open or not. -/
def holding (samples : List Binary32) (opened : Bool) (link : τ) : Interpreter Assigner τ :=
  .new ⟨Store.empty.set "v" (.vector samples), []⟩
    ⟨.connected "localhost" link, opened, .little, []⟩

theorem holding_command (hwrite : Link.write link ⟨Utf8.encode "A", false⟩ = (.ok (), link'))
    (tag : String) (hd : item.directive = some (.buffered "A")) :
    (holding samples false link).reports tag item = [] ∧
      (holding samples false link).acted ((holding samples false link).requests tag item) [] =
        holding samples true link' := by
  have hexpanded := Reference.substitute_of_notMem
    (Scope.textOf (holding samples false link).engine) (by decide : '{' ∉ "A".toList)
  have hanswer := Instrument.answer_openCommand (by decide)
    (rfl : (holding samples false link).instrument.session = _) rfl hwrite
  constructor
  · rw [reports, hd]
    show reportsWith _ "A" _ = _
    rw [reportsWith, hexpanded]
    show answered _ (.command "A" false) = _
    rw [answered_eq (fun _ hquery => by cases hquery), hanswer]
    rfl
  · have hrequests : (holding samples false link).requests tag item = [.command "A" false] := by
      rw [requests, hd]
      show requestWith _ "A" _ = _
      rw [requestWith, hexpanded]
    rw [hrequests, acted, Instrument.after_cons, hanswer]
    rfl

theorem holding_vector (hlong : Request.maxSamples < samples.length)
    {result : Except IoError Unit}
    (hwrite : Link.write link ⟨[terminator], false⟩ = (result, link'))
    (tag : String) (hd : item.directive = some (.sampleBlock "D {v}")) :
    (holding samples true link).reports tag item =
      [.instrumentFailure (((errorOf? result).map .io).getD
        (.block (.lengthOverflow (4 * samples.length))))] := by
  have htail : Reference.splitTail "D {v}" defaultVector = ("D ", "v") := by decide +kernel
  have hexpanded := Reference.substitute_of_notMem
    (Scope.textOf (holding samples true link).engine) (by decide : '{' ∉ "D ".toList)
  have hvector : Scope.vectorOf (holding samples true link).engine "v" = .ok samples := rfl
  have hsent : (holding samples true link).vectorReports "D {v}" =
      (holding samples true link).answered (.sendBlock "D " samples) := by
    rw [vectorReports, show (holding samples true link).vectorName = defaultVector from rfl,
      htail, hvector, hexpanded]
  rw [reports, hd]
  show vectorReports _ "D {v}" = _
  rw [hsent, answered_eq (fun _ hquery => by cases hquery),
    Instrument.failure?_tooLong rfl "D " hlong,
    Instrument.errorOf?_terminatePending
      (rfl : (holding samples true link).instrument.session = _) rfl hwrite]
  rfl

/-- A script that leaves a command open and sends the vector behind it. -/
def vectorBehindCommand : Source := .ofText "<script>" "&A\n@D {v}\n"

/-- What its lines print where the vector is too long for a block and the link takes the
command. -/
theorem printed_vectorBehindCommand (files : FileTree) (limit : Nat)
    (hlong : Request.maxSamples < samples.length) {result : Except IoError Unit}
    (hcommand : (Link.write link ⟨Utf8.encode "A", false⟩).1 = .ok ())
    (hend : (Link.write (Link.write link ⟨Utf8.encode "A", false⟩).2 ⟨[terminator], false⟩).1 =
      result) :
    (trace files limit vectorBehindCommand (holding samples false link)).map Moment.printed =
      [[], [.instrumentFailure (((errorOf? result).map .io).getD
        (.block (.lengthOverflow (4 * samples.length))))]] := by
  have hreading : vectorBehindCommand.reading =
      .item ⟨some (.buffered "A"), 1⟩ (.item ⟨some (.sampleBlock "D {v}"), 2⟩ .finished) := by
    decide +kernel
  obtain ⟨hquiet, hopened⟩ :=
    holding_command (Prod.ext hcommand rfl) vectorBehindCommand.tag
      (rfl : (⟨some (.buffered "A"), 1⟩ : Item).directive = _)
  have hrefused := holding_vector hlong (Prod.ext hend rfl) vectorBehindCommand.tag
    (rfl : (⟨some (.sampleBlock "D {v}"), 2⟩ : Item).directive = _)
  rw [trace, hreading, traceReading_item _ _ _ _ _ rfl (fun _ h => by cases h) (by decide),
    hquiet, hopened, traceReading_item _ _ _ _ _ rfl (fun _ h => by cases h) (by decide)]
  show [reports _ _ _, reports _ _ _] = _
  rw [hquiet, hrefused]

end LongVector

/-- Where the link is lost behind the command, the line with the vector prints another message
than over a link that never fails, and not a message in place of none. -/
theorem linkFailure_longVector :
    Abreast "localhost"
        (holding (List.replicate 250000000 ⟨0⟩) false (FaultyLink.fresh.failAfter (some 1)))
        (holding (List.replicate 250000000 ⟨0⟩) false (AgreeableLink.mk [])) ∧
      (trace powerFiles openLimit vectorBehindCommand
          (holding (List.replicate 250000000 ⟨0⟩) false
            (FaultyLink.fresh.failAfter (some 1)))).map Moment.printed =
        [[], [.instrumentFailure (.io .linkDown)]] ∧
      (trace powerFiles openLimit vectorBehindCommand
          (holding (List.replicate 250000000 ⟨0⟩) false (AgreeableLink.mk []))).map
            Moment.printed =
        [[], [.instrumentFailure (.block (.lengthOverflow 1000000000))]] := by
  have hlong : Request.maxSamples < (List.replicate 250000000 (⟨0⟩ : Binary32)).length := by
    rw [List.length_replicate]
    decide
  have hbytes : 4 * (List.replicate 250000000 (⟨0⟩ : Binary32)).length = 1000000000 := by
    rw [List.length_replicate]
  generalize List.replicate 250000000 (⟨0⟩ : Binary32) = samples at hlong hbytes ⊢
  refine ⟨⟨rfl, rfl, rfl, ⟨_, rfl, trivial⟩, ⟨_, rfl, fun _ _ => ⟨fun _ => rfl, _, rfl⟩⟩⟩, ?_, ?_⟩
  · exact printed_vectorBehindCommand powerFiles openLimit hlong rfl rfl
  · rw [← hbytes]
    exact printed_vectorBehindCommand powerFiles openLimit hlong rfl rfl

end Interpreter

end ScpiScript
