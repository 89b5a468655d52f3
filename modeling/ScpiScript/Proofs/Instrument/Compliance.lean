import ScpiScript.Proofs.Block.Limit
import ScpiScript.Proofs.Instrument.Recording
/-!
# Sessions that take everything

A dry run takes whatever is sent and answers every query with the reply of an instrument
without errors. A link can do the same. What the instrument answers then, and what it
leaves pending, is the same in both, up to vectors too long for a block.

- `Obliging` is a link that takes every write and answers every read so, however it has
  been used.
- `AgreeableLink` is a type of such links.
- `Instrument.Compliant` is a dry run or a session over an obliging link.
- `answer_compliant`: what a compliant session answers does not depend on which it is.
-/

namespace ScpiScript

/-- The links that using a link can lead to. -/
inductive Reaches {τ : Type} [Link τ] : τ → τ → Prop
  | refl (link : τ) : Reaches link link
  | write {link l : τ} (f : Frame) (rest : Reaches (Link.write link f).2 l) : Reaches link l
  | read {link l : τ} (rest : Reaches (Link.readLine link).2 l) : Reaches link l

/-- A link that takes every write and answers every read with the reply of an instrument
without errors, however it is used. -/
def Obliging {τ : Type} [Link τ] (link : τ) : Prop :=
  ∀ l, Reaches link l →
    (∀ f, (Link.write l f).1 = .ok ()) ∧ (Link.readLine l).1 = .ok Instrument.noErrorReply

theorem Obliging.write {τ : Type} [Link τ] {link : τ} (h : Obliging link) (f : Frame) :
    (Link.write link f).1 = .ok () ∧ Obliging (Link.write link f).2 :=
  ⟨(h link (.refl link)).1 f, fun l hl => h l (.write f hl)⟩

theorem Obliging.read {τ : Type} [Link τ] {link : τ} (h : Obliging link) :
    (Link.readLine link).1 = .ok Instrument.noErrorReply ∧ Obliging (Link.readLine link).2 :=
  ⟨(h link (.refl link)).2, fun l hl => h l (.read hl)⟩

/-- A link that keeps what is written to it and has the same reply for every query. -/
structure AgreeableLink where
  frames : List Frame

namespace AgreeableLink

instance : Link AgreeableLink where
  write l f := (.ok (), ⟨l.frames ++ [f]⟩)
  readLine l := (.ok Instrument.noErrorReply, l)
  close l := (.ok (), l)

theorem obliging (link : AgreeableLink) : Obliging link := fun _ _ => ⟨fun _ => rfl, rfl⟩

end AgreeableLink

namespace Request

/-- The most samples that fit into a block. -/
def maxSamples : Nat := 249999999

/-- A request whose vector, if it sends one, fits into a block. -/
def Fits : Request → Prop
  | sendBlock _ samples => samples.length ≤ maxSamples
  | sendFloats _ samples => samples.length ≤ maxSamples
  | _ => True

instance : DecidablePred Fits := fun request => by
  cases request <;> unfold Fits <;> infer_instance

/-- The answer of a session that takes everything. -/
def compliantAnswer : (request : Request) → request.Answer
  | isOpen => true
  | command _ _ => .ok ()
  | query _ => .ok Instrument.noErrorReply
  | sendBlock _ _ => .ok ()
  | sendFloats _ _ => .ok true
  | sendParameter text =>
    match Block.encodeParameterBlock text with
    | .ok (some _) => .ok true
    | .ok none => .ok false
    | .error e => .error (.block e)

end Request

namespace Instrument

variable {τ : Type} [Link τ] {i : Instrument τ} {pending : Bool}

/-- A dry run, or a session over an obliging link, with a terminator pending or not. -/
structure Compliant (i : Instrument τ) (pending : Bool) : Prop where
  session : i.session = .dryRun ∨
    ∃ address link, i.session = .connected address link ∧ Obliging link
  pending : i.pendingTerminator = pending

theorem Compliant.isOpen (h : i.Compliant pending) : i.isOpen = true := by
  rcases h.session with hsession | ⟨_, _, hsession, -⟩
  all_goals rw [Instrument.isOpen, hsession]

theorem write_compliant (h : i.Compliant pending) (data : Bytes) (final : Bool) :
    ∃ i', write data final i = .ok () i' ∧ i'.Compliant pending := by
  rcases h.session with hsession | ⟨address, link, hsession, hlink⟩
  · refine ⟨i, ?_, h⟩
    unfold write onLink
    rw [hsession]
  · obtain ⟨hok, hafter⟩ := hlink.write ⟨data, final⟩
    unfold write
    rw [onLink_connected hsession]
    rcases hwrite : Link.write link ⟨data, final⟩ with ⟨result, link'⟩
    rw [hwrite] at hok hafter
    obtain rfl : result = .ok () := hok
    exact ⟨_, rfl, .inr ⟨address, link', rfl, hafter⟩, h.pending⟩

theorem read_compliant (h : i.Compliant pending) :
    ∃ i', onLink noErrorReply Link.readLine i = .ok noErrorReply i' ∧ i'.Compliant pending := by
  rcases h.session with hsession | ⟨address, link, hsession, hlink⟩
  · refine ⟨i, ?_, h⟩
    unfold onLink
    rw [hsession]
  · obtain ⟨hok, hafter⟩ := hlink.read
    rw [onLink_connected hsession]
    rcases hread : Link.readLine link with ⟨result, link'⟩
    rw [hread] at hok hafter
    obtain rfl : result = .ok noErrorReply := hok
    exact ⟨_, rfl, .inr ⟨address, link', rfl, hafter⟩, h.pending⟩

theorem setPending_compliant (h : i.Compliant pending) (value : Bool) :
    ∃ i', setPending value i = .ok () i' ∧ i'.Compliant value :=
  ⟨_, rfl, h.session, rfl⟩

theorem terminatePending_compliant (h : i.Compliant pending) :
    ∃ i', terminatePending i = .ok () i' ∧ i'.Compliant false := by
  cases pending with
  | false => exact ⟨i, terminatePending_idle h.pending, h⟩
  | true =>
    have hcleared : Compliant { i with pendingTerminator := false } false := ⟨h.session, rfl⟩
    obtain ⟨i', hwrite, hi'⟩ := write_compliant hcleared [terminator] false
    exact ⟨i', (terminatePending_due h.pending).trans hwrite, hi'⟩

theorem writeSetting_compliant (h : i.Compliant pending) (data : Bytes) (final value : Bool) :
    ∃ i', (write data final >>= fun _ => setPending value) i = .ok () i' ∧
      i'.Compliant value := by
  obtain ⟨i₁, hwrite, h₁⟩ := write_compliant h data final
  obtain ⟨i₂, hset, h₂⟩ := setPending_compliant h₁ value
  exact ⟨i₂, (bind_of_ok hwrite).trans hset, h₂⟩

/-- Whether a command is empty or not, only its flag decides what is pending after it. -/
theorem command_compliant (h : i.Compliant pending) (text : String) (flush : Bool) :
    ∃ i', command text flush i = .ok () i' ∧ i'.Compliant (!flush) := by
  by_cases htext : text = ""
  · subst htext
    rw [command_empty]
    exact writeSetting_compliant h [] flush (!flush)
  · rw [command_text htext]
    obtain ⟨i₁, hterminate, h₁⟩ := terminatePending_compliant h
    rw [bind_of_ok hterminate]
    exact writeSetting_compliant h₁ (Utf8.encode text) flush (!flush)

theorem query_compliant (h : i.Compliant pending) (text : String) :
    ∃ i', outcome (query text) i = (.ok noErrorReply, i') ∧ i'.Compliant false := by
  obtain ⟨i₁, hcommand, h₁⟩ := command_compliant h text true
  obtain ⟨i₂, hread, h₂⟩ := read_compliant h₁
  rw [outcome_query, hcommand]
  refine ⟨i₂, ?_, h₂⟩
  dsimp only
  rw [outcome, hread]

theorem sendSamples_compliant (h : i.Compliant false) (lead : String) {samples : List Binary32}
    (hsize : samples.length ≤ Request.maxSamples) :
    ∃ i', sendSamples lead samples i = .ok () i' ∧ i'.Compliant false := by
  by_cases hne : samples = []
  · subst hne
    exact ⟨i, sendSamples_nil lead, h⟩
  · have hlimit : 4 * samples.length ≤ Block.maxLength := by
      rw [Request.maxSamples] at hsize
      rw [Block.maxLength]
      omega
    -- whatever the order of the bytes
    obtain ⟨message, hmessage⟩ :=
      (Block.encodeSampleBlock_isOk_iff lead samples i.byteOrder).mpr hlimit
    obtain ⟨i₁, hwrite, h₁⟩ := write_compliant h message true
    rw [sendSamples_ok hne hmessage, bind_of_ok hwrite]
    exact writeSetting_compliant h₁ (Utf8.encode waitCommand) true false

/-- A dry run does not look at the vector, and leaves nothing pending either. -/
theorem sendBlock_compliant (h : i.Compliant pending) (lead : String) {samples : List Binary32}
    (hsize : samples.length ≤ Request.maxSamples) :
    ∃ i', sendBlock lead samples i = .ok () i' ∧ i'.Compliant false := by
  rcases h.session with hsession | ⟨address, link, hsession, hlink⟩
  · -- neither is a terminator written that was pending
    have hdry : sendBlock lead samples i = setPending false i := by
      unfold sendBlock
      rw [bind_get, isDryRun, hsession]
      rfl
    rw [hdry]
    exact setPending_compliant h false
  · have hlive : i.isDryRun = false := by rw [isDryRun, hsession]
    obtain ⟨i₁, hterminate, h₁⟩ := terminatePending_compliant h
    rw [sendBlock_of_not_dryRun hlive, bind_of_ok hterminate]
    exact sendSamples_compliant h₁ lead hsize

/-- What a compliant session answers and leaves pending is settled by the request. -/
theorem answer_compliant (h : i.Compliant pending) {request : Request} (hfits : request.Fits) :
    ∃ i', i.answer request = (request.compliantAnswer, i') ∧
      i'.Compliant (request.pendingAfter pending) := by
  cases request with
  | isOpen => exact ⟨i, by rw [answer, h.isOpen]; rfl, h⟩
  | command text flush =>
    obtain ⟨i', hcommand, h'⟩ := command_compliant h text flush
    exact ⟨i', by rw [answer, outcome, hcommand]; rfl, h'⟩
  | query text => exact query_compliant h text
  | sendBlock lead samples =>
    obtain ⟨i', hsend, h'⟩ := sendBlock_compliant h lead hfits
    exact ⟨i', by rw [answer, outcome, hsend]; rfl, h'⟩
  | sendFloats lead samples =>
    obtain ⟨i', hsend, h'⟩ := sendBlock_compliant h lead hfits
    refine ⟨i', ?_, h'⟩
    rw [answer, outcome_sendFloats h.isOpen, outcome, hsend]
    rfl
  | sendParameter text =>
    rw [answer, outcome_sendParameter h.isOpen]
    rcases hencoded : Block.encodeParameterBlock text with e | _ | encoded
    all_goals
      simp only [Request.compliantAnswer, Request.pendingAfter, Request.settles, hencoded]
    · exact ⟨i, rfl, h⟩
    · exact ⟨i, rfl, h⟩
    · obtain ⟨i', hcommand, h'⟩ := command_compliant h encoded true
      exact ⟨i', by rw [outcome, hcommand]; rfl, h'⟩

/-- So is what it answers in the course of a dialogue. -/
theorem converse_compliant {α : Type} {j : Instrument τ} (hi : i.Compliant pending)
    (hj : j.Compliant pending) (d : Dialogue α) (hfits : ∀ request ∈ i.requestsOf d, request.Fits) :
    (i.converse d).1 = (j.converse d).1 ∧
      ∃ after, (i.converse d).2.Compliant after ∧ (j.converse d).2.Compliant after := by
  induction d generalizing i j pending with
  | done a => exact ⟨rfl, pending, hi, hj⟩
  | ask request next ih =>
    rw [requestsOf] at hfits
    have hrequest : request.Fits := hfits _ List.mem_cons_self
    obtain ⟨i', hanswer, hi'⟩ := answer_compliant hi hrequest
    obtain ⟨j', hanswer', hj'⟩ := answer_compliant hj hrequest
    rw [converse, converse, hanswer, hanswer']
    rw [hanswer] at hfits
    exact ih _ hi' hj' fun request h => hfits request (List.mem_cons_of_mem _ h)

end Instrument

end ScpiScript
