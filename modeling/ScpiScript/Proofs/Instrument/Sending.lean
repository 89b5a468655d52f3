import ScpiScript.Proofs.Instrument.Compliance
/-!
# What sending keeps, and how it fails

A request uses the link of the session one write or one read after another. What every
single use keeps is therefore kept by every request, wherever a use may fail. A request
that is not answered with success has failed with the link, or the instrument itself has
refused it.

- `Sustained` is a property of instruments that every use of the link keeps.
- `Instrument.refusal?` is what the instrument refuses a request for, on any link.
- `Ends` says how an operation can end; `Sustained.answer` says it of every request.
- `failure?_tooLong` and `failure?_parameter` are the failures of what is refused.
-/

namespace ScpiScript

namespace Block

/-- What a vector is refused for, if it is too long for a block. -/
def tooLong? (samples : List Binary32) : Option BlockError :=
  errorOf? (blockHeader (4 * samples.length))

theorem errorOf?_encodeSampleBlock (lead : String) (samples : List Binary32)
    (order : ByteOrder) : errorOf? (encodeSampleBlock lead samples order) = tooLong? samples := by
  unfold encodeSampleBlock tooLong?
  simp only [length_samplePayload]
  cases blockHeader (4 * samples.length) <;> rfl

theorem tooLong?_eq_none_iff {samples : List Binary32} :
    tooLong? samples = none ↔ samples.length ≤ Request.maxSamples := by
  have hlimit : 4 * samples.length ≤ maxLength ↔ samples.length ≤ Request.maxSamples := by
    rw [maxLength, Request.maxSamples]
    omega
  rw [← hlimit, tooLong?, blockHeader]
  constructor
  · intro h
    refine Nat.le_of_not_lt fun hlarge => ?_
    rw [lengthPrefix_of_lt hlarge] at h
    cases h
  · intro h
    rw [lengthPrefix_of_le h]
    rfl

theorem tooLong?_of_lt {samples : List Binary32} (h : Request.maxSamples < samples.length) :
    tooLong? samples = some (.lengthOverflow (4 * samples.length)) := by
  have hlarge : maxLength < 4 * samples.length := by
    rw [Request.maxSamples] at h
    rw [maxLength]
    omega
  rw [tooLong?, blockHeader, lengthPrefix_of_lt hlarge]
  rfl

end Block

namespace Request

/-- The failure that a request is answered with, if it is. -/
def failure? : (request : Request) → request.Answer → Option InstrumentError
  | isOpen, _ => none
  | command _ _, answer => errorOf? answer
  | query _, answer => errorOf? answer
  | sendBlock _ _, answer => errorOf? answer
  | sendFloats _ _, answer => errorOf? answer
  | sendParameter _, answer => errorOf? answer

end Request

namespace Instrument

variable {τ : Type}

/-- What an instrument refuses a request for by itself, whatever its link does. -/
def refusal? (i : Instrument τ) : Request → Option Block.BlockError
  | .sendBlock _ samples => if i.isDryRun then none else Block.tooLong? samples
  | .sendFloats _ samples => if i.isOpen && !i.isDryRun then Block.tooLong? samples else none
  | .sendParameter text => if i.isOpen then errorOf? (Block.encodeParameterBlock text) else none
  | _ => none

/-- How an operation can end while a property is kept: with success unless it has to be
refused, with the link where links may fail, or refused for a reason. -/
inductive Ends {α : Type} (P : Instrument τ → Prop) (mayFail : Prop)
    (refusal : Option Block.BlockError) :
    EStateM.Result InstrumentError (Instrument τ) α → Prop
  | ok {a : α} {i : Instrument τ} (kept : P i) (accepted : refusal = none) :
      Ends P mayFail refusal (.ok a i)
  | failed {cause : IoError} {i : Instrument τ} (kept : P i) (possible : mayFail) :
      Ends P mayFail refusal (.error (.io cause) i)
  | refused {e : Block.BlockError} {i : Instrument τ} (kept : P i) (reason : refusal = some e) :
      Ends P mayFail refusal (.error (.block e) i)

/-- A property of instruments that every use of the link keeps, where a use succeeds
unless links may fail. -/
structure Sustained [Link τ] (P : Instrument τ → Prop) (mayFail : Prop) : Prop where
  setPending : ∀ {i} value, P i → P { i with pendingTerminator := value }
  write : ∀ {i address link} f, P i → i.session = .connected address link →
    P { i with session := .connected address (Link.write link f).2 } ∧
      (mayFail ∨ (Link.write link f).1 = .ok ())
  read : ∀ {i address link}, P i → i.session = .connected address link →
    P { i with session := .connected address (Link.readLine link).2 } ∧
      (mayFail ∨ ∃ reply, (Link.readLine link).1 = .ok reply)

section Ends

variable {α β : Type} {P : Instrument τ → Prop} {mayFail : Prop}
  {refusal : Option Block.BlockError} {i : Instrument τ}

/-- What comes first refuses nothing; so how a sequence ends is up to what follows, or to
the link. -/
theorem Ends.bind {m : InstrumentM τ α} {f : α → InstrumentM τ β}
    (hfirst : Ends P mayFail none (m i))
    (hnext : ∀ a i', P i' → Ends P mayFail refusal (f a i')) :
    Ends P mayFail refusal ((m >>= f) i) := by
  rcases hm : m i with ⟨a, i'⟩ | ⟨e, i'⟩
  · rw [hm] at hfirst
    rw [bind_of_ok hm]
    cases hfirst with
    | ok hkept _ => exact hnext a i' hkept
  · rw [hm] at hfirst
    rw [bind_of_error hm]
    cases hfirst with
    | failed hkept hpossible => exact .failed hkept hpossible
    | refused _ hreason =>
      -- nothing is refused here
      cases hreason

/-- A result that is only renamed ends as it did. -/
theorem Ends.map {m : InstrumentM τ α} (h : Ends P mayFail refusal (m i)) (f : α → β) :
    Ends P mayFail refusal ((m >>= fun a => pure (f a)) i) := by
  rcases hm : m i with ⟨a, i'⟩ | ⟨e, i'⟩
  all_goals rw [hm] at h
  · rw [bind_of_ok hm]
    cases h with
    | ok hkept haccepted => exact .ok hkept haccepted
  · rw [bind_of_error hm]
    cases h with
    | failed hkept hpossible => exact .failed hkept hpossible
    | refused hkept hreason => exact .refused hkept hreason

/-- What an operation on the link does, if there is one. -/
theorem onLink_ends {operation : τ → Except IoError α × τ} (h : P i)
    (hlink : ∀ address link, i.session = .connected address link →
      P { i with session := .connected address (operation link).2 } ∧
        (mayFail ∨ ∃ a, (operation link).1 = .ok a)) (absent : α) :
    Ends P mayFail none (onLink absent operation i) := by
  by_cases hconnected : ∃ address link, i.session = .connected address link
  · obtain ⟨address, link, hsession⟩ := hconnected
    obtain ⟨hkept, hresult⟩ := hlink address link hsession
    rw [onLink_connected hsession]
    rcases hoperation : operation link with ⟨e | a, link'⟩
    all_goals rw [hoperation] at hkept hresult
    · refine .failed hkept (hresult.resolve_right ?_)
      rintro ⟨a, ha⟩
      cases ha
    · exact .ok hkept rfl
  · have hnothing : onLink absent operation i = .ok absent i := by
      unfold onLink
      split
      · rename_i hsession
        exact absurd ⟨_, _, hsession⟩ hconnected
      · rfl
    rw [hnothing]
    exact .ok h rfl

/-- The outcome of an operation that ends so. -/
theorem Ends.outcome {operation : InstrumentM τ α} (h : Ends P mayFail refusal (operation i)) :
    P (outcome operation i).2 ∧
      (errorOf? (outcome operation i).1 = refusal.map .block ∨
        mayFail ∧ ∃ cause, errorOf? (outcome operation i).1 = some (.io cause)) := by
  unfold Instrument.outcome
  generalize operation i = result at h ⊢
  cases h with
  | ok hkept haccepted => exact ⟨hkept, .inl (by rw [haccepted]; rfl)⟩
  | failed hkept hpossible => exact ⟨hkept, .inr ⟨hpossible, _, rfl⟩⟩
  | refused hkept hreason => exact ⟨hkept, .inl (by rw [hreason]; rfl)⟩

end Ends

/-! ## The sending operations -/

namespace Sustained

variable [Link τ] {P : Instrument τ → Prop} {mayFail : Prop} {i : Instrument τ}

theorem write_ends (hP : Sustained P mayFail) (h : P i) (data : Bytes) (final : Bool) :
    Ends P mayFail none (Instrument.write data final i) :=
  onLink_ends h (fun _ _ hsession =>
    (hP.write ⟨data, final⟩ h hsession).imp_right fun hresult => hresult.imp_right fun hok =>
      ⟨(), hok⟩) ()

theorem read_ends (hP : Sustained P mayFail) (h : P i) :
    Ends P mayFail none (onLink noErrorReply Link.readLine i) :=
  onLink_ends h (fun _ _ hsession => hP.read h hsession) noErrorReply

theorem setPending_ends (hP : Sustained P mayFail) (h : P i) (value : Bool) :
    Ends P mayFail none (Instrument.setPending value i) :=
  .ok (hP.setPending value h) rfl

theorem terminatePending_ends (hP : Sustained P mayFail) (h : P i) :
    Ends P mayFail none (terminatePending i) := by
  cases hpending : i.pendingTerminator with
  | false =>
    rw [terminatePending_idle hpending]
    exact .ok h rfl
  | true =>
    rw [terminatePending_due hpending]
    exact hP.write_ends (hP.setPending false h) [terminator] false

theorem writeSetting_ends (hP : Sustained P mayFail) (h : P i) (data : Bytes)
    (final value : Bool) :
    Ends P mayFail none ((Instrument.write data final >>= fun _ => Instrument.setPending value) i) :=
  (hP.write_ends h data final).bind fun _ _ hwritten => hP.setPending_ends hwritten value

theorem command_ends (hP : Sustained P mayFail) (h : P i) (text : String) (flush : Bool) :
    Ends P mayFail none (command text flush i) := by
  by_cases htext : text = ""
  · subst htext
    rw [command_empty]
    exact hP.writeSetting_ends h [] flush (!flush)
  · rw [command_text htext]
    refine (hP.terminatePending_ends h).bind fun _ _ hterminated => ?_
    exact hP.writeSetting_ends hterminated (Utf8.encode text) flush (!flush)

theorem query_ends (hP : Sustained P mayFail) (h : P i) (text : String) :
    Ends P mayFail none (query text i) :=
  (hP.command_ends h text true).bind fun _ _ hsent => hP.read_ends hsent

theorem sendSamples_ends (hP : Sustained P mayFail) (h : P i) (lead : String)
    (samples : List Binary32) :
    Ends P mayFail (Block.tooLong? samples) (sendSamples lead samples i) := by
  by_cases hne : samples = []
  · subst hne
    exact .ok h (Block.tooLong?_eq_none_iff.mpr (Nat.zero_le _))
  -- the block is encoded before the link is used, so a refusal is certain by then
  rw [← Block.errorOf?_encodeSampleBlock lead samples i.byteOrder]
  rcases hencoded : Block.encodeSampleBlock lead samples i.byteOrder with e | message
  · rw [sendSamples_error hne hencoded]
    exact .refused h rfl
  · rw [sendSamples_ok hne hencoded]
    refine (hP.write_ends h message true).bind fun _ _ hsent => ?_
    exact hP.writeSetting_ends hsent (Utf8.encode waitCommand) true false

/-- A dry run refuses no vector, since it does not look at it. -/
theorem sendBlock_ends (hP : Sustained P mayFail) (h : P i) (lead : String)
    (samples : List Binary32) :
    Ends P mayFail (if i.isDryRun then none else Block.tooLong? samples)
      (sendBlock lead samples i) := by
  cases hdry : i.isDryRun with
  | true =>
    have hset : sendBlock lead samples i = Instrument.setPending false i := by
      unfold sendBlock
      rw [bind_get, hdry]
      rfl
    rw [hset]
    exact hP.setPending_ends h false
  | false =>
    rw [sendBlock_of_not_dryRun hdry]
    exact (hP.terminatePending_ends h).bind fun _ _ hterminated =>
      hP.sendSamples_ends hterminated lead samples

theorem sendFloats_ends (hP : Sustained P mayFail) (h : P i) (lead : String)
    (samples : List Binary32) :
    Ends P mayFail (if i.isOpen && !i.isDryRun then Block.tooLong? samples else none)
      (sendFloats lead samples i) := by
  unfold sendFloats
  rw [bind_get]
  cases hopen : i.isOpen with
  | false => exact .ok h rfl
  | true =>
    have hsend := hP.sendBlock_ends h lead samples
    rw [if_pos rfl, Bool.true_and]
    cases hdry : i.isDryRun
    all_goals
      rw [hdry] at hsend
      exact hsend.map fun _ => true

theorem sendParameter_ends (hP : Sustained P mayFail) (h : P i) (text : String) :
    Ends P mayFail (if i.isOpen then errorOf? (Block.encodeParameterBlock text) else none)
      (sendParameter text i) := by
  unfold sendParameter
  rw [bind_get]
  cases hopen : i.isOpen with
  | false => exact .ok h rfl
  | true =>
    rw [if_pos rfl, if_pos rfl]
    rcases Block.encodeParameterBlock text with e | _ | encoded
    · exact .refused h rfl
    · exact .ok h rfl
    · exact (hP.command_ends h encoded true).map fun _ => true

/-- How a request is answered while a property is kept: it fails if the instrument refuses
it, or with the link where links may fail. -/
theorem answer (hP : Sustained P mayFail) (h : P i) (request : Request) :
    P (i.answer request).2 ∧
      (request.failure? (i.answer request).1 = (i.refusal? request).map .block ∨
        mayFail ∧ ∃ cause, request.failure? (i.answer request).1 = some (.io cause)) := by
  cases request with
  | isOpen => exact ⟨h, .inl rfl⟩
  | command text flush => exact (hP.command_ends h text flush).outcome
  | query text => exact (hP.query_ends h text).outcome
  | sendBlock lead samples => exact (hP.sendBlock_ends h lead samples).outcome
  | sendFloats lead samples => exact (hP.sendFloats_ends h lead samples).outcome
  | sendParameter text => exact (hP.sendParameter_ends h text).outcome

/-- What every request keeps, requests one after another keep. -/
theorem after (hP : Sustained P mayFail) (h : P i) (requests : List Request) :
    P (i.after requests) := by
  induction requests generalizing i with
  | nil => exact h
  | cons request rest ih => exact ih (hP.answer h request).1

end Sustained

/-! ## Requests that are refused -/

section Refused

variable [Link τ] {i : Instrument τ}

/-- A vector too long for a block is refused over any link, behind the end of a command that
is still open. Where that command cannot be ended, this is the failure. -/
theorem failure?_tooLong (hdry : i.isDryRun = false) (lead : String)
    {samples : List Binary32} (hlong : Request.maxSamples < samples.length) :
    Request.failure? (.sendBlock lead samples) (i.answer (.sendBlock lead samples)).1 =
      some ((errorOf? (outcome terminatePending i).1).getD
        (.block (.lengthOverflow (4 * samples.length)))) := by
  have hne : samples ≠ [] := List.ne_nil_of_length_pos (Nat.zero_lt_of_lt hlong)
  have hrefused : ∀ i' : Instrument τ, sendSamples lead samples i' =
      .error (.block (.lengthOverflow (4 * samples.length))) i' := by
    refine fun i' => sendSamples_error hne (errorOf?_eq_some.mp ?_)
    rw [Block.errorOf?_encodeSampleBlock, Block.tooLong?_of_lt hlong]
  rw [answer, outcome, outcome, sendBlock_of_not_dryRun hdry]
  rcases hterminated : terminatePending i with ⟨_, i'⟩ | ⟨e, i'⟩
  · rw [bind_of_ok hterminated, hrefused]
    rfl
  · rw [bind_of_error hterminated]
    rfl

/-- A parameter is refused before the link is used. -/
theorem failure?_parameter {text : String} {e : Block.BlockError}
    (h : i.refusal? (.sendParameter text) = some e) :
    Request.failure? (.sendParameter text) (i.answer (.sendParameter text)).1 =
      some (.block e) := by
  rw [refusal?] at h
  split at h
  · rename_i hopen
    rw [answer, outcome_sendParameter hopen, errorOf?_eq_some.mp h]
    rfl
  · cases h

end Refused

/-! ## Commands left open over a link -/

section Open

variable [Link τ] {i : Instrument τ} {address : String} {link link' : τ}

/-- A command goes out and is left open. -/
theorem answer_openCommand {text : String} (htext : text ≠ "")
    (hsession : i.session = .connected address link) (hidle : i.pendingTerminator = false)
    (hwrite : Link.write link ⟨Utf8.encode text, false⟩ = (.ok (), link')) :
    i.answer (.command text false) =
      (.ok (), { i with session := .connected address link', pendingTerminator := true }) := by
  have hwritten : write (Utf8.encode text) false i =
      .ok () { i with session := .connected address link' } := by
    rw [write, onLink_connected hsession, hwrite]
  rw [answer, outcome, command_text htext, bind_of_ok (terminatePending_idle hidle),
    bind_of_ok hwritten]
  rfl

/-- Ending an open command fails as its one write does. -/
theorem errorOf?_terminatePending {result : Except IoError Unit}
    (hsession : i.session = .connected address link) (hopen : i.pendingTerminator = true)
    (hwrite : Link.write link ⟨[terminator], false⟩ = (result, link')) :
    errorOf? (outcome terminatePending i).1 = (errorOf? result).map .io := by
  have hsession : { i with pendingTerminator := false }.session = .connected address link :=
    hsession
  rw [outcome, terminatePending_due hopen, write, onLink_connected hsession, hwrite]
  cases result <;> rfl

end Open

end Instrument

end ScpiScript
