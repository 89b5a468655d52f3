import Mathlib.Data.List.Chain
import ScpiScript.Proofs.Block.Limit
import ScpiScript.Proofs.Instrument.Recording
import ScpiScript.Proofs.Text.Encoding
/-!
# Separation of messages

On a link whose writes may fail, the texts of two requests must not run together: a
terminator has to stand between them. The terminator of a buffered command is written
by the request after it. When that write fails the instrument forgets that it was
due, and the text recorded next joins the open one.

- `Separated` says of recorded frames that no two texts run together.
- `LosesTerminator` is a request that leaves an open command without its terminator.
- `Effect` is everything a request can do to the record and the pending terminator.
- `separated_after_iff`: messages are separated exactly if nothing is recorded after a
  terminator was lost.
-/

namespace ScpiScript

/-- The frame that completes a buffered command. -/
def closingFrame : Frame := ⟨[terminator], false⟩

/-- A terminator stands between the bytes of two frames, the second of which follows
the first: the first carries its terminator, or one of them is a terminator. -/
def Frame.Parted (f g : Frame) : Prop :=
  f.final = true ∨ f = closingFrame ∨ g = closingFrame

instance : DecidableRel Frame.Parted := fun f g =>
  inferInstanceAs (Decidable (f.final = true ∨ f = closingFrame ∨ g = closingFrame))

/-- No two texts run together on the wire. -/
def Separated (frames : List Frame) : Prop := frames.IsChain Frame.Parted

instance : DecidablePred Separated := fun frames =>
  inferInstanceAs (Decidable (frames.IsChain Frame.Parted))

/-- The last frame is a text without its terminator. -/
def EndsOpen (frames : List Frame) : Prop :=
  ∃ f ∈ frames.getLast?, f.final = false ∧ f ≠ closingFrame

/-- A request whose command or query, if it is one, has a text without line feeds. -/
def Request.IsPlain : Request → Prop
  | .command text _ => text ≠ "" ∧ '\n' ∉ text.toList
  | .query text => text ≠ "" ∧ '\n' ∉ text.toList
  | _ => True

/-- The frames that a request writes before its own, given whether a command is open. -/
def closing (pending : Bool) : List Frame := if pending then [closingFrame] else []

/-- What a request can do to the recorded frames and the pending terminator. -/
inductive Effect (fs : List Frame) : Bool → List Frame → Bool → Prop
  /-- Nothing is recorded. -/
  | idle (pending : Bool) : Effect fs pending fs pending
  /-- The terminator of an open command could not be written, and nothing was. -/
  | lost : Effect fs true fs false
  /-- Complete messages are recorded, behind the terminator that was due. -/
  | ended (pending : Bool) (gs : List Frame) (hfinal : ∀ g ∈ gs, g.final = true) :
      Effect fs pending (fs ++ closing pending ++ gs) false
  /-- A text is recorded and left open, behind the terminator that was due. -/
  | opened (pending : Bool) (text : Bytes) (htext : text ≠ [terminator]) :
      Effect fs pending (fs ++ closing pending ++ [⟨text, false⟩]) true

/-! ## Recorded frames -/

theorem separated_nil : Separated [] := List.isChain_nil

theorem not_endsOpen_nil : ¬ EndsOpen [] := by
  rintro ⟨f, hf, -⟩
  cases hf

/-- Frames are separated behind frames that end complete. -/
theorem Separated.append {fs gs : List Frame} (hfs : Separated fs) (hgs : Separated gs)
    (hend : ¬ EndsOpen fs) : Separated (fs ++ gs) := by
  refine List.IsChain.append hfs hgs ?_
  intro f hf g _
  by_cases hfinal : f.final = true
  · exact .inl hfinal
  · by_cases hclosing : f = closingFrame
    · exact .inr (.inl hclosing)
    · exact absurd ⟨f, hf, (Bool.not_eq_true _).mp hfinal, hclosing⟩ hend

/-- A text recorded behind an open one runs together with it. -/
theorem not_separated_of_endsOpen {fs rest : List Frame} {g : Frame} (hend : EndsOpen fs)
    (htext : g ≠ closingFrame) : ¬ Separated (fs ++ g :: rest) := by
  intro hsep
  obtain ⟨f, hf, hfinal, hclosing⟩ := hend
  rcases (List.isChain_append.mp hsep).2.2 f hf g rfl with h | h | h
  · rw [hfinal] at h
    cases h
  · exact hclosing h
  · exact htext h

theorem Separated.of_prefix {fs gs : List Frame} (hsep : Separated gs) (h : fs <+: gs) :
    Separated fs := by
  obtain ⟨rest, rfl⟩ := h
  exact hsep.left_of_append

theorem separated_closing (pending : Bool) : Separated (closing pending) := by
  cases pending
  · exact List.isChain_nil
  · exact List.isChain_singleton _

theorem separated_of_final {gs : List Frame} (hfinal : ∀ g ∈ gs, g.final = true) :
    Separated gs := by
  induction gs with
  | nil => exact List.isChain_nil
  | cons g rest ih =>
    refine List.isChain_cons.mpr ⟨fun _ _ => .inl (hfinal g List.mem_cons_self), ?_⟩
    exact ih fun x hx => hfinal x (List.mem_cons_of_mem _ hx)

/-! ## Effects -/

/-- A record that nothing was lost from: its messages are separated, and it ends in an
open text exactly if a terminator is pending. -/
structure Sound (fs : List Frame) (pending : Bool) : Prop where
  separated : Separated fs
  pending_iff : pending = true ↔ EndsOpen fs

theorem sound_nil : Sound [] false :=
  ⟨separated_nil, by simp [not_endsOpen_nil]⟩

/-- With its terminator, a sound record is separated and ends complete. -/
theorem Sound.append_closing {fs : List Frame} {pending : Bool} (h : Sound fs pending) :
    Separated (fs ++ closing pending) ∧ ¬ EndsOpen (fs ++ closing pending) := by
  cases pending with
  | false =>
    have hend : ¬ EndsOpen fs := fun hopen => Bool.false_ne_true (h.pending_iff.mpr hopen)
    simpa [closing] using ⟨h.separated, hend⟩
  | true =>
    constructor
    · refine List.IsChain.append h.separated (separated_closing true) ?_
      intro f _ g hg
      obtain rfl : closingFrame = g := by simpa [closing] using hg
      exact .inr (.inr rfl)
    · rintro ⟨f, hf, -, hclosing⟩
      obtain rfl : closingFrame = f := by simpa [closing] using hf
      exact hclosing rfl

/-- A record ends in its last frame. -/
theorem endsOpen_append_of_ne_nil {fs gs : List Frame} (hne : gs ≠ []) :
    EndsOpen (fs ++ gs) ↔ EndsOpen gs := by
  unfold EndsOpen
  rw [List.getLast?_append_of_ne_nil _ hne]

theorem not_endsOpen_of_final {gs : List Frame} (hfinal : ∀ g ∈ gs, g.final = true) :
    ¬ EndsOpen gs := by
  rintro ⟨f, hf, hopen, -⟩
  rw [hfinal f (List.mem_of_getLast? hf)] at hopen
  cases hopen

/-- An effect on a sound record loses a terminator, or leaves the record sound. -/
theorem Effect.of_sound {fs fs' : List Frame} {pending pending' : Bool}
    (heffect : Effect fs pending fs' pending') (h : Sound fs pending) :
    (pending = true ∧ pending' = false ∧ fs' = fs ∧ EndsOpen fs) ∨
      (Sound fs' pending' ∧ ¬ (pending = true ∧ pending' = false ∧ fs' = fs)) := by
  cases heffect with
  | idle => exact .inr ⟨h, fun ⟨htrue, hfalse, _⟩ => by simp [htrue] at hfalse⟩
  | lost => exact .inl ⟨rfl, rfl, rfl, h.pending_iff.mp rfl⟩
  | ended _ gs hfinal =>
    right
    obtain ⟨hsep, hend⟩ := h.append_closing
    refine ⟨⟨hsep.append (separated_of_final hfinal) hend, ?_⟩, ?_⟩
    · by_cases hgs : gs = []
      · simpa [hgs] using hend
      · rw [endsOpen_append_of_ne_nil hgs]
        simpa using not_endsOpen_of_final hfinal
    · rintro ⟨rfl, -, hsame⟩
      simp [closing] at hsame
  | opened _ text htext =>
    right
    obtain ⟨hsep, hend⟩ := h.append_closing
    have htextFrame : (⟨text, false⟩ : Frame) ≠ closingFrame := by
      simpa [closingFrame] using htext
    refine ⟨⟨hsep.append (List.isChain_singleton _) hend, ?_⟩, ?_⟩
    · refine ⟨fun _ => ⟨_, ?_, rfl, htextFrame⟩, fun _ => rfl⟩
      simp
    · rintro ⟨-, hfalse, -⟩
      cases hfalse

/-- Once a terminator is lost, whatever is recorded next runs together with the open
text. -/
theorem Effect.of_endsOpen {fs fs' : List Frame} {pending' : Bool}
    (heffect : Effect fs false fs' pending') (hend : EndsOpen fs) :
    (fs' = fs ∧ pending' = false) ∨ ¬ Separated fs' := by
  cases heffect with
  | idle => exact .inl ⟨rfl, rfl⟩
  | ended _ gs hfinal =>
    cases gs with
    | nil => exact .inl ⟨by simp [closing], rfl⟩
    | cons g rest =>
      right
      have hg : g ≠ closingFrame := by
        rintro rfl
        cases hfinal closingFrame List.mem_cons_self
      simpa [closing] using not_separated_of_endsOpen hend hg
  | opened _ text htext =>
    right
    have htextFrame : (⟨text, false⟩ : Frame) ≠ closingFrame := by
      simpa [closingFrame] using htext
    simpa [closing] using not_separated_of_endsOpen hend htextFrame

/-- An effect only adds to the record. -/
theorem Effect.isPrefix {fs fs' : List Frame} {pending pending' : Bool}
    (heffect : Effect fs pending fs' pending') : fs <+: fs' := by
  cases heffect with
  | idle => exact List.prefix_refl _
  | lost => exact List.prefix_refl _
  | ended =>
    rw [List.append_assoc]
    exact List.prefix_append _ _
  | opened =>
    rw [List.append_assoc]
    exact List.prefix_append _ _

namespace Instrument

variable {τ : Type} [RecordingLink τ] {i : Instrument τ} {fs : List Frame} {pending : Bool}
  {order : Block.ByteOrder}

/-! ## What each operation can do -/

/-- A session over a link in which a request has had an effect. -/
def Affected (i : Instrument τ) (fs : List Frame) (pending : Bool) (order : Block.ByteOrder) :
    Prop :=
  ∃ fs' pending', i.Online fs' pending' order ∧ Effect fs pending fs' pending'

/-- Completing a command succeeds with the terminator that was due, or loses it. -/
theorem terminatePending_online (h : i.Online fs pending order) :
    (∃ i', terminatePending i = .ok () i' ∧ i'.Online (fs ++ closing pending) false order) ∨
      (∃ e i', terminatePending i = .error e i' ∧ i'.Affected fs pending order) := by
  cases pending with
  | false =>
    left
    refine ⟨i, terminatePending_idle h.pending, ?_⟩
    rw [closing, if_neg Bool.false_ne_true, List.append_nil]
    exact h
  | true =>
    rw [terminatePending_due h.pending]
    have hcleared : Online { i with pendingTerminator := false } fs false order :=
      ⟨h.session, rfl, h.order⟩
    rcases write_online hcleared [terminator] false with ⟨i', hwrite, h'⟩ | ⟨e, i', hwrite, h'⟩
    · exact .inl ⟨i', hwrite, h'⟩
    · exact .inr ⟨e, i', hwrite, fs, false, h', .lost⟩

/-- Behind the terminator that was due, recording nothing more is an effect. -/
theorem Online.affected_of_closing (h : i.Online (fs ++ closing pending) false order) :
    i.Affected fs pending order := by
  have heffect : Effect fs pending (fs ++ closing pending ++ []) false :=
    .ended pending [] (by simp)
  rw [List.append_nil] at heffect
  exact ⟨_, _, h, heffect⟩

/-- Behind the terminator that was due, recording complete messages is an effect. -/
theorem Online.affected_of_final {gs : List Frame}
    (h : i.Online (fs ++ closing pending ++ gs) false order)
    (hfinal : ∀ g ∈ gs, g.final = true) : i.Affected fs pending order :=
  ⟨_, _, h, .ended pending gs hfinal⟩

theorem command_affected (h : i.Online fs pending order) {text : String} (flush : Bool)
    (hne : text ≠ "") (htext : flush = false → '\n' ∉ text.toList) :
    (outcome (command text flush) i).2.Affected fs pending order := by
  rw [outcome, command_text hne]
  rcases terminatePending_online h with ⟨i₁, hterm, h₁⟩ | ⟨e, i₁, hterm, h₁⟩
  · rw [bind_of_ok hterm]
    rcases write_online h₁ (Utf8.encode text) flush with ⟨i₂, hwrite, h₂⟩ | ⟨e, i₂, hwrite, h₂⟩
    · rw [bind_of_ok hwrite]
      obtain ⟨i₃, hset, h₃⟩ := setPending_online h₂ (!flush)
      rw [hset]
      cases flush with
      | true => exact h₃.affected_of_final (by simp)
      | false => exact ⟨_, _, h₃, .opened pending _ (Utf8.encode_ne_lineFeed (htext rfl))⟩
    · rw [bind_of_error hwrite]
      exact h₂.affected_of_closing
  · rw [bind_of_error hterm]
    exact h₁

/-- Reading a reply leaves the effect of the query as it is. -/
theorem query_affected (h : i.Online fs pending order) {text : String} (hne : text ≠ "") :
    (outcome (query text) i).2.Affected fs pending order := by
  have hcommand := command_affected h true hne (by simp)
  rw [outcome_query]
  rw [outcome] at hcommand
  rcases hsend : command text true i with ⟨_, i₁⟩ | ⟨e, i₁⟩
  · rw [hsend] at hcommand
    obtain ⟨fs', pending', h₁, heffect⟩ := hcommand
    exact ⟨fs', pending', read_online h₁ noErrorReply, heffect⟩
  · rw [hsend] at hcommand
    exact hcommand

theorem sendSamples_affected (h : i.Online (fs ++ closing pending) false order) (lead : String)
    (samples : List Binary32) :
    (outcome (sendSamples lead samples) i).2.Affected fs pending order := by
  by_cases hsamples : samples = []
  · subst hsamples
    exact h.affected_of_closing
  rcases henc : Block.encodeSampleBlock lead samples i.byteOrder with e | message
  · rw [outcome, sendSamples_error hsamples henc]
    exact h.affected_of_closing
  rw [outcome, sendSamples_ok hsamples henc]
  rcases write_online h message true with ⟨i₁, hblock, h₁⟩ | ⟨e, i₁, hblock, h₁⟩
  · rw [bind_of_ok hblock]
    rcases write_online h₁ (Utf8.encode waitCommand) true with
      ⟨i₂, hwait, h₂⟩ | ⟨e, i₂, hwait, h₂⟩
    · rw [bind_of_ok hwait]
      obtain ⟨i₃, hset, h₃⟩ := setPending_online h₂ false
      rw [hset]
      rw [List.append_assoc _ [_] [_]] at h₃
      exact h₃.affected_of_final (by simp)
    · rw [bind_of_error hwait]
      exact h₂.affected_of_final (by simp)
  · rw [bind_of_error hblock]
    exact h₁.affected_of_closing

theorem sendBlock_affected (h : i.Online fs pending order) (lead : String)
    (samples : List Binary32) :
    (outcome (sendBlock lead samples) i).2.Affected fs pending order := by
  rw [outcome, sendBlock_of_not_dryRun h.isDryRun_eq]
  rcases terminatePending_online h with ⟨i₁, hterm, h₁⟩ | ⟨e, i₁, hterm, h₁⟩
  · rw [bind_of_ok hterm]
    exact sendSamples_affected h₁ lead samples
  · rw [bind_of_error hterm]
    exact h₁

theorem sendParameter_affected (h : i.Online fs pending order) (text : String) :
    (outcome (sendParameter text) i).2.Affected fs pending order := by
  rw [outcome_sendParameter h.isOpen_eq]
  rcases henc : Block.encodeParameterBlock text with e | _ | encoded
  · exact ⟨_, _, h, .idle pending⟩
  · exact ⟨_, _, h, .idle pending⟩
  · exact command_affected h true (Block.encodeParameterBlock_ne_empty henc) (by simp)

/-- What one request can do to a session over a link whose writes may fail. -/
theorem answer_affected (h : i.Online fs pending order) {request : Request}
    (hplain : request.IsPlain) : (i.answer request).2.Affected fs pending order := by
  cases request with
  | isOpen => exact ⟨_, _, h, .idle pending⟩
  | command text flush => exact command_affected h flush hplain.1 fun _ => hplain.2
  | query text => exact query_affected h hplain.1
  | sendBlock lead samples => exact sendBlock_affected h lead samples
  | sendFloats lead samples =>
    simp only [answer, outcome_sendFloats h.isOpen_eq]
    exact sendBlock_affected h lead samples
  | sendParameter text => exact sendParameter_affected h text

/-! ## Whole runs -/

/-- A request that finds a command open and leaves it without its terminator: nothing is
pending after it, and nothing was recorded. -/
def LosesTerminator (i : Instrument τ) (request : Request) : Prop :=
  i.pendingTerminator = true ∧ (i.answer request).2.pendingTerminator = false ∧
    (i.answer request).2.frames = i.frames

/-- Requests only add to the record. -/
theorem frames_prefix_after (h : i.Online fs pending order) (requests : List Request)
    (hplain : ∀ request ∈ requests, request.IsPlain) :
    fs <+: (i.after requests).frames := by
  induction requests generalizing i fs pending with
  | nil =>
    exact ⟨[], by rw [after_nil, h.frames_eq, List.append_nil]⟩
  | cons request rest ih =>
    obtain ⟨fs₁, pending₁, h₁, heffect⟩ := answer_affected h (hplain request List.mem_cons_self)
    exact heffect.isPrefix.trans (ih h₁ fun r hr => hplain r (List.mem_cons_of_mem _ hr))

/-- Requests keep the session over its link. -/
theorem after_online (h : i.Online fs pending order) (requests : List Request)
    (hplain : ∀ request ∈ requests, request.IsPlain) :
    ∃ fs' pending', (i.after requests).Online fs' pending' order := by
  induction requests generalizing i fs pending with
  | nil => exact ⟨fs, pending, h⟩
  | cons request rest ih =>
    obtain ⟨fs₁, pending₁, h₁, -⟩ := answer_affected h (hplain request List.mem_cons_self)
    exact ih h₁ fun r hr => hplain r (List.mem_cons_of_mem _ hr)

/-- A run that leaves the record as it was has left it so all along. -/
theorem frames_eq_of_after_eq (h : i.Online fs pending order) (before later : List Request)
    (hplain : ∀ request ∈ before ++ later, request.IsPlain)
    (hsame : (i.after (before ++ later)).frames = fs) : (i.after before).frames = fs := by
  have hbefore : ∀ r ∈ before, r.IsPlain := fun r hr => hplain r (List.mem_append_left _ hr)
  obtain ⟨fs₁, pending₁, h₁⟩ := after_online h before hbefore
  have hgrown := frames_prefix_after h before hbefore
  have hleft := frames_prefix_after h₁ later fun r hr => hplain r (List.mem_append_right _ hr)
  rw [← after_append, hsame] at hleft
  rw [h₁.frames_eq] at hgrown ⊢
  exact hleft.eq_of_length_le hgrown.length_le

/-- After a terminator was lost, the messages stay separated exactly if nothing more is
recorded. -/
theorem separated_after_lost (h : i.Online fs false order) (hsep : Separated fs)
    (hend : EndsOpen fs) (requests : List Request)
    (hplain : ∀ request ∈ requests, request.IsPlain) :
    Separated (i.after requests).frames ↔ (i.after requests).frames = fs := by
  induction requests generalizing i with
  | nil => rw [after_nil, h.frames_eq, iff_true_right rfl]; exact hsep
  | cons request rest ih =>
    have hrest : ∀ r ∈ rest, r.IsPlain := fun r hr => hplain r (List.mem_cons_of_mem _ hr)
    obtain ⟨fs₁, pending₁, h₁, heffect⟩ := answer_affected h (hplain request List.mem_cons_self)
    rw [after_cons]
    rcases heffect.of_endsOpen hend with ⟨rfl, rfl⟩ | hjoined
    · exact ih h₁ hrest
    · -- Two texts have run together, and the record never loses them.
      have hgrown := frames_prefix_after h₁ rest hrest
      constructor
      · exact fun hall => absurd (hall.of_prefix hgrown) hjoined
      · intro hsame
        rw [hsame] at hgrown
        exact absurd (hsep.of_prefix hgrown) hjoined

/-- The messages of a run from a sound record stay separated exactly if nothing is
recorded after a terminator was lost. -/
theorem separated_after_sound (h : i.Online fs pending order) (hsound : Sound fs pending)
    (requests : List Request) (hplain : ∀ request ∈ requests, request.IsPlain) :
    Separated (i.after requests).frames ↔
      ∀ before request later, requests = before ++ request :: later →
        (i.after before).LosesTerminator request →
        (i.after requests).frames = (i.after before).frames := by
  induction requests generalizing i fs pending with
  | nil =>
    rw [after_nil, h.frames_eq]
    refine iff_of_true hsound.separated ?_
    intro before request later hsplit
    simp at hsplit
  | cons first rest ih =>
    have hrest : ∀ r ∈ rest, r.IsPlain := fun r hr => hplain r (List.mem_cons_of_mem _ hr)
    obtain ⟨fs₁, pending₁, h₁, heffect⟩ := answer_affected h (hplain first List.mem_cons_self)
    rw [after_cons]
    rcases heffect.of_sound hsound with ⟨rfl, rfl, rfl, hend⟩ | ⟨hsound₁, hkept⟩
    · -- The first request loses the terminator.
      rw [separated_after_lost h₁ hsound.separated hend rest hrest]
      constructor
      · intro hsame before request later hsplit _
        rw [hsame]
        refine (frames_eq_of_after_eq h before (request :: later) ?_ ?_).symm
        · rwa [← hsplit]
        · rwa [← hsplit, after_cons]
      · intro hall
        have hnow := hall [] first rest rfl
          ⟨h.pending, h₁.pending, h₁.frames_eq.trans h.frames_eq.symm⟩
        rwa [after_nil, h.frames_eq] at hnow
    · rw [ih h₁ hsound₁ hrest]
      constructor
      · intro hall before request later hsplit hlost
        cases before with
        | nil =>
          obtain ⟨rfl, rfl⟩ := List.cons.inj hsplit
          obtain ⟨hbefore, hafter, hsame⟩ := hlost
          refine absurd ⟨h.pending.symm.trans hbefore, h₁.pending.symm.trans hafter, ?_⟩ hkept
          rw [← h₁.frames_eq, ← h.frames_eq]
          exact hsame
        | cons head before =>
          obtain ⟨rfl, rfl⟩ := List.cons.inj hsplit
          exact hall before request later rfl hlost
      · intro hall before request later hsplit hlost
        exact hall (first :: before) request later (by rw [hsplit, List.cons_append]) hlost

/-- From the beginning of a session over a link that any writes may fail on, no two
messages run together exactly if nothing is recorded after a request that lost the
terminator of an open command. -/
theorem separated_after_iff (i : Instrument τ) (address : String) (link : τ)
    (hfresh : RecordingLink.frames link = []) (requests : List Request)
    (hplain : ∀ request ∈ requests, request.IsPlain) :
    Separated ((i.attached address link).after requests).frames ↔
      ∀ before request later, requests = before ++ request :: later →
        ((i.attached address link).after before).LosesTerminator request →
        ((i.attached address link).after requests).frames =
          ((i.attached address link).after before).frames := by
  have hstart := online_attached i address link
  rw [hfresh] at hstart
  exact separated_after_sound hstart sound_nil requests hplain

/-- A link on which the second write fails and every other one succeeds. -/
def secondWriteFails : FaultyLink := { FaultyLink.fresh with writeFails := fun k => k == 1 }

/-- A command left open, a command that cannot write the terminator, and one more. -/
def threeCommands : List Request :=
  [.command "A" false, .command "B" true, .command "C" true]

theorem threeCommands_isPlain : ∀ request ∈ threeCommands, request.IsPlain := by
  intro request hrequest
  simp only [threeCommands, List.mem_cons, List.not_mem_nil, or_false] at hrequest
  rcases hrequest with rfl | rfl | rfl
  all_goals exact ⟨by decide, by decide⟩

/-- The terminator that the second command could not write is missing before the third. -/
theorem threeCommands_joined :
    RecordingLink.frames secondWriteFails = [] ∧
    (∀ request ∈ threeCommands, request.IsPlain) ∧
    ¬ Separated (((new .little).attached "mem" secondWriteFails).after threeCommands).frames :=
  ⟨rfl, threeCommands_isPlain, by decide⟩

theorem separated_after_iff_threeCommands :
    RecordingLink.frames secondWriteFails = [] ∧
    (∀ request ∈ threeCommands, request.IsPlain) ∧
    (Separated (((new .little).attached "mem" secondWriteFails).after threeCommands).frames ↔
      ∀ before request later, threeCommands = before ++ request :: later →
        (((new .little).attached "mem" secondWriteFails).after before).LosesTerminator request →
        (((new .little).attached "mem" secondWriteFails).after threeCommands).frames =
          (((new .little).attached "mem" secondWriteFails).after before).frames) :=
  ⟨rfl, threeCommands_isPlain,
    separated_after_iff (new .little) "mem" secondWriteFails rfl threeCommands
      threeCommands_isPlain⟩

end Instrument

end ScpiScript
