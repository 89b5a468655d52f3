import Mathlib.Data.List.Induction
import ScpiScript.Proofs.Block.Limit
import ScpiScript.Proofs.Instrument.Recording
/-!
# The wire text of a session

A buffered command owes its terminator to whatever is sent next. Counting the owed
terminator as written already, every request adds a text of its own to the wire,
and that text does not depend on how the commands around it were buffered.

- `closedWire` is the byte stream of a list of frames with the owed terminator.
- `Request.contribution` is what a request adds to it.
- `wireText_normalForm` joins the two over every list of requests on a link whose
  writes succeed, and says when a terminator is owed at the end.
-/

namespace ScpiScript

open Block

/-- The byte stream that frames make once the owed terminator, if any, is written. -/
def closedWire (frames : List Frame) (pending : Bool) : Bytes :=
  wire frames ++ if pending then [terminator] else []

/-- A text and its terminator. -/
def messageBytes (text : String) : Bytes := Utf8.encode text ++ [terminator]

namespace Request

/-- What a command or a query adds. An empty one only ends a message: the one that is
still open, or else an empty one. -/
def textContribution (pending : Bool) (text : String) : Bytes :=
  if text = "" then (if pending then [] else [terminator]) else messageBytes text

/-- What a vector adds: its block and the command to wait for it. -/
def blockContribution (order : ByteOrder) (lead : String) (samples : List Binary32) : Bytes :=
  if samples = [] then []
  else match encodeSampleBlock lead samples order with
    | .ok block => block ++ [terminator] ++ messageBytes Instrument.waitCommand
    | .error _ => []

/-- What a counted parameter adds: its encoded text, unless it is refused. -/
def parameterContribution (text : String) : Bytes :=
  match encodeParameterBlock text with
  | .ok (some encoded) => messageBytes encoded
  | _ => []

/-- What a request adds to the wire text, given whether a command is open before it. -/
def contribution (order : ByteOrder) (pending : Bool) : Request → Bytes
  | isOpen => []
  | command text _ => textContribution pending text
  | query text => textContribution pending text
  | sendBlock lead samples => blockContribution order lead samples
  | sendFloats lead samples => blockContribution order lead samples
  | sendParameter text => parameterContribution text

/-- A request with its command, if it is one, sent at once. -/
def flushed : Request → Request
  | command text _ => command text true
  | request => request

/-- A request whose command or query, if it is one, has a text. -/
def HasText : Request → Prop
  | command text _ => text ≠ ""
  | query text => text ≠ ""
  | _ => True

end Request

/-! ## Single writes and the wire text -/

theorem closedWire_false (fs : List Frame) : closedWire fs false = wire fs := by
  simp [closedWire]

/-- A terminator written for a pending one leaves the wire text as it is. -/
theorem closedWire_terminate (fs : List Frame) :
    closedWire (fs ++ [⟨[terminator], false⟩]) false = closedWire fs true := by
  simp [closedWire, wire, Frame.wire]

/-- A frame adds its bytes and a terminator, whether it carries the terminator itself
or leaves it pending. -/
theorem closedWire_frame (fs : List Frame) (data : Bytes) (final : Bool) :
    closedWire (fs ++ [⟨data, final⟩]) (!final) = wire fs ++ data ++ [terminator] := by
  cases final <;> simp [closedWire, wire, Frame.wire]

namespace Instrument

variable {τ : Type} [ReliableLink τ] {i : Instrument τ} {fs : List Frame} {pending : Bool}
  {order : ByteOrder}

/-! ## What each operation adds -/

theorem write_reliable (h : i.Online fs pending order) (data : Bytes) (final : Bool) :
    ∃ i', write data final i = .ok () i' ∧ i'.Online (fs ++ [⟨data, final⟩]) pending order := by
  obtain ⟨⟨address, link, hsession, rfl⟩, hpending, horder⟩ := h
  unfold write
  rw [onLink_connected hsession]
  have hok := ReliableLink.write_ok link ⟨data, final⟩
  rcases hwrite : Link.write link ⟨data, final⟩ with ⟨result, link'⟩
  obtain rfl : result = .ok () := by simpa only [hwrite] using hok
  exact ⟨_, rfl, ⟨address, link', rfl, RecordingLink.frames_of_ok hwrite⟩, hpending, horder⟩

/-- Completing a pending command leaves the wire text as it is. -/
theorem terminatePending_reliable (h : i.Online fs pending order) :
    ∃ i' fs', terminatePending i = .ok () i' ∧ i'.Online fs' false order ∧
      wire fs' = closedWire fs pending := by
  cases pending with
  | false => exact ⟨i, fs, terminatePending_idle h.pending, h, (closedWire_false fs).symm⟩
  | true =>
    have hcleared : Online { i with pendingTerminator := false } fs false order :=
      ⟨h.session, rfl, h.order⟩
    obtain ⟨i', hwrite, hi'⟩ := write_reliable hcleared [terminator] false
    refine ⟨i', _, (terminatePending_due h.pending).trans hwrite, hi', ?_⟩
    rw [← closedWire_terminate, closedWire_false]

/-- A write and the note of whether it was final, on a session where nothing is
pending. -/
theorem writeSetting_reliable (h : i.Online fs false order) (data : Bytes) (final : Bool) :
    ∃ i' fs', (write data final >>= fun _ => setPending (!final)) i = .ok () i' ∧
      i'.Online fs' (!final) order ∧
      closedWire fs' (!final) = wire fs ++ data ++ [terminator] := by
  obtain ⟨i₁, hwrite, h₁⟩ := write_reliable h data final
  obtain ⟨i₂, hset, h₂⟩ := setPending_online h₁ (!final)
  exact ⟨i₂, _, (bind_of_ok hwrite).trans hset, h₂, closedWire_frame fs data final⟩

theorem command_reliable (h : i.Online fs pending order) (text : String) (flush : Bool) :
    ∃ i' fs', command text flush i = .ok () i' ∧ i'.Online fs' (!flush) order ∧
      closedWire fs' (!flush) = closedWire fs pending ++ Request.textContribution pending text := by
  by_cases htext : text = ""
  · subst htext
    obtain ⟨i₁, hwrite, h₁⟩ := write_reliable h [] flush
    obtain ⟨i₂, hset, h₂⟩ := setPending_online h₁ (!flush)
    refine ⟨i₂, _, (command_empty flush).trans ((bind_of_ok hwrite).trans hset), h₂, ?_⟩
    rw [closedWire_frame]
    cases pending <;> simp [Request.textContribution, closedWire]
  · obtain ⟨i₁, fs₁, hterm, h₁, hwire⟩ := terminatePending_reliable h
    obtain ⟨i₂, fs₂, hsend, h₂, hclosed⟩ := writeSetting_reliable h₁ (Utf8.encode text) flush
    refine ⟨i₂, fs₂, (command_text htext flush).trans ((bind_of_ok hterm).trans hsend), h₂, ?_⟩
    rw [hclosed, hwire, Request.textContribution, if_neg htext, messageBytes, List.append_assoc]

/-- A query adds what its text adds, whatever the reply. -/
theorem query_reliable (h : i.Online fs pending order) (text : String) :
    ∃ fs', (outcome (query text) i).2.Online fs' false order ∧
      closedWire fs' false = closedWire fs pending ++ Request.textContribution pending text := by
  obtain ⟨i₁, fs₁, hcommand, h₁, hclosed⟩ := command_reliable h text true
  refine ⟨fs₁, ?_, hclosed⟩
  rw [outcome_query, hcommand]
  exact read_online h₁ noErrorReply

theorem sendSamples_reliable (h : i.Online fs false order) (lead : String)
    (samples : List Binary32) :
    ∃ fs', (outcome (sendSamples lead samples) i).2.Online fs' false order ∧
      closedWire fs' false = wire fs ++ Request.blockContribution order lead samples := by
  by_cases hsamples : samples = []
  · subst hsamples
    refine ⟨fs, h, ?_⟩
    simp [Request.blockContribution, closedWire_false]
  · rcases henc : encodeSampleBlock lead samples i.byteOrder with e | message
    · refine ⟨fs, ?_, ?_⟩
      · rw [outcome, sendSamples_error hsamples henc]
        exact h
      · rw [h.order] at henc
        simp [Request.blockContribution, hsamples, henc, closedWire_false]
    · obtain ⟨i₁, hblock, h₁⟩ := write_reliable h message true
      obtain ⟨i₂, fs₂, hwait, h₂, hclosed⟩ :=
        writeSetting_reliable h₁ (Utf8.encode waitCommand) true
      refine ⟨fs₂, ?_, ?_⟩
      · rw [outcome, sendSamples_ok hsamples henc, bind_of_ok hblock]
        rw [show (write (Utf8.encode waitCommand) true >>= fun _ => setPending false) i₁ =
          .ok () i₂ from hwait]
        exact h₂
      · rw [h.order] at henc
        rw [show closedWire fs₂ false = _ from hclosed]
        simp [Request.blockContribution, hsamples, henc, messageBytes, wire, Frame.wire]

/-- A vector adds its block, whatever becomes of the encoding. -/
theorem sendBlock_reliable (h : i.Online fs pending order) (lead : String)
    (samples : List Binary32) :
    ∃ fs', (outcome (sendBlock lead samples) i).2.Online fs' false order ∧
      closedWire fs' false =
        closedWire fs pending ++ Request.blockContribution order lead samples := by
  obtain ⟨i₁, fs₁, hterm, h₁, hwire⟩ := terminatePending_reliable h
  obtain ⟨fs₂, h₂, hclosed⟩ := sendSamples_reliable h₁ lead samples
  refine ⟨fs₂, ?_, by rw [hclosed, hwire]⟩
  rw [outcome, sendBlock_of_not_dryRun h.isDryRun_eq, bind_of_ok hterm]
  exact h₂

theorem sendParameter_reliable (h : i.Online fs pending order) (text : String) :
    ∃ fs', (outcome (sendParameter text) i).2.Online fs'
        ((Request.sendParameter text).pendingAfter pending) order ∧
      closedWire fs' ((Request.sendParameter text).pendingAfter pending) =
        closedWire fs pending ++ Request.parameterContribution text := by
  rw [outcome_sendParameter h.isOpen_eq]
  rcases henc : encodeParameterBlock text with e | _ | encoded
  all_goals simp only [Request.pendingAfter, Request.settles, Request.parameterContribution, henc]
  · exact ⟨fs, h, (List.append_nil _).symm⟩
  · exact ⟨fs, h, (List.append_nil _).symm⟩
  · obtain ⟨i₁, fs₁, hcommand, h₁, hclosed⟩ := command_reliable h encoded true
    rw [Request.textContribution, if_neg (encodeParameterBlock_ne_empty henc)] at hclosed
    rw [outcome, hcommand]
    exact ⟨fs₁, h₁, hclosed⟩

/-- What one request does to a session over a link whose writes succeed. -/
theorem answer_reliable (h : i.Online fs pending order) (request : Request) :
    ∃ fs', (i.answer request).2.Online fs' (request.pendingAfter pending) order ∧
      closedWire fs' (request.pendingAfter pending) =
        closedWire fs pending ++ request.contribution order pending := by
  cases request with
  | isOpen => exact ⟨fs, h, by simp [Request.pendingAfter, Request.settles, Request.contribution]⟩
  | command text flush =>
    obtain ⟨i', fs', hcommand, h', hclosed⟩ := command_reliable h text flush
    refine ⟨fs', ?_, hclosed⟩
    simp only [answer, outcome, hcommand]
    exact h'
  | query text => exact query_reliable h text
  | sendBlock lead samples => exact sendBlock_reliable h lead samples
  | sendFloats lead samples =>
    obtain ⟨fs', h', hclosed⟩ := sendBlock_reliable h lead samples
    refine ⟨fs', ?_, hclosed⟩
    simp only [answer, outcome_sendFloats h.isOpen_eq]
    exact h'
  | sendParameter text => exact sendParameter_reliable h text

/-! ## Whole runs -/

/-- After any requests the session is still over its link. -/
theorem after_reliable (h : i.Online fs pending order) (requests : List Request) :
    ∃ fs', (i.after requests).Online fs' (requests.foldl Request.pendingAfter pending) order := by
  induction requests generalizing i fs pending with
  | nil => exact ⟨fs, h⟩
  | cons request rest ih =>
    obtain ⟨fs₁, h₁, -⟩ := answer_reliable h request
    exact ih h₁

/-- The wire text that an instrument has made, the owed terminator included. -/
def wireText (i : Instrument τ) : Bytes := closedWire i.frames i.pendingTerminator

theorem Online.wireText_eq (h : i.Online fs pending order) :
    i.wireText = closedWire fs pending := by
  rw [wireText, h.frames_eq, h.pending]

theorem wireText_answer (h : i.Online fs pending order) (request : Request) :
    (i.answer request).2.wireText = i.wireText ++ request.contribution order pending := by
  obtain ⟨fs', h', hclosed⟩ := answer_reliable h request
  rw [h'.wireText_eq, h.wireText_eq, hclosed]

end Instrument

namespace Request

/-- What a request with a text adds does not depend on whether a command is open, nor
on whether its own is sent at once. -/
theorem contribution_flushed {request : Request} (h : request.HasText) (order : ByteOrder)
    (pending : Bool) :
    request.contribution order pending = request.flushed.contribution order false := by
  cases request with
  | command text flush =>
    show textContribution pending text = textContribution false text
    rw [textContribution, textContribution, if_neg h, if_neg h]
  | query text =>
    show textContribution pending text = textContribution false text
    rw [textContribution, textContribution, if_neg h, if_neg h]
  | isOpen => rfl
  | sendBlock => rfl
  | sendFloats => rfl
  | sendParameter => rfl

/-- Whether a terminator is pending is decided by the last request that settles it. -/
theorem foldl_pendingAfter (requests : List Request) (pending : Bool) :
    requests.foldl pendingAfter pending =
      match (requests.filter settles).getLast? with
      | some (command _ flush) => !flush
      | some _ => false
      | none => pending := by
  induction requests using List.reverseRecOn with
  | nil => rfl
  | append_singleton before last ih =>
    rw [List.foldl_append, List.foldl_cons, List.foldl_nil, List.filter_append]
    by_cases hlast : last.settles = true
    · rw [List.filter_cons_of_pos hlast, List.filter_nil, List.getLast?_append]
      cases last <;> simp_all [pendingAfter]
    · rw [List.filter_cons_of_neg hlast, List.filter_nil, List.append_nil]
      cases last <;> simp_all [pendingAfter, settles]

end Request

namespace Instrument

variable {τ : Type} [ReliableLink τ] {i : Instrument τ} {fs : List Frame} {pending : Bool}
  {order : ByteOrder}

/-- Requests with texts add up, however their commands are buffered. -/
theorem wireText_after_of_hasText (h : i.Online fs pending order) (requests : List Request)
    (htext : ∀ request ∈ requests, request.HasText) :
    (i.after requests).wireText =
      i.wireText ++ requests.flatMap fun request => request.flushed.contribution order false := by
  induction requests generalizing i fs pending with
  | nil => simp
  | cons request rest ih =>
    obtain ⟨fs₁, h₁, -⟩ := answer_reliable h request
    rw [after_cons, ih h₁ fun r hr => htext r (List.mem_cons_of_mem _ hr), wireText_answer h,
      Request.contribution_flushed (htext request List.mem_cons_self), List.flatMap_cons,
      List.append_assoc]

/-- A request has a text if the request that sends it at once has one. -/
theorem hasText_of_flushed_eq {requests others : List Request}
    (heq : requests.map Request.flushed = others.map Request.flushed)
    (htext : ∀ request ∈ requests, request.HasText) : ∀ other ∈ others, other.HasText := by
  have hflushed : ∀ request : Request, request.flushed.HasText ↔ request.HasText := by
    intro request
    cases request <;> rfl
  intro other hother
  have hmem : other.flushed ∈ requests.map Request.flushed := by
    rw [heq]
    exact List.mem_map_of_mem hother
  obtain ⟨request, hrequest, hsame⟩ := List.mem_map.mp hmem
  rw [← hflushed, ← hsame, hflushed]
  exact htext request hrequest

/-- The normal form of the wire text on a link whose writes succeed, from the beginning
of a session on. Whatever was sent before, a request adds its own contribution, and a
vector has a block to contribute exactly when its bytes are within the limit. Where every
command and query has a text, the wire text does not depend on which commands were
buffered. A terminator is owed at the end exactly if the last request that settles the
matter was a buffered command. -/
theorem wireText_normalForm (i : Instrument τ) (address : String) (link : τ) :
    (∀ (before : List Request) (request : Request),
      ((i.attached address link).after (before ++ [request])).wireText =
        ((i.attached address link).after before).wireText ++
          request.contribution i.byteOrder
            ((i.attached address link).after before).pendingTerminator) ∧
    (∀ (lead : String) (samples : List Binary32),
      (∃ block, encodeSampleBlock lead samples i.byteOrder = .ok block) ↔
        4 * samples.length ≤ maxLength) ∧
    (∀ requests others : List Request,
      (∀ request ∈ requests, request.HasText) →
      requests.map Request.flushed = others.map Request.flushed →
      ((i.attached address link).after requests).wireText =
        ((i.attached address link).after others).wireText) ∧
    (∀ requests : List Request,
      ((i.attached address link).after requests).pendingTerminator = true ↔
        ∃ text, (requests.filter Request.settles).getLast? = some (.command text false)) := by
  have hstart := online_attached i address link
  refine ⟨?_, ?_, ?_, ?_⟩
  · intro before request
    obtain ⟨fs, hbefore⟩ := after_reliable hstart before
    rw [after_append, after_cons, after_nil, wireText_answer hbefore, hbefore.pending]
  · intro lead samples
    exact encodeSampleBlock_isOk_iff lead samples i.byteOrder
  · intro requests others htext hflags
    rw [wireText_after_of_hasText hstart requests htext,
      wireText_after_of_hasText hstart others (hasText_of_flushed_eq hflags htext)]
    congr 1
    rw [← List.flatMap_map (f := Request.flushed), hflags, List.flatMap_map]
  · intro requests
    obtain ⟨fs, hend⟩ := after_reliable hstart requests
    rw [hend.pending, Request.foldl_pendingAfter]
    rcases (requests.filter Request.settles).getLast? with _ | request
    · simp
    · cases request <;> simp

/-- Sending a command at once or later makes no difference to the wire text. -/
theorem wireText_normalForm_buffered :
    (∀ request ∈ [Request.command "VOLT 1" false, .sendParameter "SEQ #ab", .query "*IDN?"],
      request.HasText) ∧
    (((new .little).attached "mem" MemoryLink.fresh).after
        [.command "VOLT 1" false, .sendParameter "SEQ #ab", .query "*IDN?"]).wireText =
      (((new .little).attached "mem" MemoryLink.fresh).after
        [.command "VOLT 1" true, .sendParameter "SEQ #ab", .query "*IDN?"]).wireText := by
  have htext : ∀ request ∈
      [Request.command "VOLT 1" false, .sendParameter "SEQ #ab", .query "*IDN?"],
      request.HasText := by
    simp [Request.HasText]
  exact ⟨htext, (wireText_normalForm (new .little) "mem" MemoryLink.fresh).2.2.1 _
    [.command "VOLT 1" true, .sendParameter "SEQ #ab", .query "*IDN?"] htext rfl⟩

end Instrument

end ScpiScript
