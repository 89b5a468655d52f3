import ScpiScript.Engine.Basic
import ScpiScript.Link.Memory
import ScpiScript.Proofs.Outcome
/-!
# Links that keep a record

What an instrument puts on the wire can be followed on any link that keeps the
frames it was given. A write that fails leaves no frame, and reading leaves none.

- `RecordingLink` is such a link, `ReliableLink` one whose writes never fail.
- `Request.pendingAfter` says whether a request leaves a terminator pending.
- `Instrument.after` is the instrument after a list of requests, and `requestsOf` is the
  list that a dialogue makes.
- `Online` is the part of an instrument that a sending operation works on, and
  `write_online` what one write does to it.
-/

namespace ScpiScript

/-- A type of links that keep the frames written to them. -/
class RecordingLink (τ : Type) extends Link τ where
  frames : τ → List Frame
  frames_of_ok : ∀ {l l' : τ} {f : Frame},
    Link.write l f = (.ok (), l') → frames l' = frames l ++ [f]
  frames_of_error : ∀ {l l' : τ} {f : Frame} {e : IoError},
    Link.write l f = (.error e, l') → frames l' = frames l
  frames_of_read : ∀ {l l' : τ} {result : Except IoError String},
    Link.readLine l = (result, l') → frames l' = frames l

/-- A type of recording links on which every write succeeds. -/
class ReliableLink (τ : Type) extends RecordingLink τ where
  write_ok : ∀ (l : τ) (f : Frame), (Link.write l f).1 = .ok ()

theorem MemoryLink.frames_readLine (l : MemoryLink) : l.readLine.2.frames = l.frames := by
  unfold MemoryLink.readLine
  split <;> rfl

instance : ReliableLink MemoryLink where
  frames := MemoryLink.frames
  frames_of_ok h := by
    obtain ⟨-, rfl⟩ := Prod.mk.inj h
    rfl
  frames_of_error h := by
    cases (Prod.mk.inj h).1
  frames_of_read {l _ _} h := by
    rw [← (Prod.mk.inj h).2]
    exact l.frames_readLine
  write_ok _ _ := rfl

instance : RecordingLink FaultyLink where
  frames l := l.memory.frames
  frames_of_ok {l l' f} h := by
    change (if l.writeFails l.writes then _ else _) = _ at h
    split at h
    · cases (Prod.mk.inj h).1
    · rw [← (Prod.mk.inj h).2]
      rfl
  frames_of_error {l l' f e} h := by
    change (if l.writeFails l.writes then _ else _) = _ at h
    split at h
    · rw [← (Prod.mk.inj h).2]
    · cases (Prod.mk.inj h).1
  frames_of_read {l _ _} h := by
    rw [← (Prod.mk.inj h).2]
    exact l.memory.frames_readLine

/-! ## What a request leaves pending -/

namespace Request

/-- A request that decides whether a terminator is pending after it. Asking for the
session and a refused parameter leave that as it was. -/
def settles : Request → Bool
  | isOpen => false
  | sendParameter text =>
    match Block.encodeParameterBlock text with
    | .ok (some _) => true
    | _ => false
  | _ => true

/-- Whether a terminator is pending after a request, given whether one is before. -/
def pendingAfter (pending : Bool) : Request → Bool
  | command _ flush => !flush
  | request => if request.settles then false else pending

end Request

namespace Instrument

variable {τ : Type}

/-- The instrument after requests, in order. -/
def after [Link τ] (i : Instrument τ) (requests : List Request) : Instrument τ :=
  requests.foldl (fun i request => (i.answer request).2) i

@[simp] theorem after_nil [Link τ] (i : Instrument τ) : i.after [] = i := rfl

@[simp] theorem after_cons [Link τ] (i : Instrument τ) (request : Request)
    (rest : List Request) :
    i.after (request :: rest) = (i.answer request).2.after rest := rfl

theorem after_append [Link τ] (i : Instrument τ) (before later : List Request) :
    i.after (before ++ later) = (i.after before).after later := by
  simp [after, List.foldl_append]

/-- The requests of a dialogue with an instrument, in order. -/
def requestsOf {α : Type} [Link τ] (i : Instrument τ) : Dialogue α → List Request
  | .done _ => []
  | .ask request next =>
    request :: requestsOf (i.answer request).2 (next (i.answer request).1)

/-- A dialogue acts on the instrument only by its requests. -/
theorem converse_eq_after {α : Type} [Link τ] (i : Instrument τ) (d : Dialogue α) :
    (i.converse d).2 = i.after (i.requestsOf d) := by
  induction d generalizing i with
  | done a => rfl
  | ask request next ih => exact ih (i.answer request).1 (i.answer request).2

/-- The instrument after a session over a link has begun. -/
def attached (i : Instrument τ) (address : String) (link : τ) : Instrument τ :=
  i.enter (.connected address link)

/-- What an operation of the link does to an instrument with a session over it. -/
theorem onLink_connected {α : Type} {i : Instrument τ} {address : String} {link : τ}
    (hsession : i.session = .connected address link) (absent : α)
    (operation : τ → Except IoError α × τ) :
    onLink absent operation i =
      match operation link with
      | (.ok a, link') => .ok a { i with session := .connected address link' }
      | (.error e, link') => .error (.io e) { i with session := .connected address link' } := by
  obtain ⟨session, pending, order, released⟩ := i
  obtain rfl : session = .connected address link := hsession
  rfl

/-! ## The sending operations step by step -/

section Steps

variable [Link τ] {i : Instrument τ}

theorem terminatePending_idle (h : i.pendingTerminator = false) :
    terminatePending i = .ok () i := by
  unfold terminatePending
  rw [bind_get, h]
  rfl

theorem terminatePending_due (h : i.pendingTerminator = true) :
    terminatePending i = write [terminator] false { i with pendingTerminator := false } := by
  unfold terminatePending
  rw [bind_get, h]
  rfl

/-- An empty command completes nothing. -/
theorem command_empty (flush : Bool) :
    command "" flush i = (write [] flush >>= fun _ => setPending (!flush)) i := rfl

theorem command_text {text : String} (h : text ≠ "") (flush : Bool) :
    command text flush i =
      (terminatePending >>= fun _ =>
        write (Utf8.encode text) flush >>= fun _ => setPending (!flush)) i := by
  unfold command
  rw [if_pos h]

/-- The part of a block that follows the pending terminator. -/
def sendSamples (lead : String) (samples : List Binary32) : InstrumentM τ Unit := do
  if !samples.isEmpty then
    let message ← ofBlock (Block.encodeSampleBlock lead samples (← get).byteOrder)
    write message true
    write (Utf8.encode waitCommand) true
    setPending false

theorem sendBlock_of_not_dryRun (h : i.isDryRun = false) (lead : String)
    (samples : List Binary32) :
    sendBlock lead samples i = (terminatePending >>= fun _ => sendSamples lead samples) i := by
  unfold sendBlock
  rw [bind_get, h]
  rfl

/-- An empty vector is no message. -/
theorem sendSamples_nil (lead : String) : sendSamples lead [] i = .ok () i := rfl

/-- A vector whose block cannot be written is no message either. -/
theorem sendSamples_error {lead : String} {samples : List Binary32} {e : Block.BlockError}
    (hne : samples ≠ [])
    (henc : Block.encodeSampleBlock lead samples i.byteOrder = .error e) :
    sendSamples lead samples i = .error (.block e) i := by
  obtain ⟨x, rest, rfl⟩ := List.exists_cons_of_ne_nil hne
  unfold sendSamples
  rw [if_pos (show (!(x :: rest).isEmpty) = true from rfl), bind_get, henc]
  rfl

/-- A block goes out with the command to wait for it. -/
theorem sendSamples_ok {lead : String} {samples : List Binary32} {message : Bytes}
    (hne : samples ≠ [])
    (henc : Block.encodeSampleBlock lead samples i.byteOrder = .ok message) :
    sendSamples lead samples i =
      (write message true >>= fun _ =>
        write (Utf8.encode waitCommand) true >>= fun _ => setPending false) i := by
  obtain ⟨x, rest, rfl⟩ := List.exists_cons_of_ne_nil hne
  unfold sendSamples
  rw [if_pos (show (!(x :: rest).isEmpty) = true from rfl), bind_get, henc]
  rfl

/-- With a session, a vector goes out as a block and the answer says so. -/
theorem outcome_sendFloats (h : i.isOpen = true) (lead : String) (samples : List Binary32) :
    outcome (sendFloats lead samples) i =
      ((outcome (sendBlock lead samples) i).1.map fun _ => true,
        (outcome (sendBlock lead samples) i).2) := by
  have hopen : sendFloats lead samples i = (sendBlock lead samples >>= fun _ => pure true) i := by
    unfold sendFloats
    rw [bind_get, h]
    rfl
  unfold outcome
  rw [hopen]
  rcases hsend : sendBlock lead samples i with ⟨_, i'⟩ | ⟨e, i'⟩
  · rw [bind_of_ok hsend]
    rfl
  · rw [bind_of_error hsend]
    rfl

/-- With a session, a counted parameter goes out as a command of its own, unless there is
no place for its count or the count cannot be written. -/
theorem outcome_sendParameter (h : i.isOpen = true) (text : String) :
    outcome (sendParameter text) i =
      match Block.encodeParameterBlock text with
      | .error e => (.error (.block e), i)
      | .ok none => (.ok false, i)
      | .ok (some encoded) =>
        ((outcome (command encoded true) i).1.map fun _ => true,
          (outcome (command encoded true) i).2) := by
  unfold outcome sendParameter
  rw [bind_get, h, if_pos rfl]
  rcases Block.encodeParameterBlock text with e | _ | encoded
  · rfl
  · rfl
  · rw [bind_of_ok (show ofBlock (.ok (some encoded)) i = .ok (some encoded) i from rfl)]
    dsimp only
    rcases hcommand : command encoded true i with ⟨_, i'⟩ | ⟨e, i'⟩
    · rw [bind_of_ok hcommand]
      rfl
    · rw [bind_of_error hcommand]
      rfl

theorem outcome_query (text : String) :
    outcome (query text) i =
      match command text true i with
      | .ok () i' => outcome (onLink noErrorReply Link.readLine) i'
      | .error e i' => (.error e, i') := by
  unfold outcome query
  rcases h : command text true i with ⟨_, i'⟩ | ⟨e, i'⟩
  · rw [bind_of_ok h]
  · rw [bind_of_error h]

end Steps

variable [RecordingLink τ]

/-- The frames on the link of the session; none without a link. -/
def frames (i : Instrument τ) : List Frame :=
  match i.link? with
  | some link => RecordingLink.frames link
  | none => []

/-- A session over a link, with the frames that the link holds, whether a
terminator is pending and the order of the bytes of a sample. -/
structure Online (i : Instrument τ) (frames : List Frame) (pending : Bool)
    (order : Block.ByteOrder) : Prop where
  session : ∃ address link, i.session = .connected address link ∧
    RecordingLink.frames link = frames
  pending : i.pendingTerminator = pending
  order : i.byteOrder = order

theorem Online.frames_eq {i : Instrument τ} {fs : List Frame} {pending : Bool}
    {order : Block.ByteOrder} (h : i.Online fs pending order) : i.frames = fs := by
  obtain ⟨address, link, hsession, hframes⟩ := h.session
  simp only [frames, link?, hsession, hframes]

theorem Online.isDryRun_eq {i : Instrument τ} {fs : List Frame} {pending : Bool}
    {order : Block.ByteOrder} (h : i.Online fs pending order) : i.isDryRun = false := by
  obtain ⟨address, link, hsession, -⟩ := h.session
  rw [isDryRun, hsession]

theorem Online.isOpen_eq {i : Instrument τ} {fs : List Frame} {pending : Bool}
    {order : Block.ByteOrder} (h : i.Online fs pending order) : i.isOpen = true := by
  obtain ⟨address, link, hsession, -⟩ := h.session
  rw [isOpen, hsession]

theorem online_attached (i : Instrument τ) (address : String) (link : τ) :
    (i.attached address link).Online (RecordingLink.frames link) false i.byteOrder :=
  ⟨⟨address, link, rfl, rfl⟩, rfl, rfl⟩

/-- A write leaves its frame and succeeds, or leaves nothing and fails. -/
theorem write_online {i : Instrument τ} {fs : List Frame} {pending : Bool}
    {order : Block.ByteOrder} (h : i.Online fs pending order) (data : Bytes) (final : Bool) :
    (∃ i', write data final i = .ok () i' ∧ i'.Online (fs ++ [⟨data, final⟩]) pending order) ∨
      (∃ e i', write data final i = .error e i' ∧ i'.Online fs pending order) := by
  obtain ⟨⟨address, link, hsession, rfl⟩, hpending, horder⟩ := h
  unfold write
  rw [onLink_connected hsession]
  rcases hwrite : Link.write link ⟨data, final⟩ with ⟨e | _, link'⟩
  · right
    refine ⟨.io e, _, rfl, ⟨address, link', rfl, ?_⟩, hpending, horder⟩
    exact RecordingLink.frames_of_error hwrite
  · left
    refine ⟨_, rfl, ⟨address, link', rfl, ?_⟩, hpending, horder⟩
    exact RecordingLink.frames_of_ok hwrite

/-- Reading leaves the frames and the pending terminator as they are. -/
theorem read_online {i : Instrument τ} {fs : List Frame} {pending : Bool}
    {order : Block.ByteOrder} (h : i.Online fs pending order) (absent : String) :
    (outcome (onLink absent Link.readLine) i).2.Online fs pending order := by
  obtain ⟨⟨address, link, hsession, rfl⟩, hpending, horder⟩ := h
  unfold outcome
  rw [onLink_connected hsession]
  rcases hread : Link.readLine link with ⟨e | line, link'⟩
  all_goals
    exact ⟨⟨address, link', rfl, RecordingLink.frames_of_read hread⟩, hpending, horder⟩

theorem setPending_online {i : Instrument τ} {fs : List Frame} {pending : Bool}
    {order : Block.ByteOrder} (h : i.Online fs pending order) (value : Bool) :
    ∃ i', setPending value i = .ok () i' ∧ i'.Online fs value order :=
  ⟨_, rfl, h.session, rfl, h.order⟩

end Instrument

end ScpiScript
