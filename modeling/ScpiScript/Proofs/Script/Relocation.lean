import ScpiScript.Proofs.Script.Indistinct
/-!
# Scripts at another place

The same items may stand in another source or on other lines. The places show in the
name under which code is run, in reports of code that cannot be read and in errors, and
nowhere else, if the engine does not let the name of its code show.

- `ChunkBlind` is what such an engine has to satisfy.
- `SameWork` and `SameRoot` compare two runs except for the places.
- `simulation_sameWork` is the comparison of items with the same directives, and
  `corresponds_relocated` that of all items of two readings.
-/

namespace ScpiScript

/-- Two dialogues make the same requests whatever the answers, and end in related
results. -/
inductive Dialogue.Matches {α β : Type} (A : α → β → Prop) : Dialogue α → Dialogue β → Prop
  | done {a : α} {b : β} (result : A a b) : Matches A (.done a) (.done b)
  | ask (request : Request) {next : request.Answer → Dialogue α}
      {next' : request.Answer → Dialogue β}
      (rest : ∀ answer, Matches A (next answer) (next' answer)) :
      Matches A (.ask request next) (.ask request next')

/-- The instrument cannot tell such dialogues apart. -/
theorem Instrument.converse_matches {α β τ : Type} [Link τ] {A : α → β → Prop} {d : Dialogue α}
    {d' : Dialogue β} (h : d.Matches A d') (i : Instrument τ) :
    A (i.converse d).1 (i.converse d').1 ∧ (i.converse d).2 = (i.converse d').2 := by
  induction h generalizing i with
  | done result => exact ⟨result, rfl⟩
  | ask request _ ih =>
    rw [converse, converse]
    exact ih (i.answer request).1 (i.answer request).2

/-- Engines that do not let the names of the code they run show: engines that are alike
hold the same scope, and code makes the same requests of the instrument under any names,
ends the same way and leaves them alike. -/
structure ChunkBlind {ε : Type} [Engine ε] (alike : ε → ε → Prop) : Prop where
  lookup : ∀ {e e'}, alike e e' → ∀ name, Scope.lookup e name = Scope.lookup e' name
  execute : ∀ {e e'}, alike e e' → ∀ code chunk chunk',
    (Engine.execute e code chunk).Matches (fun x y => x.1 = y.1 ∧ alike x.2 y.2)
      (Engine.execute e' code chunk')

/-- The names under which an engine of assignments was given its code do not show. -/
theorem Assigner.chunkBlind :
    ChunkBlind fun a b : Assigner =>
      a.store = b.store ∧ a.received.map CodeBlock.code = b.received.map CodeBlock.code where
  lookup := by
    rintro a b ⟨hstore, -⟩ name
    show a.store.get? name = b.store.get? name
    rw [hstore]
  execute := by
    rintro a b ⟨hstore, hreceived⟩ code chunk chunk'
    refine .done ⟨?_, ?_, ?_⟩
    · rw [hstore]
    · rw [hstore]
    · rw [List.map_append, List.map_append, hreceived]
      rfl

/-- A message without the place of the code it reports. -/
def Report.unplaced : Report → Report
  | badBlock at_ _ _ block snippet => badBlock at_ 0 "" block snippet
  | report => report

namespace RunError

/-- An error without the tag of the source it is about. -/
def untagged : RunError → RunError
  | unreadable _ cause => unreadable "" cause
  | e => e

/-- Two errors have the same innermost error, its tag aside. -/
def SameRoot (e e' : RunError) : Prop := e.root.untagged = e'.root.untagged

end RunError

namespace Interpreter

variable {ε τ : Type}

/-- Two runs have done the same, the places of their items aside. -/
structure SameWork (alike : ε → ε → Prop) (r s : Interpreter ε τ) : Prop where
  engine : alike r.engine s.engine
  instrument : r.instrument = s.instrument
  vectorName : r.vectorName = s.vectorName
  evaluated : r.evaluated.map CodeBlock.code = s.evaluated.map CodeBlock.code
  transcript : r.transcript.map Report.unplaced = s.transcript.map Report.unplaced

namespace SameWork

variable {alike : ε → ε → Prop} {r s : Interpreter ε τ}

/-- As much code was run, so the next block has the same number. -/
theorem evaluated_length (h : SameWork alike r s) : r.evaluated.length = s.evaluated.length := by
  have hlength := congrArg List.length h.evaluated
  rwa [List.length_map, List.length_map] at hlength

theorem said (h : SameWork alike r s) {report report' : Report}
    (hreport : report.unplaced = report'.unplaced) :
    SameWork alike (r.said report) (s.said report') := by
  refine ⟨h.engine, h.instrument, h.vectorName, h.evaluated, ?_⟩
  show (r.transcript ++ [report]).map _ = (s.transcript ++ [report']).map _
  rw [List.map_append, List.map_append, h.transcript, List.map_singleton, List.map_singleton,
    hreport]

theorem ran [Engine ε] [Link τ] (hblind : ChunkBlind alike) (h : SameWork alike r s)
    (code chunk chunk' : String) :
    (r.ran ⟨chunk, code⟩).1 = (s.ran ⟨chunk', code⟩).1 ∧
      SameWork alike (r.ran ⟨chunk, code⟩).2 (s.ran ⟨chunk', code⟩).2 := by
  obtain ⟨⟨hresult, hengine⟩, hinstrument⟩ :=
    Instrument.converse_matches (hblind.execute h.engine code chunk chunk') r.instrument
  have hevaluated : (r.evaluated ++ [CodeBlock.mk chunk code]).map CodeBlock.code =
      (s.evaluated ++ [CodeBlock.mk chunk' code]).map CodeBlock.code := by
    rw [List.map_append, List.map_append, h.evaluated]
    rfl
  unfold Interpreter.ran
  -- both dialogues are held with the same instrument
  rw [← h.instrument]
  exact ⟨hresult, hengine, hinstrument, h.vectorName, hevaluated, h.transcript⟩

end SameWork

variable [Engine ε] [Link τ] {alike : ε → ε → Prop}

theorem indistinct_sameWork (hblind : ChunkBlind alike) :
    Indistinct (SameWork (τ := τ) alike) (fun _ _ _ _ => True) (fun _ => True) where
  isOpen h := by rw [h.instrument]
  lookup h := hblind.lookup h.engine
  vectorName h := h.vectorName
  said report h := h.said rfl
  saidBadBlock place snippet _ h := by
    rw [h.evaluated_length]
    exact h.said rfl
  asked request _ h := by
    unfold asked
    rw [h.instrument]
    exact ⟨rfl, h.engine, rfl, h.vectorName, h.evaluated, h.transcript⟩
  ran code _ _ h := h.ran hblind code _ _

/-- The comparison of runs at different places: items with the same directives, in
sources of any tags. -/
theorem simulation_sameWork (hblind : ChunkBlind alike) :
    Simulation (SameWork (τ := τ) alike) RunError.SameRoot (fun _ _ => True)
      (fun _ a _ b => a.SameDirective b) (fun _ => True) where
  step runFile runFile' hstate hitems hincluded _ :=
    (indistinct_sameWork hblind).perform
      (fun message => show RunError.SameRoot (.exit message) (.exit message) from rfl)
      hstate trivial hitems hincluded (fun _ _ => trivial) runFile runFile'
  included hitems := by rw [Item.included?, Item.included?, hitems]
  nested _ herror := herror
  unreadable _ _ := rfl
  unopened _ _ := rfl

/-- Readings with the same directives are run alike under any tags. -/
theorem corresponds_relocated (hblind : ChunkBlind alike) (files : FileTree) (limit : Nat)
    (tag tag' : String) {x y : Reading} (hreadings : x.Matches Item.SameDirective y)
    {r s : Interpreter ε τ} (hstate : SameWork alike r s) :
    Corresponds Eq RunError.SameRoot (SameWork alike)
      (runReading (runPath files limit) tag x r) (runReading (runPath files limit) tag' y s) := by
  have sim := simulation_sameWork (τ := τ) hblind
  have hopen : ∀ path, OpensAlike (fun _ _ => True) (fun _ a _ b => a.SameDirective b)
      (Source.openPath files path) (Source.openPath files path) :=
    fun path => .refl (fun _ => trivial) (fun _ _ => rfl) _
  exact (sim.runReading (sim.runPath hopen limit) trivial hreadings hstate fun _ _ => trivial).1

end Interpreter

end ScpiScript
