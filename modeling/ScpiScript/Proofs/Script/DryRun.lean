import ScpiScript.Proofs.Instrument.Compliance
import ScpiScript.Proofs.Script.Indistinct
/-!
# The dry run is faithful

A script run without a link behaves as it would over a link that takes everything: it
prints the same, hands the same code to the engine, leaves the same scope and ends the
same way, and after each of its items the same terminator is pending.

- `SameProgress` says that two runs have come equally far.
- `Rehearses` adds that both sessions take everything. Items cannot tell such states
  apart, `indistinct_rehearses`, as long as their vectors fit into blocks.
- `dryRun_faithful` compares the runs of a script with all it includes.
-/

namespace ScpiScript

namespace Interpreter

variable {ε τ : Type}

/-- A state with another session. -/
def under (r : Interpreter ε τ) (session : Session τ) : Interpreter ε τ :=
  { r with instrument := { r.instrument with session } }

/-- Two runs have come equally far, whatever became of their sessions. -/
structure SameProgress (r s : Interpreter ε τ) : Prop where
  engine : r.engine = s.engine
  vectorName : r.vectorName = s.vectorName
  evaluated : r.evaluated = s.evaluated
  transcript : r.transcript = s.transcript
  pending : r.instrument.pendingTerminator = s.instrument.pendingTerminator

variable [Link τ]

/-- Two runs have come equally far in sessions that take everything. -/
structure Rehearses (r s : Interpreter ε τ) : Prop where
  progress : SameProgress r s
  left : r.instrument.Compliant r.instrument.pendingTerminator
  right : s.instrument.Compliant s.instrument.pendingTerminator

namespace Rehearses

variable {r s : Interpreter ε τ}

/-- Sessions that take everything stay so, and keep the same terminator pending. -/
theorem of_compliant {r s : Interpreter ε τ} {pending : Bool} (hengine : r.engine = s.engine)
    (hvector : r.vectorName = s.vectorName) (hevaluated : r.evaluated = s.evaluated)
    (htranscript : r.transcript = s.transcript) (hleft : r.instrument.Compliant pending)
    (hright : s.instrument.Compliant pending) : Rehearses r s where
  progress := ⟨hengine, hvector, hevaluated, htranscript, hleft.pending.trans hright.pending.symm⟩
  left := hleft.pending ▸ hleft
  right := hright.pending ▸ hright

theorem right_compliant (h : Rehearses r s) :
    s.instrument.Compliant r.instrument.pendingTerminator :=
  h.progress.pending ▸ h.right

theorem said (h : Rehearses r s) (report : Report) : Rehearses (r.said report) (s.said report) := by
  refine of_compliant h.progress.engine h.progress.vectorName h.progress.evaluated ?_ h.left
    h.right_compliant
  show r.transcript ++ [report] = s.transcript ++ [report]
  rw [h.progress.transcript]

theorem asked (h : Rehearses r s) {request : Request} (hfits : request.Fits) :
    (r.instrument.answer request).1 = (s.instrument.answer request).1 ∧
      Rehearses (r.withInstrument (r.instrument.answer request).2)
        (s.withInstrument (s.instrument.answer request).2) := by
  obtain ⟨i, hanswer, hi⟩ := Instrument.answer_compliant h.left hfits
  obtain ⟨j, hanswer', hj⟩ := Instrument.answer_compliant h.right_compliant hfits
  rw [hanswer, hanswer']
  exact ⟨rfl, of_compliant h.progress.engine h.progress.vectorName h.progress.evaluated
    h.progress.transcript hi hj⟩

theorem ran [Engine ε] (h : Rehearses r s) (block : CodeBlock)
    (hfits : ∀ request ∈ r.instrument.requestsOf (Engine.execute r.engine block.code block.chunk),
      request.Fits) :
    (r.ran block).1 = (s.ran block).1 ∧ Rehearses (r.ran block).2 (s.ran block).2 := by
  obtain ⟨hresult, pending, hleft, hright⟩ :=
    Instrument.converse_compliant h.left h.right_compliant _ hfits
  have hended := congrArg Prod.fst hresult
  have hengine := congrArg Prod.snd hresult
  have hevaluated : r.evaluated ++ [block] = s.evaluated ++ [block] := by
    rw [h.progress.evaluated]
  rw [h.progress.engine] at hended hengine hleft hright
  unfold Interpreter.ran
  rw [h.progress.engine]
  exact ⟨hended, of_compliant hengine h.progress.vectorName hevaluated h.progress.transcript
    hleft hright⟩

end Rehearses

variable [Engine ε]

/-- Items whose vectors fit into blocks cannot tell a dry run from a link that takes
everything. -/
theorem indistinct_rehearses :
    Indistinct (Rehearses (ε := ε) (τ := τ))
      (fun tag line tag' line' => tag = tag' ∧ line = line') Request.Fits where
  isOpen h := h.left.isOpen.trans h.right.isOpen.symm
  lookup h name := by rw [h.progress.engine]
  vectorName h := h.progress.vectorName
  said report h := h.said report
  saidBadBlock place snippet hplace h := by
    obtain ⟨rfl, rfl⟩ := hplace
    rw [h.progress.evaluated]
    exact h.said _
  asked request hfits h := h.asked hfits
  ran code hplace hfits h := by
    obtain ⟨rfl, rfl⟩ := hplace
    exact h.ran _ hfits

/-- What an item asked of the instrument fits. -/
def Moment.Fits (m : Moment ε τ) : Prop := ∀ request ∈ m.requests, request.Fits

instance (m : Moment ε τ) : Decidable m.Fits :=
  inferInstanceAs (Decidable (∀ request ∈ m.requests, request.Fits))

/-- The comparison of a dry run with a run over a link. -/
theorem simulation_rehearses :
    Simulation (Rehearses (ε := ε) (τ := τ)) Eq Eq Simulation.SameItem Moment.Fits :=
  .ofItems fun _ _ runFile runFile' hstate hincluded hfits =>
    indistinct_rehearses.perform (fun _ => rfl) hstate ⟨rfl, rfl⟩ rfl hincluded hfits
      runFile runFile'

/-- A script is run alike without a link and over a link that takes everything, with all
it includes, if no vector is longer than a block can be: both runs end the same way and
equally far, and after each item the same terminator is pending. -/
theorem dryRun_faithful (files : FileTree) (limit : Nat) (source : Source)
    (r : Interpreter ε τ) (address : String) {link : τ} (hlink : Obliging link)
    (hvectors : ∀ m ∈ trace files limit source (r.under .dryRun), m.Fits) :
    Corresponds Eq Eq SameProgress
        (discard (runSource files limit source) (r.under .dryRun))
        (discard (runSource files limit source) (r.under (.connected address link))) ∧
      (trace files limit source (r.under .dryRun)).map Moment.pending =
        (trace files limit source (r.under (.connected address link))).map Moment.pending := by
  have hstart : Rehearses (r.under .dryRun) (r.under (.connected address link)) :=
    .of_compliant rfl rfl rfl rfl ⟨.inl rfl, rfl⟩ ⟨.inr ⟨address, link, rfl, hlink⟩, rfl⟩
  obtain ⟨hrun, htrace⟩ := simulation_rehearses.sameSource files limit source hstart hvectors
  refine ⟨hrun.imp (fun _ _ h => h) (fun _ _ h => h) fun _ _ h => h.progress, ?_⟩
  exact map_eq_of_moments (fun _ _ hmoment => hmoment.after.progress.pending) htrace

/-- A file with a buffered command. -/
def setupFiles : FileTree := ⟨[], [(["setup"], .file (Utf8.encode "&VOLT 1\n"))]⟩

/-- A script that includes it, asks for errors and sends a vector. -/
def measurement : Source :=
  .ofText "<script>" "<setup\n?SYST:ERR?\n@DATA:DAC VOLATILE\n"

/-- A run about to begin with a vector of two samples in its scope. -/
def readyToMeasure : Interpreter Store AgreeableLink :=
  .new (Store.empty.set defaultVector (.vector [⟨0⟩, ⟨0⟩])) (.new .little)

theorem dryRun_faithful_measurement :
    (∀ m ∈ trace setupFiles openLimit measurement (readyToMeasure.under .dryRun), m.Fits) ∧
      Corresponds Eq Eq SameProgress
        (discard (runSource setupFiles openLimit measurement) (readyToMeasure.under .dryRun))
        (discard (runSource setupFiles openLimit measurement)
          (readyToMeasure.under (.connected "localhost" ⟨[]⟩))) ∧
      (trace setupFiles openLimit measurement
          (readyToMeasure.under (.connected "localhost" ⟨[]⟩))).map Moment.pending =
        [true, true, false, false] := by
  have hvectors : ∀ m ∈ trace setupFiles openLimit measurement (readyToMeasure.under .dryRun),
      m.Fits := by decide +kernel
  obtain ⟨hrun, hpending⟩ := dryRun_faithful setupFiles openLimit measurement readyToMeasure
    "localhost" (AgreeableLink.obliging ⟨[]⟩) hvectors
  refine ⟨hvectors, hrun, ?_⟩
  rw [← hpending]
  decide +kernel

end Interpreter

end ScpiScript
