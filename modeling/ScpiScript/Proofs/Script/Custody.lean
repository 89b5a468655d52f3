import ScpiScript.Proofs.Instrument.Custody
import ScpiScript.Proofs.Script.Nesting
import ScpiScript.Proofs.Script.Simulation
/-!
# Links over a whole session history

A host begins and ends sessions, sends, and has scripts interpreted, in any order. As long
as it begins no session while another holds a link, every link it ever attached is closed
once, by the time the instrument is given up, and not used after that.

- `Job` is what a host can have interpreted. `Sustained.job`: what every use of the link
  keeps, a job keeps.
- `SessionStep` is one step of a host, `Orderly` the histories in which no session over a
  link is replaced by another.
- `links_closedOnce` is the account of the links of an orderly history.
-/

namespace ScpiScript

/-! ## Jobs -/

/-- What a host can have interpreted. -/
inductive Job
  | source (files : FileTree) (limit : Nat) (source : Source)
  | file (files : FileTree) (limit : Nat) (path : String)
  | argument (code : String) (index : Nat)

namespace Interpreter

variable {ε τ : Type} [Engine ε] [Link τ]

/-- Interpret something. -/
def runJob : Job → RunM ε τ Unit
  | .source files limit source => discard (runSource files limit source)
  | .file files limit path => runPath files limit path
  | .argument code index => evaluateArgument code index

variable {P : Instrument τ → Prop} {mayFail : Prop}

/-- A run compared with itself: what every use of the link keeps, every item keeps. -/
theorem simulation_sustained (hP : Instrument.Sustained P mayFail) :
    Simulation (fun r s : Interpreter ε τ => r = s ∧ P r.instrument) Eq Eq
      Simulation.SameItem fun _ => True := by
  refine .ofItems ?_
  rintro r _ tag item runFile runFile' ⟨rfl, hr⟩ hincluded -
  have hsame : perform runFile tag item = perform runFile' tag item :=
    perform_congr tag fun path hpath => by
      rw [hincluded] at hpath
      cases hpath
  rw [← hsame]
  refine corresponds_self (P := fun r => P r.instrument) ?_
  rw [finalState_perform, instrument_action runFile tag hincluded]
  exact hP.after hr _

theorem instrument_evaluateArgument (code : String) (index : Nat) (r : Interpreter ε τ) :
    (finalState (evaluateArgument code index r)).instrument =
      (r.ran ⟨s!"argument {index}", code⟩).2.instrument := by
  unfold evaluateArgument
  rw [bind_of_ok (runCode_eq r _)]
  rcases (r.ran ⟨s!"argument {index}", code⟩).1 with e | _
  · cases e <;> rfl
  · rfl

end Interpreter

namespace Instrument.Sustained

open Interpreter

variable {ε τ : Type} [Engine ε] [Link τ] {P : Instrument τ → Prop} {mayFail : Prop}

/-- What every use of the link keeps, a job keeps, with all it includes and whatever code
asks for. -/
theorem job (hP : Sustained P mayFail) (job : Job) {r : Interpreter ε τ} (h : P r.instrument) :
    P (finalState (runJob job r)).instrument := by
  cases job with
  | source files limit source =>
    have hrun := ((simulation_sustained hP).sameSource files limit source ⟨rfl, h⟩
      fun _ _ => trivial).1
    exact hrun.finalState.2
  | file files limit path =>
    have hrun := ((simulation_sustained hP).sameFiles files limit path r r ⟨rfl, h⟩
      fun _ _ => trivial).1
    exact hrun.finalState.2
  | argument code index =>
    show P (finalState (evaluateArgument code index r)).instrument
    rw [instrument_evaluateArgument]
    show P (r.instrument.converse _).2
    rw [Instrument.converse_eq_after]
    exact hP.after h _

end Instrument.Sustained

/-! ## Histories of sessions -/

/-- One step of a host with an instrument whose links keep an account. -/
inductive SessionStep (ε τ : Type)
  | attach (address : String) (link : τ)
  /-- Begin the session that an address names, a host being reached as `dial` says. -/
  | connect (dial : String → Nat → Except IoError τ) (address : String)
  | close
  | send (request : Request)
  /-- Have something interpreted, in any scope and whatever has been printed before. -/
  | interpret (run : Interpreter ε (Journal τ)) (job : Job)

namespace SessionStep

variable {ε τ : Type}

/-- The link that a step begins a session over, if it begins one. -/
def attached? : SessionStep ε τ → Option τ
  | attach _ link => some link
  | connect dial address =>
    match Address.ofText? address with
    | some (.socket host port) => (dial host port).toOption
    | _ => none
  | _ => none

/-- A step that is to begin a session. -/
def Begins : SessionStep ε τ → Prop
  | attach _ _ => True
  | connect _ _ => True
  | _ => False

variable [Engine ε] [Link τ]

/-- The instrument after a step, whether or not the step fails. -/
def apply (i : Instrument (Journal τ)) : SessionStep ε τ → Instrument (Journal τ)
  | attach address link => finalState (Instrument.attach address (Journal.fresh link) i)
  | connect dial address =>
    finalState (Instrument.connect (fun host port => (dial host port).map .fresh) address i)
  | close => finalState (Instrument.close i)
  | send request => (i.answer request).2
  | interpret run job => (finalState (Interpreter.runJob job (run.withInstrument i))).instrument

/-- A step either begins a session, which takes the place of the one before, or ends it, or
uses its link, or does nothing. -/
theorem apply_cases (i : Instrument (Journal τ)) (step : SessionStep ε τ) :
    (∃ session, step.apply i = i.enter session ∧ step.Begins ∧
        (i.enter session).link?.toList = step.attached?.toList.map .fresh) ∨
      (step.apply i = finalState (Instrument.close i) ∧ step.attached? = none) ∨
      (i.Uses (step.apply i) ∧ step.attached? = none) := by
  cases step with
  | attach address link => exact .inl ⟨.connected address (.fresh link), rfl, trivial, rfl⟩
  | connect dial address =>
    rcases haddress : Address.ofText? address with _ | _ | ⟨host, port⟩
    all_goals simp only [apply, attached?, Instrument.connect, haddress]
    · exact .inr (.inr ⟨.refl i, trivial⟩)
    · exact .inl ⟨.dryRun, rfl, trivial, rfl⟩
    · rcases dial host port with e | link
      · exact .inr (.inr ⟨.refl i, rfl⟩)
      · exact .inl ⟨.connected address (.fresh link), rfl, trivial, rfl⟩
  | close => exact .inr (.inl ⟨rfl, rfl⟩)
  | send request =>
    exact .inr (.inr ⟨(i.sustained_uses.answer (.refl i) request).1, rfl⟩)
  | interpret run job =>
    exact .inr (.inr ⟨i.sustained_uses.job job (.refl i), rfl⟩)

/-- In a step only the link attached last is used, and the others stay as they are. -/
theorem apply_sparesOlder (i : Instrument (Journal τ)) (step : SessionStep ε τ) :
    i.SparesOlder (step.apply i) := by
  rcases step.apply_cases i with ⟨session, happly, -, -⟩ | ⟨happly, -⟩ | ⟨huses, -⟩
  · rw [happly]
    exact i.sparesOlder_enter session
  · rw [happly]
    exact i.sparesOlder_close
  · exact huses.sparesOlder

/-- A step keeps the account, if it does not begin a session while a link is held. -/
theorem apply_holds {i : Instrument (Journal τ)} {attached : List τ} (h : i.Holds attached)
    (step : SessionStep ε τ) (hfree : step.Begins → i.link? = none) :
    (step.apply i).Holds (attached ++ step.attached?.toList) := by
  rcases step.apply_cases i with ⟨session, happly, hbegins, hbegun⟩ | ⟨happly, hnone⟩ |
    ⟨huses, hnone⟩
  · rw [happly]
    exact h.enter (hfree hbegins) hbegun
  · rw [happly, hnone, Option.toList_none, List.append_nil]
    exact h.close
  · rw [hnone, Option.toList_none, List.append_nil]
    exact h.uses huses

end SessionStep

section Histories

variable {ε τ : Type} [Engine ε] [Link τ]

/-- The instrument after the steps of a host, in order. -/
def afterSteps (i : Instrument (Journal τ)) (steps : List (SessionStep ε τ)) :
    Instrument (Journal τ) :=
  steps.foldl SessionStep.apply i

/-- No session is begun while another holds a link. -/
def Orderly : Instrument (Journal τ) → List (SessionStep ε τ) → Prop
  | _, [] => True
  | i, step :: rest => (step.Begins → i.link? = none) ∧ Orderly (step.apply i) rest

/-- An orderly history keeps the account of all links. -/
theorem afterSteps_holds {i : Instrument (Journal τ)} {attached : List τ}
    (h : i.Holds attached) (steps : List (SessionStep ε τ)) (horderly : Orderly i steps) :
    (afterSteps i steps).Holds (attached ++ steps.filterMap SessionStep.attached?) := by
  induction steps generalizing i attached with
  | nil =>
    rw [List.filterMap_nil, List.append_nil]
    exact h
  | cons step rest ih =>
    obtain ⟨hfree, hrest⟩ := horderly
    have hafter := ih (step.apply_holds h hfree) hrest
    rw [List.append_assoc] at hafter
    have hattached : step.attached?.toList ++ rest.filterMap SessionStep.attached? =
        (step :: rest).filterMap SessionStep.attached? := by
      rw [List.filterMap_cons]
      cases step.attached? <;> rfl
    rwa [hattached] at hafter

/-- In a history that begins no session while another holds a link, every link attached is
closed once by the time the instrument is given up, and not used after that, whatever fails
meanwhile; in each step only the link attached last is used.

Besides, a session that is ended is closed with nothing pending even if closing the link
fails, an address that cannot be read changes nothing, and nothing that is interpreted
changes the kind of the session or its address. -/
theorem links_closedOnce (order : Block.ByteOrder) (steps : List (SessionStep ε τ))
    (horderly : Orderly (.new order) steps) :
    ((afterSteps (.new order) steps).dispose.links.map Journal.origin =
        steps.filterMap SessionStep.attached? ∧
      ∀ j ∈ (afterSteps (.new order) steps).dispose.links, j.ClosedOnce) ∧
    (∀ (i : Instrument (Journal τ)) (step : SessionStep ε τ), i.SparesOlder (step.apply i)) ∧
    (∀ i : Instrument τ, (finalState (Instrument.close i)).session = .closed ∧
      (finalState (Instrument.close i)).pendingTerminator = false) ∧
    (∀ (i : Instrument τ) (dial : String → Nat → Except IoError τ) (address : String),
      Address.ofText? address = none →
      Instrument.connect dial address i = .error (.unsupportedAddress address) i) ∧
    (∀ (job : Job) (r : Interpreter ε τ),
      (finalState (Interpreter.runJob job r)).instrument.session.shape =
        r.instrument.session.shape) := by
  refine ⟨?_, fun i step => step.apply_sparesOlder i, Instrument.close_closes, ?_, ?_⟩
  · exact (afterSteps_holds (.new order) steps horderly).dispose
  · intro i dial address haddress
    rw [Instrument.connect, haddress]
    rfl
  · intro job r
    exact (r.instrument.sustained_uses.job job (.refl r.instrument)).shape

/-- A link that takes one write and cannot be closed without a failure. -/
def brittleLink : FaultyLink := { FaultyLink.fresh.failAfter (some 1) with closeFails := true }

/-- A run that is about to begin, with an instrument of its own. -/
def idleRun : Interpreter Assigner (Journal FaultyLink) := .new .fresh (.new .little)

/-- Two sessions, of which the first is ended by hand, and an address that cannot be read
between them. -/
def twoSessions : List (SessionStep Assigner FaultyLink) :=
  [.attach "bench" brittleLink, .send (.command "*RST" false),
    .interpret idleRun (.argument "x = 1" 1), .send (.command "*CLS" true), .close,
    .connect (fun _ _ => .ok .fresh) "no host", .connect (fun _ _ => .ok .fresh) "host:5025",
    .interpret idleRun (.source ⟨[], []⟩ Interpreter.openLimit (.ofText "<script>" "!*RST\n"))]

theorem links_closedOnce_twoSessions :
    Orderly (.new .little) twoSessions ∧
      (∀ j ∈ (afterSteps (.new .little) twoSessions).dispose.links, j.ClosedOnce) ∧
      (afterSteps (.new .little) twoSessions).dispose.links.map Journal.uses =
        [[.write ⟨Utf8.encode "*RST", false⟩, .write ⟨[terminator], false⟩, .close],
          [.write ⟨Utf8.encode "*RST", true⟩, .close]] := by
  have horderly : Orderly (.new .little) twoSessions := by
    refine ⟨fun _ => ?_, fun h => h.elim, fun h => h.elim, fun h => h.elim, fun h => h.elim,
      fun _ => ?_, fun _ => ?_, fun h => h.elim, trivial⟩
    all_goals decide +kernel
  exact ⟨horderly, (links_closedOnce .little twoSessions horderly).1.2, by decide +kernel⟩

end Histories

end ScpiScript
