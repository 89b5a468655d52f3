import Mathlib.Data.List.Forall2
import ScpiScript.Proofs.Script.Trace
/-!
# Two runs side by side

Two runs, over engines, links, files and sources that may differ, are compared item by
item. If every pair of corresponding items acted on in related states succeeds or fails
alike and leaves related states, so do the runs as a whole, through all files they
include, and their moments correspond one to one.

- `Simulation` is what has to hold of single items, of errors and of tags.
- `Simulation.runReading`, `Simulation.runPath` and `Simulation.runSource` are the runs;
  `Simulation.sameFiles` and `Simulation.sameSource` are runs of the same script.
-/

namespace ScpiScript

namespace Interpreter

variable {ε τ ε' τ' : Type} [Engine ε] [Link τ] [Engine ε'] [Link τ']

/-- What a comparison of two runs asks of single items: those of the left run whose
moments satisfy `G` are matched by those of the right run.

The relations are between states (`R`), errors (`E`), tags of sources (`T`) and items
with their tags (`I`). -/
structure Simulation (R : Interpreter ε τ → Interpreter ε' τ' → Prop)
    (E : RunError → RunError → Prop) (T : String → String → Prop)
    (I : String → Item → String → Item → Prop) (G : Moment ε τ → Prop) : Prop where
  step : ∀ {tag tag' item item' r r'} (runFile : String → RunM ε τ Unit)
    (runFile' : String → RunM ε' τ' Unit), R r r' → I tag item tag' item' →
    item.included? = none → G ⟨tag, item, r, finalState (perform runFile tag item r)⟩ →
    Corresponds Eq E R (perform runFile tag item r) (perform runFile' tag' item' r')
  included : ∀ {tag tag' item item'}, I tag item tag' item' →
    item.included? = item'.included?
  nested : ∀ {tag tag' item item' e e'}, I tag item tag' item' → E e e' →
    E (.nested tag item.line e) (.nested tag' item'.line e')
  unreadable : ∀ {tag tag'} cause, T tag tag' → E (.unreadable tag cause) (.unreadable tag' cause)
  unopened : ∀ path cause, E (.unopened path cause) (.unopened path cause)

/-- Two sources correspond, or neither can be opened. -/
inductive OpensAlike (T : String → String → Prop) (I : String → Item → String → Item → Prop) :
    Except IoError Source → Except IoError Source → Prop
  | error (cause : IoError) : OpensAlike T I (.error cause) (.error cause)
  | ok {s s' : Source} (tags : T s.tag s'.tag)
      (readings : s.reading.Matches (fun a b => I s.tag a s'.tag b) s'.reading) :
      OpensAlike T I (.ok s) (.ok s')

theorem OpensAlike.refl {T : String → String → Prop} {I : String → Item → String → Item → Prop}
    (htags : ∀ tag, T tag tag) (hitems : ∀ tag item, I tag item tag item)
    (opened : Except IoError Source) : OpensAlike T I opened opened := by
  cases opened with
  | error cause => exact .error cause
  | ok source => exact .ok (htags source.tag) (.refl (hitems source.tag) source.reading)

/-- Two moments correspond in what is acted on and in the states before and after. -/
structure MomentMatch (R : Interpreter ε τ → Interpreter ε' τ' → Prop)
    (I : String → Item → String → Item → Prop) (m : Moment ε τ) (m' : Moment ε' τ') : Prop where
  items : I m.tag m.item m'.tag m'.item
  before : R m.before m'.before
  after : R m.after m'.after

omit [Engine ε] [Link τ] [Engine ε'] [Link τ'] in
/-- What corresponding moments have in common is the same all along. -/
theorem map_eq_of_moments {α : Type} {R : Interpreter ε τ → Interpreter ε' τ' → Prop}
    {I : String → Item → String → Item → Prop} {f : Moment ε τ → α} {g : Moment ε' τ' → α}
    (hview : ∀ m m', MomentMatch R I m m' → f m = g m') {ms : List (Moment ε τ)}
    {ms' : List (Moment ε' τ')} (h : List.Forall₂ (MomentMatch R I) ms ms') :
    ms.map f = ms'.map g := by
  induction h with
  | nil => rfl
  | cons hmoment _ ih => rw [List.map_cons, List.map_cons, hview _ _ hmoment, ih]

omit [Engine ε] [Link τ] [Engine ε'] [Link τ'] in
/-- Failures below corresponding include lines correspond. -/
theorem corresponds_within {α : Type} {R : Interpreter ε τ → Interpreter ε' τ' → Prop}
    {E : RunError → RunError → Prop} {act : RunM ε τ α} {act' : RunM ε' τ' α}
    {r : Interpreter ε τ} {r' : Interpreter ε' τ'} {tag tag' : String} {line line' : Nat}
    (h : Corresponds Eq E R (act r) (act' r'))
    (hnested : ∀ e e', E e e' → E (.nested tag line e) (.nested tag' line' e')) :
    Corresponds Eq E R (within tag line act r) (within tag' line' act' r') := by
  unfold within
  rcases hleft : act r with ⟨a, s⟩ | ⟨e, s⟩ <;> rcases hright : act' r' with ⟨b, s'⟩ | ⟨e', s'⟩
  all_goals
    rw [hleft, hright] at h
    cases h
  · rename_i hresult hstate
    exact .ok hresult hstate
  · rename_i hcause hstate
    exact .error (hnested e e' hcause) hstate

omit [Engine ε] [Link τ] [Engine ε'] [Link τ'] in
/-- Forgetting results keeps outcomes corresponding. -/
theorem corresponds_discard {α β : Type} {A : α → β → Prop}
    {R : Interpreter ε τ → Interpreter ε' τ' → Prop} {E : RunError → RunError → Prop}
    {act : RunM ε τ α} {act' : RunM ε' τ' β} {r : Interpreter ε τ} {r' : Interpreter ε' τ'}
    (h : Corresponds A E R (act r) (act' r')) :
    Corresponds Eq E R (discard act r) (discard act' r') :=
  h.bind fun _ _ _ _ _ _ _ hstate => .ok rfl hstate

omit [Engine ε] [Link τ] in
/-- An outcome corresponds to itself, with what holds of the state it leaves. -/
theorem corresponds_self {α : Type} {P : Interpreter ε τ → Prop}
    {result : EStateM.Result RunError (Interpreter ε τ) α} (h : P (finalState result)) :
    Corresponds Eq Eq (fun r s => r = s ∧ P r) result result := by
  cases result with
  | ok a r => exact .ok rfl ⟨rfl, h⟩
  | error e r => exact .error rfl ⟨rfl, h⟩

namespace Simulation

variable {R : Interpreter ε τ → Interpreter ε' τ' → Prop} {E : RunError → RunError → Prop}
  {T : String → String → Prop} {I : String → Item → String → Item → Prop}
  {G : Moment ε τ → Prop}

/-- Two ways to run files correspond, from related states and as long as the moments of
the left one are good. -/
def FilesMatch (R : Interpreter ε τ → Interpreter ε' τ' → Prop) (E : RunError → RunError → Prop)
    (I : String → Item → String → Item → Prop) (G : Moment ε τ → Prop)
    (runFile : String → RunM ε τ Unit) (runFile' : String → RunM ε' τ' Unit)
    (traceFile : String → Interpreter ε τ → List (Moment ε τ))
    (traceFile' : String → Interpreter ε' τ' → List (Moment ε' τ')) : Prop :=
  ∀ path r r', R r r' → (∀ m ∈ traceFile path r, G m) →
    Corresponds Eq E R (runFile path r) (runFile' path r') ∧
      List.Forall₂ (MomentMatch R I) (traceFile path r) (traceFile' path r')

section Runs

variable {runFile : String → RunM ε τ Unit} {runFile' : String → RunM ε' τ' Unit}
  {traceFile : String → Interpreter ε τ → List (Moment ε τ)}
  {traceFile' : String → Interpreter ε' τ' → List (Moment ε' τ')}

/-- One item, with the file it may include. -/
theorem item (sim : Simulation R E T I G)
    (hfiles : FilesMatch R E I G runFile runFile' traceFile traceFile')
    {tag tag' : String} {a b : Item} (hitems : I tag a tag' b)
    {r : Interpreter ε τ} {r' : Interpreter ε' τ'} (hstate : R r r')
    (hgood : ∀ m ∈ traceItem runFile traceFile tag a r, G m) :
    Corresponds Eq E R (perform runFile tag a r) (perform runFile' tag' b r') ∧
      List.Forall₂ (MomentMatch R I) (traceItem runFile traceFile tag a r)
        (traceItem runFile' traceFile' tag' b r') := by
  unfold traceItem at hgood ⊢
  have hincluded := sim.included hitems
  rcases hpath : a.included? with _ | path
  · rw [hpath] at hgood hincluded
    rw [← hincluded]
    have hstep := sim.step runFile runFile' hstate hitems hpath (hgood _ (by simp))
    exact ⟨hstep, .cons ⟨hitems, hstate, hstep.finalState⟩ .nil⟩
  · -- the file comes first, then the moment of the include line
    rw [hpath] at hgood hincluded
    rw [← hincluded]
    obtain ⟨hrun, htrace⟩ := hfiles path r r' hstate fun m hm =>
      hgood m (List.mem_append_left _ hm)
    have hperform : Corresponds Eq E R (perform runFile tag a r)
        (perform runFile' tag' b r') := by
      rw [perform_of_included runFile tag hpath, perform_of_included runFile' tag' hincluded.symm]
      refine (corresponds_within hrun fun e e' => sim.nested hitems).bind ?_
      intro _ _ _ _ _ _ _ hafter
      exact .ok rfl hafter
    refine ⟨hperform, ?_⟩
    exact List.rel_append htrace (.cons ⟨hitems, hstate, hperform.finalState⟩ .nil)

/-- Corresponding readings are run alike from related states. -/
theorem runReading (sim : Simulation R E T I G)
    (hfiles : FilesMatch R E I G runFile runFile' traceFile traceFile')
    {tag tag' : String} (htags : T tag tag') {x y : Reading}
    (hreadings : x.Matches (fun a b => I tag a tag' b) y)
    {r : Interpreter ε τ} {r' : Interpreter ε' τ'} (hstate : R r r')
    (hgood : ∀ m ∈ traceReading runFile traceFile tag x r, G m) :
    Corresponds Eq E R (Interpreter.runReading runFile tag x r)
        (Interpreter.runReading runFile' tag' y r') ∧
      List.Forall₂ (MomentMatch R I) (traceReading runFile traceFile tag x r)
        (traceReading runFile' traceFile' tag' y r') := by
  induction hreadings generalizing r r' with
  | finished => exact ⟨.ok rfl hstate, .nil⟩
  | failed cause => exact ⟨.error (sim.unreadable cause htags) hstate, .nil⟩
  | item hitems _ ih =>
    rw [traceReading] at hgood
    obtain ⟨hperform, htrace⟩ := sim.item hfiles hitems hstate fun m hm =>
      hgood m (List.mem_append_left _ hm)
    rw [traceReading, traceReading]
    rename_i a b _ _ _
    -- corresponding outcomes are both results or both errors
    rcases hleft : perform runFile tag a r with ⟨goesOn, s⟩ | ⟨e, s⟩ <;>
      rcases hright : perform runFile' tag' b r' with ⟨goesOn', s'⟩ | ⟨e', s'⟩
    all_goals
      rw [hleft, hright] at hperform
      rw [hleft] at hgood
    · cases hperform with
      | ok hresult hafter =>
        subst hresult
        rw [runReading_item hleft, runReading_item hright]
        cases goesOn with
        | false => exact ⟨.ok rfl hafter, List.rel_append htrace .nil⟩
        | true =>
          obtain ⟨hrun, hrest⟩ := ih hafter fun m hm => hgood m (List.mem_append_right _ hm)
          exact ⟨hrun, List.rel_append htrace hrest⟩
    · cases hperform
    · cases hperform
    · cases hperform with
      | error hcause hafter =>
        rw [runReading_item_error hleft, runReading_item_error hright]
        exact ⟨.error hcause hafter, List.rel_append htrace .nil⟩

end Runs

/-- Corresponding files are run alike, with all they include. -/
theorem runPath (sim : Simulation R E T I G) {files files' : FileTree}
    (hopen : ∀ path, OpensAlike T I (Source.openPath files path) (Source.openPath files' path))
    (limit : Nat) :
    FilesMatch R E I G (Interpreter.runPath files limit) (Interpreter.runPath files' limit)
      (tracePath files limit) (tracePath files' limit) := by
  induction limit with
  | zero =>
    intro path r r' hstate _
    exact ⟨.error (sim.unopened path .tooManyOpen) hstate, .nil⟩
  | succ limit ih =>
    intro path r r' hstate hgood
    rw [tracePath] at hgood ⊢
    rw [tracePath]
    have hsources := hopen path
    rcases hleft : Source.openPath files path with cause | source <;>
      rcases hright : Source.openPath files' path with cause' | source'
    all_goals
      rw [hleft, hright] at hsources
      rw [hleft] at hgood
    · cases hsources
      rw [runPath_of_error limit hleft, runPath_of_error limit hright]
      exact ⟨.error (sim.unopened path _) hstate, .nil⟩
    · cases hsources
    · cases hsources
    · cases hsources with
      | ok htags hreadings =>
        obtain ⟨hrun, htrace⟩ := sim.runReading ih htags hreadings hstate hgood
        rw [runPath_of_ok limit hleft, runPath_of_ok limit hright]
        exact ⟨corresponds_discard hrun, htrace⟩

/-- Corresponding sources are run alike, with all they include. -/
theorem runSource (sim : Simulation R E T I G) {files files' : FileTree}
    (hopen : ∀ path, OpensAlike T I (Source.openPath files path) (Source.openPath files' path))
    (limit : Nat) {source source' : Source} (htags : T source.tag source'.tag)
    (hreadings : source.reading.Matches (fun a b => I source.tag a source'.tag b) source'.reading)
    {r : Interpreter ε τ} {r' : Interpreter ε' τ'} (hstate : R r r')
    (hgood : ∀ m ∈ trace files limit source r, G m) :
    Corresponds Eq E R (discard (Interpreter.runSource files limit source) r)
        (discard (Interpreter.runSource files' limit source') r') ∧
      List.Forall₂ (MomentMatch R I) (trace files limit source r)
        (trace files' limit source' r') := by
  obtain ⟨hrun, htrace⟩ := sim.runReading (sim.runPath hopen limit) htags hreadings hstate hgood
  unfold Interpreter.runSource
  rw [runItems_eq_runReading, runItems_eq_runReading]
  exact ⟨corresponds_discard hrun, htrace⟩

/-! ## Runs of the same script -/

/-- The same item in the same source. -/
def SameItem (tag : String) (a : Item) (tag' : String) (b : Item) : Prop := tag = tag' ∧ a = b

/-- Two runs of the same script are compared by what single items do. -/
theorem ofItems {R : Interpreter ε τ → Interpreter ε' τ' → Prop} {G : Moment ε τ → Prop}
    (hstep : ∀ {r r'} (tag : String) (item : Item) (runFile : String → RunM ε τ Unit)
      (runFile' : String → RunM ε' τ' Unit), R r r' → item.included? = none →
      G ⟨tag, item, r, finalState (perform runFile tag item r)⟩ →
      Corresponds Eq Eq R (perform runFile tag item r) (perform runFile' tag item r')) :
    Simulation R Eq Eq SameItem G where
  step runFile runFile' hstate hitems hincluded hgood := by
    obtain ⟨rfl, rfl⟩ := hitems
    exact hstep _ _ runFile runFile' hstate hincluded hgood
  included hitems := by rw [hitems.2]
  nested hitems herror := by rw [hitems.1, hitems.2, herror]
  unreadable cause htags := by rw [htags]
  unopened path cause := rfl

section Same

variable {R : Interpreter ε τ → Interpreter ε' τ' → Prop} {G : Moment ε τ → Prop}

theorem sameFiles (sim : Simulation R Eq Eq SameItem G) (files : FileTree) (limit : Nat) :
    FilesMatch R Eq SameItem G (Interpreter.runPath files limit) (Interpreter.runPath files limit)
      (tracePath files limit) (tracePath files limit) :=
  sim.runPath (fun _ => .refl (fun _ => rfl) (fun _ _ => ⟨rfl, rfl⟩) _) limit

theorem sameSource (sim : Simulation R Eq Eq SameItem G) (files : FileTree) (limit : Nat)
    (source : Source) {r : Interpreter ε τ} {r' : Interpreter ε' τ'} (hstate : R r r')
    (hgood : ∀ m ∈ trace files limit source r, G m) :
    Corresponds Eq Eq R (discard (Interpreter.runSource files limit source) r)
        (discard (Interpreter.runSource files limit source) r') ∧
      List.Forall₂ (MomentMatch R SameItem) (trace files limit source r)
        (trace files limit source r') :=
  sim.runSource (fun _ => .refl (fun _ => rfl) (fun _ _ => ⟨rfl, rfl⟩) _) limit rfl
    (.refl (fun _ => ⟨rfl, rfl⟩) source.reading) hstate hgood

end Same

end Simulation

end Interpreter

end ScpiScript
