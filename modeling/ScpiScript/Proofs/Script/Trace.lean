import ScpiScript.Proofs.Script.Action
import ScpiScript.Proofs.Source.Reading
/-!
# Runs over what was read, and their moments

Running a source takes turns with reading it. What is read does not depend on what
is run, so a run can be taken over a whole reading. Each item acted on is a moment of
the run, with the state before it and the state after it; the moments of an included
file come before that of its include line.

- `Interpreter.runReading` runs a reading, `runItems_eq_runReading` says that running
  a source is running its reading.
- `Interpreter.trace` lists the moments of a run.
- `forall_mem_trace` is what holds of every item acted on.
- `finalState_runReading`: a run ends in the state after its last moment.
-/

namespace ScpiScript

namespace Interpreter

variable {ε τ : Type} [Engine ε] [Link τ]

/-- Run what was read of a source with a tag. The result says whether the end of the
source was reached. -/
def runReading (runFile : String → RunM ε τ Unit) (tag : String) : Reading → RunM ε τ Bool
  | .finished => pure true
  | .failed cause => throw (.unreadable tag cause)
  | .item first rest => do
    if ← perform runFile tag first then runReading runFile tag rest else return false

/-- Run and forget the result. -/
def discard {α : Type} (act : RunM ε τ α) : RunM ε τ Unit := act >>= fun _ => pure ()

omit [Engine ε] [Link τ] in
theorem discard_of_ok {α : Type} {act : RunM ε τ α} {r r' : Interpreter ε τ} {a : α}
    (h : act r = .ok a r') : discard act r = .ok () r' := bind_of_ok h

omit [Engine ε] [Link τ] in
theorem discard_of_error {α : Type} {act : RunM ε τ α} {r r' : Interpreter ε τ} {e : RunError}
    (h : act r = .error e r') : discard act r = .error e r' := bind_of_error h

omit [Engine ε] [Link τ] in
theorem finalState_discard {α : Type} (act : RunM ε τ α) (r : Interpreter ε τ) :
    finalState (discard act r) = finalState (act r) := by
  rcases h : act r with ⟨a, r'⟩ | ⟨e, r'⟩
  · rw [discard_of_ok h]
    rfl
  · rw [discard_of_error h]
    rfl

/-- An item leaves the state that its action leaves, whether or not it ends its source. -/
theorem finalState_perform (runFile : String → RunM ε τ Unit) (tag : String) (item : Item)
    (r : Interpreter ε τ) :
    finalState (perform runFile tag item r) = finalState (action runFile tag item r) := by
  by_cases hend : item.directive = some .terminate
  · rw [perform_terminate runFile tag hend, action, hend]
    rfl
  · rw [perform_eq runFile tag hend]
    rcases haction : action runFile tag item r with ⟨_, r'⟩ | ⟨e, r'⟩
    · rw [bind_of_ok haction]
      rfl
    · rw [bind_of_error haction]
      rfl

/-! ## One item of a source -/

section Items

variable {runFile : String → RunM ε τ Unit} {source rest : Source}

theorem runItems_of_error {e : IoError} (h : source.readItem = (.error e, rest)) :
    runItems runFile source = throw (.unreadable source.tag e) := by
  rw [runItems]
  split <;> simp_all

theorem runItems_of_none (h : source.readItem = (.ok none, rest)) :
    runItems runFile source = pure rest := by
  rw [runItems]
  split <;> simp_all

theorem runItems_of_item {item : Item} (h : source.readItem = (.ok (some item), rest)) :
    runItems runFile source = (perform runFile source.tag item >>= fun goesOn =>
      if goesOn then runItems runFile rest else pure rest) := by
  rw [runItems]
  split <;> simp_all

end Items

/-- What running gives does not depend on how far the source was read meanwhile. -/
theorem runItems_eq_runReading (runFile : String → RunM ε τ Unit) (source : Source) :
    discard (runItems runFile source) = discard (runReading runFile source.tag source.reading) := by
  -- by the number of lines left to read, as the run itself recurses
  induction hlength : source.remaining.length using Nat.strongRecOn generalizing source with
  | ind k ih =>
    rcases hitem : source.readItem with ⟨e | _ | item, rest⟩
    · rw [Source.reading_of_error hitem, runItems_of_error hitem]
      rfl
    · rw [Source.reading_of_none hitem, runItems_of_none hitem]
      rfl
    · have hrest : rest.remaining.length < k := by
        rw [← hlength]
        exact Source.length_readItem hitem
      have htag : rest.tag = source.tag := by
        rw [← Source.tag_readItem source, hitem]
      have hih := ih _ hrest rest rfl
      rw [htag] at hih
      rw [Source.reading_of_item hitem, runItems_of_item hitem]
      funext r
      unfold discard
      rw [runReading, bind_assoc, bind_assoc]
      rcases hperform : perform runFile source.tag item r with ⟨goesOn, r'⟩ | ⟨e, r'⟩
      · rw [bind_of_ok hperform, bind_of_ok hperform]
        cases goesOn with
        | true => exact congrFun hih r'
        | false => rfl
      · rw [bind_of_error hperform, bind_of_error hperform]

theorem runReading_item {runFile : String → RunM ε τ Unit} {tag : String} {first : Item}
    {rest : Reading} {r r' : Interpreter ε τ} {goesOn : Bool}
    (h : perform runFile tag first r = .ok goesOn r') :
    runReading runFile tag (.item first rest) r =
      if goesOn then runReading runFile tag rest r' else .ok false r' := by
  rw [runReading, bind_of_ok h]
  cases goesOn <;> rfl

theorem runReading_item_error {runFile : String → RunM ε τ Unit} {tag : String} {first : Item}
    {rest : Reading} {r r' : Interpreter ε τ} {e : RunError}
    (h : perform runFile tag first r = .error e r') :
    runReading runFile tag (.item first rest) r = .error e r' := by
  rw [runReading, bind_of_error h]

/-- One reading after another is run after it, unless that one is stopped. -/
theorem runReading_append (runFile : String → RunM ε τ Unit) (tag : String) (x y : Reading) :
    runReading runFile tag (x.append y) =
      (runReading runFile tag x >>= fun ended =>
        if ended then runReading runFile tag y else pure false) := by
  induction x with
  | finished => rfl
  | failed cause => rfl
  | item first rest ih =>
    funext r
    rw [Reading.append]
    rcases hperform : perform runFile tag first r with ⟨goesOn, r'⟩ | ⟨e, r'⟩
    · rw [runReading_item hperform]
      cases goesOn with
      | true =>
        rw [if_pos rfl, ih, runReading, bind_assoc, bind_of_ok hperform]
        rfl
      | false =>
        rw [runReading, bind_assoc, bind_of_ok hperform]
        rfl
    · rw [runReading_item_error hperform, bind_of_error (runReading_item_error hperform)]

/-- A file that can be opened is run like a source. -/
theorem runPath_opened {files : FileTree} {path : String} {source : Source} (limit : Nat)
    (h : Source.openPath files path = .ok source) :
    runPath files (limit + 1) path =
      (discard (runItems (runPath files limit) source) : RunM ε τ Unit) := by
  rw [runPath, h]
  rfl

/-- A file that can be opened is run over its reading. -/
theorem runPath_of_ok {files : FileTree} {path : String} {source : Source} (limit : Nat)
    (h : Source.openPath files path = .ok source) :
    runPath files (limit + 1) path =
      (discard (runReading (runPath files limit) source.tag source.reading) :
        RunM ε τ Unit) := by
  rw [← runItems_eq_runReading, runPath_opened limit h]

theorem runPath_of_error {files : FileTree} {path : String} {e : IoError} (limit : Nat)
    (h : Source.openPath files path = .error e) :
    runPath files (limit + 1) path = (throw (.unopened path e) : RunM ε τ Unit) := by
  rw [runPath, h]

/-! ## Moments -/

/-- An item acted on, the tag of its source, and the states before and after. -/
structure Moment (ε τ : Type) where
  tag : String
  item : Item
  before : Interpreter ε τ
  after : Interpreter ε τ

/-- The moments of acting on an item: those of the file it includes, and its own. -/
def traceItem (runFile : String → RunM ε τ Unit)
    (traceFile : String → Interpreter ε τ → List (Moment ε τ)) (tag : String) (item : Item)
    (r : Interpreter ε τ) : List (Moment ε τ) :=
  (match item.included? with
    | some path => traceFile path r
    | none => []) ++ [⟨tag, item, r, finalState (perform runFile tag item r)⟩]

/-- The moments of running a reading. -/
def traceReading (runFile : String → RunM ε τ Unit)
    (traceFile : String → Interpreter ε τ → List (Moment ε τ)) (tag : String) :
    Reading → Interpreter ε τ → List (Moment ε τ)
  | .finished, _ => []
  | .failed _, _ => []
  | .item first rest, r =>
    traceItem runFile traceFile tag first r ++
      match perform runFile tag first r with
      | .ok true r' => traceReading runFile traceFile tag rest r'
      | _ => []

/-- The moments of running the file at a path. -/
def tracePath (files : FileTree) : Nat → String → Interpreter ε τ → List (Moment ε τ)
  | 0, _, _ => []
  | limit + 1, path, r =>
    match Source.openPath files path with
    | .error _ => []
    | .ok source =>
      traceReading (runPath files limit) (tracePath files limit) source.tag source.reading r

/-- The moments of running a source, in the order in which items are done with. -/
def trace (files : FileTree) (limit : Nat) (source : Source) (r : Interpreter ε τ) :
    List (Moment ε τ) :=
  traceReading (runPath files limit) (tracePath files limit) source.tag source.reading r

/-- Whether a terminator is pending after an item. -/
def Moment.pending (m : Moment ε τ) : Bool := m.after.instrument.pendingTerminator

/-- What an item asked of the instrument when it was acted on. -/
def Moment.requests (m : Moment ε τ) : List Request := m.before.requests m.tag m.item

/-! ### What holds of all moments -/

section All

variable {p : Moment ε τ → Prop}

theorem forall_mem_traceReading
    (hperformed : ∀ (runFile : String → RunM ε τ Unit) (tag : String) (item : Item)
      (r : Interpreter ε τ), p ⟨tag, item, r, finalState (perform runFile tag item r)⟩)
    (runFile : String → RunM ε τ Unit)
    {traceFile : String → Interpreter ε τ → List (Moment ε τ)}
    (hfiles : ∀ path r, ∀ m ∈ traceFile path r, p m) (tag : String) (reading : Reading)
    (r : Interpreter ε τ) : ∀ m ∈ traceReading runFile traceFile tag reading r, p m := by
  induction reading generalizing r with
  | finished => exact fun m hm => by cases hm
  | failed cause => exact fun m hm => by cases hm
  | item first rest ih =>
    intro m hm
    rw [traceReading, List.mem_append] at hm
    rcases hm with hm | hm
    · rw [traceItem, List.mem_append, List.mem_singleton] at hm
      rcases hm with hm | rfl
      · split at hm
        · exact hfiles _ r m hm
        · cases hm
      · exact hperformed runFile tag first r
    · split at hm
      · exact ih _ m hm
      · cases hm

/-- What holds of an item and the states before and after it whenever one is acted on
holds of all moments of a run. -/
theorem forall_mem_trace
    (hperformed : ∀ (runFile : String → RunM ε τ Unit) (tag : String) (item : Item)
      (r : Interpreter ε τ), p ⟨tag, item, r, finalState (perform runFile tag item r)⟩)
    (files : FileTree) (limit : Nat) (source : Source) (r : Interpreter ε τ) :
    ∀ m ∈ trace files limit source r, p m := by
  have hpath : ∀ limit path (s : Interpreter ε τ), ∀ m ∈ tracePath files limit path s, p m := by
    intro limit
    induction limit with
    | zero => exact fun path s m hm => by cases hm
    | succ limit ih =>
      intro path s m hm
      rw [tracePath] at hm
      split at hm
      · cases hm
      · exact forall_mem_traceReading hperformed _ ih _ _ s m hm
  exact forall_mem_traceReading hperformed _ (hpath limit) source.tag source.reading r

end All

/-- The state after the last moment, if there is any. -/
def lastState (r : Interpreter ε τ) (moments : List (Moment ε τ)) : Interpreter ε τ :=
  (moments.getLast?.map Moment.after).getD r

/-- A run ends in the state after its last moment. -/
theorem finalState_runReading (runFile : String → RunM ε τ Unit)
    (traceFile : String → Interpreter ε τ → List (Moment ε τ)) (tag : String)
    (reading : Reading) (r : Interpreter ε τ) :
    finalState (runReading runFile tag reading r) =
      r.lastState (traceReading runFile traceFile tag reading r) := by
  induction reading generalizing r with
  | finished => rfl
  | failed cause => rfl
  | item first rest ih =>
    -- the last moment is that of a later item, or else the one of this item
    have hlast : ∀ moments : List (Moment ε τ),
        r.lastState (traceItem runFile traceFile tag first r ++ moments) =
          (finalState (perform runFile tag first r)).lastState moments := by
      intro moments
      unfold traceItem lastState
      rw [List.getLast?_append, List.getLast?_append]
      cases moments.getLast? <;> rfl
    rw [traceReading, hlast]
    rcases hperform : perform runFile tag first r with ⟨goesOn, r'⟩ | ⟨e, r'⟩
    · rw [runReading_item hperform]
      cases goesOn with
      | true => exact ih r'
      | false => rfl
    · rw [runReading_item_error hperform]
      rfl

/-- Running a source ends in the state after its last moment. -/
theorem finalState_runSource (files : FileTree) (limit : Nat) (source : Source)
    (r : Interpreter ε τ) :
    finalState (runSource files limit source r) = r.lastState (trace files limit source r) := by
  unfold runSource trace
  rw [← finalState_discard, runItems_eq_runReading, finalState_discard]
  exact finalState_runReading _ _ _ _ r

end Interpreter

end ScpiScript
