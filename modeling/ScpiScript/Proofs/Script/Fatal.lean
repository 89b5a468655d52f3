import ScpiScript.Proofs.Script.Printing
import ScpiScript.Proofs.Source.Position
/-!
# Fatal events

A file that cannot be opened, a line that cannot be read and an exit that code asks for
end a run at every level. The error names the include lines below which it happened, and
nothing is done after it.

- `Fatal` says that a run comes to a fatal event: in which state, and below which include
  lines.
- `RunError.under` is an event wrapped by the places of include lines.
- `perform_error`: an item fails with the file it includes or by an exit, and in no other
  way.
- `fatal_iff`: a run fails exactly at its fatal event, with the event under the places of
  all include lines that lead to it, and in the state of the event.
-/

namespace ScpiScript

/-- Reading an item fails in its logical line, or in the block of code that this begins. -/
theorem Source.readItem_error_iff {s rest : Source} {cause : IoError} :
    s.readItem = (.error cause, rest) ↔
      s.readLogical = (.error cause, rest) ∨
        ∃ line t, s.readLogical = (.ok (some line), t) ∧
          Directive.ofLine? line.text = some (.evaluate "") ∧
          t.readBlock = (.error cause, rest) := by
  rcases hline : s.readLogical with ⟨e | _ | line, t⟩
  · simp [readItem, hline]
  · simp [readItem, hline]
  · by_cases hbegins : Directive.ofLine? line.text = some (.evaluate "")
    · rcases hblock : t.readBlock with ⟨e | code, u⟩
      · simp only [readItem, hline, hbegins, hblock, Except.map]
        constructor
        · intro h
          cases h
          exact .inr ⟨line, t, rfl, hbegins, hblock⟩
        · rintro (h | ⟨_, _, h, -, hfail⟩)
          · cases h
          · cases h
            cases hblock.symm.trans hfail
            rfl
      · simp [readItem, hline, hbegins, hblock, Except.map]
    · simp [readItem, hline, hbegins]

namespace RunError

/-- An error that no include line has been added to. -/
def IsRoot : RunError → Prop
  | nested _ _ _ => False
  | _ => True

/-- An event below the include lines at the given places, the outermost first. -/
def under (chain : List (String × Nat)) (event : RunError) : RunError :=
  chain.foldr (fun place e => .nested place.1 place.2 e) event

@[simp] theorem under_nil (event : RunError) : event.under [] = event := rfl

@[simp] theorem under_cons (tag : String) (line : Nat) (chain : List (String × Nat))
    (event : RunError) : event.under ((tag, line) :: chain) = .nested tag line (event.under chain) :=
  rfl

theorem chain_under {event : RunError} (h : event.IsRoot) (chain : List (String × Nat)) :
    (event.under chain).chain = chain := by
  induction chain with
  | nil => cases event <;> first | rfl | cases h
  | cons place rest ih => rw [under_cons, RunError.chain, ih]

theorem root_under {event : RunError} (h : event.IsRoot) (chain : List (String × Nat)) :
    (event.under chain).root = event := by
  induction chain with
  | nil => cases event <;> first | rfl | cases h
  | cons place rest ih => rw [under_cons, RunError.root, ih]

/-- An error is told apart by its event and its places. -/
theorem under_inj {event event' : RunError} {chain chain' : List (String × Nat)}
    (hroot : event.IsRoot) (hroot' : event'.IsRoot) (h : event.under chain = event'.under chain') :
    event = event' ∧ chain = chain' := by
  have hevent := congrArg RunError.root h
  have hchain := congrArg RunError.chain h
  rw [root_under hroot, root_under hroot'] at hevent
  rw [chain_under hroot, chain_under hroot'] at hchain
  exact ⟨hevent, hchain⟩

end RunError

namespace Interpreter

variable {ε τ : Type} [Engine ε] [Link τ]

/-- Opening a file when so many can still be opened. -/
def openWithin (files : FileTree) : Nat → String → Except IoError Source
  | 0, _ => .error .tooManyOpen
  | _ + 1, path => Source.openPath files path

/-- From a state, with so many lines of a source read, a run comes to a fatal event below
the include lines at some places; the last state is that of the event. -/
inductive Fatal (files : FileTree) : Nat → Source → Nat → Interpreter ε τ →
    List (String × Nat) → RunError → Interpreter ε τ → Prop
  /-- The next logical line cannot be read. -/
  | line {limit k : Nat} {source rest : Source} {r : Interpreter ε τ} {cause : IoError}
      (hline : (source.skip k).readLogical = (.error cause, rest)) :
      Fatal files limit source k r [] (.unreadable source.tag cause) r
  /-- The next logical line begins a block of code, and a line of it cannot be read. -/
  | block {limit k : Nat} {source rest rest' : Source} {r : Interpreter ε τ} {cause : IoError}
      {line : LogicalLine} (hline : (source.skip k).readLogical = (.ok (some line), rest))
      (hbegins : Directive.ofLine? line.text = some (.evaluate ""))
      (hblock : rest.readBlock = (.error cause, rest')) :
      Fatal files limit source k r [] (.unreadable source.tag cause) r
  /-- The code of the next item asks for an exit, which is reported. -/
  | exit {limit k : Nat} {source rest : Source} {r r' : Interpreter ε τ} {item : Item}
      {code message : String} (hitem : (source.skip k).readItem = (.ok (some item), rest))
      (hcode : item.directive = some (.evaluate code)) (hne : code ≠ "")
      (hexit : r.ran ⟨chunkName source.tag item.line, code⟩ = (.error (.exit message), r')) :
      Fatal files limit source k r [] (.exit message) (r'.said (.exit message))
  /-- The next item includes a file that cannot be opened. -/
  | unopened {limit k m : Nat} {source : Source} {r : Interpreter ε τ} {item : Item}
      {path : String} {cause : IoError}
      (hitem : (source.skip k).readItem = (.ok (some item), source.skip m))
      (hpath : item.included? = some path) (hopen : openWithin files limit path = .error cause) :
      Fatal files limit source k r [(source.tag, source.lineNo + m)] (.unopened path cause) r
  /-- The next item includes a file in which the event happens. -/
  | inside {limit k m : Nat} {source inner : Source} {r s : Interpreter ε τ} {item : Item}
      {path : String} {chain : List (String × Nat)} {event : RunError}
      (hitem : (source.skip k).readItem = (.ok (some item), source.skip m))
      (hpath : item.included? = some path) (hopen : Source.openPath files path = .ok inner)
      (hinner : Fatal files limit inner 0 r chain event s) :
      Fatal files (limit + 1) source k r ((source.tag, source.lineNo + m) :: chain) event s
  /-- The next item is done with, and the event happens later. -/
  | later {limit k m : Nat} {source : Source} {r r' s : Interpreter ε τ} {item : Item}
      {chain : List (String × Nat)} {event : RunError}
      (hitem : (source.skip k).readItem = (.ok (some item), source.skip m))
      (hdone : perform (runPath files limit) source.tag item r = .ok true r')
      (hlater : Fatal files limit source m r' chain event s) :
      Fatal files limit source k r chain event s

theorem Fatal.isRoot {files : FileTree} {limit k : Nat} {source : Source}
    {r s : Interpreter ε τ} {chain : List (String × Nat)} {event : RunError}
    (h : Fatal files limit source k r chain event s) : event.IsRoot := by
  induction h with
  | inside _ _ _ _ ih => exact ih
  | later _ _ _ ih => exact ih
  | _ => trivial

/-- The number of an include line is the count of physical lines up to its last one. -/
theorem line_of_included {source : Source} {k m : Nat} {item : Item} {path : String}
    (hitem : (source.skip k).readItem = (.ok (some item), source.skip m))
    (hpath : item.included? = some path) : item.line = source.lineNo + m := by
  obtain ⟨count, hrest, hline⟩ := Source.readItem_skip hitem
  have hplace : source.lineNo + m = source.lineNo + k + count := congrArg Source.lineNo hrest
  rw [hplace]
  refine hline fun code hcode => ?_
  rw [Item.included?, hcode] at hpath
  cases hpath

/-! ## Where an item fails -/

section Item

variable (r : Interpreter ε τ)

/-- Code fails only by asking for an exit. -/
theorem evaluate_error {tag : String} {line : Nat} {code : String} {e : RunError}
    {s : Interpreter ε τ} (h : evaluate tag line code r = .error e s) :
    code ≠ "" ∧ ∃ message r', r.ran ⟨chunkName tag line, code⟩ = (.error (.exit message), r') ∧
      e = .exit message ∧ s = r'.said (.exit message) := by
  have hne : code ≠ "" := by
    rintro rfl
    cases h
  rw [evaluate_eq r tag line hne] at h
  rcases hran : r.ran ⟨chunkName tag line, code⟩ with ⟨result, r'⟩
  rw [hran] at h
  rcases result with failure | _
  · cases failure with
    | badCode at_ column snippet => cases h
    | failure message => cases h
    | exit message =>
      cases h
      exact ⟨hne, message, r', rfl, rfl, rfl⟩
  · cases h

/-- An item fails with the file it includes, or by an exit that its code asks for. -/
theorem perform_error {runFile : String → RunM ε τ Unit} {tag : String} {item : Item}
    {e : RunError} {s : Interpreter ε τ} (h : perform runFile tag item r = .error e s) :
    (∃ path cause, item.included? = some path ∧ runFile path r = .error cause s ∧
        e = .nested tag item.line cause) ∨
      ∃ code message r', item.directive = some (.evaluate code) ∧ code ≠ "" ∧
        r.ran ⟨chunkName tag item.line, code⟩ = (.error (.exit message), r') ∧
        e = .exit message ∧ s = r'.said (.exit message) := by
  rcases hpath : item.included? with _ | path
  · right
    by_cases hend : item.directive = some .terminate
    · rw [perform_terminate runFile tag hend] at h
      cases h
    rw [perform_eq runFile tag hend] at h
    by_cases hcode : ∃ code, item.directive = some (.evaluate code)
    · obtain ⟨code, hd⟩ := hcode
      rcases hact : action runFile tag item r with ⟨_, r'⟩ | ⟨e', s'⟩
      · rw [bind_of_ok hact] at h
        cases h
      · rw [bind_of_error hact] at h
        cases h
        rw [action, hd] at hact
        obtain ⟨hne, message, r', hran, he, hs⟩ := evaluate_error r hact
        exact ⟨code, message, r', hd, hne, hran, he, hs⟩
    · -- all but code succeeds
      have hok := action_eq_ok r runFile tag hpath fun code hd => hcode ⟨code, hd⟩
      rw [bind_of_ok hok] at h
      cases h
  · left
    rcases hrun : runFile path r with ⟨_, r'⟩ | ⟨cause, s'⟩
    · rw [perform_ok_of_included tag hpath hrun] at h
      cases h
    · rw [perform_error_of_included tag hpath hrun] at h
      cases h
      exact ⟨path, cause, rfl, hrun, rfl⟩

/-- An exit that its code asks for is a failure of an item, after it was reported. -/
theorem perform_error_of_exit (runFile : String → RunM ε τ Unit) {tag : String} {item : Item}
    {code message : String} {r' : Interpreter ε τ}
    (hcode : item.directive = some (.evaluate code)) (hne : code ≠ "")
    (hexit : r.ran ⟨chunkName tag item.line, code⟩ = (.error (.exit message), r')) :
    perform runFile tag item r = .error (.exit message) (r'.said (.exit message)) := by
  have hend : item.directive ≠ some .terminate := by
    rw [hcode]
    exact fun h => by cases h
  rw [perform_eq runFile tag hend, bind_of_error]
  rw [action, hcode]
  dsimp only
  rw [evaluate_eq r tag item.line hne, hexit]

end Item

/-! ## Runs that fail -/

/-- A run fails at its fatal event, and does nothing after it. -/
theorem Fatal.runItems_eq {files : FileTree} {limit k : Nat} {source : Source}
    {r s : Interpreter ε τ} {chain : List (String × Nat)} {event : RunError}
    (h : Fatal files limit source k r chain event s) :
    runItems (runPath files limit) (source.skip k) r = .error (event.under chain) s := by
  induction h with
  | line hline =>
    rw [runItems_of_error (Source.readItem_error_iff.mpr (.inl hline))]
    rfl
  | block hline hbegins hblock =>
    rw [runItems_of_error (Source.readItem_error_iff.mpr (.inr ⟨_, _, hline, hbegins, hblock⟩))]
    rfl
  | exit hitem hcode hne hexit =>
    rw [runItems_of_item hitem]
    exact bind_of_error (perform_error_of_exit _ _ hcode hne hexit)
  | @unopened limit k m source r item path cause hitem hpath hopen =>
    have hrun : runPath files limit path r = .error (.unopened path cause) r := by
      cases limit with
      | zero =>
        cases hopen
        rfl
      | succ limit =>
        rw [runPath_of_error limit hopen]
        rfl
    rw [runItems_of_item hitem, ← line_of_included hitem hpath]
    exact bind_of_error (perform_error_of_included _ hpath hrun)
  | @inside limit k m source inner r s item path chain event hitem hpath hopen _ ih =>
    have hrun : runPath files (limit + 1) path r = .error (event.under chain) s := by
      rw [Source.skip_zero] at ih
      rw [runPath_opened limit hopen]
      exact discard_of_error ih
    rw [runItems_of_item hitem, ← line_of_included hitem hpath]
    exact bind_of_error (perform_error_of_included _ hpath hrun)
  | later hitem hdone _ ih =>
    rw [runItems_of_item hitem, Source.tag_skip, bind_of_ok hdone]
    exact ih

/-- A file fails because it cannot be opened, or at a fatal event in it. -/
def FilesFailAtEvents (ε τ : Type) [Engine ε] [Link τ] (files : FileTree) (limit : Nat) : Prop :=
  ∀ {path : String} {r s : Interpreter ε τ} {e : RunError},
    runPath files limit path r = .error e s →
    (∃ cause, openWithin files limit path = .error cause ∧ e = .unopened path cause ∧ s = r) ∨
      ∃ below inner chain event, limit = below + 1 ∧ Source.openPath files path = .ok inner ∧
        e = event.under chain ∧ Fatal files below inner 0 r chain event s

/-- A source fails at a fatal event if the files do that it includes. -/
theorem exists_fatal_of_files {files : FileTree} {limit : Nat}
    (hfiles : FilesFailAtEvents ε τ files limit) {source : Source} {k : Nat}
    {r s : Interpreter ε τ} {e : RunError}
    (h : runItems (runPath files limit) (source.skip k) r = .error e s) :
    ∃ chain event, e = event.under chain ∧ Fatal files limit source k r chain event s := by
  -- by the number of lines left to read
  induction hlength : (source.skip k).remaining.length using Nat.strongRecOn
    generalizing k r with
  | ind n ih =>
    rcases hitem : (source.skip k).readItem with ⟨cause | _ | item, rest⟩
    · rw [runItems_of_error hitem] at h
      cases h
      rcases Source.readItem_error_iff.mp hitem with hline | ⟨line, t, hline, hbegins, hblock⟩
      · exact ⟨[], _, rfl, .line hline⟩
      · exact ⟨[], _, rfl, .block hline hbegins hblock⟩
    · rw [runItems_of_none hitem] at h
      cases h
    · have hshorter : rest.remaining.length < n := hlength ▸ Source.length_readItem hitem
      obtain ⟨count, hrest, -⟩ := Source.readItem_skip hitem
      rw [Source.skip_skip] at hrest
      subst hrest
      rw [runItems_of_item hitem, Source.tag_skip] at h
      rcases hperform : perform (runPath files limit) source.tag item r with
        ⟨goesOn, r'⟩ | ⟨e', s'⟩
      · rw [bind_of_ok hperform] at h
        cases goesOn with
        | false => cases h
        | true =>
          obtain ⟨chain, event, he, hlater⟩ := ih _ hshorter h rfl
          exact ⟨chain, event, he, .later hitem hperform hlater⟩
      · rw [bind_of_error hperform] at h
        cases h
        rcases perform_error r hperform with
          ⟨path, cause, hpath, hrun, rfl⟩ | ⟨code, message, r', hcode, hne, hran, rfl, rfl⟩
        · -- the place of the include line is where its reading ended
          rw [line_of_included hitem hpath]
          rcases hfiles hrun with
            ⟨cause', hopen, rfl, rfl⟩ | ⟨below, inner, chain, event, rfl, hopen, rfl, hinner⟩
          · exact ⟨_, _, rfl, .unopened hitem hpath hopen⟩
          · exact ⟨_, _, rfl, .inside hitem hpath hopen hinner⟩
        · exact ⟨[], _, rfl, .exit hitem hcode hne hran⟩

theorem filesFailAtEvents (files : FileTree) (limit : Nat) :
    FilesFailAtEvents ε τ files limit := by
  induction limit with
  | zero =>
    intro path r s e h
    cases h
    exact .inl ⟨.tooManyOpen, rfl, rfl, rfl⟩
  | succ limit ih =>
    intro path r s e h
    rcases hopen : Source.openPath files path with cause | inner
    · rw [runPath_of_error limit hopen] at h
      cases h
      exact .inl ⟨cause, hopen, rfl, rfl⟩
    · rw [runPath_opened limit hopen] at h
      rcases hrun : runItems (runPath files limit) inner r with ⟨rest, r'⟩ | ⟨e', s'⟩
      · rw [discard_of_ok hrun] at h
        cases h
      · rw [discard_of_error hrun] at h
        cases h
        rw [← Source.skip_zero inner] at hrun
        obtain ⟨chain, event, he, hfatal⟩ := exists_fatal_of_files ih hrun
        exact .inr ⟨limit, inner, chain, event, rfl, rfl, he, hfatal⟩

/-- A run fails exactly if it comes to a fatal event. The error is then the event under one
place for each include line that leads to it: the tag of the line's source and the number
of its last physical line, outermost first. The run ends in the state of the event, so
nothing is written, run or printed after it at any level. -/
theorem fatal_iff (files : FileTree) (limit : Nat) (source : Source) (r s : Interpreter ε τ)
    (chain : List (String × Nat)) (event : RunError) :
    Fatal files limit source 0 r chain event s ↔
      event.IsRoot ∧ runSource files limit source r = .error (event.under chain) s := by
  constructor
  · intro h
    have hrun := h.runItems_eq
    rw [Source.skip_zero] at hrun
    exact ⟨h.isRoot, hrun⟩
  · rintro ⟨hroot, hrun⟩
    rw [runSource, ← Source.skip_zero source] at hrun
    obtain ⟨chain', event', hsame, hfatal⟩ :=
      exists_fatal_of_files (filesFailAtEvents files limit) hrun
    obtain ⟨rfl, rfl⟩ := RunError.under_inj hroot hfatal.isRoot hsame
    exact hfatal

/-- An exit two files deep, behind a line that goes on and a block of code. -/
example :
    (match runSource (τ := MemoryLink)
        ⟨[], [(["outer"], .file (Utf8.encode "=\nx = 1\n_\n<inn\\\ner\n>{x}\n")),
          (["inner"], .file (Utf8.encode "% bye\n= exit done\n"))]⟩ openLimit
        (.ofText "top" "!*RST\n<outer\n") (.new Assigner.fresh (.new .little)) with
      | .ok _ _ => none
      | .error e r => some (e, r.transcript)) =
    some (.nested "top" 2 (.nested "outer" 5 (.exit "done")), [.exit "done"]) := by
  decide +kernel

end Interpreter

end ScpiScript
