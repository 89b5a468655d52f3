import ScpiScript.Proofs.Script.Trace
import ScpiScript.Proofs.Source.FileTree
import ScpiScript.Proofs.Source.LineEnding
/-!
# Scripts with other line endings

A script and the files it includes may be rewritten with carriage returns at the ends of
their lines, all of them or some. A run does not show it: it ends in the same state and
with the same result.

- `FileTree.Rewritten` is a tree some of whose files were rewritten; a path leads to the
  same texts in it, `openPath_rewritten`.
- `runItems_sameTexts` and `runPath_rewritten` compare the runs of sources and of files.
- `lineEndings_unseen` says so of every sequence of reads, every file and every source.
-/

namespace ScpiScript

open Source (SameTexts)

/-- A file that may have been rewritten, or a directory. -/
inductive Node.Rewritten : Node → Node → Prop
  | file {content content' : Bytes} (h : Source.Rewritten content content') :
      Rewritten (.file content) (.file content')
  | directory : Rewritten .directory .directory

/-- A tree some of whose files were rewritten. -/
structure FileTree.Rewritten (tree tree' : FileTree) : Prop where
  workingDirectory : tree.workingDirectory = tree'.workingDirectory
  nodes : List.Forall₂ (fun a b => a.1 = b.1 ∧ Node.Rewritten a.2 b.2) tree.nodes tree'.nodes

namespace FileTree

theorem Rewritten.alike {tree tree' : FileTree} (h : tree.Rewritten tree') :
    tree.Alike Source.Rewritten tree' where
  workingDirectory := h.workingDirectory
  nodes := by
    refine h.nodes.imp ?_
    rintro ⟨place, node⟩ ⟨place', node'⟩ ⟨hplace, hnode⟩
    refine ⟨hplace, ?_⟩
    cases hnode with
    | file hcontent => exact .file hcontent
    | directory => exact .directory

/-- A path cannot be opened in either tree, or gives sources with the same texts. -/
theorem openPath_rewritten {tree tree' : FileTree} (h : tree.Rewritten tree') (path : String) :
    (∃ e, Source.openPath tree path = .error e ∧ Source.openPath tree' path = .error e) ∨
      ∃ source source', Source.openPath tree path = .ok source ∧
        Source.openPath tree' path = .ok source' ∧ SameTexts source source' := by
  rcases openPath_alike h.alike path with hfails | ⟨node, node', hleft, hright, hnode⟩
  · exact .inl hfails
  · refine .inr ⟨_, _, hleft, hright, ?_⟩
    cases hnode with
    | file hcontent => exact hcontent.sameTexts path
    | directory => exact .failed path .isDirectory 0

end FileTree

namespace Interpreter

variable {ε τ : Type} [Engine ε] [Link τ]

/-- A source is run like one with the same texts, and so is what is left of it. -/
theorem runItems_sameTexts (runFile : String → RunM ε τ Unit) {source source' : Source}
    (h : SameTexts source source') (r : Interpreter ε τ) :
    Corresponds SameTexts Eq Eq (runItems runFile source r) (runItems runFile source' r) := by
  -- by the number of lines left to read, as the run itself recurses
  induction hlength : source.remaining.length using Nat.strongRecOn
    generalizing source source' r with
  | ind k ih =>
    obtain ⟨rest', hitem', hrest⟩ := Source.readItem_ignoresEndings h
    have htag : source.tag = source'.tag := h.tag_eq
    rcases hitem : source.readItem with ⟨e | _ | item, rest⟩
    all_goals rw [hitem] at hitem' hrest
    · rw [runItems_of_error hitem, runItems_of_error hitem', htag]
      exact .error rfl rfl
    · rw [runItems_of_none hitem, runItems_of_none hitem']
      exact .ok hrest rfl
    · have hshorter : rest.remaining.length < k := hlength ▸ Source.length_readItem hitem
      rw [runItems_of_item hitem, runItems_of_item hitem', htag]
      rcases hperform : perform runFile source'.tag item r with ⟨goesOn, r'⟩ | ⟨e, r'⟩
      · rw [bind_of_ok hperform, bind_of_ok hperform]
        cases goesOn with
        | true => exact ih _ hshorter hrest r' rfl
        | false => exact .ok hrest rfl
      · rw [bind_of_error hperform, bind_of_error hperform]
        exact .error rfl rfl

omit [Engine ε] [Link τ] in
/-- Outcomes in equal states are equal once their results are forgotten. -/
theorem discard_eq_of_corresponds {α β : Type} {A : α → β → Prop} {act : RunM ε τ α}
    {act' : RunM ε τ β} {r : Interpreter ε τ} (h : Corresponds A Eq Eq (act r) (act' r)) :
    discard act r = discard act' r := by
  rcases hleft : act r with ⟨a, s⟩ | ⟨e, s⟩ <;> rcases hright : act' r with ⟨b, s'⟩ | ⟨e', s'⟩
  all_goals
    rw [hleft, hright] at h
    cases h
  · rename_i hresult hstate
    rw [discard_of_ok hleft, discard_of_ok hright, hstate]
  · rename_i hcause hstate
    rw [discard_of_error hleft, discard_of_error hright, hcause, hstate]

/-- A path is run alike in a tree some of whose files were rewritten. -/
theorem runPath_rewritten {files files' : FileTree} (h : files.Rewritten files') (limit : Nat) :
    (runPath files limit : String → RunM ε τ Unit) = runPath files' limit := by
  induction limit with
  | zero => rfl
  | succ limit ih =>
    funext path r
    rcases FileTree.openPath_rewritten h path with
      ⟨e, hleft, hright⟩ | ⟨source, source', hleft, hright, hsame⟩
    · rw [runPath_of_error limit hleft, runPath_of_error limit hright]
    · rw [runPath_opened limit hleft, runPath_opened limit hright, ← ih]
      exact discard_eq_of_corresponds (runItems_sameTexts (runPath files limit) hsame r)

/-- The endings of lines show nowhere. A source whose lines got carriage returns, or not,
gives the same to every sequence of reads, line numbers included. Run with files of which
any number got them, it ends in the same state with the same result or the same error, and
so does every one of the files. -/
theorem lineEndings_unseen {files files' : FileTree} (hfiles : files.Rewritten files')
    {content content' : Bytes} (hcontent : Source.Rewritten content content') (tag : String)
    (kinds : List Source.ReadKind) (limit : Nat) (path : String) (r : Interpreter ε τ) :
    (Source.ofBytes tag content).readAll kinds = (Source.ofBytes tag content').readAll kinds ∧
      Corresponds SameTexts Eq Eq (runSource files limit (Source.ofBytes tag content) r)
        (runSource files' limit (Source.ofBytes tag content') r) ∧
      runPath files limit path r = runPath files' limit path r := by
  refine ⟨(hcontent.sameTexts tag).readAll_eq kinds, ?_, congrFun (congrFun ?_ path) r⟩
  · unfold runSource
    rw [runPath_rewritten hfiles]
    exact runItems_sameTexts _ (hcontent.sameTexts tag) r
  · exact runPath_rewritten hfiles limit

/-- A file with a block of code and a command that goes on in a second line. -/
def sweepSetup : Bytes := Utf8.encode "=\nx = 1\n_\n&FREQ \\\n{x}\n"

/-- A script that includes it and whose last line, which has no ending, cannot be read as
code. -/
def sweep : Bytes := Utf8.encode "<setup\n= syntax 1"

/-- A run about to begin on a memory link. -/
def readyToSweep : Interpreter Assigner MemoryLink :=
  .new .fresh ⟨.connected "memory" .fresh, false, .little, []⟩

theorem lineEndings_unseen_sweep :
    Source.carriageReturn ∉ sweepSetup ∧ Source.carriageReturn ∉ sweep ∧
      (Source.ofBytes "sweep" sweep).readAll [.physical, .next, .logical] =
        (Source.ofBytes "sweep" (Source.withReturns sweep)).readAll [.physical, .next, .logical] ∧
      (finalState (runSource ⟨[], [(["setup"], .file sweepSetup)]⟩ openLimit
        (Source.ofBytes "sweep" sweep) readyToSweep)).evaluated =
          [⟨"setup:1", "x = 1"⟩, ⟨"sweep:2", "syntax 1"⟩] ∧
      Corresponds SameTexts Eq Eq
        (runSource ⟨[], [(["setup"], .file sweepSetup)]⟩ openLimit
          (Source.ofBytes "sweep" sweep) readyToSweep)
        (runSource ⟨[], [(["setup"], .file (Source.withReturns sweepSetup))]⟩ openLimit
          (Source.ofBytes "sweep" (Source.withReturns sweep)) readyToSweep) := by
  have hsetup : Source.carriageReturn ∉ sweepSetup := by decide +kernel
  have hsweep : Source.carriageReturn ∉ sweep := by decide +kernel
  have hfiles : FileTree.Rewritten ⟨[], [(["setup"], .file sweepSetup)]⟩
      ⟨[], [(["setup"], .file (Source.withReturns sweepSetup))]⟩ :=
    ⟨rfl, .cons ⟨rfl, .file (.returned hsetup)⟩ .nil⟩
  obtain ⟨hreads, hrun, -⟩ := lineEndings_unseen hfiles (.returned hsweep) "sweep"
    [.physical, .next, .logical] openLimit "setup" readyToSweep
  exact ⟨hsetup, hsweep, hreads, by decide +kernel, hrun⟩

end Interpreter

end ScpiScript
