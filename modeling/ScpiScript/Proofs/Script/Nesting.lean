import ScpiScript.Proofs.Script.Trace
/-!
# How deep files include each other

A run can have only so many files open at once. Where the files that a script includes
nest no deeper than that, the limit does not show: with more files to open, the run is
the same.

- `Interpreter.NestsWithin` bounds the depth of what a reading includes.
- `Interpreter.Ranked`: files only include files of smaller rank. A bound on the rank is
  such a bound then, `Ranked.nestsWithin`. What the files hold may give the ranks,
  `ranked_of_contents`.
- `runReading_limit`: any two limits that suffice give the same run.
-/

namespace ScpiScript

/-- The paths of the files that a reading includes, in order. -/
def Reading.includes : Reading → List String
  | finished => []
  | failed _ => []
  | item first rest => first.included?.toList ++ rest.includes

def Node.content? : Node → Option Bytes
  | file content => some content
  | directory => none

/-- What the file at a path holds, if there is one. -/
def FileTree.content? (tree : FileTree) (path : String) : Option Bytes :=
  (tree.find path).toOption.bind Node.content?

theorem FileTree.mem_nodes_of_find {tree : FileTree} {path : String} {content : Bytes}
    (h : tree.find path = .ok (.file content)) : ∃ place, (place, .file content) ∈ tree.nodes := by
  unfold find at h
  split at h
  · cases h
  split at h
  · cases h
  split at h
  · cases h
  dsimp only at h
  split at h
  · cases h
  rename_i place _
  have hnode : tree.node? place.reverse = some (.file content) := by
    cases hfound : tree.node? place.reverse with
    | none =>
      rw [hfound] at h
      cases h
    | some node =>
      rw [hfound] at h
      cases h
      rfl
  unfold node? at hnode
  rcases hlookup : tree.nodes.lookup place.reverse with _ | node
  all_goals
    rw [hlookup] at hnode
    dsimp only at hnode
  -- a place that is not listed is a directory
  · split at hnode <;> cases hnode
  · cases hnode
    obtain ⟨before, after, hnodes, -⟩ := List.lookup_eq_some_iff.mp hlookup
    exact ⟨place.reverse, hnodes ▸ List.mem_append_right _ List.mem_cons_self⟩

namespace Interpreter

/-- The files that a reading includes nest at most so deep. -/
def NestsWithin (files : FileTree) : Nat → Reading → Prop
  | 0, reading => reading.includes = []
  | depth + 1, reading => ∀ path ∈ reading.includes, ∀ source,
      Source.openPath files path = .ok source → NestsWithin files depth source.reading

/-- Files are ranked: whatever a file includes is missing, a directory or a file of smaller
rank. -/
def Ranked (files : FileTree) (rank : String → Nat) : Prop :=
  ∀ path source, Source.openPath files path = .ok source → ∀ inner ∈ source.reading.includes,
    ∀ content, files.find inner = .ok (.file content) → rank inner < rank path

theorem nestsWithin_of_includes_eq_nil {files : FileTree} {reading : Reading}
    (h : reading.includes = []) (depth : Nat) : NestsWithin files depth reading := by
  cases depth with
  | zero => exact h
  | succ depth =>
    intro path hpath
    rw [h] at hpath
    cases hpath

/-- Files are ranked by what they hold. -/
theorem ranked_of_contents {files : FileTree} (rank : Bytes → Nat)
    (h : ∀ n ∈ files.nodes, ∀ content ∈ n.2.content?,
      ∀ inner ∈ (Source.ofBytes "" content).reading.includes, ∀ content' ∈ files.content? inner,
        rank content' < rank content) :
    Ranked files fun path => (files.content? path).elim 0 rank := by
  have hcontent : ∀ {path content}, files.find path = .ok (.file content) →
      files.content? path = some content := by
    intro path content hfind
    rw [FileTree.content?, hfind]
    rfl
  intro path source hopen inner hinner content' hfind'
  rcases hfind : files.find path with e | content | _
  all_goals
    rw [Source.openPath, hfind] at hopen
    cases hopen
  · obtain ⟨place, hmem⟩ := FileTree.mem_nodes_of_find hfind
    -- what a source includes does not depend on the name it is opened under
    have hreading : (Source.ofBytes path content).reading = (Source.ofBytes "" content).reading :=
      (Source.reads_reading "" 0 _).reading_eq path
    rw [Source.ofNode, hreading] at hinner
    dsimp only
    rw [hcontent hfind, hcontent hfind']
    exact h _ hmem content rfl inner hinner content' (hcontent hfind')
  · rw [Source.reading_directory] at hinner
    cases hinner

/-- Where files are ranked, what is included nests within a bound on the ranks of the files
that are included at first. -/
theorem Ranked.nestsWithin {files : FileTree} {rank : String → Nat} (h : Ranked files rank)
    {reading : Reading} {bound : Nat}
    (hbound : ∀ inner ∈ reading.includes, ∀ content,
      files.find inner = .ok (.file content) → rank inner < bound) :
    NestsWithin files (bound + 1) reading := by
  -- a bound on the rank, so that the bound rather than the rank goes down by one
  induction bound generalizing reading with
  | zero =>
    intro path hpath source hopen
    rcases hfind : files.find path with e | content | _
    all_goals
      rw [Source.openPath, hfind] at hopen
      cases hopen
    · cases hbound path hpath content hfind
    · exact nestsWithin_of_includes_eq_nil (by rw [Source.reading_directory]; rfl) 0
  | succ bound ih =>
    intro path hpath source hopen
    rcases hfind : files.find path with e | content | _
    · rw [Source.openPath, hfind] at hopen
      cases hopen
    · have hlt := hbound path hpath content hfind
      refine ih fun inner hinner content' hfile => ?_
      have hsmaller := h path source hopen inner hinner content' hfile
      omega
    · rw [Source.openPath, hfind] at hopen
      cases hopen
      exact nestsWithin_of_includes_eq_nil (by rw [Source.reading_directory]; rfl) _

variable {ε τ : Type} [Engine ε] [Link τ]

/-- An item does not depend on how files are run that it does not include. -/
theorem perform_congr {runFile runFile' : String → RunM ε τ Unit} (tag : String) {item : Item}
    (h : ∀ path, item.included? = some path → runFile path = runFile' path) :
    perform runFile tag item = perform runFile' tag item := by
  rcases hpath : item.included? with _ | path
  · -- no other item looks at the way files are run
    by_cases hend : item.directive = some .terminate
    · rw [perform_terminate runFile tag hend, perform_terminate runFile' tag hend]
    · rw [perform_eq runFile tag hend, perform_eq runFile' tag hend]
      have haction : action runFile tag item = action runFile' tag item := by
        unfold Item.included? at hpath
        unfold action
        split at hpath
        · rename_i path hd
          split at hpath
          · cases hpath
          · rename_i hempty
            rw [hd]
            dsimp only
            rw [if_neg hempty, if_neg hempty]
        · rename_i hd
          split <;> first | rfl | exact absurd ‹_› (hd _)
      rw [haction]
  · rw [perform_of_included runFile tag hpath, perform_of_included runFile' tag hpath,
      h path hpath]

theorem runReading_congr {runFile runFile' : String → RunM ε τ Unit} (tag : String)
    {reading : Reading} (h : ∀ path ∈ reading.includes, runFile path = runFile' path) :
    runReading runFile tag reading = runReading runFile' tag reading := by
  induction reading with
  | finished => rfl
  | failed cause => rfl
  | item first rest ih =>
    have hfirst : perform runFile tag first = perform runFile' tag first := by
      refine perform_congr tag fun path hpath => h path ?_
      rw [Reading.includes, hpath]
      exact List.mem_cons_self
    have hrest : runReading runFile tag rest = runReading runFile' tag rest :=
      ih fun path hpath => h path (List.mem_append_right _ hpath)
    rw [runReading, runReading, hfirst, hrest]

/-- Limits that suffice for what a reading includes all give the same run. -/
theorem runReading_limit {files : FileTree} {depth limit limit' : Nat} {reading : Reading}
    (h : NestsWithin files depth reading) (hlimit : depth ≤ limit) (hlimit' : depth ≤ limit')
    (tag : String) :
    (runReading (runPath files limit) tag reading : RunM ε τ Bool) =
      runReading (runPath files limit') tag reading := by
  induction depth generalizing limit limit' reading tag with
  | zero =>
    refine runReading_congr tag fun path hpath => ?_
    rw [show reading.includes = [] from h] at hpath
    cases hpath
  | succ depth ih =>
    obtain ⟨limit, rfl⟩ := Nat.exists_eq_add_of_lt hlimit
    obtain ⟨limit', rfl⟩ := Nat.exists_eq_add_of_lt hlimit'
    refine runReading_congr tag fun path hpath => ?_
    rcases hopen : Source.openPath files path with e | source
    · rw [runPath_of_error _ hopen, runPath_of_error _ hopen]
    · have hsource : (runReading (runPath files (depth + limit)) source.tag source.reading :
          RunM ε τ Bool) = runReading (runPath files (depth + limit')) source.tag source.reading :=
        ih (h path hpath source hopen) (by omega) (by omega) source.tag
      rw [runPath_of_ok _ hopen, runPath_of_ok _ hopen, hsource]

/-- Limits that suffice for what a source includes all give the same run of it. -/
theorem discard_runSource_limit {files : FileTree} {depth limit limit' : Nat} {source : Source}
    (h : NestsWithin files depth source.reading) (hlimit : depth ≤ limit)
    (hlimit' : depth ≤ limit') :
    (discard (runSource files limit source) : RunM ε τ Unit) =
      discard (runSource files limit' source) := by
  unfold runSource
  rw [runItems_eq_runReading, runItems_eq_runReading,
    runReading_limit h hlimit hlimit' source.tag]

end Interpreter

end ScpiScript
