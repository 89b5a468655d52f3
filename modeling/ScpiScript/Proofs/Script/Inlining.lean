import ScpiScript.Proofs.Script.Nesting
import ScpiScript.Proofs.Script.Relocation
import ScpiScript.Proofs.Source.Boundary
/-!
# An included file and its text in place

Including a file does what its text would do in place of the include line, the places of
items aside, if the text ends with a line and outside an item, and is not stopped by an
end of source, which would stop the including source as well.

- `IncludeLine` is a logical line that includes a file and nothing else.
- `StopsEarly` says that running a reading is stopped before its end.
- `include_inlines` compares the two scripts, with any text before and after.
-/

namespace ScpiScript

open Source

/-- A logical line that includes the file at a path. -/
structure IncludeLine (line : Bytes) (path : String) : Prop extends Whole line where
  reads : ∃ n, Reads 0 (physicalLines line) (.item ⟨some (.includeFile path), n⟩ .finished)

/-- What an include line asks for, on whatever lines it stands. -/
theorem IncludeLine.reading_eq {line : Bytes} {path : String} (h : IncludeLine line path)
    (tag : String) (n : Nat) :
    ∃ k, reading ⟨tag, .ok (physicalLines line), n⟩ =
      .item ⟨some (.includeFile path), k⟩ .finished := by
  obtain ⟨m, hreads⟩ := h.reads
  obtain ⟨other, hother, hmatch⟩ := hreads.renumber n
  rw [hother.reading_eq tag]
  cases hmatch with
  | @item _ item _ rest hitem hrest =>
    cases hrest
    refine ⟨item.line, ?_⟩
    rw [show some (.includeFile path) = item.directive from hitem]

/-- A physical line that does not go on is an include line if that is what it asks for. -/
theorem includeLine_of_lineText {line : Bytes} {text path : String}
    (hraw : physicalLines line = [line]) (hends : EndsLine line)
    (htext : lineText? line = some text) (hmark : dropMark? text = none)
    (hdirective : Directive.ofLine? text = some (.includeFile path)) : IncludeLine line path := by
  have hother : Directive.ofLine? text ≠ some (.evaluate "") := by
    rw [hdirective]
    exact fun h => by cases h
  refine ⟨⟨hends, ?_⟩, 1, ?_⟩
  · rw [Settled, hraw, modeAfter_cons, Mode.next_between htext, Mode.ofText_of_none hmark,
      Mode.behind, if_neg hother]
    exact .inl rfl
  · have hjoin : joinLines text (0 + 1) [] = (.ok text, [], 1) := by
      rw [joinLines, hmark]
    have hreads := Reads.line htext hjoin hother (.nil 1)
    rwa [hdirective, ← hraw] at hreads

namespace Interpreter

variable {ε τ : Type} [Engine ε] [Link τ]

/-- Running a reading is stopped by an end of its source. -/
def StopsEarly (runFile : String → RunM ε τ Unit) (tag : String) (reading : Reading)
    (r : Interpreter ε τ) : Prop :=
  ∃ r', runReading runFile tag reading r = .ok false r'

/-- A reading without an end of its source is not stopped. -/
theorem not_stopsEarly (runFile : String → RunM ε τ Unit) (tag : String) {reading : Reading}
    (h : some .terminate ∉ reading.directives) (r : Interpreter ε τ) :
    ¬ StopsEarly runFile tag reading r := by
  induction reading generalizing r with
  | finished =>
    rintro ⟨r', hstop⟩
    cases hstop
  | failed cause =>
    rintro ⟨r', hstop⟩
    cases hstop
  | item first rest ih =>
    rintro ⟨r', hstop⟩
    rw [Reading.directives, List.mem_cons, not_or] at h
    have hfirst : first.directive ≠ some .terminate := fun hd => h.1 hd.symm
    rcases haction : action runFile tag first r with ⟨_, t⟩ | ⟨e, t⟩
    · have hperform : perform runFile tag first r = .ok true t := by
        rw [perform_eq runFile tag hfirst, bind_of_ok haction]
        rfl
      rw [runReading_item hperform, if_pos rfl] at hstop
      exact ih h.2 t ⟨r', hstop⟩
    · have hperform : perform runFile tag first r = .error e t := by
        rw [perform_eq runFile tag hfirst, bind_of_error haction]
      rw [runReading_item_error hperform] at hstop
      cases hstop

/-- Acting on an include line and running the text of the file in its place end alike. -/
theorem corresponds_include {alike : ε → ε → Prop} (hblind : ChunkBlind alike)
    {files : FileTree} {limit depth : Nat} {path : String} {source : Source}
    (hopen : openPath files path = .ok source) (hpath : path ≠ "")
    (hnests : NestsWithin files depth source.reading) (hroom : depth ≤ limit)
    {r s : Interpreter ε τ} (hstate : SameWork alike r s)
    (hreached : ¬ StopsEarly (runPath files limit) source.tag source.reading r)
    (tag tag' : String) (line : Nat) {inlined : Reading}
    (hreadings : source.reading.Matches Item.SameDirective inlined) :
    Corresponds Eq RunError.SameRoot (SameWork alike)
      (perform (runPath files (limit + 1)) tag ⟨some (.includeFile path), line⟩ r)
      (runReading (runPath files (limit + 1)) tag' inlined s) := by
  have hrun : Corresponds Eq RunError.SameRoot (SameWork alike)
      (runReading (runPath files limit) source.tag source.reading r)
      (runReading (runPath files (limit + 1)) tag' inlined s) := by
    rw [runReading_limit hnests hroom (Nat.le_succ_of_le hroom)]
    exact corresponds_relocated hblind files (limit + 1) source.tag tag' hreadings hstate
  have hincluded : Item.included? ⟨some (.includeFile path), line⟩ = some path := if_pos hpath
  have hpathRun := congrFun (runPath_of_ok (ε := ε) (τ := τ) limit hopen) r
  rcases hleft : runReading (runPath files limit) source.tag source.reading r with
    ⟨ended, t⟩ | ⟨e, t⟩
  · have hended : ended = true := by
      by_contra hstopped
      rw [Bool.not_eq_true] at hstopped
      exact hreached ⟨t, hstopped ▸ hleft⟩
    rw [discard_of_ok hleft] at hpathRun
    rw [perform_ok_of_included tag hincluded hpathRun]
    rw [hleft, hended] at hrun
    exact hrun
  · rw [discard_of_error hleft] at hpathRun
    rw [perform_error_of_included tag hincluded hpathRun]
    rw [hleft] at hrun
    -- the place of the include line is not part of the innermost error
    generalize runReading (runPath files (limit + 1)) tag' inlined s = outcome at hrun ⊢
    cases hrun with
    | error hroot hafter => exact .error hroot hafter

/-- A script that includes a file and the script with the text of the file in place of
the include line give the same frames, messages, code and scope, and end the same way,
the places of items aside.

The texts before the line and of the file end with a line, outside an item. The files
that the included file includes in turn nest at most `depth` deep, which leaves room for
the file itself. The included file is not stopped early. -/
theorem include_inlines {alike : ε → ε → Prop} (hblind : ChunkBlind alike) {files : FileTree}
    {limit depth : Nat} {path : String} {before line content : Bytes} (hbefore : Whole before)
    (hline : IncludeLine line path) (hfile : files.find path = .ok (.file content))
    (hcontent : Whole content)
    (hnests : NestsWithin files depth (ofBytes path content).reading) (hroom : depth ≤ limit)
    (tag : String) (after : Bytes) {r : Interpreter ε τ} (hself : alike r.engine r.engine)
    (hreached : ∀ r', runReading (runPath files (limit + 1)) tag (ofBytes tag before).reading r =
        .ok true r' →
      ¬ StopsEarly (runPath files limit) path (ofBytes path content).reading r') :
    Corresponds Eq RunError.SameRoot (SameWork alike)
      (discard (runSource files (limit + 1) (ofBytes tag (before ++ (line ++ after)))) r)
      (discard (runSource files (limit + 1) (ofBytes tag (before ++ (content ++ after)))) r) := by
  have hopen : openPath files path = .ok (ofBytes path content) := by
    rw [openPath, hfile]
    rfl
  have hpath : path ≠ "" := by
    rintro rfl
    rw [FileTree.find] at hfile
    cases hfile
  have hstart : SameWork alike r r := ⟨hself, rfl, rfl, rfl, rfl⟩
  unfold runSource
  rw [runItems_eq_runReading, runItems_eq_runReading]
  apply corresponds_discard
  show Corresponds Eq RunError.SameRoot (SameWork alike)
    (runReading (runPath files (limit + 1)) tag
      (reading ⟨tag, .ok (physicalLines (before ++ (line ++ after))), 0⟩) r)
    (runReading (runPath files (limit + 1)) tag
      (reading ⟨tag, .ok (physicalLines (before ++ (content ++ after))), 0⟩) r)
  obtain ⟨k, hk⟩ := hline.reading_eq tag (0 + (physicalLines before).length)
  rw [hbefore.reading_append, hbefore.reading_append, hline.toWhole.reading_append,
    hcontent.reading_append, hk, Reading.append, Reading.append, runReading_append,
    runReading_append]
  -- what stands before the line
  refine (corresponds_relocated hblind files (limit + 1) tag tag
    (reading_matches tag tag 0 0 (.ok (physicalLines before))) hstart).bind ?_
  rintro ended _ r' s' hleft hright rfl hmiddle
  cases ended with
  | false => exact .ok rfl hmiddle
  | true =>
    rw [if_pos rfl, if_pos rfl, runReading, runReading_append]
    -- the line, or the text of the file
    have hinclude := corresponds_include hblind hopen hpath hnests hroom hmiddle
      (hreached r' hleft) tag tag k (reading_matches path tag 0
        (0 + (physicalLines before).length) (.ok (physicalLines content)))
    refine hinclude.bind ?_
    rintro goesOn _ r'' s'' hleft' hright' rfl hlater
    cases goesOn with
    | false => exact .ok rfl hlater
    | true =>
      -- what stands after it
      exact corresponds_relocated hblind files (limit + 1) tag tag
        (reading_matches tag tag _ _ (.ok (physicalLines after))) hlater

/-- A file that sets a name and includes a file with a buffered command. -/
def frequencyFiles : FileTree :=
  ⟨[], [(["setup"], .file (Utf8.encode "=x = 1\n<tune\n")),
    (["tune"], .file (Utf8.encode "&FREQ {x}\n"))]⟩

/-- A run about to begin on a memory link. -/
def readyToTune : Interpreter Assigner MemoryLink :=
  .new .fresh ((Instrument.new .little).attached "memory" .fresh)

theorem nestsWithin_frequencyFiles :
    NestsWithin frequencyFiles 1 (ofBytes "setup" (Utf8.encode "=x = 1\n<tune\n")).reading := by
  intro path hpath source hopen
  have hincludes : (ofBytes "setup" (Utf8.encode "=x = 1\n<tune\n")).reading.includes =
      ["tune"] := by
    decide +kernel
  rw [hincludes, List.mem_singleton] at hpath
  have htune : (openPath frequencyFiles "tune").toOption.map (fun s => s.reading.includes) =
      some [] := by
    decide +kernel
  rw [← hpath, hopen] at htune
  exact Option.some.inj htune

theorem include_inlines_frequency :
    Corresponds Eq RunError.SameRoot
      (SameWork fun a b : Assigner =>
        a.store = b.store ∧ a.received.map CodeBlock.code = b.received.map CodeBlock.code)
      (discard (runSource frequencyFiles openLimit
        (ofBytes "top" (Utf8.encode "&VOLT 1\n" ++
          (Utf8.encode "< setup\n" ++ Utf8.encode "?SYST:ERR?\n")))) readyToTune)
      (discard (runSource frequencyFiles openLimit
        (ofBytes "top" (Utf8.encode "&VOLT 1\n" ++
          (Utf8.encode "=x = 1\n<tune\n" ++ Utf8.encode "?SYST:ERR?\n")))) readyToTune) := by
  have hline : IncludeLine (Utf8.encode "< setup\n") "setup" :=
    includeLine_of_lineText (by decide +kernel) (by decide +kernel)
      (by decide +kernel : lineText? (Utf8.encode "< setup\n") = some "< setup")
      (by decide +kernel) (by decide +kernel)
  have hunstopped : some .terminate ∉
      (ofBytes "setup" (Utf8.encode "=x = 1\n<tune\n")).reading.directives := by
    decide +kernel
  exact include_inlines Assigner.chunkBlind ⟨by decide +kernel, by decide +kernel⟩ hline
    (by decide +kernel) ⟨by decide +kernel, by decide +kernel⟩ nestsWithin_frequencyFiles
    (by decide : 1 ≤ 999) "top" (Utf8.encode "?SYST:ERR?\n") ⟨rfl, rfl⟩
    fun r' _ => not_stopsEarly _ _ hunstopped r'

end Interpreter

end ScpiScript
