import Mathlib.Data.List.TakeWhile
import ScpiScript.Link.Memory
import ScpiScript.Proofs.Script.Trace
import ScpiScript.Proofs.Source.Continuation
/-!
# Blocks of code

Behind an evaluation line without code, lines are taken as they stand until one closes the
block or the source ends. The reader of logical lines, which joins lines and looks at their
first characters, goes on behind them.

- `Source.readItem_bare` reads such a line and its block as one item, also if the line was
  cut into pieces.
- `Interpreter.afterCode` is a run behind code that a line handed to the engine.
- `runSource_block` runs a text that begins with such a line and its block.
-/

namespace ScpiScript

theorem Text.isBlank_of_trimChars_eq_nil {cs : List Char} (h : trimChars cs = []) :
    ∀ c ∈ cs, isBlank c = true := by
  unfold trimChars dropWhileEnd at h
  rw [List.reverse_eq_nil_iff, List.dropWhile_eq_nil_iff] at h
  intro c hc
  rw [← List.takeWhile_append_dropWhile (p := isBlank) (l := cs), List.mem_append] at hc
  rcases hc with hc | hc
  · exact List.mem_takeWhile_imp hc
  · exact h c (List.mem_reverse.mpr hc)

/-- A line asks for code without giving any. -/
def Directive.IsBare (line : String) : Prop := ofLine? line = some (.evaluate "")

instance (line : String) : Decidable (Directive.IsBare line) :=
  inferInstanceAs (Decidable (_ = _))

theorem Directive.IsBare.exists_blanks {line : String} (h : IsBare line) :
    ∃ blanks, line.toList = '=' :: blanks ∧ ∀ c ∈ blanks, Text.isBlank c = true := by
  unfold IsBare ofLine? at h
  split at h
  · cases h
  · rename_i lead rest hline
    have hdirective := Option.some.inj h
    split at hdirective
    case h_7 =>
      have htail := String.ofList_eq_empty_iff.mp (Directive.evaluate.inj hdirective)
      exact ⟨rest, hline, Text.isBlank_of_trimChars_eq_nil htail⟩
    all_goals cases hdirective

namespace Source

/-- Such a line does not go on: it ends in its sign or in a blank. -/
theorem dropMark?_of_bare {line : String} (h : Directive.IsBare line) :
    dropMark? line = none := by
  obtain ⟨blanks, hline, hblanks⟩ := h.exists_blanks
  apply dropMark?_eq_none
  rw [hline]
  intro hlast
  rcases List.mem_cons.mp (List.mem_of_getLast? hlast) with hmark | hmark
  · exact absurd hmark (by decide)
  · exact absurd (hblanks _ hmark) (by decide)

/-! ## The lines of a block -/

section Block

variable {lines : List String} {raws : List Bytes}

/-- Lines that do not close a block are put in front of what the block goes on with. -/
theorem takeBlock_inside (n : Nat) (hraws : raws.map lineText? = lines.map some)
    (hinside : ∀ line ∈ lines, closesBlock line = false) (rest : List Bytes) :
    takeBlock n (raws ++ rest) =
      ((takeBlock (n + lines.length) rest).1.map (lines ++ ·),
        (takeBlock (n + lines.length) rest).2) := by
  induction lines generalizing raws n with
  | nil =>
    obtain rfl := List.map_eq_nil_iff.mp hraws
    rcases hrest : takeBlock n rest with ⟨e | block, left, m⟩ <;> simp [hrest, Except.map]
  | cons line lines ih =>
    obtain ⟨raw, raws', rfl, hraw, hraws'⟩ := List.map_eq_cons_iff.mp hraws
    have hline := hinside line List.mem_cons_self
    have hlater := ih (n + 1) hraws' fun line hmem => hinside line (.tail _ hmem)
    have hcount : n + 1 + lines.length = n + (line :: lines).length := by
      rw [List.length_cons]
      omega
    rw [hcount] at hlater
    rw [List.cons_append, takeBlock, hraw]
    dsimp only
    rw [hline, hlater]
    rcases takeBlock (n + (line :: lines).length) rest with ⟨e | block, left, m⟩ <;> rfl

theorem takeBlock_closed (n : Nat) (hraws : raws.map lineText? = lines.map some)
    (hinside : ∀ line ∈ lines, closesBlock line = false) {raw : Bytes} {text : String}
    (hraw : lineText? raw = some text) (hcloses : closesBlock text = true) (rest : List Bytes) :
    takeBlock n (raws ++ raw :: rest) = (.ok lines, rest, n + lines.length + 1) := by
  rw [takeBlock_inside n hraws hinside, takeBlock, hraw]
  dsimp only
  rw [if_pos hcloses]
  simp [Except.map]

theorem takeBlock_unclosed (n : Nat) (hraws : raws.map lineText? = lines.map some)
    (hinside : ∀ line ∈ lines, closesBlock line = false) :
    takeBlock n raws = (.ok lines, [], n + lines.length) := by
  have hblock := takeBlock_inside n hraws hinside []
  rw [List.append_nil] at hblock
  rw [hblock, takeBlock]
  simp [Except.map]

end Block

/-- An evaluation line without code is read together with its block. The item has the number
of the line, and of its last piece if it was cut. -/
theorem readItem_bare {pieces block : List String} (hbare : Directive.IsBare (String.join pieces))
    {raws rest left : List Bytes} (hraws : raws.map lineText? = (continued pieces).map some)
    (tag : String) {n m : Nat}
    (hblock : takeBlock (n + pieces.length) rest = (.ok block, left, m)) :
    readItem ⟨tag, .ok (raws ++ rest), n⟩ =
      (.ok (some ⟨some (.evaluate (String.intercalate "\n" block)), n + pieces.length⟩),
        ⟨tag, .ok left, m⟩) := by
  have hne : pieces ≠ [] := by
    rintro rfl
    cases hbare
  have hline := readLogical_continued hne hraws (dropMark?_of_bare hbare) tag n rest
  have hdirective : Directive.ofLine? (String.join pieces) = some (.evaluate "") := hbare
  simp only [readItem, hline, hdirective, readBlock, hblock, Except.map]

/-! ## The line that closes a block -/

theorem head?_stripEnding {c : Char} {cs : List Char} (hfeed : c ≠ '\n') (hreturn : c ≠ '\r') :
    (stripEnding (c :: cs)).head? = some c := by
  obtain ⟨ending, hsplit, hending⟩ := exists_ending (c :: cs)
  cases hstrip : stripEnding (c :: cs) with
  | nil =>
    rw [hstrip, List.nil_append] at hsplit
    rcases hending c (hsplit ▸ List.mem_cons_self) with rfl | rfl
    · exact absurd rfl hfeed
    · exact absurd rfl hreturn
  | cons d front =>
    rw [hstrip] at hsplit
    rw [(List.cons.inj hsplit).1]
    rfl

/-- A closing line closes the block however it ends. -/
theorem closesBlock_lineText {line : String} (h : closesBlock line = true) (ending : String) :
    ∃ text, lineText? (Utf8.encode (line ++ ending)) = some text ∧ closesBlock text = true := by
  have hhead : line.toList.head? = some blockEnd := by
    simpa [closesBlock] using h
  obtain ⟨cs, hcs⟩ := List.head?_eq_some_iff.mp hhead
  refine ⟨_, by rw [lineText?, Utf8.decode?_encode, Option.map_some], ?_⟩
  rw [String.toList_append, hcs, List.cons_append, closesBlock, String.toList_ofList,
    head?_stripEnding (by decide) (by decide)]
  exact beq_self_eq_true _

/-- A closing line and what follows it, which nothing does if the line has no end. -/
theorem physicalLines_closing {closing : String} (hcloses : closesBlock closing = true)
    (hclean : '\n' ∉ closing.toList) {closed : Bool} {following : Bytes}
    (hend : closed = true ∨ following = []) :
    ∃ raw text, physicalLines (Utf8.encode (written closed [closing]) ++ following) =
        raw :: physicalLines following ∧
      lineText? raw = some text ∧ closesBlock text = true := by
  have hfeed : lineFeed ∉ Utf8.encode closing := Utf8.notMem_encode (by decide) hclean
  cases closed with
  | true =>
    obtain ⟨text, htext, htextCloses⟩ := closesBlock_lineText hcloses "\n"
    refine ⟨_, text, ?_, htext, htextCloses⟩
    have hbytes : Utf8.encode (closing ++ "\n") = Utf8.encode closing ++ [lineFeed] := by
      rw [Utf8.encode_append]
      rfl
    have hends : EndsLine (Utf8.encode (closing ++ "\n")) := endsLine_written [closing]
    show physicalLines (Utf8.encode (closing ++ "\n") ++ following) = _
    rw [physicalLines_append hends, hbytes, physicalLines_closed hfeed]
    rfl
  | false =>
    obtain rfl := hend.resolve_left (by decide)
    obtain ⟨text, htext, htextCloses⟩ := closesBlock_lineText hcloses ""
    rw [String.append_empty] at htext
    refine ⟨_, text, ?_, htext, htextCloses⟩
    have hne : Utf8.encode closing ≠ [] := by
      intro hnil
      obtain rfl := Utf8.encode_injective (hnil.trans Utf8.encode_empty.symm)
      cases hcloses
    show physicalLines (Utf8.encode closing ++ []) = _
    rw [List.append_nil, physicalLines_of_notMem hfeed hne]
    rfl

end Source

/-! ## Running a block -/

namespace Interpreter

open Source

variable {ε τ : Type} [Engine ε] [Link τ]

/-- A run behind the code of a line. The message that the end of the code leads to is printed,
and the run goes on unless the code asked for its end. -/
def afterCode (r : Interpreter ε τ) (tag : String) (line : Nat) (code : String)
    (next : RunM ε τ Source) : EStateM.Result RunError (Interpreter ε τ) Source :=
  let ended := r.ran ⟨chunkName tag line, code⟩
  match ended.1 with
  | .ok () => next ended.2
  | .error (.badCode at_ column snippet) =>
    next (ended.2.said (.badBlock (at_, column) line tag ended.2.evaluated.length snippet))
  | .error (.failure message) => next (ended.2.said (.engineFailure message))
  | .error (.exit message) => .error (.exit message) (ended.2.said (.exit message))

theorem runSource_of_code (files : FileTree) (limit : Nat) {source rest : Source} {line : Nat}
    {code : String} (hcode : code ≠ "")
    (hitem : source.readItem = (.ok (some ⟨some (.evaluate code), line⟩), rest))
    (r : Interpreter ε τ) :
    runSource files limit source r =
      r.afterCode source.tag line code (runSource files limit rest) := by
  have hevaluate := evaluate_eq r source.tag line hcode
  unfold runSource afterCode
  rw [runItems_of_item hitem, perform_eq _ _ (by simp), bind_assoc]
  show (evaluate source.tag line code >>= _) r = _
  dsimp only at hevaluate ⊢
  rcases hended : (r.ran ⟨chunkName source.tag line, code⟩).1 with e | _
  · rw [hended] at hevaluate
    cases e with
    | exit message => exact bind_of_error hevaluate
    | badCode at_ column snippet => exact bind_of_ok hevaluate
    | failure message => exact bind_of_ok hevaluate
  · rw [hended] at hevaluate
    exact bind_of_ok hevaluate

/-- A text that begins with an evaluation line without code, which may be cut into pieces, and
lines that do not close a block: the engine is handed these lines once, joined by line feeds,
under the number of the evaluation line, whatever stands in them. Where a closing line follows,
the run goes on with what stands behind that line, as with any other script, its lines counted
on. Where none does, it is at its end. -/
theorem runSource_block (files : FileTree) (limit : Nat) (tag : String) (before : Nat)
    (r : Interpreter ε τ) {pieces lines : List String}
    (hbare : Directive.IsBare (String.join pieces)) (hclean : Clean (String.join pieces))
    (hlines : ∀ line ∈ lines, Clean line ∧ closesBlock line = false)
    (hcode : String.intercalate "\n" lines ≠ "") :
    let n := before + pieces.length
    let code := String.intercalate "\n" lines
    (∀ closing closed (following : Bytes), closesBlock closing = true →
      '\n' ∉ closing.toList → (closed = true ∨ following = []) →
      runSource files limit ⟨tag, .ok (physicalLines
          (Utf8.encode (written closed (continued pieces ++ lines ++ [closing])) ++ following)),
          before⟩ r =
        r.afterCode tag n code
          (runSource files limit ⟨tag, .ok (physicalLines following), n + lines.length + 1⟩)) ∧
    (∀ closed, (closed = true ∨ ∀ last ∈ lines.getLast?, last ≠ "") →
      runSource files limit ⟨tag, .ok (physicalLines
          (Utf8.encode (written closed (continued pieces ++ lines)))), before⟩ r =
        r.afterCode tag n code (pure ⟨tag, .ok [], n + lines.length⟩)) := by
  have hphysical : ∀ line ∈ continued pieces ++ lines, Clean line := by
    intro line hline
    rcases List.mem_append.mp hline with hline | hline
    · exact clean_of_mem_continued hclean hline
    · exact (hlines line hline).1
  have hinside : ∀ line ∈ lines, closesBlock line = false := fun line hline =>
    (hlines line hline).2
  constructor
  · intro closing closed following hcloses hfeed hend
    -- the closing line stands apart, for it may hold carriage returns
    obtain ⟨raw, text, hraw, htext, htextCloses⟩ := physicalLines_closing hcloses hfeed hend
    have htexts := texts_written true hphysical (.inl rfl)
    rw [List.map_append] at htexts
    obtain ⟨front, body, hfront, hpieces, hbody⟩ := List.map_eq_append_iff.mp htexts
    rw [written_append closed _ (List.cons_ne_nil closing []), Utf8.encode_append,
      List.append_assoc, physicalLines_append (endsLine_written _), hraw, hfront,
      List.append_assoc]
    have hblock := takeBlock_closed (before + pieces.length) hbody hinside htext htextCloses
      (physicalLines following)
    exact runSource_of_code files limit hcode (readItem_bare hbare hpieces tag hblock) r
  · intro closed hlast
    -- a block with code has a last line, which ends the text
    have hne : lines ≠ [] := by
      rintro rfl
      exact hcode rfl
    have htexts := texts_written closed hphysical
      (by rwa [List.getLast?_append_of_ne_nil _ hne])
    rw [List.map_append] at htexts
    obtain ⟨front, body, hfront, hpieces, hbody⟩ := List.map_eq_append_iff.mp htexts
    have hblock := takeBlock_unclosed (before + pieces.length) hbody hinside
    have hrun := runSource_of_code files limit hcode (readItem_bare hbare hpieces tag hblock) r
    have hend : runSource files limit ⟨tag, .ok [], before + pieces.length + lines.length⟩ =
        (pure ⟨tag, .ok [], before + pieces.length + lines.length⟩ : RunM ε τ Source) :=
      runItems_of_none (readItem_nil tag _)
    rw [hfront, hrun, hend]

/-- Lines that look like directives, a comment, a reference and a line that goes on. -/
def listing : List String := [".", "<file", "%", "x \\", "", "{n}", "= a", "a = 1"]

def readyToList : Interpreter Assigner MemoryLink := .new .fresh (.new .little)

theorem runSource_block_listing :
    written true (continued ["=", " "] ++ listing ++ ["_ end\\"]) =
        "=\\\n \n.\n<file\n%\nx \\\n\n{n}\n= a\na = 1\n_ end\\\n" ∧
      (∀ line ∈ listing, Clean line ∧ closesBlock line = false) ∧
      runSource ⟨[], []⟩ 1 (ofText "<script>"
          "=\\\n \n.\n<file\n%\nx \\\n\n{n}\n= a\na = 1\n_ end\\\n>{a}\n") readyToList =
        runSource ⟨[], []⟩ 1
          ⟨"<script>", .ok (physicalLines (Utf8.encode ">{a}\n")), 11⟩
          (readyToList.ran ⟨"<script>:2", String.intercalate "\n" listing⟩).2 ∧
      runSource ⟨[], []⟩ 1 (ofText "<script>"
          "=\\\n \n.\n<file\n%\nx \\\n\n{n}\n= a\na = 1") readyToList =
        .ok ⟨"<script>", .ok [], 10⟩
          (readyToList.ran ⟨"<script>:2", String.intercalate "\n" listing⟩).2 ∧
      (readyToList.ran ⟨"<script>:2", String.intercalate "\n" listing⟩).2.engine.received =
        [⟨"<script>:2", ".\n<file\n%\nx \\\n\n{n}\n= a\na = 1"⟩] := by
  have hlines : ∀ line ∈ listing, Clean line ∧ closesBlock line = false := by decide +kernel
  obtain ⟨hclosed, hunclosed⟩ := runSource_block ⟨[], []⟩ 1 "<script>" 0 readyToList
    (by decide : Directive.IsBare (String.join ["=", " "])) (by decide) hlines (by decide)
  have hended : (readyToList.ran ⟨"<script>:2", String.intercalate "\n" listing⟩).1 = .ok () := by
    decide +kernel
  have hchunk : chunkName "<script>" 2 = "<script>:2" := by decide
  have hafter : ∀ next, readyToList.afterCode "<script>" 2 (String.intercalate "\n" listing) next =
      next (readyToList.ran ⟨"<script>:2", String.intercalate "\n" listing⟩).2 := by
    intro next
    unfold afterCode
    rw [hchunk]
    dsimp only
    rw [hended]
  refine ⟨by decide, hlines, ?_, ?_, by decide +kernel⟩
  · have hrun := hclosed "_ end\\" true (Utf8.encode ">{a}\n") (by decide) (by decide) (.inl rfl)
    rw [← Utf8.encode_append] at hrun
    exact hrun.trans (hafter _)
  · exact (hunclosed false (.inr (by decide))).trans (hafter _)

end Interpreter

end ScpiScript
