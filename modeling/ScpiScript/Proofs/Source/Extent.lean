import ScpiScript.Proofs.Source.Continuation
import ScpiScript.Proofs.Source.Position
/-!
# How far a logical line goes

A physical line that ends in the mark goes on in the next one. A logical line should end with
the first physical line that does not. What is tested is the text joined so far, and that may
end in a mark of an earlier line if the line just read is empty: then the line after it is
taken as well.

- `Source.linesOf` are the physical lines of a text, and `texts_ofText` says that they are
  what a source over the text reads.
- `Source.extent` is how many lines a logical line should take, and `taken` how many it does.
- `taken_eq_extent_iff`: they differ exactly where `TakesNext` holds.
- `readLogical_stops_iff` says this of every place that reads of a text can come to.
-/

namespace ScpiScript.Source

/-! ## The physical lines of a text -/

/-- Characters cut behind every line feed, the line feeds left out. -/
def splitLines : List Char → List (List Char)
  | [] => []
  | c :: cs =>
    if c = '\n' then [] :: splitLines cs
    else match splitLines cs with
      | [] => [[c]]
      | line :: rest => (c :: line) :: rest

/-- The physical lines of a text. -/
def linesOf (text : String) : List String := (splitLines text.toList).map String.ofList

theorem splitLines_lineFeed (cs : List Char) :
    splitLines ('\n' :: cs) = [] :: splitLines cs := rfl

theorem splitLines_of_nil {c : Char} {cs : List Char} (hc : c ≠ '\n') (h : splitLines cs = []) :
    splitLines (c :: cs) = [[c]] := by
  rw [splitLines, if_neg hc, h]

theorem splitLines_of_cons {c : Char} {cs line : List Char} {rest : List (List Char)}
    (hc : c ≠ '\n') (h : splitLines cs = line :: rest) :
    splitLines (c :: cs) = (c :: line) :: rest := by
  rw [splitLines, if_neg hc, h]

theorem mem_of_mem_splitLines {cs line : List Char} (hline : line ∈ splitLines cs) {d : Char}
    (hd : d ∈ line) : d ∈ cs ∧ d ≠ '\n' := by
  induction cs generalizing line with
  | nil => cases hline
  | cons c cs ih =>
    by_cases hc : c = '\n'
    · subst hc
      rcases List.mem_cons.mp hline with rfl | hline
      · cases hd
      · exact ⟨.tail _ (ih hline hd).1, (ih hline hd).2⟩
    · rcases hrest : splitLines cs with _ | ⟨first, rest⟩
      · rw [splitLines_of_nil hc hrest, List.mem_singleton] at hline
        subst hline
        obtain rfl := List.mem_singleton.mp hd
        exact ⟨List.mem_cons_self, hc⟩
      · rw [splitLines_of_cons hc hrest] at hline
        rw [hrest] at ih
        rcases List.mem_cons.mp hline with rfl | hline
        · rcases List.mem_cons.mp hd with rfl | hd
          · exact ⟨List.mem_cons_self, hc⟩
          · have hlater := ih List.mem_cons_self hd
            exact ⟨.tail _ hlater.1, hlater.2⟩
        · have hlater := ih (.tail _ hline) hd
          exact ⟨.tail _ hlater.1, hlater.2⟩

theorem clean_of_mem_linesOf {text line : String} (h : '\r' ∉ text.toList)
    (hline : line ∈ linesOf text) : Clean line := by
  obtain ⟨chars, hchars, rfl⟩ := List.mem_map.mp hline
  constructor
  · intro hmem
    rw [String.toList_ofList] at hmem
    exact (mem_of_mem_splitLines hchars hmem).2 rfl
  · intro hmem
    rw [String.toList_ofList] at hmem
    exact h (mem_of_mem_splitLines hchars hmem).1

theorem written_append_first (closed : Bool) (front line : String) (rest : List String) :
    written closed ((front ++ line) :: rest) = front ++ written closed (line :: rest) := by
  cases rest with
  | nil =>
    cases closed
    · rfl
    · exact String.append_assoc
  | cons next rest =>
    simp only [written, String.append_assoc]

/-- A text is written as its physical lines. The last of them is not empty if no line feed
stands behind it. -/
theorem written_splitLines (cs : List Char) : ∃ closed,
    written closed ((splitLines cs).map String.ofList) = String.ofList cs ∧
      (closed = true ∨
        ∀ last ∈ ((splitLines cs).map String.ofList).getLast?, last ≠ "") := by
  induction cs with
  | nil => exact ⟨true, rfl, .inl rfl⟩
  | cons c cs ih =>
    obtain ⟨closed, hwritten, hlast⟩ := ih
    have hfirst : String.ofList (c :: cs) = String.ofList [c] ++ String.ofList cs := by
      rw [← String.ofList_append]
      rfl
    by_cases hc : c = '\n'
    · subst hc
      rcases hrest : splitLines cs with _ | ⟨line, rest⟩
      all_goals
        rw [hrest] at hwritten hlast
        rw [splitLines_lineFeed, hrest, hfirst, ← hwritten]
      · exact ⟨true, rfl, .inl rfl⟩
      · exact ⟨closed, rfl, hlast⟩
    · rcases hrest : splitLines cs with _ | ⟨line, rest⟩
      all_goals
        rw [hrest] at hwritten hlast
        rw [hfirst, ← hwritten]
      · refine ⟨false, ?_, .inr ?_⟩
        all_goals rw [splitLines_of_nil hc hrest]
        · exact (String.append_empty).symm
        · intro last hmem
          cases hmem
          simp
      · rw [splitLines_of_cons hc hrest, List.map_cons, List.map_cons]
        have hline : String.ofList (c :: line) = String.ofList [c] ++ String.ofList line := by
          rw [← String.ofList_append]
          rfl
        refine ⟨closed, by rw [hline, written_append_first], hlast.imp_right fun hlast => ?_⟩
        cases rest with
        | nil =>
          intro last hmem
          cases hmem
          simp
        | cons next rest => exact hlast

/-- The lines of a text without carriage returns are the texts that a source reads. -/
theorem texts_ofText {text : String} (h : '\r' ∉ text.toList) :
    (physicalLines (Utf8.encode text)).map lineText? = (linesOf text).map some := by
  obtain ⟨closed, hwritten, hlast⟩ := written_splitLines text.toList
  have htext : written closed (linesOf text) = text := by
    rw [String.ofList_toList] at hwritten
    exact hwritten
  have htexts : (physicalLines (Utf8.encode (written closed (linesOf text)))).map lineText? =
      (linesOf text).map some :=
    texts_written closed (fun _ => clean_of_mem_linesOf h) hlast
  rwa [htext] at htexts

/-! ## How many lines are taken -/

/-- A physical line that ends in the mark. -/
def GoesOn (line : String) : Prop := line.toList.getLast? = some continuationMark

instance (line : String) : Decidable (GoesOn line) :=
  inferInstanceAs (Decidable (_ = _))

/-- A line without its last character, which is the mark if it goes on. -/
def unmarked (line : String) : String := String.ofList line.toList.dropLast

/-- How many lines there are up to the first that does not go on, that one included. -/
def extent : List String → Nat
  | [] => 0
  | line :: rest => if GoesOn line then extent rest + 1 else 1

/-- How many lines are read if this text was read before them and goes on. -/
def taken (kept : String) : List String → Nat
  | [] => 0
  | line :: rest =>
    match dropMark? (kept ++ line) with
    | none => 1
    | some kept => taken kept rest + 1

/-- Lines of which the first that does not go on is empty and not the last, while the lines
before it end in a mark when they are joined. -/
def TakesNext (lines : List String) : Prop :=
  ∃ front next rest, lines = front ++ "" :: next :: rest ∧ (∀ line ∈ front, GoesOn line) ∧
    GoesOn (String.join (front.map unmarked))

theorem GoesOn.eq_append {line : String} (h : GoesOn line) :
    line = unmarked line ++ String.singleton continuationMark := by
  obtain ⟨chars, hchars⟩ := List.getLast?_eq_some_iff.mp h
  apply String.toList_inj.mp
  simp [unmarked, hchars]

theorem dropMark?_append_of_goesOn {line : String} (h : GoesOn line) (kept : String) :
    dropMark? (kept ++ line) = some (kept ++ unmarked line) := by
  have hsplit : kept ++ line = kept ++ unmarked line ++ String.singleton continuationMark := by
    rw [String.append_assoc, ← h.eq_append]
  rw [hsplit, dropMark?_append_mark]

/-- Behind a line that is not empty only its own end matters. -/
theorem dropMark?_append_of_stops {line : String} (h : ¬ GoesOn line) (hne : line ≠ "")
    (kept : String) : dropMark? (kept ++ line) = none := by
  apply dropMark?_eq_none
  have hlast : line.toList.getLast? ≠ none := by
    intro hnone
    exact hne (String.toList_eq_nil_iff.mp (List.getLast?_eq_none_iff.mp hnone))
  rw [String.toList_append, List.getLast?_append]
  rcases hchar : line.toList.getLast? with _ | c
  · exact absurd hchar hlast
  · rw [← hchar]
    simpa [hchar, GoesOn] using h

theorem taken_eq_zero_iff {kept : String} {lines : List String} :
    taken kept lines = 0 ↔ lines = [] := by
  cases lines with
  | nil => simp [taken]
  | cons line rest =>
    rw [taken]
    split <;> simp

theorem taken_append {front : List String} (h : ∀ line ∈ front, GoesOn line) (kept : String)
    (rest : List String) :
    taken kept (front ++ rest) =
      front.length + taken (kept ++ String.join (front.map unmarked)) rest := by
  induction front generalizing kept with
  | nil => simp
  | cons line front ih =>
    have hline := h line List.mem_cons_self
    rw [List.cons_append, taken, dropMark?_append_of_goesOn hline]
    dsimp only
    rw [ih fun line hmem => h line (.tail _ hmem), List.map_cons, String.join_cons,
      String.append_assoc, List.length_cons]
    omega

theorem extent_append {front : List String} (h : ∀ line ∈ front, GoesOn line)
    (rest : List String) : extent (front ++ rest) = front.length + extent rest := by
  induction front with
  | nil => simp
  | cons line front ih =>
    rw [List.cons_append, extent, if_pos (h line List.mem_cons_self),
      ih fun line hmem => h line (.tail _ hmem), List.length_cons]
    omega

/-- Lines all go on, or there is a first that does not. -/
theorem exists_front (lines : List String) :
    (∀ line ∈ lines, GoesOn line) ∨
      ∃ front line rest, lines = front ++ line :: rest ∧ (∀ line ∈ front, GoesOn line) ∧
        ¬ GoesOn line := by
  induction lines with
  | nil => exact .inl nofun
  | cons line lines ih =>
    by_cases hline : GoesOn line
    · rcases ih with hall | ⟨front, stop, rest, rfl, hfront, hstop⟩
      · exact .inl (List.forall_mem_cons.mpr ⟨hline, hall⟩)
      · exact .inr ⟨line :: front, stop, rest, rfl, List.forall_mem_cons.mpr ⟨hline, hfront⟩,
          hstop⟩
    · exact .inr ⟨[], line, lines, rfl, nofun, hline⟩

theorem not_goesOn_empty : ¬ GoesOn "" := by decide

/-- A line that does not go on ends what is read, unless it is empty, the text before it
still ends in a mark and another line follows. -/
theorem taken_stop {line : String} (h : ¬ GoesOn line) (kept : String) (rest : List String) :
    1 ≤ taken kept (line :: rest) ∧
      (taken kept (line :: rest) = 1 ↔ ¬ (line = "" ∧ GoesOn kept ∧ rest ≠ [])) := by
  rw [taken]
  by_cases hempty : line = ""
  · -- the text is as it was before the line, and its end is tested again
    subst hempty
    rw [String.append_empty]
    by_cases hkept : GoesOn kept
    · have hdrop := dropMark?_append_of_goesOn hkept ""
      rw [String.empty_append, String.empty_append] at hdrop
      rw [hdrop]
      refine ⟨Nat.le_add_left 1 _, ?_⟩
      show taken _ rest + 1 = 1 ↔ _
      rw [Nat.add_eq_right, taken_eq_zero_iff]
      simp [hkept]
    · rw [dropMark?_eq_none hkept]
      simp [hkept]
  · rw [dropMark?_append_of_stops h hempty]
    simp [hempty]

theorem extent_le_taken (lines : List String) : extent lines ≤ taken "" lines := by
  rcases exists_front lines with hall | ⟨front, line, rest, rfl, hfront, hstop⟩
  · rw [← List.append_nil lines, extent_append hall, taken_append hall]
    exact Nat.le_refl _
  · rw [extent_append hfront, taken_append hfront, extent, if_neg hstop]
    exact Nat.add_le_add_left (taken_stop hstop _ rest).1 _

/-- A logical line takes the lines that it should, exactly if no empty line makes it take the
next one too. -/
theorem taken_eq_extent_iff (lines : List String) :
    taken "" lines = extent lines ↔ ¬ TakesNext lines := by
  constructor
  · rintro heq ⟨front, next, rest, rfl, hfront, hmark⟩
    rw [extent_append hfront, taken_append hfront, extent, if_neg not_goesOn_empty,
      String.empty_append] at heq
    have hone := (taken_stop not_goesOn_empty (String.join (front.map unmarked))
      (next :: rest)).2.mp (Nat.add_left_cancel heq)
    exact hone ⟨rfl, hmark, List.cons_ne_nil next rest⟩
  · intro hnot
    rcases exists_front lines with hall | ⟨front, line, rest, rfl, hfront, hstop⟩
    · rw [← List.append_nil lines, extent_append hall, taken_append hall]
      rfl
    · rw [extent_append hfront, taken_append hfront, extent, if_neg hstop, String.empty_append]
      refine congrArg _ ((taken_stop hstop _ rest).2.mpr ?_)
      rintro ⟨rfl, hmark, hrest⟩
      obtain ⟨next, others, rfl⟩ := List.exists_cons_of_ne_nil hrest
      exact hnot ⟨front, next, others, rfl, hfront, hmark⟩

/-! ## Reading a logical line -/

section Reading

variable {raws : List Bytes} {lines : List String} {n : Nat}

theorem joinLines_taken {text kept : String} (hmark : dropMark? text = some kept)
    (hraws : raws.map lineText? = lines.map some) :
    ∃ full, joinLines text n raws =
      (.ok full, raws.drop (taken kept lines), n + taken kept lines) := by
  induction lines generalizing text kept n raws with
  | nil =>
    obtain rfl := List.map_eq_nil_iff.mp hraws
    exact ⟨kept, by simp [joinLines, hmark, taken]⟩
  | cons line lines ih =>
    obtain ⟨raw, raws', rfl, hraw, hraws'⟩ := List.map_eq_cons_iff.mp hraws
    rw [joinLines, hmark, taken]
    dsimp only
    rw [hraw]
    dsimp only
    rcases hnext : dropMark? (kept ++ line) with _ | kept'
    · exact ⟨kept ++ line, joinLines_of_none hnext (n + 1) raws'⟩
    · obtain ⟨full, hfull⟩ := ih (n := n + 1) hnext hraws'
      refine ⟨full, ?_⟩
      rw [hfull, Nat.add_assoc, Nat.add_comm 1]
      rfl

/-- A logical line can be read of readable lines, and leaves them behind the taken ones. -/
theorem readLogical_taken (tag : String) (hraws : raws.map lineText? = lines.map some) :
    ∃ line?, readLogical ⟨tag, .ok raws, n⟩ =
      (.ok line?, skip ⟨tag, .ok raws, n⟩ (taken "" lines)) := by
  cases lines with
  | nil =>
    obtain rfl := List.map_eq_nil_iff.mp hraws
    exact ⟨none, rfl⟩
  | cons line lines =>
    obtain ⟨raw, raws', rfl, hraw, hraws'⟩ := List.map_eq_cons_iff.mp hraws
    rcases hmark : dropMark? line with _ | kept
    · have hjoin := joinLines_of_none hmark (n + 1) raws'
      refine ⟨some ⟨line, n + 1⟩, ?_⟩
      simp [readLogical, readPhysical, remaining, hraw, hjoin, Except.map, skip, taken, hmark]
    · obtain ⟨full, hjoin⟩ := joinLines_taken (n := n + 1) hmark hraws'
      refine ⟨some ⟨full, n + 1 + taken kept lines⟩, ?_⟩
      simp [readLogical, readPhysical, remaining, hraw, hjoin, Except.map, skip, taken, hmark]
      omega

theorem readPhysical_of_texts (tag : String) (hraws : raws.map lineText? = lines.map some) :
    ∃ count, (readPhysical ⟨tag, .ok raws, n⟩).2 = skip ⟨tag, .ok raws, n⟩ count := by
  cases lines with
  | nil =>
    obtain rfl := List.map_eq_nil_iff.mp hraws
    exact ⟨0, rfl⟩
  | cons line lines =>
    obtain ⟨raw, raws', rfl, hraw, -⟩ := List.map_eq_cons_iff.mp hraws
    exact ⟨1, by simp [readPhysical, hraw, skip, Except.map]⟩

/-- Every way to read goes on to a later place of readable lines. -/
theorem read_of_texts (tag : String) (hraws : raws.map lineText? = lines.map some)
    (kind : ReadKind) :
    ∃ count, (read kind ⟨tag, .ok raws, n⟩).2 = skip ⟨tag, .ok raws, n⟩ count := by
  obtain ⟨line?, hlogical⟩ := readLogical_taken (n := n) tag hraws
  cases kind with
  | physical => exact readPhysical_of_texts tag hraws
  | logical => exact ⟨_, congrArg Prod.snd hlogical⟩
  | next =>
    refine ⟨taken "" lines, ?_⟩
    show (next ⟨tag, .ok raws, n⟩).2 = _
    unfold next
    rw [hlogical]
    cases line? <;> rfl

end Reading

/-- A source after a sequence of reads. -/
def afterReads (s : Source) (kinds : List ReadKind) : Source :=
  kinds.foldl (fun s kind => (s.read kind).2) s

/-- Reads of a text come to a place in it, which is the count of lines read. -/
theorem afterReads_ofText (tag : String) {text : String} (h : '\r' ∉ text.toList)
    (kinds : List ReadKind) : ∃ place,
      (ofText tag text).afterReads kinds =
        ⟨tag, .ok ((physicalLines (Utf8.encode text)).drop place), place⟩ := by
  have hreads : ∀ place, ∃ place',
      afterReads ⟨tag, .ok ((physicalLines (Utf8.encode text)).drop place), place⟩ kinds =
        ⟨tag, .ok ((physicalLines (Utf8.encode text)).drop place'), place'⟩ := by
    induction kinds with
    | nil => exact fun place => ⟨place, rfl⟩
    | cons kind kinds ih =>
      intro place
      have hraws : ((physicalLines (Utf8.encode text)).drop place).map lineText? =
          ((linesOf text).drop place).map some := by
        rw [List.map_drop, texts_ofText h, List.map_drop]
      obtain ⟨count, hcount⟩ := read_of_texts (n := place) tag hraws kind
      obtain ⟨place', hplace'⟩ := ih (place + count)
      refine ⟨place', ?_⟩
      rw [afterReads, List.foldl_cons, hcount, ← afterReads, ← hplace']
      simp only [skip, Except.map, List.drop_drop]
  exact hreads 0

/-- The physical lines of a text that a source over it has not read yet. -/
def linesAhead (text : String) (s : Source) : List String := (linesOf text).drop s.lineNo

/-- At every place that reads of a text without carriage returns come to, reading a logical
line succeeds and takes at least the physical lines up to the first that does not end in the
mark, or up to the end. It takes these and no more, exactly if it is not that the first such
line is empty, another one follows, and the lines before it, joined, still end in a mark. -/
theorem readLogical_stops_iff (tag : String) {text : String} (h : '\r' ∉ text.toList)
    (kinds : List ReadKind) :
    let s := (ofText tag text).afterReads kinds
    (∃ line?, s.readLogical.1 = .ok line?) ∧
      s.lineNo + extent (linesAhead text s) ≤ s.readLogical.2.lineNo ∧
      (s.readLogical.2 = s.skip (extent (linesAhead text s)) ↔ ¬ TakesNext (linesAhead text s)) := by
  obtain ⟨place, hplace⟩ := afterReads_ofText tag h kinds
  have hraws : ((physicalLines (Utf8.encode text)).drop place).map lineText? =
      ((linesOf text).drop place).map some := by
    rw [List.map_drop, texts_ofText h, List.map_drop]
  obtain ⟨line?, hread⟩ := readLogical_taken (n := place) tag hraws
  dsimp only
  rw [hplace, hread]
  refine ⟨⟨line?, rfl⟩, Nat.add_le_add_left (extent_le_taken _) place, ?_⟩
  rw [← taken_eq_extent_iff]
  constructor
  · intro hsame
    exact Nat.add_left_cancel (congrArg lineNo hsame)
  · intro hsame
    exact congrArg (skip _) hsame

/-- A command that ends in two marks, an empty line, and another command. -/
def twoMarks : String := "!A\\\\\n\n!B\n"

/-- The empty line should end the first command, and the second becomes part of it. -/
theorem twoMarks_takesNext :
    '\r' ∉ twoMarks.toList ∧ linesOf twoMarks = ["!A\\\\", "", "!B"] ∧
      extent (linesOf twoMarks) = 2 ∧
      (ofText "<script>" twoMarks).readLogical.1 = .ok (some ⟨"!A!B", 3⟩) ∧
      (ofText "<script>" twoMarks).readLogical.2 ≠ (ofText "<script>" twoMarks).skip 2 := by
  refine ⟨by decide +kernel, by decide +kernel, by decide +kernel, by decide +kernel, ?_⟩
  intro hsame
  exact absurd (congrArg lineNo hsame) (by decide +kernel)

/-- One physical read behind the start the empty line comes first, and ends its line. -/
theorem readLogical_stops_iff_twoMarks :
    '\r' ∉ twoMarks.toList ∧
      TakesNext (linesAhead twoMarks (ofText "<script>" twoMarks)) ∧
      (ofText "<script>" twoMarks).readLogical.2 ≠ (ofText "<script>" twoMarks).skip 2 ∧
      ¬ TakesNext (linesAhead twoMarks ((ofText "<script>" twoMarks).afterReads [.physical])) ∧
      ((ofText "<script>" twoMarks).afterReads [.physical]).readLogical.2 =
        ((ofText "<script>" twoMarks).afterReads [.physical]).skip 1 := by
  have hclean : '\r' ∉ twoMarks.toList := by decide +kernel
  have hstart : linesAhead twoMarks (ofText "<script>" twoMarks) = ["!A\\\\", "", "!B"] := by
    decide +kernel
  have hsecond : linesAhead twoMarks ((ofText "<script>" twoMarks).afterReads [.physical]) =
      ["", "!B"] := by
    decide +kernel
  have htakes : TakesNext (linesAhead twoMarks (ofText "<script>" twoMarks)) :=
    ⟨["!A\\\\"], "!B", [], hstart, by decide +kernel, by decide +kernel⟩
  have hends : ¬ TakesNext
      (linesAhead twoMarks ((ofText "<script>" twoMarks).afterReads [.physical])) := by
    rw [hsecond, ← taken_eq_extent_iff]
    decide +kernel
  have hfirst := (readLogical_stops_iff "<script>" hclean []).2.2
  have hnext := (readLogical_stops_iff "<script>" hclean [.physical]).2.2.mpr hends
  refine ⟨hclean, htakes, ?_, hends, ?_⟩
  · intro hsame
    refine hfirst.mp ?_ htakes
    rw [afterReads, List.foldl_nil, hstart]
    exact hsame
  · rw [hsecond] at hnext
    exact hnext

end ScpiScript.Source
