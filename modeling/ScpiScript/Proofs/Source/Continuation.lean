import Mathlib.Algebra.GroupWithZero.Nat
import ScpiScript.Proofs.Source.Boundary
import ScpiScript.Proofs.Source.LineEnding
import ScpiScript.Proofs.Text.Encoding
import ScpiScript.Proofs.Text.RoundTrip
/-!
# Lines written in pieces

A line may be cut anywhere, also into pieces that are empty or end in a continuation mark
of their own, and its pieces written one below the other with a mark behind each but the
last. What is read is the line, under the number of its last piece.

- `Source.continued` are the physical lines that the pieces of a line are written as, and
  `Source.written` is the text made of physical lines.
- `joinLines_continued`: joining puts the pieces together. What is tested for a mark is the
  text read so far, and it ends in one exactly as long as pieces are left.
- `continuations_unseen` is the reading of all lines of a text.
-/

namespace ScpiScript

namespace Source

/-- The physical lines for the pieces of a line: a mark behind each but the last. -/
def continued : List String → List String
  | [] => []
  | [last] => [last]
  | piece :: next :: rest =>
    (piece ++ String.singleton continuationMark) :: continued (next :: rest)

/-- The text of physical lines. The last of them may be left without its line feed. -/
def written (closed : Bool) : List String → String
  | [] => ""
  | [last] => if closed then last ++ "\n" else last
  | line :: next :: rest => line ++ "\n" ++ written closed (next :: rest)

/-- A text without the characters that end a line. -/
def Clean (text : String) : Prop := '\n' ∉ text.toList ∧ '\r' ∉ text.toList

instance (text : String) : Decidable (Clean text) :=
  inferInstanceAs (Decidable ('\n' ∉ text.toList ∧ '\r' ∉ text.toList))

/-! ## The texts of the physical lines -/

theorem Clean.lineFeed_notMem {text : String} (h : Clean text) :
    lineFeed ∉ Utf8.encode text :=
  Utf8.notMem_encode (c := '\n') (by decide) h.1

theorem Clean.carriageReturn_notMem {text : String} (h : Clean text) :
    carriageReturn ∉ Utf8.encode text :=
  Utf8.notMem_encode (c := '\r') (by decide) h.2

theorem lineText?_closed {text : String} (h : Clean text) :
    lineText? (Utf8.encode (text ++ "\n")) = some text := by
  have hbytes : Utf8.encode (text ++ "\n") = Utf8.encode text ++ [lineFeed] := by
    rw [Utf8.encode_append]
    rfl
  rw [hbytes, lineText?_append_lineFeed h.carriageReturn_notMem, Utf8.decode?_encode]

/-- What is stripped from a line is at its end and ends lines. -/
theorem exists_ending (cs : List Char) :
    ∃ ending, cs = stripEnding cs ++ ending ∧ ∀ c ∈ ending, c = '\n' ∨ c = '\r' := by
  unfold stripEnding
  split
  · rename_i back hback
    refine ⟨['\r', '\n'], ?_, by simp⟩
    simpa using congrArg List.reverse hback
  · rename_i back _ hback
    refine ⟨['\n'], ?_, by simp⟩
    simpa using congrArg List.reverse hback
  · exact ⟨[], by simp, by simp⟩

theorem lineText?_open {text : String} (h : Clean text) :
    lineText? (Utf8.encode text) = some text := by
  obtain ⟨ending, hsplit, hending⟩ := exists_ending text.toList
  have hnil : ending = [] := by
    refine List.eq_nil_iff_forall_not_mem.mpr fun c hc => ?_
    have hmem : c ∈ text.toList := by
      rw [hsplit]
      exact List.mem_append_right _ hc
    rcases hending c hc with rfl | rfl
    · exact h.1 hmem
    · exact h.2 hmem
  have hstrip : stripEnding text.toList = text.toList := by
    rw [hnil, List.append_nil] at hsplit
    exact hsplit.symm
  rw [lineText?, Utf8.decode?_encode, Option.map_some, hstrip, String.ofList_toList]

theorem physicalLines_of_notMem {bytes : Bytes} (h : lineFeed ∉ bytes) (hne : bytes ≠ []) :
    physicalLines bytes = [bytes] := by
  induction bytes with
  | nil => exact absurd rfl hne
  | cons b rest ih =>
    obtain ⟨hb, hrest⟩ := not_or.mp (mt List.mem_cons.mpr h)
    rw [physicalLines_cons]
    by_cases hnil : rest = []
    · subst hnil
      exact consByte_nil (Ne.symm hb)
    · rw [ih hrest hnil, consByte_cons (Ne.symm hb)]

theorem physicalLines_closed {bytes : Bytes} (h : lineFeed ∉ bytes) :
    physicalLines (bytes ++ [lineFeed]) = [bytes ++ [lineFeed]] := by
  induction bytes with
  | nil => rfl
  | cons b rest ih =>
    obtain ⟨hb, hrest⟩ := not_or.mp (mt List.mem_cons.mpr h)
    rw [List.cons_append, physicalLines_cons, ih hrest, consByte_cons (Ne.symm hb)]

/-- The text of physical lines is read as these lines. If it does not end with the end of a
line, its last line has to be there to be read. -/
theorem texts_written (closed : Bool) {lines : List String} (hclean : ∀ line ∈ lines, Clean line)
    (hlast : closed = true ∨ ∀ last ∈ lines.getLast?, last ≠ "") :
    (physicalLines (Utf8.encode (written closed lines))).map lineText? = lines.map some := by
  have hfirst : ∀ line, Clean line → ∀ more : Bytes,
      physicalLines (Utf8.encode (line ++ "\n") ++ more) =
        Utf8.encode (line ++ "\n") :: physicalLines more := by
    intro line hline more
    have hbytes : Utf8.encode (line ++ "\n") = Utf8.encode line ++ [lineFeed] := by
      rw [Utf8.encode_append]
      rfl
    have hends : EndsLine (Utf8.encode line ++ [lineFeed]) := fun b hb => by
      rw [List.getLast?_append] at hb
      exact (Option.mem_some.mp hb).symm
    rw [hbytes, physicalLines_append hends, physicalLines_closed hline.lineFeed_notMem]
    rfl
  induction lines with
  | nil => rfl
  | cons line rest ih =>
    have hline := hclean line List.mem_cons_self
    rcases rest with _ | ⟨next, others⟩
    · rw [written]
      split
      · have hone := hfirst line hline []
        rw [List.append_nil] at hone
        rw [hone, List.map_cons, lineText?_closed hline]
        rfl
      · rename_i hopen
        have hne : line ≠ "" := hlast.resolve_left hopen line rfl
        have hbytes : Utf8.encode line ≠ [] := fun hnil =>
          hne (Utf8.encode_injective (hnil.trans Utf8.encode_empty.symm))
        rw [physicalLines_of_notMem hline.lineFeed_notMem hbytes, List.map_cons,
          lineText?_open hline]
        rfl
    · rw [written, Utf8.encode_append, hfirst line hline, List.map_cons, lineText?_closed hline,
        ih (fun line hmem => hclean line (.tail _ hmem)) hlast]
      rfl

theorem written_append (closed : Bool) (front : List String) {rest : List String}
    (h : rest ≠ []) : written closed (front ++ rest) = written true front ++ written closed rest := by
  induction front with
  | nil => rw [List.nil_append, written, String.empty_append]
  | cons line front ih =>
    obtain ⟨next, others, hnext⟩ := List.exists_cons_of_ne_nil
      (List.append_ne_nil_of_right_ne_nil front h)
    rw [List.cons_append, hnext, written, ← hnext, ih]
    cases front with
    | nil =>
      rw [written, String.empty_append]
      rfl
    | cons after front =>
      rw [written, String.append_assoc, String.append_assoc, String.append_assoc]

theorem endsLine_written (lines : List String) : EndsLine (Utf8.encode (written true lines)) := by
  induction lines with
  | nil =>
    intro b hb
    cases hb
  | cons line rest ih =>
    have hfirst : EndsLine (Utf8.encode (line ++ "\n")) := by
      intro b hb
      rw [Utf8.encode_append, List.getLast?_append] at hb
      exact (Option.mem_some.mp hb).symm
    cases rest with
    | nil => exact hfirst
    | cons next rest =>
      intro b hb
      rw [written, Utf8.encode_append, List.getLast?_append] at hb
      rcases hlast : (Utf8.encode (written true (next :: rest))).getLast? with _ | c
      · rw [hlast] at hb
        exact hfirst b hb
      · rw [hlast] at hb
        exact ih b (by rw [hlast]; exact hb)

/-! ## One line -/

@[simp] theorem dropMark?_append_mark (text : String) :
    dropMark? (text ++ String.singleton continuationMark) = some text := by
  simp [dropMark?]

theorem dropMark?_eq_none {text : String} (h : text.toList.getLast? ≠ some continuationMark) :
    dropMark? text = none := by
  rw [List.getLast?_eq_head?_reverse] at h
  unfold dropMark?
  split
  · rename_i c back hback
    rw [hback] at h
    exact if_neg fun hc => h (congrArg some hc)
  · rfl

/-- Cutting a line adds nothing to it but marks. -/
theorem mem_join_of_mem_continued {c : Char} {line : String} {pieces : List String}
    (hline : line ∈ continued pieces) (hc : c ∈ line.toList) (hmark : c ≠ continuationMark) :
    c ∈ (String.join pieces).toList := by
  fun_induction continued pieces with
  | case1 => cases hline
  | case2 last =>
    obtain rfl := List.mem_singleton.mp hline
    rwa [String.join_cons, String.join_nil, String.append_empty]
  | case3 piece next rest ih =>
    rw [String.join_cons, String.toList_append, List.mem_append]
    rcases List.mem_cons.mp hline with rfl | hline
    · rw [String.toList_append, List.mem_append, String.toList_singleton,
        List.mem_singleton] at hc
      exact .inl (hc.resolve_right hmark)
    · exact .inr (ih hline)

theorem clean_of_mem_continued {pieces : List String} (h : Clean (String.join pieces))
    {line : String} (hline : line ∈ continued pieces) : Clean line :=
  ⟨fun hc => h.1 (mem_join_of_mem_continued hline hc (by decide)),
    fun hc => h.2 (mem_join_of_mem_continued hline hc (by decide))⟩

theorem length_continued (pieces : List String) : (continued pieces).length = pieces.length := by
  fun_induction continued pieces with
  | case1 => rfl
  | case2 last => rfl
  | case3 piece next rest ih => rw [List.length_cons, List.length_cons, ih]

theorem joinLines_of_none {text : String} (h : dropMark? text = none) (n : Nat)
    (lines : List Bytes) : joinLines text n lines = (.ok text, lines, n) := by
  cases lines <;> simp [joinLines, h]

/-- The pieces of a line are joined to it, whatever text stands before them and whatever
lines behind. -/
theorem joinLines_continued {front piece line : String} {pieces others : List String} {n : Nat}
    {raws rest : List Bytes} (hline : continued (piece :: pieces) = line :: others)
    (hraws : raws.map lineText? = others.map some)
    (hmark : dropMark? (front ++ String.join (piece :: pieces)) = none) :
    joinLines (front ++ line) n (raws ++ rest) =
      (.ok (front ++ String.join (piece :: pieces)), rest, n + pieces.length) := by
  -- every piece but the last hands the text before it on to the next
  induction pieces generalizing front piece line others n raws with
  | nil =>
    obtain ⟨rfl, rfl⟩ := List.cons.inj hline
    obtain rfl := List.map_eq_nil_iff.mp hraws
    rw [String.join_cons, String.join_nil, String.append_empty] at hmark ⊢
    exact joinLines_of_none hmark n rest
  | cons next pieces ih =>
    obtain ⟨rfl, rfl⟩ := List.cons.inj hline
    obtain ⟨line', others', hcontinued⟩ := List.exists_cons_of_length_pos
      (l := continued (next :: pieces)) (by rw [length_continued]; exact Nat.succ_pos _)
    rw [hcontinued] at hraws
    obtain ⟨raw, raws', rfl, hraw, hraws'⟩ := List.map_eq_cons_iff.mp hraws
    rw [String.join_cons, ← String.append_assoc] at hmark ⊢
    rw [← String.append_assoc, List.cons_append, joinLines, dropMark?_append_mark]
    dsimp only
    rw [hraw]
    dsimp only
    have hcount : n + 1 + pieces.length = n + (next :: pieces).length := by
      rw [List.length_cons]
      omega
    rw [ih hcontinued hraws' hmark, hcount]

/-- A line that was cut is read as one logical line, with the number of its last piece. -/
theorem readLogical_continued {pieces : List String} (hne : pieces ≠ []) {raws : List Bytes}
    (hraws : raws.map lineText? = (continued pieces).map some)
    (hmark : dropMark? (String.join pieces) = none) (tag : String) (n : Nat)
    (rest : List Bytes) :
    readLogical ⟨tag, .ok (raws ++ rest), n⟩ =
      (.ok (some ⟨String.join pieces, n + pieces.length⟩),
        ⟨tag, .ok rest, n + pieces.length⟩) := by
  obtain ⟨piece, more, rfl⟩ := List.exists_cons_of_ne_nil hne
  obtain ⟨line, others, hcontinued⟩ := List.exists_cons_of_length_pos
    (l := continued (piece :: more)) (by rw [length_continued]; exact Nat.succ_pos _)
  rw [hcontinued] at hraws
  obtain ⟨raw, raws', rfl, hraw, hraws'⟩ := List.map_eq_cons_iff.mp hraws
  have hjoin : joinLines ("" ++ line) (n + 1) (raws' ++ rest) =
      (.ok ("" ++ String.join (piece :: more)), rest, n + 1 + more.length) :=
    joinLines_continued hcontinued hraws' (by rwa [String.empty_append])
  rw [String.empty_append, String.empty_append] at hjoin
  have hcount : n + 1 + more.length = n + (piece :: more).length := by
    rw [List.length_cons]
    omega
  rw [hcount] at hjoin
  simp only [readLogical, readPhysical, remaining, List.cons_append, hraw, hjoin, Except.map]

/-! ## All lines -/

/-- How many physical lines there are up to the end of a line, from zero. -/
def countUpTo (lines : List (List String)) (i : Nat) : Nat :=
  ((lines.take (i + 1)).map List.length).sum

theorem readAll_logical_nil (tag : String) (n more : Nat) :
    readAll ⟨tag, .ok [], n⟩ (List.replicate more .logical) =
      List.replicate more (.logical (.ok none), n) := by
  induction more with
  | zero => rfl
  | succ more ih =>
    rw [List.replicate_succ, List.replicate_succ, readAll]
    exact congrArg _ ih

theorem readAll_continued {lines : List (List String)} (hne : ∀ pieces ∈ lines, pieces ≠ [])
    (hmark : ∀ pieces ∈ lines, dropMark? (String.join pieces) = none) {raws : List Bytes}
    (hraws : raws.map lineText? = (lines.flatMap continued).map some) (tag : String)
    (n more : Nat) :
    readAll ⟨tag, .ok raws, n⟩ (List.replicate (lines.length + more) .logical) =
      lines.mapIdx (fun i pieces =>
          (.logical (.ok (some ⟨String.join pieces, n + countUpTo lines i⟩)),
            n + countUpTo lines i)) ++
        List.replicate more (.logical (.ok none), n + (lines.map List.length).sum) := by
  induction lines generalizing raws n with
  | nil =>
    obtain rfl := List.map_eq_nil_iff.mp hraws
    rw [List.length_nil, Nat.zero_add]
    exact readAll_logical_nil tag n more
  | cons pieces rest ih =>
    rw [List.flatMap_cons, List.map_append] at hraws
    obtain ⟨front, others, rfl, hfront, hothers⟩ := List.map_eq_append_iff.mp hraws
    have hread := readLogical_continued (hne pieces List.mem_cons_self) hfront
      (hmark pieces List.mem_cons_self) tag n others
    have hlater := ih (fun p hp => hne p (.tail _ hp)) (fun p hp => hmark p (.tail _ hp)) hothers
      (n + pieces.length)
    have hcount : ∀ i, n + pieces.length + countUpTo rest i =
        n + countUpTo (pieces :: rest) (i + 1) := by
      intro i
      rw [Nat.add_assoc]
      rfl
    rw [List.length_cons, Nat.add_right_comm, List.replicate_succ, readAll]
    simp only [read, hread, hlater, hcount]
    rw [List.mapIdx_cons, List.map_cons, List.sum_cons, ← Nat.add_assoc]
    rfl

/-- However lines are cut into pieces and the pieces written below each other with marks,
repeated reading gives the lines in order and then the end. The number of a line is that of
its last physical line: the count of the pieces of all lines up to it. The text may lack the
end of its last physical line, if that one is not empty. -/
theorem continuations_unseen (tag : String) {lines : List (List String)} (closed : Bool)
    (hne : ∀ pieces ∈ lines, pieces ≠ [])
    (hclean : ∀ pieces ∈ lines, Clean (String.join pieces))
    (hmark : ∀ pieces ∈ lines, (String.join pieces).toList.getLast? ≠ some continuationMark)
    (hlast : closed = true ∨ ∀ last ∈ (lines.flatMap continued).getLast?, last ≠ "")
    (more : Nat) :
    (ofText tag (written closed (lines.flatMap continued))).readAll
        (List.replicate (lines.length + more) .logical) =
      lines.mapIdx (fun i pieces =>
          (.logical (.ok (some ⟨String.join pieces, countUpTo lines i⟩)), countUpTo lines i)) ++
        List.replicate more (.logical (.ok none), (lines.map List.length).sum) := by
  have hphysical : ∀ line ∈ lines.flatMap continued, Clean line := by
    intro line hline
    obtain ⟨pieces, hpieces, hline⟩ := List.mem_flatMap.mp hline
    exact ⟨fun hc => (hclean pieces hpieces).1 (mem_join_of_mem_continued hline hc (by decide)),
      fun hc => (hclean pieces hpieces).2 (mem_join_of_mem_continued hline hc (by decide))⟩
  have hread := readAll_continued hne (fun pieces hp => dropMark?_eq_none (hmark pieces hp))
    (texts_written closed hphysical hlast) tag 0 more
  simp only [Nat.zero_add] at hread
  exact hread

/-- A line cut next to a mark of its own and into empty pieces, an empty line, and a line
that is left whole. -/
def pathPieces : List (List String) := [["!PATH C:\\", "", "a", ""], [""], [">x"]]

theorem continuations_unseen_path :
    written false (pathPieces.flatMap continued) = "!PATH C:\\\\\n\\\na\\\n\n\n>x" ∧
      (ofText "<script>" (written false (pathPieces.flatMap continued))).readAll
          (List.replicate 4 .logical) =
        [(.logical (.ok (some ⟨"!PATH C:\\a", 4⟩)), 4), (.logical (.ok (some ⟨"", 5⟩)), 5),
          (.logical (.ok (some ⟨">x", 6⟩)), 6), (.logical (.ok none), 6)] := by
  have hne : ∀ pieces ∈ pathPieces, pieces ≠ [] := by decide
  have hread := continuations_unseen "<script>" false hne (by decide) (by decide)
    (.inr (by decide)) 1
  exact ⟨by decide, hread⟩

end Source

end ScpiScript
