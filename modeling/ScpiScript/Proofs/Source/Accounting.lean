import ScpiScript.Proofs.Source.Extent
import ScpiScript.Proofs.Text.WellFormed
/-!
# Accounting for physical lines

Whatever is read from a source, and in whatever way, its physical lines are taken one after
another from the front. A call takes the lines that it reports on and no more. The count of
lines is that of the lines taken so far that are UTF-8; a line that is not makes the call
fail, and what the call had joined before is lost with it.

- `Source.Joins` says which lines become a logical line, and which text it is.
- `Source.Takes` says which lines a call takes, and what it reports.
- `read_takes` is one call, and `Source.Accounted` any sequence of calls.
- `reads_accounted` says that every sequence of calls is accounted for, and that nothing but
  the end of the input follows the end of the input.
-/

namespace ScpiScript.Source

/-! ## Readable lines -/

/-- A physical line is UTF-8. -/
def Readable (raw : Bytes) : Prop := ∃ text, Utf8.encode text = raw

theorem readable_iff_isSome (raw : Bytes) : Readable raw ↔ (lineText? raw).isSome := by
  rw [lineText?, Option.isSome_map, Option.isSome_iff_exists]
  exact exists_congr fun text => Utf8.decode?_eq_some_iff.symm

instance (raw : Bytes) : Decidable (Readable raw) :=
  decidable_of_iff _ (readable_iff_isSome raw).symm

theorem readable_of_text {raw : Bytes} {text : String} (h : lineText? raw = some text) :
    Readable raw := by
  rw [readable_iff_isSome, h]
  rfl

theorem not_readable_of_none {raw : Bytes} (h : lineText? raw = none) : ¬ Readable raw := by
  rw [readable_iff_isSome, h]
  exact Bool.false_ne_true

/-- How many of physical lines are UTF-8. -/
def readableCount (lines : List Bytes) : Nat := lines.countP (Readable ·)

@[simp] theorem readableCount_append (front back : List Bytes) :
    readableCount (front ++ back) = readableCount front + readableCount back :=
  List.countP_append

theorem readableCount_of_text {raw : Bytes} {text : String} (h : lineText? raw = some text)
    (rest : List Bytes) : readableCount (raw :: rest) = readableCount rest + 1 :=
  List.countP_cons_of_pos (decide_eq_true (readable_of_text h))

theorem readableCount_of_none {raw : Bytes} (h : lineText? raw = none) (rest : List Bytes) :
    readableCount (raw :: rest) = readableCount rest :=
  List.countP_cons_of_neg (by simpa using not_readable_of_none h)

/-! ## What a logical line is made of -/

/-- The text that lines are joined to: the end of what stands before a line is dropped. -/
def joined (texts : List String) : String :=
  texts.foldl (fun text next => unmarked text ++ next) ""

/-- Lines after each of which the logical line that they begin goes on. -/
def Unfinished (texts : List String) : Prop :=
  ∀ front, front ≠ [] → front <+: texts → GoesOn (joined front)

/-- The physical lines that become one logical line, the lines that follow them, and the text
of the logical line or why there is none. -/
inductive Joins : List Bytes → List Bytes → Except IoError String → Prop
  /-- A line that is not UTF-8 continues lines that are lost. -/
  | unreadable {front ahead : List Bytes} {raw : Bytes} {texts : List String}
      (hfront : front.map lineText? = texts.map some) (hopen : Unfinished texts)
      (hraw : ¬ Readable raw) :
      Joins (front ++ [raw]) ahead (.error .invalidUtf8)
  /-- The last line does not go on. -/
  | whole {front ahead : List Bytes} {raw : Bytes} {texts : List String} {last : String}
      (hfront : front.map lineText? = texts.map some) (hopen : Unfinished texts)
      (hraw : lineText? raw = some last) (hstop : ¬ GoesOn (joined (texts ++ [last]))) :
      Joins (front ++ [raw]) ahead (.ok (joined (texts ++ [last])))
  /-- The last line should go on, and it is the last of the input. -/
  | cut {front : List Bytes} {raw : Bytes} {texts : List String} {last : String}
      (hfront : front.map lineText? = texts.map some) (hopen : Unfinished texts)
      (hraw : lineText? raw = some last) (hmark : GoesOn (joined (texts ++ [last]))) :
      Joins (front ++ [raw]) [] (.ok (unmarked (joined (texts ++ [last]))))

theorem joined_concat (texts : List String) (next : String) :
    joined (texts ++ [next]) = unmarked (joined texts) ++ next := by
  rw [joined, List.foldl_append, List.foldl_cons, List.foldl_nil, ← joined]

theorem unfinished_nil : Unfinished [] := by
  intro front hne hbegins
  exact absurd (List.prefix_nil.mp hbegins) hne

theorem Unfinished.concat {texts : List String} {next : String} (h : Unfinished texts)
    (hnext : GoesOn (joined (texts ++ [next]))) : Unfinished (texts ++ [next]) := by
  intro front hne hbegins
  rcases List.prefix_concat_iff.mp hbegins with rfl | hshort
  · exact hnext
  · exact h front hne hshort

theorem dropMark?_of_goesOn {text : String} (h : GoesOn text) :
    dropMark? text = some (unmarked text) := by
  have hdrop := dropMark?_append_of_goesOn h ""
  rwa [String.empty_append, String.empty_append] at hdrop

/-- Behind readable lines after which a logical line goes on, joining takes more lines until
it does not. -/
theorem joinLines_joins {front : List Bytes} {texts : List String} {raw : Bytes} {last : String}
    (hfront : front.map lineText? = texts.map some) (hopen : Unfinished texts)
    (hraw : lineText? raw = some last) (n : Nat) (lines : List Bytes) :
    ∃ taken ahead result, lines = taken ++ ahead ∧
      joinLines (joined (texts ++ [last])) n lines = (result, ahead, n + readableCount taken) ∧
      Joins (front ++ raw :: taken) ahead result := by
  induction lines generalizing front texts raw last n with
  | nil =>
    by_cases hmark : GoesOn (joined (texts ++ [last]))
    · exact ⟨[], [], _, rfl, by simp [joinLines, dropMark?_of_goesOn hmark, readableCount],
        .cut hfront hopen hraw hmark⟩
    · exact ⟨[], [], _, rfl, joinLines_of_none (dropMark?_eq_none hmark) n [],
        .whole hfront hopen hraw hmark⟩
  | cons next lines ih =>
    by_cases hmark : GoesOn (joined (texts ++ [last]))
    · have hfront' : (front ++ [raw]).map lineText? = (texts ++ [last]).map some := by
        rw [List.map_append, List.map_append, hfront, List.map_singleton, hraw]
        rfl
      rw [joinLines, dropMark?_of_goesOn hmark]
      dsimp only
      rcases hnext : lineText? next with _ | text
      · refine ⟨[next], lines, .error .invalidUtf8, rfl, ?_, ?_⟩
        · rw [readableCount_of_none hnext]
          rfl
        · rw [List.append_cons]
          exact .unreadable hfront' (hopen.concat hmark) (not_readable_of_none hnext)
      · obtain ⟨taken, ahead, result, rfl, hjoin, hjoins⟩ :=
          ih hfront' (hopen.concat hmark) hnext (n + 1)
        refine ⟨next :: taken, ahead, result, rfl, ?_, ?_⟩
        · rw [joined_concat] at hjoin
          rw [readableCount_of_text hnext, ← Nat.add_assoc, Nat.add_right_comm]
          exact hjoin
        · rwa [List.append_cons]
    · exact ⟨[], next :: lines, _, rfl,
        joinLines_of_none (dropMark?_eq_none hmark) n (next :: lines),
        .whole hfront hopen hraw hmark⟩

/-! ## One call -/

/-- What a call says at the end of the input. -/
def ReadKind.ended : ReadKind → ReadResult
  | .physical => .physical (.ok none)
  | .logical => .logical (.ok none)
  | .next => .next none

/-- The physical lines that a call takes, the lines that follow them, and what it reports. A
logical line has the number `count`, that of lines read when the call returns. -/
inductive Takes (count : Nat) : ReadKind → List Bytes → List Bytes → ReadResult → Prop
  | ended (kind : ReadKind) : Takes count kind [] [] kind.ended
  | unreadable {raw : Bytes} {ahead : List Bytes} (hraw : ¬ Readable raw) :
      Takes count .physical [raw] ahead (.physical (.error .invalidUtf8))
  | physical {raw : Bytes} {ahead : List Bytes} {text : String} (hraw : lineText? raw = some text) :
      Takes count .physical [raw] ahead (.physical (.ok (some text)))
  | logical {taken ahead : List Bytes} {result : Except IoError String}
      (h : Joins taken ahead result) :
      Takes count .logical taken ahead (.logical (result.map fun text => some ⟨text, count⟩))
  | next {taken ahead : List Bytes} {result : Except IoError String}
      (h : Joins taken ahead result) :
      Takes count .next taken ahead (.next (some (result.map fun text => ⟨text, count⟩)))

theorem readLogical_joins (tag : String) (n : Nat) (raw : Bytes) (lines : List Bytes) :
    ∃ taken ahead result, raw :: lines = taken ++ ahead ∧ Joins taken ahead result ∧
      readLogical ⟨tag, .ok (raw :: lines), n⟩ =
        (result.map fun text => some ⟨text, n + readableCount taken⟩,
          ⟨tag, .ok ahead, n + readableCount taken⟩) := by
  -- nothing of the logical line was read before
  have hnone : ([] : List Bytes).map lineText? = ([] : List String).map some := rfl
  rcases hraw : lineText? raw with _ | text
  · have hjoins : Joins ([] ++ [raw]) lines (.error .invalidUtf8) :=
      .unreadable hnone unfinished_nil (not_readable_of_none hraw)
    refine ⟨[raw], lines, _, rfl, hjoins, ?_⟩
    rw [readableCount_of_none hraw]
    simp only [readLogical, readPhysical, hraw]
    rfl
  · obtain ⟨taken, ahead, result, rfl, hjoin, hjoins⟩ :=
      joinLines_joins hnone unfinished_nil hraw (n + 1) lines
    refine ⟨raw :: taken, ahead, result, rfl, hjoins, ?_⟩
    have hcount : n + 1 + readableCount taken = n + readableCount (raw :: taken) := by
      rw [readableCount_of_text hraw]
      omega
    rw [hcount] at hjoin
    have htext : joined ([] ++ [text]) = text := joined_concat [] text
    rw [htext] at hjoin
    simp only [readLogical, readPhysical, remaining, hraw, hjoin]

/-- A call takes lines from the front, and counts those that are UTF-8. -/
theorem read_takes (kind : ReadKind) (tag : String) (n : Nat) (lines : List Bytes) :
    ∃ taken ahead, lines = taken ++ ahead ∧
      (read kind ⟨tag, .ok lines, n⟩).2 = ⟨tag, .ok ahead, n + readableCount taken⟩ ∧
      Takes (n + readableCount taken) kind taken ahead (read kind ⟨tag, .ok lines, n⟩).1 := by
  rcases lines with _ | ⟨raw, lines⟩
  · refine ⟨[], [], rfl, ?_, ?_⟩ <;> cases kind
    · rfl
    · rfl
    · rfl
    · exact .ended .physical
    · exact .ended .logical
    · exact .ended .next
  cases kind with
  | physical =>
    refine ⟨[raw], lines, rfl, ?_⟩
    rcases hraw : lineText? raw with _ | text
    · rw [readableCount_of_none hraw]
      simp only [read, readPhysical, hraw]
      exact ⟨rfl, .unreadable (not_readable_of_none hraw)⟩
    · rw [readableCount_of_text hraw]
      simp only [read, readPhysical, hraw]
      exact ⟨rfl, .physical hraw⟩
  | logical =>
    obtain ⟨taken, ahead, result, hlines, hjoins, hread⟩ := readLogical_joins tag n raw lines
    refine ⟨taken, ahead, hlines, ?_⟩
    rw [read, hread]
    exact ⟨rfl, .logical hjoins⟩
  | next =>
    obtain ⟨taken, ahead, result, hlines, hjoins, hread⟩ := readLogical_joins tag n raw lines
    refine ⟨taken, ahead, hlines, ?_⟩
    cases result with
    | error e =>
      simp only [read, next, hread]
      exact ⟨rfl, .next hjoins⟩
    | ok text =>
      simp only [read, next, hread]
      exact ⟨rfl, .next hjoins⟩

/-! ## Any sequence of calls -/

/-- What a sequence of calls reports, with the count of lines behind each call, given the
lines consumed before it and the lines ahead. Each call takes the next lines, and the count is
that of all readable lines consumed. -/
inductive Accounted :
    List Bytes → List Bytes → List ReadKind → List (ReadResult × Nat) → Prop
  | nil (consumed ahead : List Bytes) : Accounted consumed ahead [] []
  | call {consumed taken ahead : List Bytes} {kind : ReadKind} {kinds : List ReadKind}
      {result : ReadResult} {results : List (ReadResult × Nat)}
      (h : Takes (readableCount (consumed ++ taken)) kind taken ahead result)
      (hrest : Accounted (consumed ++ taken) ahead kinds results) :
      Accounted consumed (taken ++ ahead) (kind :: kinds)
        ((result, readableCount (consumed ++ taken)) :: results)

theorem accounted_readAll (tag : String) (consumed ahead : List Bytes) (kinds : List ReadKind) :
    Accounted consumed ahead kinds (readAll ⟨tag, .ok ahead, readableCount consumed⟩ kinds) := by
  induction kinds generalizing consumed ahead with
  | nil => exact .nil consumed ahead
  | cons kind kinds ih =>
    obtain ⟨taken, rest, rfl, hsource, htakes⟩ := read_takes kind tag (readableCount consumed) ahead
    rw [← readableCount_append] at hsource htakes
    rw [readAll, hsource]
    exact .call htakes (ih (consumed ++ taken) rest)

/-- A call says that the input has ended only when no line is ahead. -/
theorem Takes.ahead_eq_nil {count : Nat} {kind : ReadKind} {taken ahead : List Bytes}
    (h : Takes count kind taken ahead kind.ended) : taken = [] ∧ ahead = [] := by
  generalize hresult : kind.ended = result at h
  cases h with
  | ended => exact ⟨rfl, rfl⟩
  | unreadable hraw => cases hresult
  | physical hraw => cases hresult
  | @logical _ _ result h => cases result <;> cases hresult
  | @next _ _ result h => cases hresult

theorem read_nil (kind : ReadKind) (tag : String) (n : Nat) :
    read kind ⟨tag, .ok [], n⟩ = (kind.ended, ⟨tag, .ok [], n⟩) := by
  cases kind <;> rfl

/-- Nothing but the end follows the end. -/
theorem readAll_nil (tag : String) (n : Nat) (kinds : List ReadKind) :
    readAll ⟨tag, .ok [], n⟩ kinds = kinds.map fun kind => (kind.ended, n) := by
  induction kinds with
  | nil => rfl
  | cons kind kinds ih => rw [readAll, read_nil, ih, List.map_cons]

theorem exists_afterReads (tag : String) (n : Nat) (lines : List Bytes) (kinds : List ReadKind) :
    ∃ ahead count, afterReads ⟨tag, .ok lines, n⟩ kinds = ⟨tag, .ok ahead, count⟩ := by
  induction kinds generalizing n lines with
  | nil => exact ⟨lines, n, rfl⟩
  | cons kind kinds ih =>
    obtain ⟨taken, ahead, -, hsource, -⟩ := read_takes kind tag n lines
    obtain ⟨ahead', count, hafter⟩ := ih (n + readableCount taken) ahead
    refine ⟨ahead', count, ?_⟩
    rw [afterReads, List.foldl_cons, hsource, ← afterReads, hafter]

/-- Every sequence of calls on a source over bytes takes its physical lines in their order,
each call those that it reports on. The count of lines is at all times that of the lines taken
so far that are UTF-8. Once a call has said that the input has ended every later call says it
too, and the count stays as it is. -/
theorem reads_accounted (tag : String) (bytes : Bytes) (kinds : List ReadKind) :
    Accounted [] (physicalLines bytes) kinds ((ofBytes tag bytes).readAll kinds) ∧
    ∀ kind later,
      let s := (ofBytes tag bytes).afterReads kinds
      (s.read kind).1 = kind.ended →
        (s.read kind).2.readAll later = later.map fun kind => (kind.ended, s.lineNo) := by
  refine ⟨accounted_readAll tag [] (physicalLines bytes) kinds, ?_⟩
  intro kind later s hended
  obtain ⟨ahead, count, hs⟩ := exists_afterReads tag 0 (physicalLines bytes) kinds
  change s = _ at hs
  rw [hs] at hended ⊢
  obtain ⟨taken, rest, rfl, -, htakes⟩ := read_takes kind tag count ahead
  rw [hended] at htakes
  obtain ⟨rfl, rfl⟩ := htakes.ahead_eq_nil
  rw [List.append_nil, read_nil]
  exact readAll_nil tag count later

-- a line that is not UTF-8 where the first line goes on, and an end where the last one does
example : (ofBytes "<script>" [0x41, 0x5C, 0x0A, 0xFF, 0x0A, 0x42, 0x5C]).readAll
    [.logical, .next, .physical] =
      [(.logical (.error .invalidUtf8), 1), (.next (some (.ok ⟨"B", 2⟩)), 2),
        (.physical (.ok none), 2)] := by
  rfl

end ScpiScript.Source
