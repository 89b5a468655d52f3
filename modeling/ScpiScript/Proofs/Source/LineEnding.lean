import Mathlib.Data.List.Forall2
import ScpiScript.Proofs.Text.Decoding
import ScpiScript.Source.Item
/-!
# Line endings

A line may end with a line feed alone or with a carriage return before it. Nothing that
is read from a source shows which: the text of a physical line is the same, so is all that
is made of physical lines, and so are their numbers.

- `withReturns` puts a carriage return before every line feed, and `Rewritten` says that
  this was done to a text, or that it was left alone.
- `lineText?_withReturns`: the text of a line stays as it is.
- `Source.SameTexts` relates sources whose lines have the same texts. Every way to read
  gives the same from both, and they stay so: `SameTexts.readItem` and the lemmas before it.
- `Source.readAll` is any sequence of reads.
-/

namespace ScpiScript

namespace Source

/-- The byte that may stand before the end of a line. -/
def carriageReturn : UInt8 := 13

/-- A text with a carriage return before every line feed. -/
def withReturns (bytes : Bytes) : Bytes :=
  bytes.flatMap fun b => if b = lineFeed then [carriageReturn, lineFeed] else [b]

/-- A text and the same text, in which the lines may have got carriage returns if there
were none. -/
inductive Rewritten : Bytes → Bytes → Prop
  | kept (bytes : Bytes) : Rewritten bytes bytes
  | returned {bytes : Bytes} (h : carriageReturn ∉ bytes) : Rewritten bytes (withReturns bytes)

/-! ## Physical lines -/

theorem withReturns_of_not_mem {bytes : Bytes} (h : lineFeed ∉ bytes) :
    withReturns bytes = bytes := by
  induction bytes with
  | nil => rfl
  | cons b rest ih =>
    obtain ⟨hb, hrest⟩ := not_or.mp (mt List.mem_cons.mpr h)
    rw [withReturns, List.flatMap_cons, if_neg (Ne.symm hb), ← withReturns, ih hrest]
    rfl

theorem withReturns_append_lineFeed {front : Bytes} (h : lineFeed ∉ front) :
    withReturns (front ++ [lineFeed]) = front ++ [carriageReturn, lineFeed] := by
  rw [withReturns, List.flatMap_append, ← withReturns, withReturns_of_not_mem h]
  rfl

theorem consByte_nil {b : UInt8} (h : b ≠ lineFeed) : consByte b [] = [[b]] := if_neg h

theorem consByte_cons {b : UInt8} (h : b ≠ lineFeed) (line : Bytes) (others : List Bytes) :
    consByte b (line :: others) = (b :: line) :: others := if_neg h

/-- Every line gets its own carriage return, and no line is cut. -/
theorem physicalLines_withReturns (bytes : Bytes) :
    physicalLines (withReturns bytes) = (physicalLines bytes).map withReturns := by
  induction bytes with
  | nil => rfl
  | cons b rest ih =>
    by_cases hb : b = lineFeed
    · subst hb
      show consByte carriageReturn (consByte lineFeed (physicalLines (withReturns rest))) =
        (consByte lineFeed (physicalLines rest)).map withReturns
      rw [ih]
      rfl
    · have hcons : withReturns (b :: rest) = b :: withReturns rest := by
        rw [withReturns, List.flatMap_cons, if_neg hb]
        rfl
      rw [hcons]
      show consByte b (physicalLines (withReturns rest)) =
        (consByte b (physicalLines rest)).map withReturns
      rw [ih]
      cases physicalLines rest with
      | nil =>
        rw [List.map_nil, consByte_nil hb, List.map_singleton]
        simp [withReturns, hb]
      | cons line others =>
        rw [List.map_cons, consByte_cons hb, consByte_cons hb, List.map_cons]
        simp [withReturns, hb]

/-- A physical line has a line feed at its end or nowhere. -/
theorem lineFeed_of_mem_physicalLines {bytes raw : Bytes} (h : raw ∈ physicalLines bytes) :
    lineFeed ∉ raw ∨ ∃ front, raw = front ++ [lineFeed] ∧ lineFeed ∉ front := by
  induction bytes generalizing raw with
  | nil => cases h
  | cons b rest ih =>
    change raw ∈ consByte b (physicalLines rest) at h
    by_cases hb : b = lineFeed
    · subst hb
      rcases List.mem_cons.mp h with rfl | h
      · exact .inr ⟨[], rfl, List.not_mem_nil⟩
      · exact ih h
    · cases hlines : physicalLines rest with
      | nil =>
        rw [hlines, consByte_nil hb, List.mem_singleton] at h
        subst h
        exact .inl fun hmem => hb (List.mem_singleton.mp hmem).symm
      | cons line others =>
        rw [hlines] at ih
        rw [hlines, consByte_cons hb] at h
        rcases List.mem_cons.mp h with rfl | h
        · -- the byte joins the line before which it stands
          rcases ih List.mem_cons_self with hline | ⟨front, rfl, hfront⟩
          · exact .inl fun hmem => (List.mem_cons.mp hmem).elim (fun he => hb he.symm) hline
          · refine .inr ⟨b :: front, rfl, fun hmem => ?_⟩
            exact (List.mem_cons.mp hmem).elim (fun he => hb he.symm) hfront
        · exact ih (List.mem_cons_of_mem _ h)

theorem mem_of_mem_physicalLines {bytes raw : Bytes} (h : raw ∈ physicalLines bytes) {b : UInt8}
    (hb : b ∈ raw) : b ∈ bytes := by
  rw [← flatten_physicalLines bytes]
  exact List.mem_flatten.mpr ⟨raw, h, hb⟩

/-! ## The text of a line -/

theorem lineText?_append_lineFeed {front : Bytes} (h : carriageReturn ∉ front) :
    lineText? (front ++ [lineFeed]) = Utf8.decode? front := by
  have hdecode := Utf8.decode?_append_ascii (by decide : lineFeed.toNat < 0x80) front []
  rw [lineText?, hdecode]
  rcases htext : Utf8.decode? front with _ | text
  · rfl
  show some (String.ofList (stripEnding (text ++ String.ofList ['\n'] ++ "").toList)) = some text
  have hreturn : '\r' ∉ text.toList := fun hmem =>
    h (Utf8.mem_of_mem_decode? (by decide) (by decide) htext hmem)
  have hstrip : stripEnding (text.toList ++ ['\n']) = text.toList := by
    unfold stripEnding
    rw [List.reverse_append]
    cases hback : text.toList.reverse with
    | nil => simpa using hback
    | cons c back =>
      have hc : c ≠ '\r' := by
        rintro rfl
        exact hreturn (List.mem_reverse.mp (hback ▸ List.mem_cons_self))
      have hfront : text.toList = (c :: back).reverse := by rw [← hback, List.reverse_reverse]
      rw [hfront]
      simp [hc]
  simp [hstrip]

theorem lineText?_append_carriageReturn (front : Bytes) :
    lineText? (front ++ [carriageReturn, lineFeed]) = Utf8.decode? front := by
  have hdecode := Utf8.decode?_append_ascii (by decide : carriageReturn.toNat < 0x80) front
    [lineFeed]
  rw [lineText?, hdecode]
  rcases htext : Utf8.decode? front with _ | text
  · rfl
  show some (String.ofList (stripEnding (text ++ String.ofList ['\r'] ++ "\n").toList)) = some text
  have hstrip : stripEnding (text.toList ++ ['\r', '\n']) = text.toList := by
    simp [stripEnding]
  simp [hstrip]

/-- A carriage return before the end of a line is no part of its text. -/
theorem lineText?_withReturns {bytes raw : Bytes} (h : carriageReturn ∉ bytes)
    (hraw : raw ∈ physicalLines bytes) : lineText? (withReturns raw) = lineText? raw := by
  rcases lineFeed_of_mem_physicalLines hraw with hnone | ⟨front, rfl, hfront⟩
  · rw [withReturns_of_not_mem hnone]
  · have hclean : carriageReturn ∉ front := fun hmem =>
      h (mem_of_mem_physicalLines hraw (List.mem_append_left _ hmem))
    rw [withReturns_append_lineFeed hfront, lineText?_append_carriageReturn,
      lineText?_append_lineFeed hclean]

/-- The texts of the lines do not show whether a text was rewritten. -/
theorem Rewritten.texts_eq {bytes bytes' : Bytes} (h : Rewritten bytes bytes') :
    (physicalLines bytes).map lineText? = (physicalLines bytes').map lineText? := by
  cases h with
  | kept => rfl
  | returned hclean =>
    rw [physicalLines_withReturns, List.map_map]
    exact List.map_congr_left fun raw hraw => (lineText?_withReturns hclean hraw).symm

/-! ## Reading lines with the same texts -/

/-- Two sources that differ only in the endings of their lines. -/
inductive SameTexts : Source → Source → Prop
  | failed (tag : String) (cause : IoError) (n : Nat) :
      SameTexts ⟨tag, .error cause, n⟩ ⟨tag, .error cause, n⟩
  | lines (tag : String) (n : Nat) {lines lines' : List Bytes}
      (h : lines.map lineText? = lines'.map lineText?) :
      SameTexts ⟨tag, .ok lines, n⟩ ⟨tag, .ok lines', n⟩

theorem SameTexts.tag_eq {s s' : Source} (h : SameTexts s s') : s.tag = s'.tag := by
  cases h <;> rfl

theorem SameTexts.lineNo_eq {s s' : Source} (h : SameTexts s s') : s.lineNo = s'.lineNo := by
  cases h <;> rfl

theorem Rewritten.sameTexts {bytes bytes' : Bytes} (h : Rewritten bytes bytes') (tag : String) :
    SameTexts (ofBytes tag bytes) (ofBytes tag bytes') :=
  .lines tag 0 h.texts_eq

/-- A way to read that does not show the endings of lines. -/
def IgnoresEndings {α : Type} (read : Source → α × Source) : Prop :=
  ∀ {s s'}, SameTexts s s' → ∃ t', read s' = ((read s).1, t') ∧ SameTexts (read s).2 t'

theorem joinLines_texts (text : String) (n : Nat) {lines lines' : List Bytes}
    (h : lines.map lineText? = lines'.map lineText?) :
    ∃ left', joinLines text n lines' =
        ((joinLines text n lines).1, left', (joinLines text n lines).2.2) ∧
      (joinLines text n lines).2.1.map lineText? = left'.map lineText? := by
  fun_induction joinLines text n lines generalizing lines' with
  | case1 text n kept hmark =>
    obtain rfl := List.map_eq_nil_iff.mp h.symm
    exact ⟨[], by simp [joinLines, hmark], rfl⟩
  | case2 text n hmark =>
    obtain rfl := List.map_eq_nil_iff.mp h.symm
    exact ⟨[], by simp [joinLines, hmark], rfl⟩
  | case3 text n raw rest hmark =>
    obtain ⟨raw', rest', rfl, -, -⟩ := List.map_eq_cons_iff.mp h.symm
    exact ⟨raw' :: rest', by simp [joinLines, hmark], h⟩
  | case4 text n raw rest kept hmark hraw =>
    obtain ⟨raw', rest', rfl, hraw', hrest⟩ := List.map_eq_cons_iff.mp h.symm
    rw [hraw] at hraw'
    exact ⟨rest', by simp [joinLines, hmark, hraw'], hrest.symm⟩
  | case5 text n raw rest kept hmark next hraw ih =>
    obtain ⟨raw', rest', rfl, hraw', hrest⟩ := List.map_eq_cons_iff.mp h.symm
    rw [hraw] at hraw'
    obtain ⟨left', hjoin, hleft⟩ := ih hrest.symm
    exact ⟨left', by simp [joinLines, hmark, hraw', hjoin], hleft⟩

theorem takeBlock_texts (n : Nat) {lines lines' : List Bytes}
    (h : lines.map lineText? = lines'.map lineText?) :
    ∃ left', takeBlock n lines' = ((takeBlock n lines).1, left', (takeBlock n lines).2.2) ∧
      (takeBlock n lines).2.1.map lineText? = left'.map lineText? := by
  fun_induction takeBlock n lines generalizing lines' with
  | case1 n =>
    obtain rfl := List.map_eq_nil_iff.mp h.symm
    exact ⟨[], rfl, rfl⟩
  | case2 n raw rest hraw =>
    obtain ⟨raw', rest', rfl, hraw', hrest⟩ := List.map_eq_cons_iff.mp h.symm
    rw [hraw] at hraw'
    exact ⟨rest', by simp [takeBlock, hraw'], hrest.symm⟩
  | case3 n raw rest text hraw hclose =>
    obtain ⟨raw', rest', rfl, hraw', hrest⟩ := List.map_eq_cons_iff.mp h.symm
    rw [hraw] at hraw'
    exact ⟨rest', by simp [takeBlock, hraw', hclose], hrest.symm⟩
  | case4 n raw rest text hraw hclose block left count heq ih =>
    obtain ⟨raw', rest', rfl, hraw', hrest⟩ := List.map_eq_cons_iff.mp h.symm
    rw [hraw] at hraw'
    obtain ⟨left', hblock, hleft⟩ := ih hrest.symm
    rw [heq] at hblock hleft
    exact ⟨left', by simp [takeBlock, hraw', hclose, hblock], hleft⟩

theorem readPhysical_ignoresEndings : IgnoresEndings readPhysical := by
  intro s s' h
  cases h with
  | failed tag cause n => exact ⟨_, rfl, .failed tag cause n⟩
  | @lines tag n lines lines' h =>
    cases lines with
    | nil =>
      obtain rfl := List.map_eq_nil_iff.mp h.symm
      exact ⟨_, rfl, .lines tag n rfl⟩
    | cons raw rest =>
      obtain ⟨raw', rest', rfl, hraw', hrest⟩ := List.map_eq_cons_iff.mp h.symm
      rcases hraw : lineText? raw with _ | text
      all_goals
        rw [hraw] at hraw'
        simp only [readPhysical, hraw, hraw']
        exact ⟨_, rfl, .lines tag _ hrest.symm⟩

theorem readLogical_ignoresEndings : IgnoresEndings readLogical := by
  intro s s' h
  obtain ⟨t', hread', hrest⟩ := readPhysical_ignoresEndings h
  rcases hread : s.readPhysical with ⟨e | _ | text, t⟩
  all_goals
    rw [hread] at hread' hrest
    simp only [readLogical, hread, hread']
  · exact ⟨t', rfl, hrest⟩
  · exact ⟨t', rfl, hrest⟩
  · cases hrest with
    | failed tag cause n =>
      exact ⟨_, rfl, .lines tag _ rfl⟩
    | @lines tag n lines lines' h =>
      obtain ⟨left', hjoin, hleft⟩ := joinLines_texts text n h
      simp only [remaining, hjoin]
      exact ⟨_, rfl, .lines tag _ hleft⟩

theorem next_ignoresEndings : IgnoresEndings next := by
  intro s s' h
  obtain ⟨t', hread', hrest⟩ := readLogical_ignoresEndings h
  rcases hread : s.readLogical with ⟨e | _ | line, t⟩
  all_goals
    rw [hread] at hread' hrest
    simp only [next, hread, hread']
    exact ⟨t', rfl, hrest⟩

theorem readBlock_ignoresEndings : IgnoresEndings readBlock := by
  intro s s' h
  cases h with
  | failed tag cause n => exact ⟨_, rfl, .failed tag cause n⟩
  | @lines tag n lines lines' h =>
    obtain ⟨left', hblock, hleft⟩ := takeBlock_texts n h
    simp only [readBlock, hblock]
    exact ⟨_, rfl, .lines tag _ hleft⟩

theorem readItem_ignoresEndings : IgnoresEndings readItem := by
  intro s s' h
  obtain ⟨t', hread', hrest⟩ := readLogical_ignoresEndings h
  rcases hread : s.readLogical with ⟨e | _ | line, t⟩
  all_goals
    rw [hread] at hread' hrest
    simp only [readItem, hread, hread']
  · exact ⟨t', rfl, hrest⟩
  · exact ⟨t', rfl, hrest⟩
  · split
    · obtain ⟨u', hblock, hafter⟩ := readBlock_ignoresEndings hrest
      simp only [hblock]
      exact ⟨u', rfl, hafter⟩
    · exact ⟨t', rfl, hrest⟩

/-! ## Any sequence of reads -/

/-- The ways to read from a source. -/
inductive ReadKind
  | physical
  | logical
  /-- A step of an iteration over the logical lines. -/
  | next
  deriving DecidableEq, Repr

/-- What the ways to read give. -/
inductive ReadResult
  | physical (result : Except IoError (Option String))
  | logical (result : Except IoError (Option LogicalLine))
  | next (result : Option (Except IoError LogicalLine))

/-- Read once. -/
def read (kind : ReadKind) (s : Source) : ReadResult × Source :=
  match kind with
  | .physical => (.physical s.readPhysical.1, s.readPhysical.2)
  | .logical => (.logical s.readLogical.1, s.readLogical.2)
  | .next => (.next s.next.1, s.next.2)

/-- What a sequence of reads gives, each with the count of lines read by then. -/
def readAll (s : Source) : List ReadKind → List (ReadResult × Nat)
  | [] => []
  | kind :: rest => ((s.read kind).1, (s.read kind).2.lineNo) :: (s.read kind).2.readAll rest

theorem read_ignoresEndings (kind : ReadKind) : IgnoresEndings (read kind) := by
  intro s s' h
  cases kind with
  | physical =>
    obtain ⟨t', hread, hrest⟩ := readPhysical_ignoresEndings h
    exact ⟨t', by simp only [read, hread], hrest⟩
  | logical =>
    obtain ⟨t', hread, hrest⟩ := readLogical_ignoresEndings h
    exact ⟨t', by simp only [read, hread], hrest⟩
  | next =>
    obtain ⟨t', hread, hrest⟩ := next_ignoresEndings h
    exact ⟨t', by simp only [read, hread], hrest⟩

theorem SameTexts.readAll_eq {s s' : Source} (h : SameTexts s s') (kinds : List ReadKind) :
    s.readAll kinds = s'.readAll kinds := by
  induction kinds generalizing s s' with
  | nil => rfl
  | cons kind rest ih =>
    obtain ⟨t', hread, hrest⟩ := read_ignoresEndings kind h
    rw [readAll, readAll, hread, hrest.lineNo_eq, ih hrest]

end Source

end ScpiScript
