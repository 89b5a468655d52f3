import ScpiScript.Proofs.Source.Boundary
/-!
# Lines turned into comments

Logical lines of a source may be replaced by comments that take as many physical lines.
What is read then is the same but for these lines: each gives a comment in its place, under
its line number.

- `Source.LineOf` is a logical line that stands before other physical lines.
- `Source.Commented` relates a source to one whose marked lines were turned into comments.
- `Commented.matches_reading` is what is read of both.
-/

namespace ScpiScript

namespace Reading

/-- The items of a reading. -/
def items : Reading → List Item
  | finished => []
  | failed _ => []
  | item first rest => first :: rest.items

theorem Matches.append {I : Item → Item → Prop} {x y x' y' : Reading} (h : x.Matches I y)
    (h' : x'.Matches I y') : (x.append x').Matches I (y.append y') := by
  induction h with
  | finished => exact h'
  | failed cause => exact .failed cause
  | item hfirst _ ih => exact .item hfirst ih

theorem Matches.imp {I J : Item → Item → Prop} {x y : Reading} (h : x.Matches I y)
    (hitem : ∀ a b, I a b → J a b) : x.Matches J y := by
  induction h with
  | finished => exact .finished
  | failed cause => exact .failed cause
  | item hfirst _ ih => exact .item (hitem _ _ hfirst) ih

theorem matches_self {I : Item → Item → Prop} {r : Reading} (h : ∀ item ∈ r.items, I item item) :
    r.Matches I r := by
  induction r with
  | finished => exact .finished
  | failed cause => exact .failed cause
  | item first rest ih =>
    exact .item (h first List.mem_cons_self) (ih fun item hitem => h item (.tail first hitem))

end Reading

/-- The second item is the first one, or a comment in its place if the first is marked. -/
inductive Item.Commented (marked : Item → Prop) : Item → Item → Prop
  | kept {item : Item} (h : ¬ marked item) : Commented marked item item
  | comment {item : Item} (h : marked item) : Commented marked item ⟨some .comment, item.line⟩

namespace Source

theorem tag_openPath {files : FileTree} {path : String} {source : Source}
    (h : openPath files path = .ok source) : source.tag = path := by
  unfold openPath at h
  rcases hfind : files.find path with e | node
  · rw [hfind] at h
    cases h
  · rw [hfind] at h
    cases h
    cases node <;> rfl

/-- Physical lines that stand before others as one logical line with a directive, whatever
number of lines stands before them. It need not end with the end of a line if nothing
follows. -/
def LineOf (directive : Option Directive) (line rest : List Bytes) : Prop :=
  ∀ tag n, readItem ⟨tag, .ok (line ++ rest), n⟩ =
    (.ok (some ⟨directive, n + line.length⟩), ⟨tag, .ok rest, n + line.length⟩)

/-- Joining counts lines from wherever it begins. -/
theorem joinLines_count (text : String) (k n : Nat) (lines : List Bytes) :
    joinLines text (k + n) lines =
      ((joinLines text n lines).1, (joinLines text n lines).2.1,
        k + (joinLines text n lines).2.2) := by
  fun_induction joinLines text n lines with
  | case1 text n kept hmark => simp [joinLines, hmark]
  | case2 text n hmark => simp [joinLines, hmark]
  | case3 text n raw rest hmark => simp [joinLines, hmark]
  | case4 text n raw rest kept hmark hraw => simp [joinLines, hmark, hraw]
  | case5 text n raw rest kept hmark next hraw ih =>
    rw [← Nat.add_assoc] at ih
    simp [joinLines, hmark, hraw, ih]

/-- Physical lines that are joined to a text are a logical line. -/
theorem lineOf_of_joinLines {raw : Bytes} {more rest : List Bytes} {text full : String}
    (htext : lineText? raw = some text)
    (hjoin : joinLines text 0 (more ++ rest) = (.ok full, rest, more.length))
    (hdirective : Directive.ofLine? full ≠ some (.evaluate "")) :
    LineOf (Directive.ofLine? full) (raw :: more) rest := by
  intro tag n
  have hcount := joinLines_count text (n + 1) 0 (more ++ rest)
  rw [hjoin, Nat.add_zero, Nat.add_assoc, Nat.add_comm 1] at hcount
  exact readItem_line htext hcount hdirective

/-- A physical line that does not go on is a logical line. -/
theorem lineOf_single {raw : Bytes} {text : String} (htext : lineText? raw = some text)
    (hmark : dropMark? text = none) (hdirective : Directive.ofLine? text ≠ some (.evaluate ""))
    (rest : List Bytes) : LineOf (Directive.ofLine? text) [raw] rest := by
  refine lineOf_of_joinLines htext ?_ hdirective
  cases rest <;> simp [joinLines, hmark]

/-- The second source is the first one with every marked logical line turned into a comment
that takes as many physical lines. -/
inductive Commented (marked : Item → Prop) : Source → Source → Prop
  /-- Nothing is marked from here on. -/
  | same {source : Source} (h : ∀ item ∈ source.reading.items, ¬ marked item) :
      Commented marked source source
  /-- Items that are not marked stay. -/
  | kept {tag : String} {n : Nat} {lines rest rest' : List Bytes} (settled : Settled lines)
      (h : ∀ item ∈ (reading ⟨tag, .ok lines, n⟩).items, ¬ marked item)
      (others : Commented marked ⟨tag, .ok rest, n + lines.length⟩
        ⟨tag, .ok rest', n + lines.length⟩) :
      Commented marked ⟨tag, .ok (lines ++ rest), n⟩ ⟨tag, .ok (lines ++ rest'), n⟩
  /-- A marked line becomes a comment. -/
  | comment {tag : String} {n : Nat} {line line' rest rest' : List Bytes}
      {directive : Option Directive} (length : line.length = line'.length)
      (hline : LineOf directive line rest) (hmarked : marked ⟨directive, n + line.length⟩)
      (hcomment : LineOf (some .comment) line' rest')
      (others : Commented marked ⟨tag, .ok rest, n + line.length⟩
        ⟨tag, .ok rest', n + line.length⟩) :
      Commented marked ⟨tag, .ok (line ++ rest), n⟩ ⟨tag, .ok (line' ++ rest'), n⟩

namespace Commented

variable {marked : Item → Prop} {source source' : Source}

theorem tag_eq (h : Commented marked source source') : source.tag = source'.tag := by
  cases h <;> rfl

/-- A marked line becomes a comment where both are single physical lines. -/
theorem single {tag : String} {n : Nat} {raw raw' : Bytes} {rest rest' : List Bytes}
    (text text' : String) (directive : Directive) (htext : lineText? raw = some text)
    (hmark : dropMark? text = none) (hdirective : Directive.ofLine? text = some directive)
    (hcode : directive ≠ .evaluate "") (hmarked : marked ⟨some directive, n + 1⟩)
    (htext' : lineText? raw' = some text') (hmark' : dropMark? text' = none)
    (hcomment : Directive.ofLine? text' = some .comment)
    (others : Commented marked ⟨tag, .ok rest, n + 1⟩ ⟨tag, .ok rest', n + 1⟩) :
    Commented marked ⟨tag, .ok (raw :: rest), n⟩ ⟨tag, .ok (raw' :: rest'), n⟩ := by
  have hline := lineOf_single htext hmark
    (by rw [hdirective]; exact fun h => hcode (Option.some.inj h)) rest
  have hline' := lineOf_single htext' hmark' (by rw [hcomment]; exact nofun) rest'
  rw [hdirective] at hline
  rw [hcomment] at hline'
  show Commented marked ⟨tag, .ok ([raw] ++ rest), n⟩ ⟨tag, .ok ([raw'] ++ rest'), n⟩
  exact .comment rfl hline hmarked hline' others

/-- Marked items are read as comments, under the same line numbers, and all others as they
are. -/
theorem matches_reading (h : Commented marked source source') :
    source.reading.Matches (Item.Commented marked) source'.reading := by
  induction h with
  | same h => exact Reading.matches_self fun item hitem => .kept (h item hitem)
  | @kept tag n lines rest rest' hsettled h _ ih =>
    rw [reading_append hsettled, reading_append hsettled]
    exact .append (Reading.matches_self fun item hitem => .kept (h item hitem)) ih
  | @comment tag n line line' rest rest' directive hlength hline hmarked hcomment _ ih =>
    have hcomment := hcomment tag n
    rw [← hlength] at hcomment
    rw [reading_of_item (hline tag n), reading_of_item hcomment]
    exact .item (.comment hmarked) ih

end Commented

end Source

end ScpiScript
