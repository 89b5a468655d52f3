import ScpiScript.Source.Item
/-!
# What is read from a source

A run reads a source item by item, up to its end or up to a line that is not UTF-8.
All of it together is a `Reading`. It depends on the lines still to be read and on
their numbers, and not on the tag of the source.

- `Source.reading` is everything that is read from a source.
- `Source.Reads` says the same of a list of lines, one rule for each kind of item.
- `Reads.renumber`: line numbers change nothing but the numbers of the items.
-/

namespace ScpiScript

/-- What reading gives: items, and how it ends. -/
inductive Reading
  | finished
  | failed (cause : IoError)
  | item (first : Item) (rest : Reading)
  deriving DecidableEq, Repr

namespace Reading

/-- A reading and then another. Nothing is read after a failure. -/
def append : Reading → Reading → Reading
  | finished, next => next
  | failed cause, _ => failed cause
  | item first rest, next => item first (rest.append next)

/-- The directives of the items. -/
def directives : Reading → List (Option Directive)
  | finished => []
  | failed _ => []
  | item first rest => first.directive :: rest.directives

/-- Two readings correspond: item to item, and they end alike. -/
inductive Matches (I : Item → Item → Prop) : Reading → Reading → Prop
  | finished : Matches I finished finished
  | failed (cause : IoError) : Matches I (failed cause) (failed cause)
  | item {a b : Item} {r s : Reading} (first : I a b) (rest : Matches I r s) :
      Matches I (item a r) (item b s)

theorem Matches.refl {I : Item → Item → Prop} (h : ∀ a, I a a) (r : Reading) :
    Matches I r r := by
  induction r with
  | finished => exact .finished
  | failed cause => exact .failed cause
  | item first rest ih => exact .item (h first) ih

end Reading

/-- Two items ask for the same, whatever the lines they stand on. -/
def Item.SameDirective (a b : Item) : Prop := a.directive = b.directive

namespace Source

/-- Everything that is read from a source. -/
def reading (s : Source) : Reading :=
  match _h : s.readItem with
  | (.error e, _) => .failed e
  | (.ok none, _) => .finished
  | (.ok (some item), rest) => .item item rest.reading
termination_by s.remaining.length
decreasing_by exact Source.length_readItem _h

theorem reading_of_error {s s' : Source} {e : IoError} (h : s.readItem = (.error e, s')) :
    s.reading = .failed e := by
  rw [reading]
  split <;> simp_all

theorem reading_of_none {s s' : Source} (h : s.readItem = (.ok none, s')) :
    s.reading = .finished := by
  rw [reading]
  split <;> simp_all

theorem reading_of_item {s s' : Source} {item : Item}
    (h : s.readItem = (.ok (some item), s')) : s.reading = .item item s'.reading := by
  rw [reading]
  split <;> simp_all

/-! ## One item -/

section Item

variable {tag : String} {n m : Nat} {raw : Bytes} {rest left : List Bytes} {text full : String}

theorem readItem_of_error (tag : String) (e : IoError) (n : Nat) :
    readItem ⟨tag, .error e, n⟩ = (.error e, ⟨tag, .error e, n⟩) := rfl

theorem readItem_nil (tag : String) (n : Nat) :
    readItem ⟨tag, .ok [], n⟩ = (.ok none, ⟨tag, .ok [], n⟩) := rfl

/-- Nothing is read from a directory. -/
theorem reading_directory (tag : String) : (ofNode tag .directory).reading = .failed .isDirectory :=
  reading_of_error (readItem_of_error tag .isDirectory 0)

/-- A line that is not UTF-8 is consumed. -/
theorem readItem_unreadable (hraw : lineText? raw = none) :
    readItem ⟨tag, .ok (raw :: rest), n⟩ = (.error .invalidUtf8, ⟨tag, .ok rest, n⟩) := by
  simp [readItem, readLogical, readPhysical, hraw]

/-- Neither can a line be read whose continuation cannot. -/
theorem readItem_unjoined {e : IoError} (hraw : lineText? raw = some text)
    (hjoin : joinLines text (n + 1) rest = (.error e, left, m)) :
    readItem ⟨tag, .ok (raw :: rest), n⟩ = (.error e, ⟨tag, .ok left, m⟩) := by
  simp [readItem, readLogical, readPhysical, remaining, hraw, hjoin, Except.map]

theorem readItem_line (hraw : lineText? raw = some text)
    (hjoin : joinLines text (n + 1) rest = (.ok full, left, m))
    (hdirective : Directive.ofLine? full ≠ some (.evaluate "")) :
    readItem ⟨tag, .ok (raw :: rest), n⟩ =
      (.ok (some ⟨Directive.ofLine? full, m⟩), ⟨tag, .ok left, m⟩) := by
  simp only [readItem, readLogical, readPhysical, remaining, hraw, hjoin, Except.map]

/-- An evaluation without code takes the lines of its block. -/
theorem readItem_block {block : Except IoError (List String)} {left' : List Bytes} {m' : Nat}
    (hraw : lineText? raw = some text)
    (hjoin : joinLines text (n + 1) rest = (.ok full, left, m))
    (hdirective : Directive.ofLine? full = some (.evaluate ""))
    (hblock : takeBlock m left = (block, left', m')) :
    readItem ⟨tag, .ok (raw :: rest), n⟩ =
      (block.map fun lines => some ⟨some (.evaluate (String.intercalate "\n" lines)), m⟩,
        ⟨tag, .ok left', m'⟩) := by
  simp only [readItem, readLogical, readPhysical, readBlock, remaining, hraw, hjoin, hdirective,
    hblock, Except.map]
  cases block <;> rfl

end Item

/-- Reading an item leaves the tag as it is. -/
theorem tag_readItem (s : Source) : s.readItem.2.tag = s.tag := by
  have hphysical : s.readPhysical.2.tag = s.tag := by
    unfold readPhysical
    split
    · rfl
    · rfl
    · split <;> rfl
  have hlogical : s.readLogical.2.tag = s.tag := by
    unfold readLogical
    split
    · rename_i heq
      rw [← hphysical, heq]
    · rename_i heq
      rw [← hphysical, heq]
    · rename_i heq
      rw [← hphysical, heq]
  have hblock : ∀ t : Source, t.readBlock.2.tag = t.tag := by
    intro t
    unfold readBlock
    split <;> rfl
  unfold readItem
  split
  · rename_i heq
    rw [← hlogical, heq]
  · rename_i heq
    rw [← hlogical, heq]
  · rename_i line s' heq
    have htag : s'.tag = s.tag := by rw [← hlogical, heq]
    split
    · exact (hblock s').trans htag
    · exact htag

/-! ## Lines and what is read from them -/

/-- What is read from physical lines, given how many lines stand before them. -/
inductive Reads : Nat → List Bytes → Reading → Prop
  | nil (n : Nat) : Reads n [] .finished
  | unreadable {n : Nat} {raw : Bytes} {rest : List Bytes} (hraw : lineText? raw = none) :
      Reads n (raw :: rest) (.failed .invalidUtf8)
  | unjoined {n m : Nat} {raw : Bytes} {rest left : List Bytes} {text : String} {e : IoError}
      (hraw : lineText? raw = some text)
      (hjoin : joinLines text (n + 1) rest = (.error e, left, m)) :
      Reads n (raw :: rest) (.failed e)
  | line {n m : Nat} {raw : Bytes} {rest left : List Bytes} {text full : String} {r : Reading}
      (hraw : lineText? raw = some text)
      (hjoin : joinLines text (n + 1) rest = (.ok full, left, m))
      (hdirective : Directive.ofLine? full ≠ some (.evaluate ""))
      (hrest : Reads m left r) :
      Reads n (raw :: rest) (.item ⟨Directive.ofLine? full, m⟩ r)
  | unblocked {n m m' : Nat} {raw : Bytes} {rest left left' : List Bytes} {text full : String}
      {e : IoError}
      (hraw : lineText? raw = some text)
      (hjoin : joinLines text (n + 1) rest = (.ok full, left, m))
      (hdirective : Directive.ofLine? full = some (.evaluate ""))
      (hblock : takeBlock m left = (.error e, left', m')) :
      Reads n (raw :: rest) (.failed e)
  | block {n m m' : Nat} {raw : Bytes} {rest left left' : List Bytes} {text full : String}
      {lines : List String} {r : Reading}
      (hraw : lineText? raw = some text)
      (hjoin : joinLines text (n + 1) rest = (.ok full, left, m))
      (hdirective : Directive.ofLine? full = some (.evaluate ""))
      (hblock : takeBlock m left = (.ok lines, left', m'))
      (hrest : Reads m' left' r) :
      Reads n (raw :: rest)
        (.item ⟨some (.evaluate (String.intercalate "\n" lines)), m⟩ r)

/-- What is read from lines is the reading of every source over them. -/
theorem Reads.reading_eq {n : Nat} {lines : List Bytes} {r : Reading} (h : Reads n lines r)
    (tag : String) : reading ⟨tag, .ok lines, n⟩ = r := by
  induction h with
  | nil n => exact reading_of_none (readItem_nil tag n)
  | unreadable hraw => exact reading_of_error (readItem_unreadable hraw)
  | unjoined hraw hjoin => exact reading_of_error (readItem_unjoined hraw hjoin)
  | line hraw hjoin hdirective _ ih =>
    rw [reading_of_item (readItem_line hraw hjoin hdirective), ih]
  | unblocked hraw hjoin hdirective hblock =>
    exact reading_of_error (readItem_block hraw hjoin hdirective hblock)
  | block hraw hjoin hdirective hblock _ ih =>
    rw [reading_of_item (readItem_block hraw hjoin hdirective hblock), ih]

/-- Something is read from all lines. -/
theorem exists_reads (n : Nat) (lines : List Bytes) : ∃ r, Reads n lines r := by
  -- by the number of lines, which every item makes smaller
  induction hlength : lines.length using Nat.strongRecOn generalizing n lines with
  | ind k ih =>
    rcases lines with _ | ⟨raw, rest⟩
    · exact ⟨_, .nil n⟩
    rw [List.length_cons] at hlength
    rcases hraw : lineText? raw with _ | text
    · exact ⟨_, .unreadable hraw⟩
    rcases hjoin : joinLines text (n + 1) rest with ⟨e | full, left, m⟩
    · exact ⟨_, .unjoined hraw hjoin⟩
    have hleft : left.length ≤ rest.length := by
      simpa [hjoin] using length_joinLines text (n + 1) rest
    by_cases hdirective : Directive.ofLine? full = some (.evaluate "")
    · rcases hblock : takeBlock m left with ⟨e | block, left', m'⟩
      · exact ⟨_, .unblocked hraw hjoin hdirective hblock⟩
      have hleft' : left'.length ≤ left.length := by
        simpa [hblock] using length_takeBlock m left
      obtain ⟨r, hr⟩ := ih left'.length (by omega) m' left' rfl
      exact ⟨_, .block hraw hjoin hdirective hblock hr⟩
    · obtain ⟨r, hr⟩ := ih left.length (by omega) m left rfl
      exact ⟨_, .line hraw hjoin hdirective hr⟩

theorem reads_reading (tag : String) (n : Nat) (lines : List Bytes) :
    Reads n lines (reading ⟨tag, .ok lines, n⟩) := by
  obtain ⟨r, hr⟩ := exists_reads n lines
  rw [hr.reading_eq tag]
  exact hr

/-! ## Line numbers -/

/-- Joining lines, the number of the line matters only to the number. -/
theorem joinLines_renumber (text : String) (n k : Nat) (lines : List Bytes) :
    ∃ m, joinLines text k lines =
      ((joinLines text n lines).1, (joinLines text n lines).2.1, m) := by
  fun_induction joinLines text n lines generalizing k with
  | case1 text n kept hmark => exact ⟨k, by simp [joinLines, hmark]⟩
  | case2 text n hmark => exact ⟨k, by simp [joinLines, hmark]⟩
  | case3 text n raw rest hmark => exact ⟨k, by simp [joinLines, hmark]⟩
  | case4 text n raw rest kept hmark hraw => exact ⟨k, by simp [joinLines, hmark, hraw]⟩
  | case5 text n raw rest kept hmark next hraw ih =>
    obtain ⟨m, hm⟩ := ih (k + 1)
    exact ⟨m, by simp [joinLines, hmark, hraw, hm]⟩

theorem takeBlock_renumber (n k : Nat) (lines : List Bytes) :
    ∃ m, takeBlock k lines = ((takeBlock n lines).1, (takeBlock n lines).2.1, m) := by
  fun_induction takeBlock n lines generalizing k with
  | case1 n => exact ⟨k, rfl⟩
  | case2 n raw rest hraw => exact ⟨k, by simp [takeBlock, hraw]⟩
  | case3 n raw rest text hraw hclose => exact ⟨k + 1, by simp [takeBlock, hraw, hclose]⟩
  | case4 n raw rest text hraw hclose lines left count heq ih =>
    obtain ⟨m, hm⟩ := ih (k + 1)
    exact ⟨m, by simp_all [takeBlock]⟩

/-- The same lines read from another line number on give the same directives. -/
theorem Reads.renumber {n : Nat} {lines : List Bytes} {r : Reading} (h : Reads n lines r)
    (k : Nat) : ∃ s, Reads k lines s ∧ r.Matches Item.SameDirective s := by
  induction h generalizing k with
  | nil n => exact ⟨_, .nil k, .finished⟩
  | unreadable hraw => exact ⟨_, .unreadable hraw, .failed _⟩
  | @unjoined n m raw rest left text e hraw hjoin =>
    obtain ⟨m', hm'⟩ := joinLines_renumber text (n + 1) (k + 1) rest
    rw [hjoin] at hm'
    exact ⟨_, .unjoined hraw hm', .failed _⟩
  | @line n m raw rest left text full r hraw hjoin hdirective _ ih =>
    obtain ⟨m', hm'⟩ := joinLines_renumber text (n + 1) (k + 1) rest
    rw [hjoin] at hm'
    obtain ⟨s, hs, hmatch⟩ := ih m'
    exact ⟨_, .line hraw hm' hdirective hs, .item rfl hmatch⟩
  | @unblocked n m _ raw rest left _ text full e hraw hjoin hdirective hblock =>
    obtain ⟨m', hm'⟩ := joinLines_renumber text (n + 1) (k + 1) rest
    rw [hjoin] at hm'
    obtain ⟨m'', hm''⟩ := takeBlock_renumber m m' left
    rw [hblock] at hm''
    exact ⟨_, .unblocked hraw hm' hdirective hm'', .failed _⟩
  | @block n m _ raw rest left _ text full lines r hraw hjoin hdirective hblock _ ih =>
    obtain ⟨m', hm'⟩ := joinLines_renumber text (n + 1) (k + 1) rest
    rw [hjoin] at hm'
    obtain ⟨m'', hm''⟩ := takeBlock_renumber m m' left
    rw [hblock] at hm''
    obtain ⟨s, hs, hmatch⟩ := ih m''
    exact ⟨_, .block hraw hm' hdirective hm'' hs, .item rfl hmatch⟩

/-- Neither the tag of a source nor the lines before it change what it asks for. -/
theorem reading_matches (tag tag' : String) (n n' : Nat)
    (pending : Except IoError (List Bytes)) :
    (reading ⟨tag, pending, n⟩).Matches Item.SameDirective (reading ⟨tag', pending, n'⟩) := by
  cases pending with
  | error e =>
    rw [reading_of_error (readItem_of_error tag e n),
      reading_of_error (readItem_of_error tag' e n')]
    exact .failed e
  | ok lines =>
    obtain ⟨s, hs, hmatch⟩ := (reads_reading tag n lines).renumber n'
    rw [hs.reading_eq tag']
    exact hmatch

end Source

end ScpiScript
