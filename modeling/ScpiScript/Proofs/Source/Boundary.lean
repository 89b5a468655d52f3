import ScpiScript.Proofs.Source.Reading
/-!
# Where a script can be cut

Lines can be put in front of other lines without changing what is read from either
part if the first part does not end inside an item: neither in a line that goes on
nor in a block of code that is still open.

- `Mode` is where a reader stands after a physical line, and `Source.modeAfter` follows
  it over the lines of a script.
- `Source.Settled` says that lines end outside an item.
- `reading_append`: what is read from settled lines and then others is what is read from
  each.
- `Source.Whole` is a text that ends so, with the end of a line.
-/

namespace ScpiScript

namespace Source

/-- Where a reader stands between two physical lines. -/
inductive Mode
  /-- Before an item. -/
  | between
  /-- In a line that goes on, whose text so far is this. -/
  | joining (text : String)
  /-- In a block of code. -/
  | block
  /-- Behind a line that is not UTF-8, where nothing more is read. -/
  | unreadable
  deriving DecidableEq, Repr

/-- Where a reader stands behind a logical line that does not go on. -/
def Mode.behind (full : String) : Mode :=
  if Directive.ofLine? full = some (.evaluate "") then .block else .between

/-- Where a reader stands when the text of a logical line is this so far. -/
def Mode.ofText (text : String) : Mode :=
  match dropMark? text with
  | some kept => .joining kept
  | none => .behind text

/-- Where a reader stands after one more physical line. -/
def Mode.next (mode : Mode) (raw : Bytes) : Mode :=
  match mode, lineText? raw with
  | .unreadable, _ => .unreadable
  | _, none => .unreadable
  | .between, some text => .ofText text
  | .joining kept, some text => .ofText (kept ++ text)
  | .block, some text => if closesBlock text then .between else .block

/-- Where a reader stands after physical lines. -/
def modeAfter (lines : List Bytes) (mode : Mode) : Mode := lines.foldl Mode.next mode

/-- A reader is not inside an item. -/
def Mode.Outside (mode : Mode) : Prop := mode = .between ∨ mode = .unreadable

instance (mode : Mode) : Decidable mode.Outside :=
  inferInstanceAs (Decidable (mode = .between ∨ mode = .unreadable))

/-- Lines of a script that do not end inside an item. -/
def Settled (lines : List Bytes) : Prop := (modeAfter lines .between).Outside

instance (lines : List Bytes) : Decidable (Settled lines) :=
  inferInstanceAs (Decidable (modeAfter lines .between).Outside)

theorem modeAfter_cons (raw : Bytes) (rest : List Bytes) (mode : Mode) :
    modeAfter (raw :: rest) mode = modeAfter rest (mode.next raw) := rfl

theorem Mode.next_between {raw : Bytes} {text : String} (h : lineText? raw = some text) :
    Mode.between.next raw = .ofText text := by
  simp [next, h]

theorem Mode.next_joining {raw : Bytes} {text : String} (h : lineText? raw = some text)
    (kept : String) : (Mode.joining kept).next raw = .ofText (kept ++ text) := by
  simp [next, h]

theorem Mode.next_block {raw : Bytes} {text : String} (h : lineText? raw = some text) :
    Mode.block.next raw = if closesBlock text then .between else .block := by
  simp [next, h]

theorem Mode.ofText_of_none {text : String} (h : dropMark? text = none) :
    ofText text = behind text := by
  rw [ofText, h]

theorem Mode.ofText_of_some {text kept : String} (h : dropMark? text = some kept) :
    ofText text = joining kept := by
  rw [ofText, h]

/-! ## Joining and collecting lines before others -/

/-- Lines that end outside an item are joined alike before any other lines. -/
theorem joinLines_append {text : String} {n : Nat} {lines : List Bytes}
    (h : (modeAfter lines (.ofText text)).Outside) (more : List Bytes) :
    joinLines text n (lines ++ more) =
      ((joinLines text n lines).1, (joinLines text n lines).2.1 ++ more,
        (joinLines text n lines).2.2) := by
  fun_induction joinLines text n lines with
  | case1 text n kept hmark =>
    -- the line would go on in the others
    rw [Mode.ofText_of_some hmark] at h
    rcases h with h | h <;> cases h
  | case2 text n hmark =>
    cases more with
    | nil => simp [joinLines, hmark]
    | cons raw rest => simp [joinLines, hmark]
  | case3 text n raw rest hmark => simp [joinLines, hmark]
  | case4 text n raw rest kept hmark hraw => simp [joinLines, hmark, hraw]
  | case5 text n raw rest kept hmark next hraw ih =>
    rw [Mode.ofText_of_some hmark, modeAfter_cons, Mode.next_joining hraw] at h
    simp [joinLines, hmark, hraw, ih h]

/-- Joining follows the reader: it ends behind the logical line, and counts its lines. -/
theorem modeAfter_of_joinLines {text full : String} {n m : Nat} {lines left : List Bytes}
    (h : (modeAfter lines (.ofText text)).Outside)
    (hjoin : joinLines text n lines = (.ok full, left, m)) :
    modeAfter left (.behind full) = modeAfter lines (.ofText text) ∧
      m + left.length = n + lines.length := by
  fun_induction joinLines text n lines with
  | case1 text n kept hmark =>
    rw [Mode.ofText_of_some hmark] at h
    rcases h with h | h <;> cases h
  | case2 text n hmark =>
    simp only [Prod.mk.injEq, Except.ok.injEq] at hjoin
    obtain ⟨rfl, rfl, rfl⟩ := hjoin
    rw [Mode.ofText_of_none hmark]
    exact ⟨rfl, rfl⟩
  | case3 text n raw rest hmark =>
    simp only [Prod.mk.injEq, Except.ok.injEq] at hjoin
    obtain ⟨rfl, rfl, rfl⟩ := hjoin
    rw [Mode.ofText_of_none hmark]
    exact ⟨rfl, rfl⟩
  | case4 text n raw rest kept hmark hraw =>
    simp at hjoin
  | case5 text n raw rest kept hmark next hraw ih =>
    rw [Mode.ofText_of_some hmark, modeAfter_cons, Mode.next_joining hraw] at h ⊢
    obtain ⟨hmode, hcount⟩ := ih h hjoin
    refine ⟨hmode, ?_⟩
    rw [List.length_cons]
    omega

/-- A block that is closed within lines is the same before any other lines. -/
theorem takeBlock_append {n : Nat} {lines : List Bytes}
    (h : (modeAfter lines .block).Outside) (more : List Bytes) :
    takeBlock n (lines ++ more) =
      ((takeBlock n lines).1, (takeBlock n lines).2.1 ++ more, (takeBlock n lines).2.2) := by
  fun_induction takeBlock n lines with
  | case1 n =>
    -- the block would take in the others
    rcases h with h | h <;> cases h
  | case2 n raw rest hraw => simp [takeBlock, hraw]
  | case3 n raw rest text hraw hclose => simp [takeBlock, hraw, hclose]
  | case4 n raw rest text hraw hclose lines left count heq ih =>
    rw [modeAfter_cons, Mode.next_block hraw, if_neg hclose] at h
    simp [takeBlock, hraw, hclose, ih h, heq]

/-- A block ends before an item, and its lines are counted. -/
theorem modeAfter_of_takeBlock {n m : Nat} {lines left : List Bytes} {block : List String}
    (h : (modeAfter lines .block).Outside) (hblock : takeBlock n lines = (.ok block, left, m)) :
    modeAfter left .between = modeAfter lines .block ∧ m + left.length = n + lines.length := by
  fun_induction takeBlock n lines generalizing block with
  | case1 n =>
    rcases h with h | h <;> cases h
  | case2 n raw rest hraw => simp at hblock
  | case3 n raw rest text hraw hclose =>
    simp only [Prod.mk.injEq, Except.ok.injEq] at hblock
    obtain ⟨-, rfl, rfl⟩ := hblock
    rw [modeAfter_cons, Mode.next_block hraw, if_pos hclose]
    refine ⟨rfl, ?_⟩
    rw [List.length_cons]
    omega
  | case4 n raw rest text hraw hclose lines left' count heq ih =>
    rw [modeAfter_cons, Mode.next_block hraw, if_neg hclose] at h ⊢
    simp only [Prod.mk.injEq] at hblock
    obtain ⟨hmap, rfl, rfl⟩ := hblock
    obtain ⟨inner, rfl⟩ : ∃ inner, lines = .ok inner := by
      cases lines with
      | error e => cases hmap
      | ok inner => exact ⟨inner, rfl⟩
    obtain ⟨hmode, hcount⟩ := ih h heq
    refine ⟨hmode, ?_⟩
    rw [List.length_cons]
    omega

/-! ## Reading before other lines -/

/-- What is read from settled lines and then from others is what is read from each,
the lines of the first counted for the second. -/
theorem Reads.append {n : Nat} {lines more : List Bytes} {r s : Reading}
    (h : Reads n lines r) (hsettled : Settled lines)
    (hmore : Reads (n + lines.length) more s) : Reads n (lines ++ more) (r.append s) := by
  induction h with
  | nil n => exact hmore
  | unreadable hraw => exact .unreadable hraw
  | @unjoined n m raw rest left text e hraw hjoin =>
    rw [Settled, modeAfter_cons, Mode.next_between hraw] at hsettled
    have happend := joinLines_append (n := n + 1) hsettled more
    rw [hjoin] at happend
    exact .unjoined hraw happend
  | @line n m raw rest left text full r hraw hjoin hdirective _ ih =>
    rw [Settled, modeAfter_cons, Mode.next_between hraw] at hsettled
    have happend := joinLines_append (n := n + 1) hsettled more
    rw [hjoin] at happend
    obtain ⟨hmode, hcount⟩ := modeAfter_of_joinLines hsettled hjoin
    rw [Mode.behind, if_neg hdirective] at hmode
    have hleft : Settled left := by
      rw [Settled, hmode]
      exact hsettled
    refine .line hraw happend hdirective (ih hleft ?_)
    rw [hcount]
    rwa [List.length_cons, ← Nat.add_assoc, Nat.add_right_comm] at hmore
  | @unblocked n m _ raw rest left _ text full e hraw hjoin hdirective hblock =>
    rw [Settled, modeAfter_cons, Mode.next_between hraw] at hsettled
    have happend := joinLines_append (n := n + 1) hsettled more
    rw [hjoin] at happend
    obtain ⟨hmode, -⟩ := modeAfter_of_joinLines hsettled hjoin
    rw [Mode.behind, if_pos hdirective] at hmode
    have hblocked := takeBlock_append (n := m) (hmode ▸ hsettled) more
    rw [hblock] at hblocked
    exact .unblocked hraw happend hdirective hblocked
  | @block n m _ raw rest left left' text full _ r hraw hjoin hdirective hblock _ ih =>
    rw [Settled, modeAfter_cons, Mode.next_between hraw] at hsettled
    have happend := joinLines_append (n := n + 1) hsettled more
    rw [hjoin] at happend
    obtain ⟨hmode, hcount⟩ := modeAfter_of_joinLines hsettled hjoin
    rw [Mode.behind, if_pos hdirective] at hmode
    have hinside : (modeAfter left .block).Outside := hmode ▸ hsettled
    have hblocked := takeBlock_append (n := m) hinside more
    rw [hblock] at hblocked
    obtain ⟨hmode', hcount'⟩ := modeAfter_of_takeBlock hinside hblock
    have hleft : Settled left' := by
      rw [Settled, hmode']
      exact hinside
    refine .block hraw happend hdirective hblocked (ih hleft ?_)
    rw [hcount', hcount]
    rwa [List.length_cons, ← Nat.add_assoc, Nat.add_right_comm] at hmore

theorem reading_append {lines : List Bytes} (h : Settled lines) (tag : String) (n : Nat)
    (more : List Bytes) :
    reading ⟨tag, .ok (lines ++ more), n⟩ =
      (reading ⟨tag, .ok lines, n⟩).append
        (reading ⟨tag, .ok more, n + lines.length⟩) :=
  ((reads_reading tag n lines).append h (reads_reading tag _ more)).reading_eq tag

/-! ## Lines of text put together -/

/-- A byte string that is empty or ends with the end of a line. -/
def EndsLine (bytes : Bytes) : Prop := ∀ b ∈ bytes.getLast?, b = lineFeed

instance (bytes : Bytes) : Decidable (EndsLine bytes) :=
  inferInstanceAs (Decidable (∀ b ∈ bytes.getLast?, b = lineFeed))

theorem physicalLines_cons (b : UInt8) (rest : Bytes) :
    physicalLines (b :: rest) = consByte b (physicalLines rest) := rfl

theorem physicalLines_ne_nil {bytes : Bytes} (h : bytes ≠ []) : physicalLines bytes ≠ [] := by
  intro hnil
  apply h
  rw [← flatten_physicalLines bytes, hnil]
  rfl

theorem consByte_append {b : UInt8} {lines : List Bytes} (h : lines ≠ [] ∨ b = lineFeed)
    (more : List Bytes) : consByte b (lines ++ more) = consByte b lines ++ more := by
  unfold consByte
  split
  · rfl
  · rename_i hb
    cases lines with
    | nil => exact absurd h (by simp [hb])
    | cons line rest => rfl

/-- Text behind the end of a line begins a line. -/
theorem physicalLines_append {bytes : Bytes} (h : EndsLine bytes) (more : Bytes) :
    physicalLines (bytes ++ more) = physicalLines bytes ++ physicalLines more := by
  induction bytes with
  | nil => rfl
  | cons b rest ih =>
    rw [List.cons_append, physicalLines_cons, physicalLines_cons]
    cases rest with
    | nil =>
      have hb : b = lineFeed := h b rfl
      show consByte b ([] ++ physicalLines more) = consByte b [] ++ physicalLines more
      exact consByte_append (.inr hb) (physicalLines more)
    | cons c tail =>
      have hrest : EndsLine (c :: tail) := by
        intro x hx
        exact h x (by rwa [List.getLast?_cons_cons])
      rw [ih hrest]
      exact consByte_append (.inl (physicalLines_ne_nil (List.cons_ne_nil c tail))) _

/-- A text that ends with a line, outside an item. -/
structure Whole (bytes : Bytes) : Prop where
  endsLine : EndsLine bytes
  settled : Settled (physicalLines bytes)

/-- What is read from a whole text and more is what is read from each. -/
theorem Whole.reading_append {bytes : Bytes} (h : Whole bytes) (tag : String) (n : Nat)
    (more : Bytes) :
    reading ⟨tag, .ok (physicalLines (bytes ++ more)), n⟩ =
      (reading ⟨tag, .ok (physicalLines bytes), n⟩).append
        (reading ⟨tag, .ok (physicalLines more), n + (physicalLines bytes).length⟩) := by
  rw [physicalLines_append h.endsLine, Source.reading_append h.settled]

end Source

end ScpiScript
