import Mathlib.Tactic.Ring
import ScpiScript.Proofs.Lua.Memory
/-!
# Sequences of numbers as vectors

A table stands for a vector if it holds a sequence of numbers and nothing else. Asking for
its samples moves the place where the end of the sequence is looked for next; as a sequence
without holes has one end only, its samples stay what they are.

- `Layout.isBorder_border`: the length of a table is a place where a sequence ends;
  `border_eq`: of a sequence without holes it does not depend on the layout.
- `Table.IsSequence` are such tables, among them those that constructors make
  (`isSequence_fill`), and `IsSequence.samples?_sampled` says that asking leaves their
  samples.
- `Memory.HoldsVector` are the values that stand for vectors, `HoldsVector.sampled` what
  asking leaves of them.
-/

namespace ScpiScript.Lua

/-! ## The end of a sequence -/

namespace Layout

/-- A limit that the number of slots, and the length of a sequence without holes, stay
below. -/
def sequenceLimit : Nat := Nat.pow 2 62

/-- Below twice the limit, the keys that have a value are those from one to `n`. -/
structure Counts (present : Nat → Bool) (n : Nat) : Prop where
  present_iff : ∀ i < 2 * sequenceLimit, present i = true ↔ 1 ≤ i ∧ i ≤ n
  lt : n < sequenceLimit

/-- The hint is a slot, and there are not too many. -/
structure Sound (l : Layout) : Prop where
  hint_le : l.hint ≤ l.slots
  slots_lt : l.slots < sequenceLimit

/-- Where a sequence ends: at zero or a key that has a value, and in front of a key that has
none or of the end of all keys. -/
structure IsBorder (present : Nat → Bool) (b : Nat) : Prop where
  below : b = 0 ∨ present b = true
  above : b = largestKey ∨ present (b + 1) = false
  le : b ≤ largestKey

section Border

variable {present : Nat → Bool} {n : Nat}

theorem searchBorder_lt (tries : Nat) {low high : Nat} (h : low < high) :
    searchBorder present tries low high < high := by
  induction tries generalizing low high with
  | zero => exact h
  | succ tries ih =>
    unfold searchBorder
    split
    · exact h
    · dsimp only
      split
      · exact ih (by omega)
      · exact Nat.lt_of_lt_of_le (ih (by omega)) (by omega)

theorem isBorder_searchBorder {low high : Nat} (below : low = 0 ∨ present low = true)
    (above : present high = false) (order : low < high) (hhigh : high ≤ largestKey) :
    IsBorder present (searchBorder present halvings low high) := by
  have hspec := searchBorder_spec present halvings low high below above order
    (Nat.le_trans (Nat.sub_le high low) (Nat.le_trans hhigh (by decide)))
  have hlt : searchBorder present halvings low high < high := searchBorder_lt halvings order
  exact ⟨hspec.1, .inr hspec.2, by omega⟩

/-- Doubling ends in front of a key without a value, or at the largest key. -/
theorem doubling_spec (tries : Nat) {i : Nat} (hpresent : present i = true)
    (hpos : 1 ≤ i) (hle : i ≤ largestKey) (henough : largestKey < i * Nat.pow 2 tries) :
    ∃ low high, doubling present tries i = (low, high) ∧ present low = true ∧ low < high ∧
      (high ≤ largestKey ∧ present high = false ∨ low = largestKey ∧ high = largestKey + 1) := by
  induction tries generalizing i with
  | zero =>
    simp at henough
    omega
  | succ tries ih =>
    have hnext : i ≤ nextDoubled i ∧ nextDoubled i ≤ largestKey := by
      unfold nextDoubled
      split <;> omega
    unfold doubling
    simp only [Bool.not_eq_true']
    split
    · rename_i habsent
      have hne : i ≠ nextDoubled i := fun h => by
        rw [← h, hpresent] at habsent
        cases habsent
      exact ⟨i, nextDoubled i, rfl, hpresent, by omega, .inl ⟨hnext.2, habsent⟩⟩
    · rename_i hat
      rw [Bool.not_eq_false] at hat
      split
      · rename_i hlast
        exact ⟨largestKey, largestKey + 1, rfl, hlast ▸ hat, Nat.lt_succ_self _, .inr ⟨rfl, rfl⟩⟩
      · rename_i hlast
        have hdouble : nextDoubled i = 2 * i := by
          unfold nextDoubled at hlast ⊢
          split
          · rfl
          · rename_i hbig
            rw [if_neg hbig] at hlast
            exact absurd rfl hlast
        refine ih hat (by omega) hnext.2 ?_
        calc largestKey
          _ < i * Nat.pow 2 (tries + 1) := henough
          _ = nextDoubled i * Nat.pow 2 tries := by
            rw [hdouble, Nat.pow_eq, Nat.pow_eq, Nat.pow_succ]
            ring

/-- What a table answers for its length is where a sequence ends, whatever the layout. -/
theorem isBorder_border {l : Layout} (hl : l.Sound) : IsBorder present (l.border present) := by
  have hlimit : sequenceLimit < largestKey := by decide
  obtain ⟨hint_le, slots_lt⟩ := hl
  unfold border
  simp only [Bool.and_eq_true, Bool.not_eq_true', decide_eq_true_eq]
  split
  · -- the hint has no value
    rename_i hhint
    split
    · rename_i hbefore
      refine ⟨.inr hbefore.2, .inr ?_, by omega⟩
      rw [Nat.sub_add_cancel hhint.1]
      exact hhint.2
    · exact isBorder_searchBorder (.inl rfl) hhint.2 hhint.1 (by omega)
  · rename_i hhint
    have hbelow : l.hint = 0 ∨ present l.hint = true := by
      rw [← Bool.not_eq_false, or_iff_not_imp_left]
      exact fun hzero habsent => hhint ⟨Nat.pos_of_ne_zero hzero, habsent⟩
    split
    · rename_i hnext
      exact ⟨hbelow, .inr hnext.2, by omega⟩
    · split
      · rename_i hslots
        exact isBorder_searchBorder hbelow hslots.2 (by omega) (by omega)
      · rename_i hslots
        have hlast : l.slots = 0 ∨ present l.slots = true := by
          rw [not_and, Bool.not_eq_false] at hslots
          by_cases hsame : l.hint = l.slots
          · rwa [← hsame]
          · exact .inr (hslots hsame)
        split
        · rename_i hbehind
          exact ⟨hlast, .inr hbehind, by omega⟩
        · -- the sequence goes on behind the slots
          rename_i hbehind
          rw [Bool.not_eq_false] at hbehind
          have hfirst : present (max l.slots 1) = true := by
            rcases hlast with hzero | hlast
            · rwa [hzero] at hbehind ⊢
            · rcases Nat.eq_zero_or_pos l.slots with hzero | hpos
              · rwa [hzero] at hbehind ⊢
              · rwa [Nat.max_eq_left hpos]
          have hpower : largestKey < max l.slots 1 * Nat.pow 2 halvings :=
            calc largestKey
              _ < 1 * Nat.pow 2 halvings := by decide
              _ ≤ max l.slots 1 * Nat.pow 2 halvings := Nat.mul_le_mul_right _ (by omega)
          obtain ⟨low, high, hdoubling, hlow, horder, hhigh⟩ :=
            doubling_spec halvings hfirst (by omega) (by omega) hpower
          rw [hdoubling]
          rcases hhigh with ⟨hle, habsent⟩ | ⟨rfl, rfl⟩
          · exact isBorder_searchBorder (.inr hlow) habsent horder hle
          · exact ⟨.inr hlow, .inl rfl, Nat.le_refl _⟩

/-- A sequence without holes ends in one place only. -/
theorem Counts.eq_of_isBorder (h : Counts present n) {b : Nat} (hb : IsBorder present b) :
    b = n := by
  have hlimit : largestKey + 1 = 2 * sequenceLimit := rfl
  have hlt := h.lt
  have hat : b ≤ n := by
    rcases hb.below with hzero | hat
    · omega
    · exact ((h.present_iff b (by have := hb.le; omega)).mp hat).2
  have hafter : ¬ (1 ≤ b + 1 ∧ b + 1 ≤ n) := by
    rw [← h.present_iff (b + 1) (by omega), hb.above.resolve_left (by omega)]
    exact Bool.false_ne_true
  omega

/-- The length of a sequence without holes does not depend on the layout. -/
theorem border_eq (h : Counts present n) {l : Layout} (hl : l.Sound) : l.border present = n :=
  h.eq_of_isBorder (isBorder_border hl)

theorem Sound.touch {l : Layout} (h : l.Sound) (key : Value) : (l.touch key).Sound := by
  unfold Layout.touch
  split
  · split
    · rename_i i hi
      simp only [Bool.and_eq_true, decide_eq_true_eq] at hi
      exact ⟨by dsimp only; omega, h.slots_lt⟩
    · exact h
  · exact h

/-- Asking for the length moves the hint at most to the length, and only if that is a
slot. -/
theorem Sound.measured {l : Layout} (h : l.Sound) : (l.measured present).Sound := by
  obtain ⟨hint_le, slots_lt⟩ := h
  unfold Layout.measured
  simp only [Bool.and_eq_true, Bool.not_eq_true', decide_eq_true_eq]
  split
  · rename_i hhint
    have hlength : l.border present ≤ l.slots := by
      unfold border
      rw [if_pos (by simpa using hhint)]
      split
      · omega
      · exact Nat.le_trans (Nat.le_of_lt (searchBorder_lt halvings hhint.1)) hint_le
    repeat' split
    all_goals first | exact ⟨hlength, slots_lt⟩ | exact ⟨hint_le, slots_lt⟩
  · rename_i hhint
    split
    · rename_i hslots
      have hlength : l.border present ≤ l.slots := by
        unfold border
        rw [if_neg (by simpa using hhint), if_neg (by simp [hslots]),
          if_pos (by simpa using ⟨hslots.1.1, hslots.2⟩)]
        exact Nat.le_of_lt (searchBorder_lt halvings (by omega))
      exact ⟨hlength, slots_lt⟩
    · exact ⟨hint_le, slots_lt⟩

end Border

end Layout

/-! ## Tables -/

namespace Table

/-- The integer keys of a table are those from one to `n`. -/
structure IsSequence (t : Table) (n : Nat) : Prop where
  counts : Layout.Counts t.has n
  sound : t.layout.Sound

section Sequence

variable {t : Table} {n : Nat}

theorem IsSequence.length_eq (h : t.IsSequence n) : t.length = n :=
  Layout.border_eq h.counts h.sound

theorem IsSequence.touch (h : t.IsSequence n) (key : Value) : (t.touch key).IsSequence n :=
  ⟨h.counts, h.sound.touch _⟩

theorem IsSequence.measured (h : t.IsSequence n) : t.measured.IsSequence n :=
  ⟨h.counts, h.sound.measured⟩

theorem IsSequence.touchAll (h : t.IsSequence n) (keys : List Nat) :
    (keys.foldl (fun t i => t.touch (.ofNat i)) t).IsSequence n := by
  induction keys generalizing t with
  | nil => exact h
  | cons key rest ih => exact ih (h.touch (.ofNat key))

theorem IsSequence.sampled (h : t.IsSequence n) : t.sampled.IsSequence n := by
  unfold Table.sampled
  dsimp only
  split
  · exact h.measured.touchAll _
  · exact h.measured

theorem entries_touchAll (t : Table) (keys : List Nat) :
    (keys.foldl (fun t i => t.touch (.ofNat i)) t).entries = t.entries := by
  induction keys generalizing t with
  | nil => rfl
  | cons key rest ih => exact ih (t.touch (.ofNat key))

theorem entries_sampled (t : Table) : t.sampled.entries = t.entries := by
  unfold sampled
  dsimp only
  split
  · exact entries_touchAll t.measured _
  · rfl

/-- Asking a sequence for its samples leaves its samples. -/
theorem IsSequence.samples?_sampled (h : t.IsSequence n) : t.sampled.samples? = t.samples? := by
  have hcount : t.sampled.count = t.count := congrArg Entries.count t.entries_sampled
  have hsequence : t.sampled.sequence = t.sequence := by
    unfold sequence getAt get
    rw [hcount, entries_sampled]
  unfold samples?
  rw [hcount, hsequence, h.sampled.length_eq, h.length_eq]

end Sequence

theorem ofNat_inj {i j : Nat} (hi : i < 2 * Layout.sequenceLimit)
    (hj : j < 2 * Layout.sequenceLimit) : Value.ofNat i = Value.ofNat j ↔ i = j := by
  constructor
  · intro h
    have hint : Int64.ofInt i = Int64.ofInt j := Number.int.inj (Value.number.inj h)
    have hvalue := congrArg Int64.toInt hint
    have hlimit : (2 * Layout.sequenceLimit : Nat) = 0x8000000000000000 := rfl
    rw [Int64.toInt_ofInt_of_le (by omega) (by omega),
      Int64.toInt_ofInt_of_le (by omega) (by omega)] at hvalue
    omega
  · rintro rfl
    rfl

/-- Values put one behind the other stand under the keys that were counted. -/
theorem get_foldl_set {values : List Value} (hvalues : .nil ∉ values) (first : Nat) {i : Nat}
    (hi : i < 2 * Layout.sequenceLimit) (hlast : first + values.length ≤ 2 * Layout.sequenceLimit)
    (e : Entries) :
    ((values.zipIdx first).foldl (fun e v => e.set (.ofNat v.2) v.1) e).get (.ofNat i) ≠ .nil ↔
      (first ≤ i ∧ i < first + values.length) ∨ e.get (.ofNat i) ≠ .nil := by
  induction values generalizing first e with
  | nil =>
    have hnone : ¬ (first ≤ i ∧ i < first + ([] : List Value).length) := by
      rw [List.length_nil]
      omega
    exact ⟨.inr, fun h => h.resolve_left hnone⟩
  | cons v rest ih =>
    rw [List.length_cons] at hlast
    have hset := Entries.get_set e (.ofNat first) v (.ofNat i)
    have hkey : Value.ofNat i = .ofNat first ↔ i = first := ofNat_inj hi (by omega)
    simp only [hkey] at hset
    rw [List.zipIdx_cons, List.foldl_cons, ih (fun h => hvalues (.tail v h)) _ (by omega), hset,
      List.length_cons]
    -- the value put first stays, as those behind it have other keys
    have hv : v ≠ .nil := fun h => hvalues (h ▸ List.mem_cons_self)
    split
    · simp only [ne_eq, hv, not_false_eq_true, or_true, true_iff]
      omega
    · exact or_congr_left (by omega)

/-- The table of a list of values, as a constructor makes it, is a sequence. -/
theorem isSequence_fill {values : List Value} (others : Nat) (hvalues : .nil ∉ values)
    (hlt : values.length < Layout.sequenceLimit) :
    ((sized values.length others).fill 0 values).IsSequence values.length := by
  have hlayout : ((sized values.length others).fill 0 values).layout =
      .sized values.length others := by
    unfold fill Layout.withSlots
    rw [if_pos (by simp [sized, Layout.sized])]
    rfl
  refine ⟨⟨fun i hi => ?_, hlt⟩, ?_⟩
  · -- before anything is put into it, the table is empty
    have hget := get_foldl_set hvalues 1 hi (by omega) .empty
    have hempty : Entries.empty.get (.ofNat i) = .nil := by
      unfold Entries.get
      split <;> simp [Entries.empty, Entries.find]
    have hhas : ((sized values.length others).fill 0 values).has i = true ↔
        (1 ≤ i ∧ i < 1 + values.length) ∨ Entries.empty.get (.ofNat i) ≠ .nil := by
      rw [← hget, has, bne_iff_ne]
      rfl
    rw [hhas, hempty]
    simp only [ne_eq, not_true_eq_false, or_false]
    omega
  · rw [hlayout]
    exact ⟨Nat.le_refl _, hlt⟩

end Table

/-! ## Values that stand for vectors -/

namespace Memory

/-- A value stands for a vector with these samples. -/
inductive HoldsVector (m : Memory) : Value → List Binary32 → Prop
  | vector (i : Nat) : HoldsVector m (.vector i) (m.vector i).toList
  | table {i n : Nat} {samples : List Binary32} (h : (m.table i).IsSequence n)
      (hsamples : (m.table i).samples? = some samples) : HoldsVector m (.table i) samples

variable {m : Memory}

theorem HoldsVector.samples?_eq {v : Value} {samples : List Binary32}
    (h : m.HoldsVector v samples) : m.samples? v = some samples := by
  cases h with
  | vector i => rfl
  | table h hsamples => exact hsamples

theorem HoldsVector.addCell {v : Value} {samples : List Binary32} (h : m.HoldsVector v samples)
    (cell : Cell) : (m.addCell cell).2.HoldsVector v samples := by
  cases h with
  | vector i => exact .vector i
  | table h hsamples => exact .table h hsamples

theorem table_modifyTable (i j : Nat) (f : Table → Table) :
    (m.modifyTable i f).table j =
      if i = j ∧ j < m.tables.size then f (m.table j) else m.table j := by
  unfold table modifyTable
  rw [Array.getElem?_modify]
  by_cases hsame : i = j
  · subst hsame
    rcases Nat.lt_or_ge i m.tables.size with hlt | hge
    · simp [hlt]
    · simp [Nat.not_lt.mpr hge]
  · simp [hsame]

/-- A value that was asked for its samples stands for the same vector. -/
theorem HoldsVector.sampled {v : Value} {samples : List Binary32}
    (h : m.HoldsVector v samples) : (m.sampled v).HoldsVector v samples := by
  cases h with
  | vector i => exact .vector i
  | @table i n _ h hsamples =>
    have htable := table_modifyTable (m := m) i i Table.sampled
    split at htable
    · exact .table (by rw [Memory.sampled, htable]; exact h.sampled)
        (by rw [Memory.sampled, htable, h.samples?_sampled, hsamples])
    · exact .table (by rw [Memory.sampled, htable]; exact h)
        (by rw [Memory.sampled, htable, hsamples])

theorem global_sampled (v : Value) (name : String) :
    (m.sampled v).global name = m.global name := by
  unfold Memory.sampled
  split
  · unfold global Table.get
    rw [table_modifyTable]
    split
    · rw [Table.entries_sampled]
    · rfl
  · rfl

end Memory

end ScpiScript.Lua
