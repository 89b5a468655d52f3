import Mathlib.Data.List.Nodup
import ScpiScript.Proofs.Lua.Sequence
/-!
# The keys of a table

However a table was built, each of its entries is counted once, and its length is a place
where a sequence ends.

- `Entries.Sound` is what holds of all entries, and `Sound.set` that setting a value keeps it.
- `Entries.keys` lists the keys that have a value, each once: `mem_keys`, `nodup_keys` and
  `length_keys`.
- `Table.Built` are the tables that constructors and assignments make, and `Built.sound`
  what holds of them.
- `Table.Sound.isBorder_length` says what their length is.
-/

namespace ScpiScript.Lua

open Layout (largestKey)

/-! ## Integer keys -/

/-- A key is the key of itself. -/
@[simp] theorem Value.asKey_asKey (v : Value) : v.asKey.asKey = v.asKey := by
  cases v with
  | number n =>
    cases hn : n.toInt? with
    | some i =>
      have hkey : (number n).asKey = number (.int i) := by simp only [asKey, hn]
      rw [hkey]
      rfl
    | none =>
      have hkey : (number n).asKey = number n := by simp only [asKey, hn]
      rw [hkey, hkey]
  | _ => rfl

@[simp] theorem Value.asKey_ofNat (n : Nat) : (ofNat n).asKey = ofNat n := rfl

theorem Table.ofNat_inj_of_le {i j : Nat} (hi : i ≤ largestKey) (hj : j ≤ largestKey) :
    Value.ofNat i = Value.ofNat j ↔ i = j :=
  Table.ofNat_inj (Nat.lt_succ_of_le hi) (Nat.lt_succ_of_le hj)

namespace Entries

theorem place?_eq_some_iff {key : Value} {i : Nat} :
    place? key = some i ↔ i < largestKey ∧ key = .ofNat (i + 1) := by
  have hlargest : (largestKey : Int) = 2 ^ 63 - 1 := rfl
  constructor
  · intro h
    unfold place? at h
    split at h
    · rename_i k
      split at h
      · rename_i hone
        have hk := Int64.toInt_lt k
        have hi := Option.some.inj h
        refine ⟨by omega, ?_⟩
        have hvalue : ((i + 1 : Nat) : Int) = k.toInt := by omega
        rw [Value.ofNat, hvalue, Int64.ofInt_toInt]
      · cases h
    · cases h
  · rintro ⟨hi, rfl⟩
    have hvalue : (Int64.ofInt ((i + 1 : Nat) : Int)).toInt = ((i + 1 : Nat) : Int) :=
      Int64.toInt_ofInt_of_le (by omega) (by omega)
    unfold place? Value.ofNat
    dsimp only
    rw [hvalue, if_pos (by omega)]
    rfl

/-! ## Lists of entries -/

section Lists

variable {key value : Value} {entries : List (Value × Value)}

theorem mem_remove {entry : Value × Value} :
    entry ∈ remove key entries ↔ entry ∈ entries ∧ key ≠ entry.1 := by
  rw [remove, List.mem_filter, bne_iff_ne]

theorem map_fst_replace :
    (replace key value entries).map Prod.fst = entries.map Prod.fst := by
  induction entries with
  | nil => rfl
  | cons entry rest ih =>
    unfold replace
    split
    · rename_i hkey
      rw [List.map_cons, List.map_cons, hkey]
    · rw [List.map_cons, List.map_cons, ih]

theorem mem_replace {entry : Value × Value} (h : entry ∈ replace key value entries) :
    entry = (key, value) ∨ entry ∈ entries := by
  induction entries with
  | nil => cases h
  | cons first rest ih =>
    unfold replace at h
    split at h
    · rcases List.mem_cons.mp h with rfl | h
      · exact .inl rfl
      · exact .inr (.tail first h)
    · rcases List.mem_cons.mp h with rfl | h
      · exact .inr List.mem_cons_self
      · exact (ih h).imp_right (.tail first)

/-- An entry that is there after a value was put under a key is that, or was there. -/
theorem mem_put {entry : Value × Value} (h : entry ∈ put key value entries) :
    value ≠ .nil ∧ entry = (key, value) ∨ entry ∈ entries := by
  unfold put at h
  split at h
  · exact .inr (mem_remove.mp h).1
  · rename_i hvalue
    split at h
    · exact (mem_replace h).imp_left (⟨hvalue, ·⟩)
    · exact (List.mem_cons.mp h).imp_left (⟨hvalue, ·⟩)

theorem lookup_eq_none_iff_notMem : entries.lookup key = none ↔ key ∉ entries.map Prod.fst := by
  rw [List.lookup_eq_none_iff]
  simp only [bne_iff_ne, List.mem_map, not_exists, not_and]
  exact forall₂_congr fun entry _ => ne_comm

theorem nodup_remove (h : (entries.map Prod.fst).Nodup) :
    ((remove key entries).map Prod.fst).Nodup :=
  h.sublist (List.filter_sublist.map Prod.fst)

theorem nodup_put (h : (entries.map Prod.fst).Nodup) :
    ((put key value entries).map Prod.fst).Nodup := by
  unfold put
  split
  · exact nodup_remove h
  · split
    · rwa [map_fst_replace]
    · rename_i hnone
      rw [Option.not_isSome_iff_eq_none, lookup_eq_none_iff_notMem] at hnone
      exact List.nodup_cons.mpr ⟨hnone, h⟩

/-- Where no value is nil, the keys of the entries are those under which something is found. -/
theorem find_ne_nil_iff (h : ∀ entry ∈ entries, entry.2 ≠ .nil) :
    find key entries ≠ .nil ↔ key ∈ entries.map Prod.fst := by
  rw [← not_iff_not, ← lookup_eq_none_iff_notMem, not_not, find]
  constructor
  · intro hfind
    rw [Option.eq_none_iff_forall_ne_some]
    intro value hvalue
    obtain ⟨front, behind, hentries, -⟩ := List.lookup_eq_some_iff.mp hvalue
    rw [hvalue] at hfind
    exact h (key, value) (by simp [hentries]) hfind
  · intro hnone
    rw [hnone]
    rfl

end Lists

/-! ## All entries -/

/-- What holds of the entries of a table: no key is there twice, none that is there has no
value, and those that have a place in the row stand there. -/
structure Sound (e : Entries) : Prop where
  nodup : (e.others.map Prod.fst).Nodup
  ne_nil : ∀ entry ∈ e.others, entry.2 ≠ .nil
  size_le_of_place? : ∀ entry ∈ e.others, ∀ i, place? entry.1 = some i → e.row.size ≤ i
  asKey_eq : ∀ entry ∈ e.others, entry.1.asKey = entry.1
  size_le : e.row.size ≤ largestKey

theorem sound_empty : empty.Sound where
  nodup := List.nodup_nil
  ne_nil := nofun
  size_le_of_place? := nofun
  asKey_eq := nofun
  size_le := Nat.zero_le _

variable {e : Entries}

/-- A value that is put among the other entries has no place in the row. -/
theorem Sound.put (h : e.Sound) {key : Value} (hkey : key.asKey = key) (value : Value)
    (hplace : ∀ i, place? key = some i → e.row.size ≤ i) :
    Sound { e with others := Entries.put key value e.others } where
  nodup := nodup_put h.nodup
  ne_nil entry hentry := by
    rcases mem_put hentry with ⟨hvalue, rfl⟩ | hentry
    · exact hvalue
    · exact h.ne_nil entry hentry
  size_le_of_place? entry hentry := by
    rcases mem_put hentry with ⟨-, rfl⟩ | hentry
    · exact hplace
    · exact h.size_le_of_place? entry hentry
  asKey_eq entry hentry := by
    rcases mem_put hentry with ⟨-, rfl⟩ | hentry
    · exact hkey
    · exact h.asKey_eq entry hentry
  size_le := h.size_le

theorem Sound.set (h : e.Sound) {key : Value} (hkey : key.asKey = key) (value : Value) :
    (e.set key value).Sound := by
  unfold Entries.set
  cases hplace : place? key with
  | none =>
    refine h.put hkey value fun i hi => ?_
    rw [hplace] at hi
    cases hi
  | some i =>
    dsimp only
    split
    · -- the row keeps its size
      refine ⟨h.nodup, h.ne_nil, ?_, h.asKey_eq, ?_⟩
      · rw [Array.size_setIfInBounds]
        exact h.size_le_of_place?
      · rw [Array.size_setIfInBounds]
        exact h.size_le
    · rename_i hout
      split
      · -- the key leaves the other entries for the end of the row
        rename_i hend
        have hi := (place?_eq_some_iff.mp hplace).1
        refine ⟨nodup_remove h.nodup, fun entry hentry => h.ne_nil entry (mem_remove.mp hentry).1,
          fun entry hentry j hj => ?_, fun entry hentry => h.asKey_eq entry (mem_remove.mp hentry).1,
          ?_⟩
        · obtain ⟨hentry, hne⟩ := mem_remove.mp hentry
          have hbehind := h.size_le_of_place? entry hentry j hj
          have hji : j ≠ i := fun hji => hne (eq_of_place? hplace (hji ▸ hj))
          rw [Array.size_push]
          omega
        · rw [Array.size_push]
          omega
      · refine h.put hkey value fun j hj => ?_
        rw [hplace] at hj
        cases hj
        exact Nat.le_of_not_lt hout

/-! ## Keys -/

/-- The keys that have a value in the row. -/
def rowKeys (e : Entries) : List Value :=
  ((List.range e.row.size).filter fun i => e.row[i]?.getD .nil != .nil).map fun i =>
    .ofNat (i + 1)

/-- The keys that have a value. -/
def keys (e : Entries) : List Value := e.rowKeys ++ e.others.map Prod.fst

theorem mem_rowKeys (h : e.Sound) {key : Value} :
    key ∈ e.rowKeys ↔ ∃ i, place? key = some i ∧ ∃ value, e.row[i]? = some value ∧ value ≠ .nil := by
  unfold rowKeys
  simp only [List.mem_map, List.mem_filter, List.mem_range, bne_iff_ne]
  constructor
  · rintro ⟨i, ⟨hi, hvalue⟩, rfl⟩
    rw [Array.getElem?_eq_getElem hi] at hvalue
    exact ⟨i, place?_eq_some_iff.mpr ⟨Nat.lt_of_lt_of_le hi h.size_le, rfl⟩,
      e.row[i], Array.getElem?_eq_getElem hi, hvalue⟩
  · rintro ⟨i, hplace, value, hvalue, hne⟩
    obtain ⟨-, rfl⟩ := place?_eq_some_iff.mp hplace
    obtain ⟨hi, -⟩ := Array.getElem?_eq_some_iff.mp hvalue
    exact ⟨i, ⟨hi, by rwa [hvalue]⟩, rfl⟩

/-- The keys are those that have a value. -/
theorem mem_keys (h : e.Sound) {key : Value} : key ∈ e.keys ↔ e.get key ≠ .nil := by
  rw [keys, List.mem_append, mem_rowKeys h, ← find_ne_nil_iff h.ne_nil, get]
  cases hplace : place? key with
  | none => simp
  | some i =>
    simp only [Option.some_inj, exists_eq_left']
    rcases Nat.lt_or_ge i e.row.size with hi | hi
    · -- a key whose place is in the row stands nowhere else
      have hnone : find key e.others = .nil := by
        by_contra hfind
        obtain ⟨entry, hentry, rfl⟩ := List.mem_map.mp ((find_ne_nil_iff h.ne_nil).mp hfind)
        exact absurd (h.size_le_of_place? entry hentry i hplace) (Nat.not_le_of_lt hi)
      simp [hi, hnone]
    · simp [hi]

theorem nodup_rowKeys (h : e.Sound) : e.rowKeys.Nodup := by
  refine List.Nodup.map_on (fun i hi j hj heq => ?_) (List.nodup_range.filter _)
  have hle := h.size_le
  have hi := List.mem_range.mp (List.mem_of_mem_filter hi)
  have hj := List.mem_range.mp (List.mem_of_mem_filter hj)
  exact Nat.succ.inj ((Table.ofNat_inj_of_le (by omega) (by omega)).mp heq)

/-- No key is there twice. -/
theorem nodup_keys (h : e.Sound) : e.keys.Nodup := by
  refine List.nodup_append'.mpr ⟨nodup_rowKeys h, h.nodup, fun key hrow hother => ?_⟩
  obtain ⟨i, hplace, value, hvalue, -⟩ := (mem_rowKeys h).mp hrow
  obtain ⟨entry, hentry, rfl⟩ := List.mem_map.mp hother
  obtain ⟨hi, -⟩ := Array.getElem?_eq_some_iff.mp hvalue
  exact absurd (h.size_le_of_place? entry hentry i hplace) (Nat.not_le_of_lt hi)

theorem asKey_of_mem_keys (h : e.Sound) {key : Value} (hkey : key ∈ e.keys) :
    key.asKey = key := by
  rcases List.mem_append.mp hkey with hrow | hother
  · obtain ⟨i, -, rfl⟩ := List.mem_map.mp hrow
    rfl
  · obtain ⟨entry, hentry, rfl⟩ := List.mem_map.mp hother
    exact h.asKey_eq entry hentry

/-- The keys are counted. -/
theorem length_keys (e : Entries) : e.keys.length = e.count := by
  have hrow : e.row.toList = (List.range e.row.size).map fun i => e.row[i]?.getD .nil := by
    refine List.ext_getElem (by simp) fun i hi _ => ?_
    rw [Array.length_toList] at hi
    simp [hi]
  rw [keys, rowKeys, count, List.length_append, List.length_map, List.length_map,
    ← Array.countP_toList, hrow, List.countP_map, List.countP_eq_length_filter]
  rfl

end Entries

/-! ## Layouts -/

namespace Layout

variable {live : Value → Bool} {l l' : Layout}

theorem largestSlot_lt : largestSlot < sequenceLimit := by decide

theorem sound_sized {slots : Nat} (h : slots ≤ largestSlot) (others : Nat) :
    (sized slots others).Sound :=
  ⟨Nat.le_refl _, Nat.lt_of_le_of_lt h largestSlot_lt⟩

/-- Putting a key in a node keeps the slots and the hint. -/
theorem Sound.place? (h : l.Sound) {key : Value} (hplace : l.place? live key = some l') :
    l'.Sound := by
  unfold Layout.place? at hplace
  dsimp only at hplace
  split at hplace
  · cases hplace
  · cases hplace
    exact ⟨h.hint_le, h.slots_lt⟩
  · split at hplace
    · cases hplace
      exact ⟨h.hint_le, h.slots_lt⟩
    · obtain ⟨n, -, rfl⟩ := Option.map_eq_some_iff.mp hplace
      exact ⟨h.hint_le, h.slots_lt⟩

theorem Sound.settle (h : l.Sound) (key : Value) : (l.settle live key).Sound := by
  unfold Layout.settle
  split
  · exact h
  · cases hplace : l.place? live key with
    | none => exact h
    | some l' => exact h.place? hplace

theorem Sound.resize {slots : Nat} (h : slots ≤ largestSlot) (others : Nat) :
    (l.resize live slots others).Sound := by
  unfold Layout.resize
  dsimp only
  generalize (slotKeys slots l.slots ++ l.nodeKeys).filter live = moved
  have hsized := sound_sized h others
  generalize sized slots others = l' at hsized
  induction moved generalizing l' with
  | nil => exact hsized
  | cons key rest ih => exact ih _ (hsized.settle key)

/-- The number of slots is chosen among the powers that were tried. -/
theorem slotsFor_go_le (keys : List Value) (total : Nat) (tries : Nat) {size best : Nat}
    (hsize : size * 2 ^ tries ≤ 2 * largestSlot) (hbest : best ≤ largestSlot) :
    slotsFor.go keys total tries size best ≤ largestSlot := by
  induction tries generalizing size best with
  | zero => exact hbest
  | succ tries ih =>
    have hstep : 2 * size * 2 ^ tries = size * 2 ^ (tries + 1) := by ring
    have hle : size ≤ largestSlot := by
      have hpower : size * 2 ≤ size * 2 ^ (tries + 1) :=
        Nat.mul_le_mul_left size (Nat.le_self_pow (Nat.succ_ne_zero tries) 2)
      omega
    unfold slotsFor.go
    split
    · exact hbest
    · refine ih (hstep ▸ hsize) ?_
      split
      · exact hle
      · exact hbest

theorem slotsFor_le (keys : List Value) : slotsFor keys ≤ largestSlot :=
  slotsFor_go_le keys _ 32 (by decide) (Nat.zero_le _)

theorem Sound.insert (h : l.Sound) (key : Value) : (l.insert live key).Sound := by
  unfold Layout.insert
  split
  · exact h
  · cases hplace : l.place? live key with
    | some l' => exact h.place? hplace
    | none => exact (Sound.resize (slotsFor_le _) _).settle key

theorem Sound.withSlots (h : l.Sound) {slots : Nat} (hslots : slots ≤ largestSlot) :
    (l.withSlots live slots).Sound := by
  unfold Layout.withSlots
  split
  · exact h
  · exact .resize hslots _

end Layout

/-! ## Tables -/

namespace Table

/-- The tables that code can make: constructors make a table and fill it, in pieces of at
most as many values as can have slots, and assignments set the values under its keys; in
between, its keys may be read and its length asked for. -/
inductive Built : Table → Prop
  | sized {slots : Nat} (h : slots ≤ Layout.largestSlot) (others : Nat) :
      Built (sized slots others)
  | fill {t : Table} (h : Built t) {before : Nat} {values : List Value}
      (hle : before + values.length ≤ Layout.largestSlot) : Built (t.fill before values)
  | set {t : Table} (h : Built t) (key value : Value) : Built (t.set key value)
  | touch {t : Table} (h : Built t) (key : Value) : Built (t.touch key)
  | measured {t : Table} (h : Built t) : Built t.measured

/-- What holds of every table. -/
structure Sound (t : Table) : Prop where
  entries : t.entries.Sound
  layout : t.layout.Sound

variable {t : Table}

theorem Sound.set (h : t.Sound) (key value : Value) : (t.set key value).Sound := by
  refine ⟨h.entries.set key.asKey_asKey value, ?_⟩
  show Layout.Sound (if _ then _ else _)
  split
  · exact h.layout.touch _
  · exact (h.layout.touch _).insert _

theorem Sound.fill (h : t.Sound) {before : Nat} {values : List Value}
    (hle : before + values.length ≤ Layout.largestSlot) : (t.fill before values).Sound := by
  refine ⟨?_, h.layout.withSlots hle⟩
  show Entries.Sound (List.foldl _ _ _)
  generalize values.zipIdx (before + 1) = placed
  have hentries := h.entries
  generalize t.entries = e at hentries
  induction placed generalizing e with
  | nil => exact hentries
  | cons first rest ih => exact ih _ (hentries.set (Value.asKey_ofNat _) _)

theorem Built.sound (h : t.Built) : t.Sound := by
  induction h with
  | sized h others => exact ⟨Entries.sound_empty, Layout.sound_sized h others⟩
  | fill _ hle ih => exact ih.fill hle
  | set _ key value ih => exact ih.set key value
  | touch _ key ih => exact ⟨ih.entries, ih.layout.touch _⟩
  | measured _ ih => exact ⟨ih.entries, ih.layout.measured⟩

/-- The length of a table is a place where a sequence ends. -/
theorem Sound.isBorder_length (h : t.Sound) : Layout.IsBorder t.has t.length :=
  Layout.isBorder_border h.layout

end Table

end ScpiScript.Lua
