import ScpiScript.Lua.Value
/-!
# Entries

The entries of a table are a finite map from keys to values. The values under the
first integer keys stand in a row, and all others in a list.

- `get` is the value under a key, nil where there is none; `set` changes it.
- `get_set` says that a map answers with the value set last under a key.
-/

namespace ScpiScript.Lua

/-- A finite map from values to values. -/
structure Entries where
  /-- The values under the integer keys from one on, nil where there is none. -/
  row : Array Value
  /-- The entries under other keys. No value is nil. -/
  others : List (Value × Value)
  deriving Repr, Inhabited

namespace Entries

/-- A map without entries. -/
def empty : Entries := ⟨#[], []⟩

/-- The place in a row that an integer key from one on has. -/
def place? (key : Value) : Option Nat :=
  match key with
  | .number (.int i) => if 1 ≤ i.toInt then some (i.toInt.toNat - 1) else none
  | _ => none

/-- The value under a key in a list of entries. -/
def find (key : Value) (entries : List (Value × Value)) : Value :=
  (entries.lookup key).getD .nil

/-- The value under a key. -/
def get (e : Entries) (key : Value) : Value :=
  match place? key with
  | some i => e.row[i]?.getD (find key e.others)
  | none => find key e.others

/-- How many keys have a value. -/
def count (e : Entries) : Nat := e.row.countP (· != .nil) + e.others.length

/-- The entries with the value of one key, which is there, replaced. -/
def replace (key value : Value) : List (Value × Value) → List (Value × Value)
  | [] => []
  | entry :: rest =>
    if key = entry.1 then (key, value) :: rest else entry :: replace key value rest

/-- The entries without the one under a key. -/
def remove (key : Value) (entries : List (Value × Value)) : List (Value × Value) :=
  entries.filter fun entry => key != entry.1

/-- The entries with a value under a key. -/
def put (key value : Value) (entries : List (Value × Value)) : List (Value × Value) :=
  if value = .nil then remove key entries
  else if (entries.lookup key).isSome then replace key value entries
  else (key, value) :: entries

/-- The map with a value under a key; nil takes the entry away. -/
def set (e : Entries) (key value : Value) : Entries :=
  match place? key with
  | some i =>
    if i < e.row.size then { e with row := e.row.setIfInBounds i value }
    else if i = e.row.size ∧ value ≠ .nil then ⟨e.row.push value, remove key e.others⟩
    else { e with others := put key value e.others }
  | none => { e with others := put key value e.others }

/-! ## Reading what was written -/

theorem eq_of_place? {a b : Value} {i : Nat} (ha : place? a = some i) (hb : place? b = some i) :
    a = b := by
  unfold place? at ha hb
  split at ha
  · rename_i x
    split at hb
    · rename_i y
      split at ha <;> split at hb
      · have hx := Option.some.inj ha
        have hy := Option.some.inj hb
        have same : x.toInt = y.toInt := by omega
        rw [Int64.toInt_inj.1 same]
      all_goals contradiction
    · contradiction
  · contradiction

/-- The first entry answers for its key, and the rest for all others. -/
theorem lookup_entry (k v other : Value) (rest : List (Value × Value)) :
    ((k, v) :: rest).lookup other = if other = k then some v else rest.lookup other := by
  by_cases h : other = k
  · simp [h]
  · simp [List.lookup_cons, h, beq_false_of_ne h]

theorem lookup_remove (key other : Value) (entries : List (Value × Value)) :
    (remove key entries).lookup other = if other = key then none else entries.lookup other := by
  unfold remove
  induction entries with
  | nil => simp
  | cons entry rest ih =>
    obtain ⟨k, v⟩ := entry
    by_cases hk : key = k <;> by_cases ho : other = k <;> by_cases hs : other = key <;>
      simp_all [lookup_entry]

theorem lookup_replace (key value other : Value) (entries : List (Value × Value)) :
    (replace key value entries).lookup other =
      if other = key then (entries.lookup key).map fun _ => value else entries.lookup other := by
  induction entries with
  | nil => simp [replace]
  | cons entry rest ih =>
    obtain ⟨k, v⟩ := entry
    unfold replace
    by_cases hk : key = k <;> by_cases ho : other = k <;> by_cases hs : other = key <;>
      simp_all [lookup_entry]

theorem find_remove (key other : Value) (entries : List (Value × Value)) :
    find other (remove key entries) = if other = key then .nil else find other entries := by
  unfold find
  rw [lookup_remove]
  split <;> rfl

/-- A list of entries answers with the value put last under a key. -/
theorem find_put (key value other : Value) (entries : List (Value × Value)) :
    find other (put key value entries) = if other = key then value else find other entries := by
  unfold put
  by_cases hv : value = .nil
  · rw [if_pos hv, find_remove, hv]
  · rw [if_neg hv]
    cases hf : entries.lookup key with
    | some old =>
      simp only [Option.isSome_some, if_true, find, lookup_replace, hf]
      split <;> rfl
    | none =>
      by_cases ho : other = key <;> simp [find, lookup_entry, ho]

/-- A map answers with the value set last under a key. -/
theorem get_set (e : Entries) (key value other : Value) :
    (e.set key value).get other = if other = key then value else e.get other := by
  unfold set
  cases hk : place? key with
  | none =>
    cases ho : place? other with
    | none => simp only [get, ho, find_put]
    | some j =>
      have hne : other ≠ key := fun h => by rw [h, hk] at ho; cases ho
      simp only [get, ho, find_put, if_neg hne]
  | some i =>
    have same {j : Nat} (ho : place? other = some j) : i = j ↔ other = key :=
      ⟨fun h => eq_of_place? ho (h ▸ hk), fun h => by rw [h, hk] at ho; exact Option.some.inj ho⟩
    have differ (ho : place? other = none) : other ≠ key := fun h => by rw [h, hk] at ho; cases ho
    by_cases hi : i < e.row.size
    · simp only [hi, if_true, get]
      cases ho : place? other with
      | none => simp [differ ho]
      | some j =>
        by_cases hs : other = key
        · have hj : i = j := (same ho).2 hs
          simp [hs, ← hj, hi]
        · have hj : i ≠ j := fun h => hs ((same ho).1 h)
          simp [hs, Array.getElem?_setIfInBounds_ne hj]
    · simp only [hi, if_false]
      split
      · rename_i h
        cases ho : place? other with
        | none => simp [get, ho, find_remove, differ ho]
        | some j =>
          by_cases hs : other = key
          · have hj : j = e.row.size := ((same ho).2 hs).symm.trans h.1
            simp only [get, ho, hj, if_pos hs]
            simp
          · have hj : j ≠ e.row.size := fun g => hs ((same ho).1 (h.1.trans g.symm))
            simp [get, ho, hs, find_remove, Array.getElem?_push, hj]
      · cases ho : place? other with
        | none => simp [get, ho, find_put]
        | some j =>
          by_cases hs : other = key
          · have hj : i = j := (same ho).2 hs
            simp only [get, ho, find_put, ← hj, if_pos hs,
              Array.getElem?_eq_none (Nat.le_of_not_lt hi)]
            rfl
          · simp [get, ho, hs, find_put]

end Entries

end ScpiScript.Lua
