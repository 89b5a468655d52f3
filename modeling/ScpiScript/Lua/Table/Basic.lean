import ScpiScript.Lua.Table.Entries
import ScpiScript.Lua.Table.Layout
/-!
# Tables

A table is a finite map from keys to values, and a layout of its keys, which decides
what the table answers for the length of a sequence with holes.

- `get`, `set` and `count` see the map alone: `get_set`.
- `length` is a length of the sequence at the first integer keys, and `measured` the
  table after its length was asked for.
-/

namespace ScpiScript.Lua

/-- A table. -/
structure Table where
  entries : Entries
  layout : Layout
  deriving Repr, Inhabited

namespace Table

/-- An empty table with slots, and room for other keys. -/
def sized (slots others : Nat) : Table := ⟨.empty, .sized slots others⟩

/-- An empty table. -/
def empty : Table := sized 0 0

/-- The value under a key, nil where there is none. An integral number is the same
key as the integer. -/
def get (t : Table) (key : Value) : Value := t.entries.get key.asKey

/-- The value under an integer key. -/
def getAt (t : Table) (i : Nat) : Value := t.get (.ofNat i)

/-- How many keys have a value. -/
def count (t : Table) : Nat := t.entries.count

/-- An integer key has a value. -/
def has (t : Table) (i : Nat) : Bool := t.getAt i != .nil

/-- The table after a key was read. -/
def touch (t : Table) (key : Value) : Table :=
  { t with layout := t.layout.touch key.asKey }

/-- Set the value under a key; nil takes the entry away. -/
def set (t : Table) (key value : Value) : Table :=
  let key := key.asKey
  let layout := t.layout.touch key
  let known := value = .nil || t.entries.get key != .nil
  let layout := if known then layout else layout.insert (fun k => t.entries.get k != .nil) key
  ⟨t.entries.set key value, layout⟩

/-- A table answers with the value set last under a key. -/
theorem get_set (t : Table) (key value other : Value) :
    (t.set key value).get other = if other.asKey = key.asKey then value else t.get other :=
  Entries.get_set t.entries key.asKey value other.asKey

/-- The table of some entries under names, the last of a name counting. -/
def ofEntries (entries : List (Value × Value)) : Table :=
  entries.foldl (fun t e => t.set e.1 e.2) (sized 0 entries.length)

/-- The table with values put under the keys behind `before`, in order. -/
def fill (t : Table) (before : Nat) (values : List Value) : Table :=
  let layout := t.layout.withSlots (fun k => t.entries.get k != .nil) (before + values.length)
  let entries := (values.zipIdx (before + 1)).foldl (fun e v => e.set (.ofNat v.2) v.1) t.entries
  ⟨entries, layout⟩

/-- A length of the sequence at the first integer keys. -/
def length (t : Table) : Nat := t.layout.border t.has

/-- The table after its length was asked for. -/
def measured (t : Table) : Table := { t with layout := t.layout.measured t.has }

end Table

end ScpiScript.Lua
