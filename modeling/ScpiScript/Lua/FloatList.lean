import ScpiScript.Lua.Table.Basic
/-!
# Vectors in the language

A vector is a row of samples that grows at its end. Reading takes an integer key and
gives nil beyond the row; writing takes any number as a key, a position of the row or
the one behind it.

- `FloatList.read` is what a vector has under a key, `FloatList.target` where a value written
  under a key goes, and `FloatList.put` puts it there.
- `Table.samples?` is the vector that a table of numbers stands for.
-/

namespace ScpiScript.Lua

namespace Value

/-- The floating-point number that an argument counts as. -/
def toFloat? (v : Value) : Option Binary64 := v.toNumber?.map Number.toFloat

/-- The sample that a value counts as. -/
def toSample? (v : Value) : Option Binary32 := v.toFloat?.map Binary64.narrow

/-- The integer that an argument counts as, its fraction dropped. -/
def toIndex? (v : Value) : Option Int := (v.toNumber?.bind Number.truncate?).map Int64.toInt

/-- The text that an argument counts as. -/
def toText? (v : Value) : Option String := v.toBytes?.map Utf8.decodeLossy

end Value

/-- The samples of a vector. -/
abbrev FloatList := Array Binary32

namespace FloatList

/-- The sample under a key. Only an integer is a key; a floating-point number is
none, whatever its value. -/
def read (v : FloatList) (key : Value) : Value :=
  match key with
  | .number (.int i) =>
    if 1 ≤ i.toInt then
      match v[i.toInt.toNat - 1]? with
      | some x => .number (.float x.widen)
      | none => .nil
    else .nil
  | _ => .nil

/-- The message for writing at a position outside the row. -/
def outOfRange (v : FloatList) (i : Int) : String :=
  s!"FloatList index {i} out of range 1..{v.size + 1}"

/-- What writing a value under a key puts where: a sample at a place counted from
zero. -/
def target (v : FloatList) (key value : Value) : Except String (Nat × Binary32) :=
  match key.toIndex?, value.toSample? with
  | some i, some x =>
    if 1 ≤ i && i ≤ v.size + 1 then .ok (i.toNat - 1, x) else .error (v.outOfRange i)
  | none, _ => .error s!"bad argument #2: integer expected, got {key.kind}"
  | _, none => .error s!"bad argument #3: number expected, got {value.kind}"

/-- The vector with a sample put at a place, which is in the row or right behind it. -/
def put (v : FloatList) (at_ : Nat) (x : Binary32) : FloatList :=
  if at_ = v.size then v.push x else v.setIfInBounds at_ x

end FloatList

namespace Table

/-- The values under the first integer keys, up to the first key without one. -/
def sequence (t : Table) : List Value :=
  ((List.range t.count).map fun i => t.getAt (i + 1)).takeWhile (· != .nil)

/-- The samples of a table that holds nothing but a sequence of numbers. -/
def samples? (t : Table) : Option (List Binary32) :=
  if t.count = t.length then t.sequence.mapM Value.toSample? else none

/-- The table after it was asked for samples: its length was, and if it may hold a
sequence, so were the values up to the first that is no sample. -/
def sampled (t : Table) : Table :=
  let asked := t.measured
  if t.count = t.length then
    let good := (t.sequence.takeWhile fun v => v.toSample?.isSome).length
    (List.range' 1 (good + 1)).foldl (fun t i => t.touch (.ofNat i)) asked
  else asked

end Table

end ScpiScript.Lua
