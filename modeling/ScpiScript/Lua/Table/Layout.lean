import ScpiScript.Lua.Value
/-!
# The layout of a table

A sequence with holes has several lengths, and which of them a table answers depends
on how its keys are laid out. The first integer keys have slots. All other keys stand
in nodes, each in the node that its hash names or, if that one is taken, in the last
free one. When no node is free the numbers of slots and nodes are chosen anew: the
slots are the largest power of two of which more than half are used.

- `Layout.touch` and `Layout.insert` follow the reading and the writing of a key.
- `Layout.measure` is the length, given which keys have a value.
- `searchBorder_spec` says what a search for the end of a sequence finds.
-/

namespace ScpiScript.Lua

open Binary

/-- The hash of an integer key. -/
def integerHash (i : Int64) : Nat := i.toUInt64.toNat

/-- The hash of a key that is a fraction: its leading 31 bits and its binary order
added in 32 bits, with the complement taken of a sum that needs all of them. -/
def fractionHash (x : Binary64) : Nat :=
  match x.datum with
  | .finite negative m e =>
    let width := if m = 0 then 0 else m.log2 + 1
    let leading : Int := m * Nat.pow 2 31 / Nat.pow 2 width
    let sum := ((if negative then -leading else leading) + e + width) % (Nat.pow 2 32 : Nat)
    if sum < Nat.pow 2 31 then sum.toNat else Nat.pow 2 32 - 1 - sum.toNat
  | _ => 0

/-- The node, of so many, that a key is put in if nothing keeps it from there. Numbers
are spread by a remainder of an odd number; where other keys stand does not show. -/
def preferredNode (nodes : Nat) (key : Value) : Nat :=
  let odd := if nodes = 1 then 1 else nodes - 1
  match key with
  | .number (.int i) => integerHash i % odd
  | .number (.float x) => fractionHash x % odd
  | .bool b => if b then 1 % nodes else 0
  | _ => 0

/-- How the keys of a table are laid out. -/
structure Layout where
  /-- The keys from one up to this have a slot. -/
  slots : Nat
  /-- Where the end of the sequence was seen last, at most the number of slots. -/
  hint : Nat
  /-- The keys in nodes. One whose value was taken away stays until its node is used
  again. -/
  nodes : Array (Option Value)
  /-- No node from this one on is free. -/
  free : Nat
  deriving Repr, Inhabited

namespace Layout

/-- The number of nodes that have room for some keys: a power of two, or none. -/
def nodesFor (keys : Nat) : Nat := if keys = 0 then 0 else keys.nextPowerOfTwo

/-- A layout with slots and with room for other keys. -/
def sized (slots others : Nat) : Layout :=
  ⟨slots, slots, Array.replicate (nodesFor others) none, nodesFor others⟩

/-- A key is an integer from one to `n`. -/
def isUpTo (n : Nat) (key : Value) : Bool :=
  match key with
  | .number (.int i) => 1 ≤ i.toInt && i.toInt ≤ n
  | _ => false

/-- The layout after a key was used: the end of the sequence is looked for next at a
slot behind the hint that was used. -/
def touch (l : Layout) (key : Value) : Layout :=
  match key with
  | .number (.int i) =>
    if l.hint < i.toInt && i.toInt ≤ l.slots then { l with hint := i.toInt.toNat } else l
  | _ => l

/-! ## New keys -/

/-- The last free node below some node. -/
def freeBelow? (nodes : Array (Option Value)) : Nat → Option Nat
  | 0 => none
  | n + 1 => if nodes[n]? = some none then some n else freeBelow? nodes n

/-- The layout with a key in a node, if there is one for it. `live` tells which keys
have a value. -/
def place? (live : Value → Bool) (l : Layout) (key : Value) : Option Layout :=
  let preferred := preferredNode l.nodes.size
  let at_ := preferred key
  match l.nodes[at_]? with
  | none => none
  | some none => some { l with nodes := l.nodes.setIfInBounds at_ (some key) }
  | some (some other) =>
    if !live other then some { l with nodes := l.nodes.setIfInBounds at_ (some key) }
    else
      (freeBelow? l.nodes l.free).map fun n =>
        let nodes :=
          if preferred other = at_ then l.nodes.setIfInBounds n (some key)
          else (l.nodes.setIfInBounds n (some other)).setIfInBounds at_ (some key)
        { l with nodes, free := n }

/-- How many of some keys are integers from one to `n`. -/
def countUpTo (keys : List Value) (n : Nat) : Nat := keys.countP (isUpTo n)

/-- The largest key that can have a slot. -/
def largestSlot : Nat := 0x80000000

/-- The number of slots for a table with these keys: the largest power of two of
which more than half would be used. -/
def slotsFor (keys : List Value) : Nat := go (countUpTo keys largestSlot) 32 1 0
where
  /-- Try the powers of two from `size` on, `best` being the best so far. -/
  go (total : Nat) : (tries : Nat) → (size best : Nat) → Nat
    | 0, _, best => best
    | tries + 1, size, best =>
      if total ≤ size / 2 then best
      else go total tries (2 * size) (if size / 2 < countUpTo keys size then size else best)

/-- The integer keys of the slots behind the first ones. -/
def slotKeys (first slots : Nat) : List Value :=
  (List.range' (first + 1) (slots - first)).map Value.ofNat

/-- The keys that stand in nodes. -/
def nodeKeys (l : Layout) : List Value := l.nodes.toList.filterMap id

/-- The layout with a key added that has no slot, if there is a node for it. -/
def settle (live : Value → Bool) (l : Layout) (key : Value) : Layout :=
  if isUpTo l.slots key then l else (l.place? live key).getD l

/-- The same keys in another number of slots, and in nodes with room for some number
of other keys. -/
def resize (live : Value → Bool) (l : Layout) (slots others : Nat) : Layout :=
  let moved := slotKeys slots l.slots ++ l.nodeKeys
  (moved.filter live).foldl (settle live) (sized slots others)

/-- The layout with its numbers chosen anew for one more key. -/
def rehash (live : Value → Bool) (l : Layout) (key : Value) : Layout :=
  let keys := key :: (slotKeys 0 l.slots ++ l.nodeKeys).filter live
  let slots := slotsFor keys
  l.resize live slots (keys.length - countUpTo keys slots)

/-- The layout with one more key. -/
def insert (live : Value → Bool) (l : Layout) (key : Value) : Layout :=
  if isUpTo l.slots key || l.nodes.contains (some key) then l
  else
    match l.place? live key with
    | some l => l
    | none => (l.rehash live key).settle live key

/-- The layout with at least so many slots. -/
def withSlots (live : Value → Bool) (l : Layout) (slots : Nat) : Layout :=
  if slots ≤ l.slots then l else l.resize live slots l.nodes.size

/-! ## The length -/

/-- The end of a sequence between `low`, which is zero or has a value, and `high`,
which has none. -/
def searchBorder (present : Nat → Bool) : (tries : Nat) → (low high : Nat) → Nat
  | 0, low, _ => low
  | tries + 1, low, high =>
    if high - low ≤ 1 then low
    else
      let middle := (low + high) / 2
      if present middle then searchBorder present tries middle high
      else searchBorder present tries low middle

/-- The largest integer key. -/
def largestKey : Nat := 0x7FFFFFFFFFFFFFFF

/-- The key that is looked at behind another one, twice as far on. -/
def nextDoubled (i : Nat) : Nat := if i ≤ largestKey / 2 then 2 * i else largestKey

/-- A key without a value, found by doubling one that has a value, and the key
before the last doubling. Behind the largest key there is none with a value. -/
def doubling (present : Nat → Bool) : (tries : Nat) → Nat → Nat × Nat
  | 0, i => (i, i + 1)
  | tries + 1, i =>
    let next := nextDoubled i
    if !present next then (i, next)
    else if next = largestKey then (largestKey, largestKey + 1)
    else doubling present tries next

/-- How often an interval of keys can be halved. -/
def halvings : Nat := 64

/-- A length of the sequence of the keys that have a value. -/
def border (present : Nat → Bool) (l : Layout) : Nat :=
  if 0 < l.hint && !present l.hint then
    if 2 ≤ l.hint && present (l.hint - 1) then l.hint - 1
    else searchBorder present halvings 0 l.hint
  else if l.hint ≠ l.slots && !present (l.hint + 1) then l.hint
  else if l.hint ≠ l.slots && !present l.slots then
    searchBorder present halvings l.hint l.slots
  else if !present (l.slots + 1) then l.slots
  else
    let (low, high) := doubling present halvings (max l.slots 1)
    searchBorder present halvings low high

/-- A power of two; zero counts as one here. -/
def isPower (n : Nat) : Bool := n &&& (n - 1) = 0

/-- The layout after its length was asked for. The hint moves to the length if the
number of slots can still be told from it. -/
def measured (present : Nat → Bool) (l : Layout) : Layout :=
  let length := l.border present
  if 0 < l.hint && !present l.hint then
    let telling :=
      if 2 ≤ l.hint && present (l.hint - 1) then !isPower length else l.slots / 2 < length
    if isPower l.slots && telling then { l with hint := length } else l
  else if l.hint ≠ l.slots && present (l.hint + 1) && !present l.slots then
    { l with hint := length }
  else l

/-- The end that a search finds is one: its key has a value unless it is zero, and
the next key has none. -/
theorem searchBorder_spec (present : Nat → Bool) (tries low high : Nat)
    (below : low = 0 ∨ present low) (above : present high = false) (order : low < high)
    (enough : high - low ≤ Nat.pow 2 tries) :
    let n := searchBorder present tries low high
    (n = 0 ∨ present n) ∧ present (n + 1) = false := by
  induction tries generalizing low high with
  | zero =>
    have hb : high = low + 1 := by simp at enough; omega
    subst hb
    exact ⟨below, above⟩
  | succ tries ih =>
    have hp : Nat.pow 2 (tries + 1) = 2 * Nat.pow 2 tries := by
      simp only [Nat.pow_eq, Nat.pow_succ]; omega
    rw [hp] at enough
    unfold searchBorder
    split
    · have hb : high = low + 1 := by omega
      subst hb
      exact ⟨below, above⟩
    · cases hm : present ((low + high) / 2) with
      | true =>
        simp only [hm, if_true]
        exact ih _ _ (.inr hm) above (by omega) (by omega)
      | false =>
        simp only [hm, Bool.false_eq_true, if_false]
        exact ih _ _ below hm (by omega) (by omega)

end Layout

end ScpiScript.Lua
