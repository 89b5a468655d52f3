import ScpiScript.Lua.Library
import ScpiScript.Lua.Origin
/-!
# Running functions

The registers of all functions that are running lie in one row, those of a function
behind its arguments' place among the registers of its caller. A variable that inner
functions use stays in its register while its block goes on, and then gets a place of
its own.

- `Frame` is a running function, `Thread` the state of running code.
- `Thread.register` and `Thread.setRegister` see the registers of the running function,
  `Thread.outer` and `Thread.setOuter` the variables that it has from outside.
- `Thread.site` is the place of a call, as messages begin with it.
-/

namespace ScpiScript.Lua

/-- A running function. -/
structure Frame where
  function : Closure
  /-- Where its registers begin. -/
  base : Nat
  /-- Where its results are put. -/
  home : Nat
  /-- The number of its next instruction. -/
  next : Nat
  /-- How many results are wanted, unless all are. -/
  wanted : Option Nat

/-- A module that is being loaded. -/
structure Loading where
  name : String
  /-- What the function of the module is told of its origin. -/
  origin : Value
  /-- Where the results of loading it are put. -/
  home : Nat
  wanted : Option Nat

/-- A function that goes on when another is left, and the module that it is loading
by that one, if it does. -/
structure Caller where
  frame : Frame
  loading : Option Loading

/-- The state of running code. -/
structure Thread where
  memory : Memory
  /-- The registers of all running functions. -/
  stack : Array Value
  /-- The end of the values that the last call gave, if all of them were wanted. -/
  top : Nat
  /-- The registers whose variables inner functions use, the last ones first, and the
  cells of those variables. -/
  shared : List (Nat × Nat)
  frame : Frame
  /-- Innermost first. -/
  callers : List Caller

/-- What a step of running code leads to. -/
inductive Progress
  | going (t : Thread)
  | ended (results : List Value) (memory : Memory)
  | failed (fault : Fault) (memory : Memory)

/-! ## Places -/

/-- The place of the instruction that a function is at, as messages begin with it. -/
def Frame.site (f : Frame) : Bytes :=
  let p := f.function.prototype
  p.chunk ++ Utf8.encode (":" ++ toString (p.lines[f.next - 1]?.getD 0) ++ ": ")

/-- The place of a caller, counted from the innermost one, in messages. The loading of
a module is a caller of its own, which has no place. -/
def Caller.site : List Caller → (level : Nat) → Bytes
  | [], _ => []
  | ⟨frame, none⟩ :: rest, level =>
    match level with
    | 0 => frame.site
    | level + 1 => site rest level
  | ⟨frame, some _⟩ :: rest, level =>
    match level with
    | 0 => []
    | 1 => frame.site
    | level + 2 => site rest level

namespace Thread

/-- The place of the innermost call (level one) or of one around it. -/
def site (t : Thread) (level : Nat) : Bytes :=
  match level with
  | 0 => []
  | 1 => t.frame.site
  | level + 2 => Caller.site t.callers level

/-! ## Registers -/

/-- The value at a place in the row of registers. -/
def at_ (t : Thread) (slot : Nat) : Value := t.stack[slot]?.getD .nil

/-- The value of a register. -/
def register (t : Thread) (r : Nat) : Value := t.at_ (t.frame.base + r)

/-- Set a register. -/
def setRegister (t : Thread) (r : Nat) (value : Value) : Thread :=
  { t with stack := t.stack.setIfInBounds (t.frame.base + r) value }

/-- Put values in registers, from one place on. -/
def putAll (t : Thread) (slot : Nat) : List Value → Thread
  | [] => t
  | value :: rest => { t with stack := t.stack.setIfInBounds slot value }.putAll (slot + 1) rest

/-- Values from one place on. -/
def values (t : Thread) (slot count : Nat) : List Value :=
  (List.range' slot count).map t.at_

/-- The value of an operand, and where it is. -/
def operand (t : Thread) : Operand → Sourced
  | .register r => ⟨t.register r, .register r⟩
  | .constant value => ⟨value, .unknown⟩

/-- A row of registers with room for more. -/
def grown : (more : Nat) → Array Value → Array Value
  | 0, stack => stack
  | more + 1, stack => grown more (stack.push .nil)

/-- The state with registers up to a place. -/
def reserve (t : Thread) (size : Nat) : Thread :=
  { t with stack := grown (size - t.stack.size) t.stack }

/-! ## Variables from outside -/

/-- The value of a variable that functions have from outside. -/
def cell (t : Thread) (i : Nat) : Value :=
  match t.memory.cells[i]? with
  | some (.onStack slot) => t.at_ slot
  | some (.held value) => value
  | none => .nil

/-- Set a variable that functions have from outside. -/
def setCell (t : Thread) (i : Nat) (value : Value) : Thread :=
  match t.memory.cells[i]? with
  | some (.onStack slot) => { t with stack := t.stack.setIfInBounds slot value }
  | _ => { t with memory.cells := t.memory.cells.setIfInBounds i (.held value) }

/-- The cell of a variable that the running function has from outside. -/
def outerCell (t : Thread) (i : Nat) : Nat := t.frame.function.captured[i]?.getD 0

/-- The value of a variable that the running function has from outside. -/
def outer (t : Thread) (i : Nat) : Value := t.cell (t.outerCell i)

/-- Set a variable that the running function has from outside. -/
def setOuter (t : Thread) (i : Nat) (value : Value) : Thread := t.setCell (t.outerCell i) value

/-- Registers that are shared, with one more. -/
def withShared (slot i : Nat) : List (Nat × Nat) → List (Nat × Nat)
  | [] => [(slot, i)]
  | entry :: rest =>
    if entry.1 < slot then (slot, i) :: entry :: rest else entry :: withShared slot i rest

/-- The cell of the variable at a place among shared registers, if it is one of them. -/
def sharedCell? (slot : Nat) : List (Nat × Nat) → Option Nat
  | [] => none
  | entry :: rest =>
    if slot < entry.1 then sharedCell? slot rest
    else if entry.1 = slot then some entry.2 else none

/-- The cell of the variable in a register; from now on the register is shared. -/
def share (t : Thread) (r : Nat) : Nat × Thread :=
  let slot := t.frame.base + r
  match sharedCell? slot t.shared with
  | some i => (i, t)
  | none =>
    let (i, memory) := t.memory.addCell (.onStack slot)
    (i, { t with memory, shared := withShared slot i t.shared })

/-- The cells of the captures of a function that is made by the running one. -/
def shareAll (t : Thread) : List Capture → List Nat × Thread
  | [] => ([], t)
  | c :: rest =>
    let (i, t) := if c.isLocal then t.share c.index else (t.outerCell c.index, t)
    let (more, t) := t.shareAll rest
    (i :: more, t)

/-- Give the variables in shared registers from one place on a place of their own. -/
def close (slot : Nat) (t : Thread) : Thread := go t t.shared
where
  /-- Close the variables one by one. -/
  go (t : Thread) : List (Nat × Nat) → Thread
    | [] => { t with shared := [] }
    | (at_, i) :: rest =>
      if slot ≤ at_ then
        let value := t.at_ at_
        go { t with memory.cells := t.memory.cells.setIfInBounds i (.held value) } rest
      else { t with shared := (at_, i) :: rest }

/-! ## Failing -/

/-- Stop with a fault. -/
def fail (t : Thread) (fault : Fault) : Progress := .failed fault (t.close 0).memory

/-- Stop with an error of the language, without a place. -/
def raiseBare (t : Thread) (message : Bytes) : Progress := t.fail (.raised (.str message))

/-- Stop with an error of the language at the current instruction. -/
def raise (t : Thread) (message : Bytes) : Progress := t.raiseBare (t.frame.site ++ message)

/-- What a value is, as it ends a message. -/
def note (t : Thread) (origin : Origin) : Bytes :=
  t.frame.function.prototype.note (t.frame.next - 1) origin

/-- Stop because an operation failed. -/
def stop (t : Thread) : Trouble → Progress
  | .unfit verb on =>
    t.raise (Utf8.encode s!"attempt to {verb} a {on.value.shownType} value" ++ t.note on.origin)
  | .error message => t.raise (Utf8.encode message)
  | .inner message => t.raiseBare (Utf8.encode message)
  | .refused message => t.fail (.refused message)

/-! ## Going on -/

/-- Leave out the next instruction. -/
def skip (t : Thread) : Thread := { t with frame.next := t.frame.next + 1 }

/-- Go on with another instruction. -/
def jump (t : Thread) (target : Nat) : Thread := { t with frame.next := target }

/-- Go on with the next instruction if a test came out well, else leave it out. -/
def test (t : Thread) (well : Bool) : Progress := .going (if well then t else t.skip)

/-- Go on with the result of an operation in a register. -/
def settle (t : Thread) (dest : Nat) (result : Except Trouble Value) : Progress :=
  match result with
  | .ok value => .going (t.setRegister dest value)
  | .error trouble => t.stop trouble

/-- Put so many values, or all, where results are wanted. Missing ones are nil. -/
def deliver (t : Thread) (home : Nat) (wanted : Option Nat) (results : List Value) : Thread :=
  match wanted with
  | some n => t.putAll home (results.take n ++ List.replicate (n - results.length) .nil)
  | none =>
    let top := home + results.length
    { (t.reserve top).putAll home results with top := top }

end Thread

end ScpiScript.Lua
