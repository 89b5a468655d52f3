import ScpiScript.Lua.Compile.Basic
/-!
# Instructions and registers

- `emit` adds an instruction, `emitJump` a jump whose target is not known yet, and
  `patch` gives jumps their targets.
- `reserve` and `release` take registers for values of unfinished expressions and
  give them back, last taken first.
- `constantIndex` is the number of a constant of the function.
-/

namespace ScpiScript.Lua.Compiler

/-! ## Instructions -/

/-- How many instructions there are. -/
def position : Compiler Nat := do
  return (← draft).code.size

/-- Add an instruction, which gets the line of the last lexeme taken. -/
def emit (i : Instruction) : Compiler Nat := do
  let at_ ← position
  let line := (← get).cursor.takenLine
  modifyDraft fun d => { d with code := d.code.push i, lines := d.lines.push line }
  return at_

/-- Add an instruction whose number is not needed. -/
def perform (i : Instruction) : Compiler Unit := do
  let _ ← emit i

/-- Give the last instruction another line. -/
def setLine (line : Nat) : Compiler Unit :=
  modifyDraft fun d => { d with lines := d.lines.setIfInBounds (d.lines.size - 1) line }

/-- Change an instruction. -/
def change (at_ : Nat) (f : Instruction → Instruction) : Compiler Unit :=
  modifyDraft fun d => { d with code := d.code.modify at_ f }

/-- An instruction. -/
def instruction? (at_ : Nat) : Compiler (Option Instruction) := do
  return (← draft).code[at_]?

/-- The last instruction, unless a jump leads behind it. -/
def previous? : Compiler (Option Instruction) := do
  let d ← draft
  if d.lastTarget < d.code.size then return d.code[d.code.size - 1]? else return none

/-- Change the last instruction. -/
def changePrevious (f : Instruction → Instruction) : Compiler Unit := do
  change ((← position) - 1) f

/-- Take the last instruction away. -/
def removePrevious : Compiler Unit :=
  modifyDraft fun d => { d with code := d.code.pop, lines := d.lines.pop }

/-! ## Jumps -/

/-- The place behind the last instruction, to which a jump may lead. -/
def here : Compiler Nat := do
  let at_ ← position
  modifyDraft fun d => { d with lastTarget := at_ }
  return at_

/-- Add a jump. -/
def emitJump : Compiler Nat := emit (.jump 0)

/-- The place of the test that decides whether a jump is made, if there is one. -/
def control (at_ : Nat) : Compiler Nat := do
  match ← instruction? (at_ - 1) with
  | some (.testEqual _ _ _) | some (.testOrder _ _ _ _) => return at_ - 1
  | some (.test _ _) | some (.testSet _ _ _) => return at_ - 1
  | _ => return at_

/-- The jump carries no value of its own: it does not belong to a test that sets a
register. -/
def isBare (at_ : Nat) : Compiler Bool := do
  match ← instruction? (← control at_) with
  | some (.testSet _ _ _) => return false
  | _ => return true

/-- Let the test of a jump set a register, or none; the result tells whether it is a
test that can. -/
def aim (dest : Option Nat) (at_ : Nat) : Compiler Bool := do
  let place ← control at_
  match ← instruction? place with
  | some (.testSet _ source on) =>
    match dest with
    | some r =>
      if r = source then change place fun _ => .test source on
      else change place (Instruction.into r)
    | none => change place fun _ => .test source on
    return true
  | _ => return false

/-- Give jumps their targets: one for those whose tests set a register, and another
one for the rest. -/
def patch (dest : Option Nat) (target other : Nat) : List Nat → Compiler Unit
  | [] => return
  | at_ :: rest => do
    let carries ← aim dest at_
    change at_ (Instruction.toward (if carries then target else other))
    patch dest target other rest

/-- Let jumps lead behind the last instruction. -/
def patchHere (jumps : List Nat) : Compiler Unit := do
  let at_ ← here
  patch none at_ at_ jumps

/-! ## Registers -/

/-- The number of registers that hold local variables. -/
def localCount : Compiler Nat := do
  return (← draft).locals.size

/-- How many registers a function can have. -/
def registerLimit : Nat := 254

/-- Take registers. -/
def reserve (n : Nat) : Compiler Unit := do
  let d ← draft
  if registerLimit < d.free + n && d.size < d.free + n then
    fail "function or expression needs too many registers"
  modifyDraft fun d => { d with free := d.free + n, size := max d.size (d.free + n) }

/-- Give a register back, unless it holds a local variable. -/
def release (r : Nat) : Compiler Unit :=
  modifyDraft fun d => if d.locals.size ≤ r then { d with free := d.free - 1 } else d

/-- Give two registers back. -/
def releaseBoth (r other : Nat) : Compiler Unit := do
  release r
  release other

/-! ## Constants -/

/-- How many constants an operand can name. -/
def constantLimit : Nat := 256

/-- The number of a constant, which is added if it is new. -/
def constantIndex (value : Value) : Compiler Nat := do
  let d ← draft
  match d.constants.findIdx? (· == value) with
  | some i => return i
  | none =>
    modifyDraft fun d => { d with constants := d.constants.push value }
    return d.constants.size

/-- A constant by its number. -/
def constant (i : Nat) : Compiler Value := do
  return (← draft).constants[i]?.getD .nil

/-- Set registers to nil, together with those that the last instruction sets to nil
if they lie side by side. -/
def emitNil (first count : Nat) : Compiler Unit := do
  let last := first + count - 1
  match ← previous? with
  | some (.loadNil low high) =>
    if (low ≤ first && first ≤ high + 1) || (first ≤ low && low ≤ last + 1) then
      changePrevious fun _ => .loadNil (min low first) (max high last)
    else perform (.loadNil first last)
  | _ => perform (.loadNil first last)

end ScpiScript.Lua.Compiler
