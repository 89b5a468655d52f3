import ScpiScript.Lua.Value
/-!
# Code

A function is a row of instructions that work on registers. Its local variables are
its first registers, and the values of unfinished expressions stand behind them.

- `Instruction` is one step of a function, and `Operand` what some of them work on.
- `Prototype` is a function as it was written: its instructions, with the line of
  each, and the names of its variables, for messages.
-/

namespace ScpiScript.Lua

/-- What an instruction works on. -/
inductive Operand
  | register (r : Nat)
  | constant (value : Value)
  deriving DecidableEq, Repr

/-- A comparison of two values. One that is turned around has its operands changed
over. -/
inductive Comparison
  | less
  | lessOrEqual
  deriving DecidableEq, Repr

/-- A step of a function. A register `dest` is the one that it sets; `object` holds what
is indexed, and `index` counts the variables of enclosing functions. -/
inductive Instruction
  | move (dest source : Nat)
  | load (dest : Nat) (value : Value)
  /-- Set a register to false and leave out the next instruction. -/
  | loadFalse (dest : Nat)
  /-- Set the registers from the first to the last one to nil. -/
  | loadNil (first last : Nat)
  | readOuter (dest index : Nat)
  | writeOuter (index source : Nat)
  | readOuterField (dest index : Nat) (key : Bytes)
  | readField (dest object : Nat) (key : Bytes)
  | readPosition (dest object i : Nat)
  | readKey (dest object key : Nat)
  | writeOuterField (index : Nat) (key : Bytes) (value : Operand)
  | writeField (object : Nat) (key : Bytes) (value : Operand)
  | writePosition (object i : Nat) (value : Operand)
  | writeKey (object key : Nat) (value : Operand)
  /-- Set a register to a function of an object, and the next one to the object. -/
  | readMethod (dest object : Nat) (key : Operand)
  | newTable (dest slots others : Nat)
  /-- Put the values behind a register into its table, under the keys behind a number;
  all of them, where there is no count. -/
  | fillTable (object : Nat) (count : Option Nat) (before : Nat)
  | arithmetic (op : ArithmeticOp) (dest : Nat) (left right : Operand)
  /-- Subtract a small integer by adding its opposite. -/
  | addOpposite (dest source : Nat) (i : Int64)
  | negate (dest source : Nat)
  | not (dest source : Nat)
  | length (dest source : Nat)
  /-- Join the texts in some registers in the first one. -/
  | concat (first count : Nat)
  /-- Give the variables from a register on, which end here, a place of their own. -/
  | close (first : Nat)
  | jump (target : Nat)
  /-- Leave out the next instruction if two values are not equal, or, without `on`,
  if they are. -/
  | testEqual (left : Nat) (right : Operand) (on : Bool)
  /-- Leave out the next instruction if a comparison is not as `on` says. -/
  | testOrder (c : Comparison) (left right : Operand) (on : Bool)
  /-- Leave out the next instruction if a register does not count as `on` says. -/
  | test (source : Nat) (on : Bool)
  /-- As `test`; if the next instruction is not left out, set a register. -/
  | testSet (dest source : Nat) (on : Bool)
  /-- Call the function in a register with the values behind it. Where there is no
  count, all values behind it are arguments, or all results are wanted. -/
  | call (f : Nat) (arguments results : Option Nat)
  /-- Leave the function with the results of a call. -/
  | leaveBy (f : Nat) (arguments : Option Nat)
  /-- Leave the function with the values from a register on. -/
  | leave (first : Nat) (count : Option Nat)
  /-- Begin a loop, whose bounds are in three registers, or go on behind it. -/
  | enterLoop (bounds target : Nat)
  /-- Go back for another round of a loop, if there is one. -/
  | repeatLoop (bounds target : Nat)
  | makeFunction (dest index : Nat)
  deriving DecidableEq, Repr

namespace Instruction

/-- The instruction with another register set. -/
def into (r : Nat) : Instruction → Instruction
  | move _ source => move r source
  | load _ value => load r value
  | loadFalse _ => loadFalse r
  | readOuter _ index => readOuter r index
  | readOuterField _ index key => readOuterField r index key
  | readField _ object key => readField r object key
  | readPosition _ object i => readPosition r object i
  | readKey _ object key => readKey r object key
  | arithmetic op _ left right => arithmetic op r left right
  | addOpposite _ source i => addOpposite r source i
  | negate _ source => negate r source
  | not _ source => not r source
  | length _ source => length r source
  | testSet _ source on => testSet r source on
  | makeFunction _ index => makeFunction r index
  | other => other

/-- The instruction with another target. -/
def toward (target : Nat) : Instruction → Instruction
  | jump _ => jump target
  | enterLoop bounds _ => enterLoop bounds target
  | repeatLoop bounds _ => repeatLoop bounds target
  | other => other

/-- The test with the opposite outcome. -/
def opposite : Instruction → Instruction
  | testEqual left right on => testEqual left right (!on)
  | testOrder c left right on => testOrder c left right (!on)
  | test source on => test source (!on)
  | testSet dest source on => testSet dest source (!on)
  | other => other

/-- The instruction sets a register, so far as its own operands tell. A call sets all
registers from its function on. -/
def sets (r : Nat) : Instruction → Bool
  | move dest _ | load dest _ | loadFalse dest => dest = r
  | loadNil first last => first ≤ r && r ≤ last
  | readOuter dest _ | readOuterField dest _ _ | readField dest _ _ => dest = r
  | readPosition dest _ _ | readKey dest _ _ | readMethod dest _ _ => dest = r
  | newTable dest _ _ | arithmetic _ dest _ _ | addOpposite dest _ _ => dest = r
  | negate dest _ | not dest _ | length dest _ | concat dest _ => dest = r
  | testSet dest _ _ | makeFunction dest _ => dest = r
  | enterLoop bounds _ | repeatLoop bounds _ => bounds = r
  | call f _ _ | leaveBy f _ => f ≤ r
  | _ => false

end Instruction

/-- The variable whose fields are the global variables. -/
def environmentName : String := "_ENV"

/-- A local variable, and the instructions from which and before which it can be
seen. -/
structure Variable where
  name : String
  start : Nat
  stop : Nat
  deriving DecidableEq, Repr, Inhabited

/-- A variable of an enclosing function. -/
structure Capture where
  name : String
  /-- It is a register of the function right around; else that function has it from
  outside itself. -/
  isLocal : Bool
  /-- The number of the register, or among that function's own captures. -/
  index : Nat
  deriving DecidableEq, Repr

/-- A function as it was written. -/
structure Prototype where
  /-- The name of its chunk in messages. -/
  chunk : Bytes
  code : Array Instruction
  /-- The line of each instruction. -/
  lines : Array Nat
  /-- The functions written in it. -/
  inner : Array Prototype
  captures : Array Capture
  /-- Its variables, in the order in which they begin. -/
  allVariables : Array Variable
  parameters : Nat
  /-- How many registers it uses. -/
  size : Nat
  deriving Repr, Inhabited

end ScpiScript.Lua
