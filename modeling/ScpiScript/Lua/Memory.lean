import ScpiScript.Engine.Basic
import ScpiScript.Lua.Code
import ScpiScript.Lua.FloatList
import ScpiScript.Source.FileTree
/-!
# The state of the language

- `Memory` holds all that values refer to. Global variables are a table.
- `LuaM` is what a function of the engine does: it changes the memory, may ask the
  instrument, and ends in a result or in a `Fault`. What was done before a fault is
  kept.
-/

namespace ScpiScript.Lua

/-- A variable that several functions can see. -/
inductive Cell
  /-- The block of the variable goes on, and its value is among the registers. -/
  | onStack (slot : Nat)
  | held (value : Value)
  deriving DecidableEq, Repr, Inhabited

/-- A function with the variables that it has from outside. -/
structure Closure where
  prototype : Prototype
  /-- Where the variables of its captures are. -/
  captured : Array Nat
  deriving Repr, Inhabited

/-- Why code stopped. -/
inductive Fault
  /-- An error of the language, or one that code raised. -/
  | raised (value : Value)
  /-- A function of the program refused its arguments. -/
  | refused (message : String)
  | instrument (cause : InstrumentError)
  | exit (message : String)
  deriving Repr

/-- All that values refer to. -/
structure Memory where
  /-- The first table holds the global variables. -/
  tables : Array Table
  vectors : Array FloatList
  /-- The variables that functions have from outside. -/
  cells : Array Cell
  closures : Array Closure
  /-- The files that modules are read from. -/
  files : FileTree

namespace Memory

/-- The table of the global variables. -/
def globalTable : Nat := 0

/-- A table. -/
def table (m : Memory) (i : Nat) : Table := m.tables[i]?.getD .empty

/-- Change a table. -/
def modifyTable (m : Memory) (i : Nat) (f : Table → Table) : Memory :=
  { m with tables := m.tables.modify i f }

/-- Add a table. -/
def addTable (m : Memory) (t : Table) : Value × Memory :=
  (.table m.tables.size, { m with tables := m.tables.push t })

/-- A vector. -/
def vector (m : Memory) (i : Nat) : FloatList := m.vectors[i]?.getD #[]

/-- Change a vector. -/
def modifyVector (m : Memory) (i : Nat) (f : FloatList → FloatList) : Memory :=
  { m with vectors := m.vectors.modify i f }

/-- Add a vector. -/
def addVector (m : Memory) (v : FloatList) : Value × Memory :=
  (.vector m.vectors.size, { m with vectors := m.vectors.push v })

/-- Add a variable that functions have from outside. -/
def addCell (m : Memory) (cell : Cell) : Nat × Memory :=
  (m.cells.size, { m with cells := m.cells.push cell })

/-- Add a function. -/
def addClosure (m : Memory) (c : Closure) : Value × Memory :=
  (.closure m.closures.size, { m with closures := m.closures.push c })

/-- The samples of a vector, or of a table that stands for one. -/
def samples? (m : Memory) : Value → Option (List Binary32)
  | .vector i => some (m.vector i).toList
  | .table i => (m.table i).samples?
  | _ => none

/-- The memory after a value was asked for samples. -/
def sampled (m : Memory) : Value → Memory
  | .table i => m.modifyTable i Table.sampled
  | _ => m

/-- The value of a global variable. -/
def global (m : Memory) (name : String) : Value := (m.table globalTable).get (.ofText name)

/-- Set a global variable. -/
def setGlobal (m : Memory) (name : String) (value : Value) : Memory :=
  m.modifyTable globalTable fun t => t.set (.ofText name) value

end Memory

/-- What a function of the engine does. -/
abbrev LuaM := ExceptT Fault (StateT Memory Dialogue)

namespace LuaM

/-- Ask the instrument. -/
def inquire (request : Request) : LuaM request.Answer :=
  ExceptT.lift (StateT.lift (Dialogue.inquire request))

/-- Ask the instrument for something that can fail. -/
def demand {α : Type} (answer : LuaM (Except InstrumentError α)) : LuaM α := do
  match ← answer with
  | .ok a => return a
  | .error e => throw (.instrument e)

/-- Add something to the memory. -/
def add {α : Type} (f : Memory → α × Memory) : LuaM α := modifyGet f

end LuaM

end ScpiScript.Lua
