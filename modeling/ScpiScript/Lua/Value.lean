import ScpiScript.Lua.Number
import ScpiScript.Text.Utf8
/-!
# Values of the language

Numbers, texts and truth values are values of their own; tables, vectors and
functions are known by where they stand in the engine's memory.

- `Value` is a value, `Builtin` a function that the engine provides.
- `Value.toNumber?` and `Value.toBytes?` are the conversions that operators and
  functions make of their operands.
-/

namespace ScpiScript.Lua

/-- Where a module is looked for. -/
inductive Searcher
  /-- Among the functions that were put aside for it. -/
  | preloaded
  /-- Among files of code. -/
  | files
  /-- Among compiled files, of which none is ever loaded. -/
  | compiled
  deriving DecidableEq, Repr

/-- A function that the engine provides. -/
inductive Builtin
  | error
  | tostring
  | require
  | exit
  /-- Make an empty vector. -/
  | newVector
  /-- Put a sample at the end of a vector. -/
  | add
  /-- Take all samples from a vector. -/
  | clear
  | command
  | query
  | sendBlock
  | sendFloats
  | sendParameter
  | searcher (place : Searcher)
  /-- A function of the standard library that can be named but not called. -/
  | library (name : String)
  deriving DecidableEq, Repr

/-- A value. -/
inductive Value
  | nil
  | bool (b : Bool)
  | number (n : Number)
  | str (bytes : Bytes)
  | table (at_ : Nat)
  | vector (at_ : Nat)
  /-- The handle of the instrument. -/
  | instrument
  /-- One of the three standard streams. -/
  | stream (name : String)
  | closure (at_ : Nat)
  | builtin (f : Builtin)
  deriving DecidableEq, Repr, Inhabited

namespace Value

/-- The text as a value. -/
def ofText (text : String) : Value := str (Utf8.encode text)

/-- The integer as a value. -/
def ofNat (n : Nat) : Value := number (.int (Int64.ofInt n))

/-- Every value but nil and false counts as true. -/
def isTrue : Value → Bool
  | nil => false
  | bool b => b
  | _ => true

/-- The name of a value's type. -/
def typeName : Value → String
  | nil => "nil"
  | bool _ => "boolean"
  | number _ => "number"
  | str _ => "string"
  | table _ => "table"
  | vector _ => "userdata"
  | instrument => "userdata"
  | stream _ => "userdata"
  | closure _ => "function"
  | builtin _ => "function"

/-- The name of a value's type in the language's own messages; the types of objects
that are none of the language's have names of their own. -/
def shownType : Value → String
  | vector _ => "FloatList"
  | instrument => "InstrumentHandle"
  | stream _ => "FILE*"
  | v => v.typeName

/-- The name of a value's kind in messages of the scope and of the instrument's
functions. -/
def kind : Value → String
  | number (.int _) => "integer"
  | v => v.typeName

/-- The bytes of a text as characters. -/
def chars (bytes : Bytes) : List Char := bytes.map fun b => Char.ofNat b.toNat

/-- The number that an operand of arithmetic counts as: a number, or a text that
holds one. -/
def toNumber? : Value → Option Number
  | number n => some n
  | str bytes => Number.ofText? (chars bytes)
  | _ => none

/-- The bytes that an operand of concatenation counts as. -/
def toBytes? : Value → Option Bytes
  | str bytes => some bytes
  | number n => some (Utf8.encode n.text)
  | _ => none

/-- Two values are equal: numbers by value, all others by identity. -/
def equal : Value → Value → Bool
  | number a, number b => a.compare? b == some .eq
  | a, b => a == b

/-- The key under which a table keeps a value's entries: an integral number is the
same key as the integer. -/
def asKey : Value → Value
  | number n =>
    match n.toInt? with
    | some i => number (.int i)
    | none => number n
  | v => v

end Value

end ScpiScript.Lua
