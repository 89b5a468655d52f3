import ScpiScript.Engine.Basic
import ScpiScript.Lua.Execution
import ScpiScript.Text.Blank
import ScpiScript.Text.Digit
/-!
# The engine of the language

The scope of the engine is its global variables, and code runs against them, so that
what one piece of code assigns another can read.

- `Machine` is the engine, and its `Engine` instance how scripts use it.
- `codeLine` finds the line of an error in its text.
- `Machine.evaluate` gives the value of an expression, and `resultText` writes it.
-/

namespace ScpiScript.Lua

/-- A state of the language as a script engine. -/
structure Machine where
  memory : Memory

namespace Machine

/-! ## The scope -/

/-- The value that a name of the scope has. -/
def scopeValue (m : Memory) (value : Value) : Option ScopeValue :=
  match m.samples? value with
  | some samples => some (.vector samples)
  | none =>
    match value with
    | .nil => none
    | .bool b => some (.text (if b then "true" else "false"))
    | .number n => some (.number n.toFloat)
    | .str bytes => some (.text (Utf8.decodeLossy bytes))
    | other => some (.foreign other.kind)

/-- The memory with a name of the scope bound to a value. -/
def bind (m : Memory) (name : String) (value : ScopeValue) : Except ScopeError Memory :=
  match value with
  | .text s => .ok (m.setGlobal name (.ofText s))
  | .number x => .ok (m.setGlobal name (.number (.float x)))
  | .vector samples =>
    let (v, m) := m.addVector samples.toArray
    .ok (m.setGlobal name v)
  | .foreign kind => .error (.unassignable name kind)

/-! ## Errors -/

/-- The longest name of a chunk in messages, in bytes. -/
def longestName : Nat := 59

/-- The name of a chunk as messages show it: the beginning of a long one. -/
def shownName (chunk : String) : Bytes := (Utf8.encode chunk).take longestName

/-- The text behind the first occurrence of another. -/
def behind? (part : List Char) : List Char → Option (List Char)
  | [] => if part.isEmpty then some [] else none
  | c :: cs => if part.isPrefixOf (c :: cs) then some ((c :: cs).drop part.length)
    else behind? part cs

/-- The digits of the first number that stands between two colons. -/
def lineDigits? : List Char → Option (List Char)
  | [] => none
  | c :: cs =>
    let digits := cs.takeWhile Text.isDecimalDigit
    if c = ':' && !digits.isEmpty && (cs.drop digits.length).head? = some ':' then some digits
    else lineDigits? cs

/-- The largest line number that can be read. -/
def largestLine : Nat := UInt64.size - 1

/-- The line in the text of an error in the chunk with a name: the first number
between two colons behind the name, or in the whole text where the name is not in it;
one where there is none. -/
def codeLine (text chunk : String) : Nat :=
  let searched := match behind? (chunk.toList ++ [':']) text.toList with
    | some rest => ':' :: rest
    | none => text.toList
  ((lineDigits? searched).bind (Decimal.readUpTo? largestLine)).getD 1

/-- The error of code that cannot be read. -/
def loadError (code chunk : String) : LoadError → EvalError
  | e@(.malformed _) =>
    let line := codeLine (Utf8.decodeLossy (e.message (shownName chunk))) chunk
    .badCode line none (Text.trim code)
  | .tooDeep => .failure "runtime error: C stack overflow"

/-- The error that a fault is. A text raised by code ends at its first zero byte. -/
def evalError (m : Memory) : Fault → EvalError
  | .raised value =>
    .failure ("runtime error: " ++
      Utf8.decodeLossy ((displayText m value).takeWhile (· ≠ 0)))
  | .refused message => .failure ("runtime error: " ++ message ++ "\n")
  | .instrument cause => .failure (cause.message ++ "\n")
  | .exit message => .exit message

/-- The position of the first zero byte in the name of a chunk, counted from one. -/
def zeroByte? (chunk : String) : Option Nat :=
  ((Utf8.encode chunk).findIdx? (· = 0)).map (· + 1)

/-! ## Running code -/

/-- The function that some code is. -/
def read (code chunk : String) : Except EvalError Prototype :=
  (Chunk.read (shownName chunk) (Utf8.encode code) 0).mapError (loadError code chunk)

/-- Run a chunk, with the values that it returns. -/
def runChunk (m : Memory) (prototype : Prototype) :
    Dialogue (Except EvalError (List Value) × Machine) := do
  match ← Thread.run m prototype with
  | (.ok values, m) => return (.ok values, ⟨m⟩)
  | (.error fault, m) => return (.error (evalError m fault), ⟨m⟩)

/-- Run code. The name of a chunk must not hold a zero byte. -/
def execute (engine : Machine) (code chunk : String) :
    Dialogue (Except EvalError Unit × Machine) := do
  match zeroByte? chunk with
  | some i =>
    return (.error (.failure ("runtime error: invalid name: nul byte found in provided data " ++
      s!"at position: {i}")), engine)
  | none =>
    match read code chunk with
    | .error e => return (.error e, engine)
    | .ok prototype =>
      let (result, engine) ← runChunk engine.memory prototype
      return (result.map fun _ => (), engine)

instance : Engine Machine where
  lookup engine name := scopeValue engine.memory (engine.memory.global name)
  assign engine name value := (bind engine.memory name value).map Machine.mk
  execute := execute

/-- The value of an expression, or what a chunk returns. -/
def evaluate (engine : Machine) (code : String) :
    Dialogue (Except EvalError Value × Machine) := do
  let chunk := "eval"
  let expression := read ("return " ++ code) chunk
  match if expression.isOk then expression else read code chunk with
  | .error e => return (.error e, engine)
  | .ok prototype =>
    let (result, engine) ← runChunk engine.memory prototype
    return (result.map fun values => argument values 0, engine)

/-- The text of a number of a result, without an exponent and without a point where
the number is integral. -/
def resultNumber (x : Binary64) : String :=
  match x.datum with
  | .nan => "NaN"
  | .infinite negative => if negative then "-inf" else "inf"
  | .finite negative m e =>
    String.ofList ((if negative then ['-'] else []) ++
      (Decimal.shortest Binary.binary64 m e).positional)

/-- The text of a result. -/
def resultText (m : Memory) (value : Value) : String :=
  match value with
  | .number (.float x) => resultNumber x
  | other => Utf8.decodeLossy (displayText m other)

/-! ## The start -/

/-- The template of a module directory: a file of the module's name. -/
def moduleTemplate (directory : String) : String :=
  if directory = "" then "?.lua"
  else if directory.toList.getLast? = some '/' then directory ++ "?.lua"
  else directory ++ "/?.lua"

/-- The directories of a list between semicolons. -/
def directories (list : String) : List String :=
  ((list.toList.splitOn ';').filter (!·.isEmpty)).map String.ofList

/-- An engine at the start, with modules in these directories of some files. -/
def start (files : FileTree) (moduleDirectories : List String) : Machine :=
  let path := ";".intercalate (moduleDirectories.map moduleTemplate ++ [Module.standardPath])
  ⟨.initial files path⟩

end Machine

end ScpiScript.Lua
