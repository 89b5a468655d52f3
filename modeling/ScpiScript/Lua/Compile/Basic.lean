import ScpiScript.Lua.Code
import ScpiScript.Lua.Token
/-!
# Making code

Code is made in one pass over the lexemes: each part is turned into instructions as
soon as it is read. Instructions get the line of the lexeme that was taken last.

- `Cursor` is a place among the lexemes, `Draft` a function that is being made.
- `Compiler` is a part of the pass. It ends in a `LoadError` where the code is none.
-/

namespace ScpiScript.Lua

/-- What is wrong with code, and the line where that shows. -/
structure Diagnostic where
  line : Nat
  text : Bytes
  deriving DecidableEq, Repr

/-- Why code cannot be loaded. -/
inductive LoadError
  | malformed (diagnostic : Diagnostic)
  /-- Its parts are nested too deeply. -/
  | tooDeep
  deriving DecidableEq, Repr

/-- The message for a load error in the chunk with a name. -/
def LoadError.message (chunk : Bytes) : LoadError → Bytes
  | malformed d => chunk ++ Utf8.encode (":" ++ toString d.line ++ ": ") ++ d.text
  | tooDeep => Utf8.encode "C stack overflow"

/-- A place among the lexemes of some code. -/
structure Cursor where
  current : Lexeme
  /-- The lexemes behind the current one. -/
  ahead : List Lexeme
  /-- The first lexeme ahead was looked at. -/
  looked : Bool
  /-- The line of the lexeme that was looked at last. -/
  line : Nat
  /-- That line when the last lexeme was taken. -/
  takenLine : Nat

/-- A block that is being read. -/
structure BlockScope where
  /-- How many variables can be seen around it. -/
  around : Nat
  /-- A function in it uses one of its variables. -/
  captured : Bool
  isLoop : Bool

/-- A function that is being made. -/
structure Draft where
  /-- The line that it begins in; zero for a whole chunk. -/
  line : Nat
  code : Array Instruction
  lines : Array Nat
  constants : Array Value
  inner : Array Prototype
  captures : Array Capture
  allVariables : Array Variable
  /-- The local variables that can be seen, in the order of their registers: names, and
  numbers among all variables. -/
  locals : Array (String × Nat)
  /-- The names of local variables that cannot be seen yet. -/
  declared : List String
  /-- The blocks around the place that is read, innermost first. -/
  blocks : List BlockScope
  /-- The first register that holds nothing. -/
  free : Nat
  /-- How many registers are used. -/
  size : Nat
  /-- The last place that a jump may lead to. -/
  lastTarget : Nat

/-- The state of a pass over code. -/
structure Compilation where
  chunk : Bytes
  /-- More than the number of lexemes of the code. -/
  bound : Nat
  cursor : Cursor
  draft : Draft
  /-- The functions around the one that is being made, innermost first. -/
  outer : List Draft

/-- A part of a pass over code. -/
abbrev Compiler := StateT Compilation (Except LoadError)

/-! ## Cursors and drafts -/

/-- The error at a lexeme, for a reason. -/
def LoadError.near (reason : String) (line : Nat) (lexeme : Lexeme) : LoadError :=
  .malformed ⟨line, Utf8.encode reason ++ lexeme.near⟩

namespace Cursor

/-- The cursor after a look at a lexeme, which has to be a token. -/
def seeing (lexeme : Lexeme) (c : Cursor) : Except LoadError Cursor :=
  match lexeme.token with
  | .malformed reason => .error (.near reason lexeme.line lexeme)
  | .unfinished reason => .error (.near reason lexeme.line lexeme)
  | _ => .ok c

/-- The cursor behind the current lexeme. -/
def next (c : Cursor) : Except LoadError Cursor :=
  match c.ahead with
  | [] => .ok { c with takenLine := c.line, looked := false }
  | lexeme :: ahead =>
    if c.looked then .ok ⟨lexeme, ahead, false, c.line, c.line⟩
    else seeing lexeme ⟨lexeme, ahead, false, lexeme.line, c.line⟩

/-- The cursor after a look at the lexeme behind the current one. -/
def look (c : Cursor) : Except LoadError Cursor :=
  match c.ahead with
  | [] => .ok c
  | lexeme :: _ => seeing lexeme { c with looked := true, line := lexeme.line }

end Cursor

/-- The function that is being made before any of it was read. -/
def Draft.empty (line : Nat) : Draft where
  line := line
  code := #[]
  lines := #[]
  constants := #[]
  inner := #[]
  captures := #[]
  allVariables := #[]
  locals := #[]
  declared := []
  blocks := [⟨0, false, false⟩]
  free := 0
  size := 2
  lastTarget := 0

namespace Compiler

/-! ## Reading -/

/-- Fail at the current lexeme. -/
def fail {α : Type} (reason : String) : Compiler α := do
  let c := (← get).cursor
  throw (.near reason c.line c.current)

/-- Change the cursor. -/
def moveCursor (f : Cursor → Except LoadError Cursor) : Compiler Unit := do
  let s ← get
  set { s with cursor := ← f s.cursor }

/-- Take the current lexeme. -/
def advance : Compiler Unit := moveCursor Cursor.next

/-- The current token. -/
def current : Compiler Token := do
  return (← get).cursor.current.token

/-- The line that was read up to. -/
def currentLine : Compiler Nat := do
  return (← get).cursor.line

/-- More than the number of lexemes that are left. -/
def remaining : Compiler Nat := do
  return (← get).bound

/-- The current token is a symbol. -/
def sees (symbol : String) : Compiler Bool := do
  return (← current) == .symbol symbol

/-- Take a symbol if it is the current token. -/
def accept (symbol : String) : Compiler Bool := do
  if ← sees symbol then
    advance
    return true
  else return false

/-- Take a symbol, which has to be the current token. -/
def expect (symbol : String) : Compiler Unit := do
  if !(← accept symbol) then fail ("'" ++ symbol ++ "' expected")

/-- Take the symbol that closes what another one opened in some line. -/
def expectClose (symbol opening : String) (line : Nat) : Compiler Unit := do
  if !(← accept symbol) then
    if (← currentLine) = line then fail ("'" ++ symbol ++ "' expected")
    else fail (s!"'{symbol}' expected (to close '{opening}' at line " ++ toString line ++ ")")

/-- Take a name, which has to be the current token. -/
def expectName : Compiler String := do
  match ← current with
  | .name text =>
    advance
    return text
  | _ => fail "<name> expected"

/-! ## The function being made -/

/-- The function that is being made. -/
def draft : Compiler Draft := do
  return (← get).draft

/-- Change the function that is being made. -/
def modifyDraft (f : Draft → Draft) : Compiler Unit :=
  modify fun s => { s with draft := f s.draft }

/-- Fail because there is too much of something in a function that begins in a line. -/
def limitReached {α : Type} (line limit : Nat) (what : String) : Compiler α :=
  let place := if line = 0 then "main function" else "function at line " ++ toString line
  fail ("too many " ++ what ++ " (limit is " ++ toString limit ++ ") in " ++ place)

end Compiler

end ScpiScript.Lua
