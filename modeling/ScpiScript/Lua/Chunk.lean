import ScpiScript.Lua.Compile.Statement
/-!
# Chunks

A chunk is a piece of code that is run as a function of its own. The only variable
that it has from outside is the one whose fields are the global variables.

- `Chunk.read` turns code into a function.
-/

namespace ScpiScript.Lua.Chunk

open Compiler

/-- How many parts of code can be nested in each other, together with the calls that
are running on the engine's own stack. -/
def nestingLimit : Nat := 199

/-- A whole chunk: statements, and nothing behind them. -/
def whole (levels : Nat) : Compiler Prototype := do
  advance
  statements (nestedAt levels) (← remaining)
  match ← current with
  | .ending => finish 0
  | _ => fail "'<eof>' expected"

/-- The draft of a chunk before any of it was read. -/
def draft : Draft :=
  { Draft.empty 0 with captures := #[⟨environmentName, true, 0⟩] }

/-- The function that some code is, in a chunk with a name. `depth` is how many calls
are running on the engine's own stack. -/
def read (chunk : Bytes) (code : Bytes) (depth : Nat) : Except LoadError Prototype :=
  let lexemes := Token.lexemes code
  let cursor : Cursor := ⟨⟨.ending, 1, []⟩, lexemes, false, 1, 1⟩
  ((whole (nestingLimit - depth)).run ⟨chunk, lexemes.length + 2, cursor, draft, []⟩).map
    Prod.fst

end ScpiScript.Lua.Chunk
