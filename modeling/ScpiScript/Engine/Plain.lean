import ScpiScript.Engine.Basic
import ScpiScript.Scope.Store
import ScpiScript.Text.Blank
/-!
# Engines without a language

- A `Store` is an engine that runs no code.
- `Assigner` understands lines of the form `name = value` and three commands that
  end a block. It keeps the blocks it was given.
-/

namespace ScpiScript

/-- Without a language the scope still serves references, but no code runs. -/
instance : Engine Store where
  execute store _ _ := .done (.error (.failure "no script engine compiled in"), store)

/-- A piece of code handed to an engine, with its name in diagnostics. -/
structure CodeBlock where
  chunk : String
  code : String
  deriving DecidableEq, Repr

/-- An engine whose code is a list of assignments. -/
structure Assigner where
  store : Store
  /-- The code given to the engine so far, oldest first. -/
  received : List CodeBlock

namespace Assigner

/-- An engine with nothing in its scope. -/
def fresh : Assigner := ⟨.empty, []⟩

/-- The texts before and after the first character of a kind, which belongs to
neither; nothing when there is none. -/
def cut? (c : Char) (cs : List Char) : Option (List Char × List Char) :=
  match cs.dropWhile (· ≠ c) with
  | [] => none
  | _ :: rest => some (cs.takeWhile (· ≠ c), rest)

/-- Characters without the spaces at both ends. -/
def trimSpaces (cs : List Char) : List Char :=
  Text.dropWhileEnd (· == ' ') (cs.dropWhile (· == ' '))

/-- The lines of a code block. -/
def lines (code : List Char) : List (List Char) := code.splitOn '\n'

/-- The place that a command for bad code names: a line, and perhaps a column. -/
def place? (cs : List Char) : Option (Nat × Option Nat) :=
  match cut? ' ' cs with
  | none => (Decimal.read? cs).map fun line => (line, none)
  | some (line, column) =>
    match Decimal.read? line, Decimal.read? column with
    | some line, some column => some (line, some column)
    | _, _ => none

/-- How a line ends its block, if it does: `exit`, `fail` or `syntax`, and what
follows the space after it. -/
def stop? (code line : List Char) : Option EvalError :=
  let (word, rest) := (cut? ' ' line).getD (line, [])
  match String.ofList word with
  | "exit" => some (.exit (String.ofList rest))
  | "fail" => some (.failure (String.ofList rest))
  | "syntax" => (place? rest).map fun (at_, column) => .badCode at_ column (String.ofList code)
  | _ => none

/-- What a line that does not end its block does to the store. -/
def assign (store : Store) (line : List Char) : Store :=
  match cut? '=' line with
  | some (name, value) =>
    store.set (String.ofList (trimSpaces name)) (.text (String.ofList (trimSpaces value)))
  | none => store

/-- Run the lines of a block in order, up to one that ends it. -/
def run (code : List Char) (store : Store) : List (List Char) → Except EvalError Unit × Store
  | [] => (.ok (), store)
  | line :: rest =>
    match stop? code line with
    | some e => (.error e, store)
    | none => run code (assign store line) rest

instance : Engine Assigner where
  lookup a name := a.store.get? name
  assign a name value := .ok { a with store := a.store.set name value }
  execute a code chunk :=
    let (result, store) := run code.toList a.store (lines code.toList)
    .done (result, ⟨store, a.received ++ [⟨chunk, code⟩]⟩)

end Assigner

end ScpiScript
