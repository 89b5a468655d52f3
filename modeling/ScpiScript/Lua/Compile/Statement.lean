import ScpiScript.Lua.Compile.Expression
/-!
# Statements

- `statement` reads one statement.
- `Nested.within` puts the readers of nested parts into each other, a bounded number
  of times.
-/

namespace ScpiScript.Lua.Compiler

/-- A block, up to the symbol that ends it. -/
def block (nested : Nested) : Compiler Unit := do
  enterBlock false
  statements nested (← remaining)
  leaveBlock

/-! ## Branches -/

/-- A condition and what is done if it holds. The current lexeme is the symbol before
the condition. Gives the jumps behind the whole statement. -/
def branch (nested : Nested) (exits : List Nat) : Compiler (List Nat) := do
  advance
  let condition ← nested.expression 0
  expect "then"
  let condition ← jumpUnless condition
  block nested
  let exits ← if (← sees "else") || (← sees "elseif") then do pure ((← emitJump) :: exits)
    else pure exits
  patchHere condition.ifFalse
  return exits

/-- The conditions of a statement behind its first one. `fuel` is more than the number
of lexemes left. -/
def moreBranches (nested : Nested) : (fuel : Nat) → (exits : List Nat) → Compiler (List Nat)
  | 0, _ => fail "unexpected symbol"
  | fuel + 1, exits => do
    if ← sees "elseif" then moreBranches nested fuel (← branch nested exits)
    else return exits

/-- A statement with branches that begins in some line. -/
def branches (nested : Nested) (line : Nat) : Compiler Unit := do
  let exits ← branch nested []
  let exits ← moreBranches nested (← remaining) exits
  if ← accept "else" then block nested
  expectClose "end" "if" line
  patchHere exits

/-! ## Loops -/

/-- The name of a variable that a loop keeps for itself. -/
def loopVariable : String := "(for state)"

/-- A bound of a loop, in the next register. -/
def bound (nested : Nested) : Compiler Unit := do
  let _ ← toNextRegister (← nested.expression 0)

/-- The bounds and the body of a loop over numbers that begins in some line. -/
def count (nested : Nested) (name : String) (line : Nat) : Compiler Unit := do
  let base := (← draft).free
  declare loopVariable
  declare loopVariable
  declare loopVariable
  declare name
  expect "="
  bound nested
  expect ","
  bound nested
  if ← accept "," then bound nested
  else
    loadInt (← draft).free 1
    reserve 1
  showDeclared 3
  expect "do"
  let enter ← emit (.enterLoop base 0)
  enterBlock false
  showDeclared 1
  reserve 1
  block nested
  leaveBlock
  let again ← here
  perform (.repeatLoop base (enter + 1))
  setLine line
  change enter (Instruction.toward (again + 1))

/-- A loop that begins in some line. -/
def loop (nested : Nested) (line : Nat) : Compiler Unit := do
  enterBlock true
  advance
  let name ← expectName
  if !(← sees "=") then fail "'=' or 'in' expected"
  count nested name line
  expectClose "end" "for" line
  leaveBlock

/-! ## Variables and functions -/

/-- A function under a name, its first symbol in some line. -/
def namedFunction (nested : Nested) (line : Nat) : Compiler Unit := do
  advance
  let target ← nameValue (← expectName)
  let f ← function nested line
  store target f
  setLine line

/-- A function in a local variable, which can be seen in the function itself. -/
def localFunction (nested : Nested) : Compiler Unit := do
  let r ← localCount
  declare (← expectName)
  showDeclared 1
  let _ ← function nested (← currentLine)
  beginLate r

/-- A local variable, with its value. -/
def localVariable (nested : Nested) : Compiler Unit := do
  declare (← expectName)
  if ← accept "=" then
    let value ← nested.expression 0
    if value.isOpen then pure ()
    else
      let _ ← toNextRegister value
  else
    emitNil (← draft).free 1
    reserve 1
  showDeclared 1

/-- The value can be assigned to. -/
def isVariable (e : Pending) : Bool :=
  match e.place with
  | .localVariable _ | .outer _ | .outerField _ _ => true
  | .field _ _ | .fieldAt _ _ | .fieldUnder _ _ => true
  | _ => false

/-- An assignment or a call. -/
def assignmentOrCall (nested : Nested) : Compiler Unit := do
  let target ← suffixed nested
  if ← sees "=" then
    if !(isVariable target) then fail "syntax error"
    advance
    let value ← nested.expression 0
    store target (← closeCall value)
  else
    match target.place with
    | .call at_ => change at_ fun
      | .call f arguments _ => .call f arguments (some 0)
      | other => other
    | _ => fail "syntax error"

/-- What a function is left with. -/
def leave (nested : Nested) : Compiler Unit := do
  advance
  let first ← localCount
  if (← atBlockEnd) || (← sees ";") then perform (.leave first (some 0))
  else
    let (last, count) ← expressions nested (← remaining)
    match last.place with
    | .call at_ =>
      openCall last
      if count = 1 then change at_ fun
        | .call f arguments _ => .leaveBy f arguments
        | other => other
      perform (.leave first none)
    | _ =>
      if count = 1 then
        let (_, r) ← toAnyRegister last
        perform (.leave r (some 1))
      else
        let _ ← toNextRegister last
        perform (.leave first (some count))
  let _ ← accept ";"

/-- A statement. -/
def statement (nested : Nested) : Compiler Unit := do
  let line ← currentLine
  match ← current with
  | .symbol ";" => advance
  | .symbol "if" => branches nested line
  | .symbol "for" => loop nested line
  | .symbol "do" =>
    advance
    block nested
    expectClose "end" "do" line
  | .symbol "function" => namedFunction nested line
  | .symbol "local" =>
    advance
    if ← accept "function" then localFunction nested else localVariable nested
  | .symbol "return" => leave nested
  | _ => assignmentOrCall nested
  modifyDraft fun d => { d with free := d.locals.size }

/-- The readers of parts that can be nested so many times in each other. -/
def nestedAt : (levels : Nat) → Nested
  | 0 => ⟨fun _ => throw .tooDeep, throw .tooDeep⟩
  | levels + 1 =>
    let inner := nestedAt levels
    ⟨expression inner, statement inner⟩

end ScpiScript.Lua.Compiler
