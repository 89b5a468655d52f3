import ScpiScript.Lua.Compile.Operator
import ScpiScript.Lua.Compile.Variable
/-!
# Expressions

Expressions are read by descent, and each part becomes code as it is read. A part
takes the readers of what is nested in it as a parameter, so that nesting is bounded
by how often they are put into each other.

- `Nested` is what can stand inside an expression or a statement.
- `expression` reads an expression whose operators bind more strongly than a limit.
-/

namespace ScpiScript.Lua

/-- The readers of what stands inside a part of some code. -/
structure Nested where
  /-- An expression whose operators bind more strongly than a limit. -/
  expression : (limit : Nat) → Compiler Pending
  statement : Compiler Unit

namespace Compiler

/-! ## Lists of expressions -/

/-- Expressions between commas, all but the last in registers. Gives the last one and
how many there are. `fuel` is more than the number of lexemes left. -/
def expressions (nested : Nested) : (fuel : Nat) → Compiler (Pending × Nat)
  | 0 => fail "unexpected symbol"
  | fuel + 1 => do
    let e ← nested.expression 0
    if ← accept "," then
      let _ ← toNextRegister e
      let (last, count) ← expressions nested fuel
      return (last, count + 1)
    else return (e, 1)

/-- Let a call give all its results. -/
def openCall (e : Pending) : Compiler Unit := do
  match e.place with
  | .call at_ =>
    change at_ fun
      | .call f arguments _ => .call f arguments none
      | other => other
  | _ => return

/-! ## Tables -/

/-- A table that is being made: its register, the item that is not stored yet, and how
many items were stored, wait to be stored, and have keys of their own. -/
structure TableDraft where
  object : Nat
  item : Pending
  stored : Nat
  waiting : Nat
  keyed : Nat

/-- How many items of a table are stored at a time. -/
def itemsAtOnce : Nat := 50

/-- Store the items of a table that are waiting. -/
def storeItems (t : TableDraft) (count : Option Nat) : Compiler Unit := do
  perform (.fillTable t.object count t.stored)
  modifyDraft fun d => { d with free := t.object + 1 }

/-- Put the item that was read last in a register; store the items if enough are
waiting. -/
def closeItem (t : TableDraft) : Compiler TableDraft := do
  match t.item.place with
  | .none => return t
  | _ =>
    let _ ← toNextRegister t.item
    let t := { t with item := .of .none }
    if t.waiting = itemsAtOnce then
      storeItems t (some t.waiting)
      return { t with stored := t.stored + t.waiting, waiting := 0 }
    else return t

/-- Store the last items of a table. Gives how many items without a key there are, not
counting a call with all its results. -/
def closeItems (t : TableDraft) : Compiler Nat := do
  if t.waiting = 0 then return t.stored
  else if t.item.isOpen then
    openCall t.item
    storeItems t none
    return t.stored + t.waiting - 1
  else
    match t.item.place with
    | .none => pure ()
    | _ => let _ ← toNextRegister t.item
    storeItems t (some t.waiting)
    return t.stored + t.waiting

/-- An expression in square brackets. -/
def bracketedKey (nested : Nested) : Compiler Pending := do
  advance
  let key ← nested.expression 0
  let key ← toValue key
  expect "]"
  return key

/-- An item with a key of its own. -/
def keyedItem (nested : Nested) (t : TableDraft) : Compiler TableDraft := do
  let free := (← draft).free
  let key ← match ← current with
    | .name _ => do pure (.of (.str (Utf8.encode (← expectName))))
    | _ => bracketedKey nested
  expect "="
  let target ← index (.of (.register t.object)) key
  let value ← nested.expression 0
  store target value
  modifyDraft fun d => { d with free := free }
  return { t with keyed := t.keyed + 1 }

/-- An item without a key. -/
def listItem (nested : Nested) (t : TableDraft) : Compiler TableDraft := do
  let item ← nested.expression 0
  return { t with item, waiting := t.waiting + 1 }

/-- An equals sign stands behind the current lexeme. -/
def equalsAhead : Compiler Bool := do
  moveCursor Cursor.look
  match (← get).cursor.ahead with
  | ⟨.symbol "=", _, _⟩ :: _ => return true
  | _ => return false

/-- An item of a table. -/
def item (nested : Nested) (t : TableDraft) : Compiler TableDraft := do
  match ← current with
  | .name _ => if ← equalsAhead then keyedItem nested t else listItem nested t
  | .symbol "[" => keyedItem nested t
  | _ => listItem nested t

/-- The items of a table. `fuel` is more than the number of lexemes left. -/
def items (nested : Nested) : (fuel : Nat) → TableDraft → Compiler TableDraft
  | 0, _ => fail "unexpected symbol"
  | fuel + 1, t => do
    if ← sees "\x7d" then return t
    else
      let t ← closeItem t
      let t ← item nested t
      if ← accept "," then items nested fuel t
      else if ← accept ";" then items nested fuel t
      else return t

/-- A table, its opening brace being the current lexeme. -/
def table (nested : Nested) : Compiler Pending := do
  let line ← currentLine
  let at_ ← emit (.newTable 0 0 0)
  let object := (← draft).free
  reserve 1
  expect "\x7b"
  let t ← items nested (← remaining) ⟨object, .of .none, 0, 0, 0⟩
  expectClose "\x7d" "\x7b" line
  let slots ← closeItems t
  change at_ fun _ => .newTable object slots t.keyed
  return .of (.register object)

/-! ## Functions -/

/-- The parameters of a function, up to the closing parenthesis. `fuel` is more than
the number of lexemes left. -/
def parameters : (fuel : Nat) → Compiler Nat
  | 0 => fail "unexpected symbol"
  | fuel + 1 => do
    declare (← expectName)
    if ← accept "," then return (← parameters fuel) + 1 else return 1

/-- The symbols at which a block ends. -/
def blockEnds : List String := ["else", "elseif", "end", "until"]

/-- The end of a block is the current lexeme. -/
def atBlockEnd : Compiler Bool := do
  match ← current with
  | .symbol text => return blockEnds.contains text
  | .ending => return true
  | _ => return false

/-- The statements of a block. One that leaves the function is the last. `fuel` is more
than the number of lexemes left. -/
def statements (nested : Nested) : (fuel : Nat) → Compiler Unit
  | 0 => fail "unexpected symbol"
  | fuel + 1 => do
    if ← atBlockEnd then return
    else if ← sees "return" then nested.statement
    else
      nested.statement
      statements nested fuel

/-- The parameters and the body of a function that begins in some line. -/
def function (nested : Nested) (line : Nat) : Compiler Pending := do
  enterFunction line
  expect "("
  let count ← if ← sees ")" then pure 0 else parameters (← remaining)
  showDeclared count
  reserve count
  expect ")"
  statements nested (← remaining)
  expectClose "end" "function" line
  leaveFunction count

/-! ## Operands -/

/-- The arguments of a call of a function in a register, and the call. -/
def call (nested : Nested) (f : Pending) : Compiler Pending := do
  let line ← currentLine
  let arguments ← match ← current with
    | .symbol "(" => do
      advance
      let arguments ← if ← sees ")" then pure (.of .none) else do
        let (last, _) ← expressions nested (← remaining)
        openCall last
        pure last
      expectClose ")" "(" line
      pure arguments
    | .symbol "\x7b" => table nested
    | .str bytes => do
      advance
      pure (.of (.str bytes))
    | _ => fail "function arguments expected"
  let base := f.register?.getD 0
  let count ← match arguments.place with
    | .call _ => pure none
    | .none => do pure (some ((← draft).free - (base + 1)))
    | _ => do
      let _ ← toNextRegister arguments
      pure (some ((← draft).free - (base + 1)))
  let at_ ← emit (.call base count (some 1))
  setLine line
  modifyDraft fun d => { d with free := base + 1 }
  return .of (.call at_)

/-- A name, or an expression in parentheses. -/
def primary (nested : Nested) : Compiler Pending := do
  match ← current with
  | .name _ => nameValue (← expectName)
  | .symbol "(" =>
    let line ← currentLine
    advance
    let e ← nested.expression 0
    expectClose ")" "(" line
    discharge e
  | _ => fail "unexpected symbol"

/-- The calls and indices behind an expression. `fuel` is more than the number of
lexemes left. -/
def suffixes (nested : Nested) : (fuel : Nat) → Pending → Compiler Pending
  | 0, _ => fail "unexpected symbol"
  | fuel + 1, e => do
    match ← current with
    | .symbol "." =>
      let e ← toObject e
      advance
      let name ← expectName
      suffixes nested fuel (← index e (.of (.str (Utf8.encode name))))
    | .symbol "[" =>
      let e ← toObject e
      let key ← bracketedKey nested
      suffixes nested fuel (← index e key)
    | .symbol ":" =>
      advance
      let name ← expectName
      let f ← method e (Utf8.encode name)
      suffixes nested fuel (← call nested f)
    | .symbol "(" | .symbol "\x7b" | .str _ =>
      let f ← toNextRegister e
      suffixes nested fuel (← call nested f)
    | _ => return e

/-- An expression with the calls and indices behind it. -/
def suffixed (nested : Nested) : Compiler Pending := do
  suffixes nested (← remaining) (← primary nested)

/-- The value that a token stands for by itself. -/
def literal? (token : Token) : Option Place :=
  match token with
  | .number n => some (numberPlace n)
  | .str bytes => some (.str bytes)
  | .symbol "nil" => some .nil
  | .symbol "true" => some (.bool true)
  | .symbol "false" => some (.bool false)
  | _ => none

/-- An operand of an operator. -/
def operand (nested : Nested) : Compiler Pending := do
  let token ← current
  match literal? token, token with
  | some place, _ =>
    advance
    return .of place
  | none, .symbol "\x7b" => table nested
  | none, .symbol "function" =>
    advance
    function nested (← currentLine)
  | none, _ => suffixed nested

/-! ## Operators -/

/-- The operator with two operands that is the current lexeme, if it binds more
strongly to the left than a limit. -/
def operatorAhead? (limit : Nat) : Compiler (Option Operator) := do
  match ← current with
  | .symbol text => return (Operator.ofSymbol? text).filter fun o => limit < o.left
  | _ => return none

/-- The operators behind an operand, with what follows them. `fuel` is more than the
number of lexemes left. -/
def operators (nested : Nested) (limit : Nat) : (fuel : Nat) → Pending → Compiler Pending
  | 0, _ => fail "unexpected symbol"
  | fuel + 1, e => do
    match ← operatorAhead? limit with
    | some o =>
      let line ← currentLine
      advance
      let e ← beforeOperand o.op e
      let other ← nested.expression o.right
      operators nested limit fuel (← binary o.op e other line)
    | none => return e

/-- The operator with one operand that is the current lexeme. -/
def unaryAhead? : Compiler (Option UnaryOp) := do
  match ← current with
  | .symbol text => return Operator.unary? text
  | _ => return none

/-- An expression whose operators bind more strongly than a limit. -/
def expression (nested : Nested) (limit : Nat) : Compiler Pending := do
  let first ← match ← unaryAhead? with
    | some op => do
      let line ← currentLine
      advance
      unary op (← nested.expression Operator.unaryStrength) line
    | none => operand nested
  operators nested limit (← remaining) first

end Compiler

end ScpiScript.Lua
