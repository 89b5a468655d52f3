import ScpiScript.Lua.Compile.Pending
/-!
# Operators

Known numbers are combined while code is made, where that can be told from the result
of running it. Other operands are brought to registers, in the order in which they
stand, save that a known number may stay in the instruction.

- `unary` and `binary` apply an operator; `beforeOperand` prepares the first operand of
  one before the second is read.
- `Operator.ofSymbol?` gives the operators and how strongly they bind.
-/

namespace ScpiScript.Lua

/-- An operator with one operand. -/
inductive UnaryOp
  | negate
  | not
  | length
  deriving DecidableEq, Repr

/-- An operator with two operands. -/
inductive BinaryOp
  | arithmetic (op : ArithmeticOp)
  | concat
  | equal
  | unequal
  /-- A comparison. One that is turned around says that the second operand is less. -/
  | order (c : Comparison) (turned : Bool)
  | and
  | or
  deriving DecidableEq, Repr

/-- An operator with two operands, and how strongly it binds to the left and to the
right. -/
structure Operator where
  op : BinaryOp
  left : Nat
  right : Nat

namespace Operator

/-- The operator with two operands that a symbol is. -/
def ofSymbol? (symbol : String) : Option Operator :=
  match symbol with
  | "or" => some ⟨.or, 1, 1⟩
  | "and" => some ⟨.and, 2, 2⟩
  | "==" => some ⟨.equal, 3, 3⟩
  | "~=" => some ⟨.unequal, 3, 3⟩
  | "<" => some ⟨.order .less false, 3, 3⟩
  | "<=" => some ⟨.order .lessOrEqual false, 3, 3⟩
  | ">" => some ⟨.order .less true, 3, 3⟩
  | ">=" => some ⟨.order .lessOrEqual true, 3, 3⟩
  | ".." => some ⟨.concat, 9, 8⟩
  | "+" => some ⟨.arithmetic .add, 10, 10⟩
  | "-" => some ⟨.arithmetic .sub, 10, 10⟩
  | "*" => some ⟨.arithmetic .mul, 11, 11⟩
  | "/" => some ⟨.arithmetic .div, 11, 11⟩
  | "//" => some ⟨.arithmetic .floorDiv, 11, 11⟩
  | "%" => some ⟨.arithmetic .mod, 11, 11⟩
  | _ => none

/-- The operator with one operand that a symbol is. -/
def unary? (symbol : String) : Option UnaryOp :=
  match symbol with
  | "-" => some .negate
  | "not" => some .not
  | "#" => some .length
  | _ => none

/-- How strongly an operator with one operand binds. -/
def unaryStrength : Nat := 12

end Operator

/-! ## Known numbers -/

/-- A number that was worked out, if it may stand for its operation: neither zero nor
no number, unless it is an integer. -/
def Number.foldable? (n : Number) : Option Number :=
  match n with
  | .int _ => some n
  | .float x => if x.datum = .nan || x.datum.isZero then none else some n

/-- The number is zero. -/
def Number.isZero (n : Number) : Bool := n.toFloat.datum.isZero

/-- The value of an operation on known numbers. A division by zero is left for when
the code runs. -/
def ArithmeticOp.fold? (op : ArithmeticOp) (a b : Number) : Option Number :=
  let divides := op = .div || op = .floorDiv || op = .mod
  if divides && b.isZero then none
  else (Number.arithmetic op a b).toOption.bind Number.foldable?

namespace Compiler

/-- A known number as a value. -/
def numberPlace : Number → Place
  | .int i => .int i
  | .float x => .float x

/-! ## One operand -/

/-- Apply an operator that stands in some line to its operand. -/
def unary (op : UnaryOp) (e : Pending) (line : Nat) : Compiler Pending := do
  let e ← discharge e
  match op with
  | .not => complement e
  | .length => calculated e (.length 0)
  | .negate =>
    match e.number?.bind fun n => n.negate.foldable? with
    | some n => return e.at_ (numberPlace n)
    | none => calculated e (.negate 0)
where
  /-- The value that an instruction makes of one in a register. -/
  calculated (e : Pending) (make : Nat → Instruction) : Compiler Pending := do
    let (e, r) ← toAnyRegister e
    releaseValue e
    let at_ ← emit (make r)
    setLine line
    return e.at_ (.unplaced at_)

/-! ## Two operands -/

/-- Prepare the first operand of an operator. -/
def beforeOperand (op : BinaryOp) (e : Pending) : Compiler Pending := do
  let e ← discharge e
  match op with
  | .and => jumpUnless e
  | .or => jumpIf e
  | .concat => toNextRegister e
  | .arithmetic _ => if e.number?.isSome then return e else inRegister e
  | .equal | .unequal =>
    if e.number?.isSome then return e
    else
      let (e, _) ← toOperand e
      return e
  | .order _ _ => if e.small?.isSome then return e else inRegister e
where
  /-- The value, in a register. -/
  inRegister (e : Pending) : Compiler Pending := do
    let (e, _) ← toAnyRegister e
    return e

/-- The value of an operation on a register and something else. `turned` says that the
register holds the second operand. -/
def calculation (op : ArithmeticOp) (e other : Pending) (operand : Operand) (turned : Bool)
    (line : Nat) : Compiler Pending := do
  let (e, r) ← toAnyRegister e
  let at_ ← emit <|
    if turned then .arithmetic op 0 operand (.register r)
    else .arithmetic op 0 (.register r) operand
  releaseValues e other
  setLine line
  return e.at_ (.unplaced at_)

/-- The value of an arithmetic operation. A known number may be part of the
instruction: as the second operand or, where the order does not count, as either. -/
def arithmetic (op : ArithmeticOp) (a b : Pending) (line : Nat) : Compiler Pending := do
  let turned := (op = .add || op = .mul) && a.number?.isSome
  let (e, other) := if turned then (b, a) else (a, b)
  match op, other.int? with
  | .add, some i =>
    if Pending.isSmall i then calculation op e other (.constant (.number (.int i))) turned line
    else withConstant e other turned
  | .sub, some i =>
    if Pending.isSmall i && Pending.isSmall (-i) then difference e other i
    else withConstant e other turned
  | _, _ => withConstant e other turned
where
  /-- The value with a known number as a constant, if it can be one. -/
  withConstant (e other : Pending) (turned : Bool) : Compiler Pending := do
    match ← (if other.number?.isSome then toConstant? other else pure none) with
    | some i =>
      calculation op e (other.at_ (.constant i)) (.constant (← constant i)) turned line
    | none =>
      let (b, r) ← toAnyRegister b
      calculation op a b (.register r) false line
  /-- The difference of a register and a small integer. -/
  difference (e other : Pending) (i : Int64) : Compiler Pending := do
    let (e, r) ← toAnyRegister e
    let at_ ← emit (.addOpposite 0 r i)
    releaseValues e other
    setLine line
    return e.at_ (.unplaced at_)

/-- The condition that a comparison holds. -/
def comparison (c : Comparison) (a b : Pending) : Compiler Pending := do
  match b.small?, a.small? with
  | some n, _ =>
    let (a, r) ← toAnyRegister a
    releaseValues a b
    return a.at_ (.condition (← emitTest (.testOrder c (.register r) (.constant (.number n)) true)))
  | none, some n =>
    let (b, r) ← toAnyRegister b
    releaseValues a b
    return a.at_ (.condition (← emitTest (.testOrder c (.constant (.number n)) (.register r) true)))
  | none, none =>
    let (a, r) ← toAnyRegister a
    let (b, s) ← toAnyRegister b
    releaseValues a b
    return a.at_ (.condition (← emitTest (.testOrder c (.register r) (.register s) true)))

/-- The condition that two values are equal, or that they are not. -/
def equality (a b : Pending) (on : Bool) : Compiler Pending := do
  let (a, b) := if a.register?.isSome then (a, b) else (b, a)
  let (a, r) ← toAnyRegister a
  match b.small? with
  | some n =>
    releaseValues a b
    return a.at_ (.condition (← emitTest (.testEqual r (.constant (.number n)) on)))
  | none =>
    let (b, operand) ← toOperand b
    releaseValues a b
    return a.at_ (.condition (← emitTest (.testEqual r operand on)))

/-- Join two texts, the first of which is in the register before the second. A joining
of the texts behind them is continued. -/
def joined (a b : Pending) (line : Nat) : Compiler Pending := do
  let b ← toNextRegister b
  let r := a.register?.getD 0
  match ← previous? with
  | some (.concat _ count) =>
    releaseValue b
    changePrevious fun _ => .concat r (count + 1)
  | _ =>
    perform (.concat r 2)
    releaseValue b
    setLine line
  return a

/-- Apply an operator that stands in some line to its operands, the first of which was
prepared for it. -/
def binary (op : BinaryOp) (a b : Pending) (line : Nat) : Compiler Pending := do
  let b ← discharge b
  match op with
  | .and => return { b with ifFalse := a.ifFalse ++ b.ifFalse }
  | .or => return { b with ifTrue := a.ifTrue ++ b.ifTrue }
  | .concat => joined a b line
  | .arithmetic op =>
    match a.number?, b.number? with
    | some x, some y =>
      match op.fold? x y with
      | some n => return a.at_ (numberPlace n)
      | none => arithmetic op a b line
    | _, _ => arithmetic op a b line
  | .equal => equality a b true
  | .unequal => equality a b false
  | .order c turned => if turned then comparison c b a else comparison c a b

end Compiler

end ScpiScript.Lua
