import ScpiScript.Lua.Compile.Register
/-!
# Values of expressions

The value of an expression is brought to a register as late as possible: a constant or
a variable is used where it is, and an instruction whose target is open gets the
register in which the value is wanted.

- `Pending` is what is known of a value, with the jumps out of its expression.
- `discharge` reads variables and fields, `toNextRegister`, `toAnyRegister` and
  `toOperand` bring a value to where it is needed, and `store` assigns it.
- `jumpUnless` and `jumpIf` turn a value into a condition.
-/

namespace ScpiScript.Lua

/-- Where the value of an expression is, or how it is made. -/
inductive Place
  /-- There is no value. -/
  | none
  | nil
  | bool (b : Bool)
  | int (i : Int64)
  | float (x : Binary64)
  | str (bytes : Bytes)
  /-- A constant of the function, by its number. -/
  | constant (i : Nat)
  | register (r : Nat)
  /-- A local variable, by its register. -/
  | localVariable (r : Nat)
  /-- A variable of an enclosing function. -/
  | outer (i : Nat)
  /-- A field of a variable of an enclosing function; the key is a constant. -/
  | outerField (i key : Nat)
  /-- A field of an object in a register; the key is a constant. -/
  | field (object key : Nat)
  | fieldAt (object i : Nat)
  /-- A field of an object in a register; the key is in a register. -/
  | fieldUnder (object key : Nat)
  /-- A comparison, by the jump that is made if it holds. -/
  | condition (jump : Nat)
  /-- An instruction whose register is open. -/
  | unplaced (at_ : Nat)
  /-- A call, by its instruction. -/
  | call (at_ : Nat)

/-- The value of an expression. -/
structure Pending where
  place : Place
  /-- Jumps out of the expression when it is known to be true. -/
  ifTrue : List Nat
  /-- Jumps out of the expression when it is known to be false. -/
  ifFalse : List Nat

namespace Pending

/-- A value without jumps. -/
def of (place : Place) : Pending := ⟨place, [], []⟩

/-- There are jumps out of the expression. -/
def hasJumps (e : Pending) : Bool := !e.ifTrue.isEmpty || !e.ifFalse.isEmpty

/-- The same expression with its value at a place. -/
def at_ (e : Pending) (place : Place) : Pending := { e with place }

/-- The number that the value is, if that is known. -/
def number? (e : Pending) : Option Number :=
  if e.hasJumps then none
  else
    match e.place with
    | .int i => some (.int i)
    | .float x => some (.float x)
    | _ => none

/-- The integer that the value is, if that is known. -/
def int? (e : Pending) : Option Int64 :=
  match e.number? with
  | some (.int i) => some i
  | _ => none

/-- The integer fits an operand. -/
def isSmall (i : Int64) : Bool := -127 ≤ i.toInt && i.toInt ≤ 128

/-- The number that the value is, if it is known and its integer fits an operand. -/
def small? (e : Pending) : Option Number :=
  e.number?.filter fun n => (n.toInt?.map isSmall).getD false

/-- The value has several forms: it is the values of a call. -/
def isOpen (e : Pending) : Bool :=
  match e.place with
  | .call _ => true
  | _ => false

/-- A register that has to be given back. -/
def register? (e : Pending) : Option Nat :=
  match e.place with
  | .register r => some r
  | _ => none

end Pending

namespace Compiler

/-- Give the register of a value back. -/
def releaseValue (e : Pending) : Compiler Unit :=
  match e.register? with
  | some r => release r
  | none => return

/-- Give the registers of two values back. -/
def releaseValues (e other : Pending) : Compiler Unit := do
  releaseValue e
  releaseValue other

/-- Let a call give one value. -/
def closeCall (e : Pending) : Compiler Pending := do
  match e.place with
  | .call at_ =>
    match ← instruction? at_ with
    | some (.call f _ _) => return e.at_ (.register f)
    | _ => return e
  | _ => return e

/-- The text of a constant key. -/
def keyText (i : Nat) : Compiler Bytes := do
  match ← constant i with
  | .str bytes => return bytes
  | _ => return []

/-- Read a variable or a field, so that the value is a value of its own. -/
def discharge (e : Pending) : Compiler Pending := do
  match e.place with
  | .localVariable r => return e.at_ (.register r)
  | .outer i => return e.at_ (.unplaced (← emit (.readOuter 0 i)))
  | .outerField i key => return e.at_ (.unplaced (← emit (.readOuterField 0 i (← keyText key))))
  | .field object key =>
    release object
    return e.at_ (.unplaced (← emit (.readField 0 object (← keyText key))))
  | .fieldAt object i =>
    release object
    return e.at_ (.unplaced (← emit (.readPosition 0 object i)))
  | .fieldUnder object key =>
    releaseBoth object key
    return e.at_ (.unplaced (← emit (.readKey 0 object key)))
  | _ => closeCall e

/-- The smallest and the largest integer that is loaded without a constant. -/
def loadable (i : Int64) : Bool := -65535 ≤ i.toInt && i.toInt ≤ 65536

/-- Put a constant in a register. -/
def loadConstant (r : Nat) (value : Value) : Compiler Unit := do
  let _ ← constantIndex value
  perform (.load r value)

/-- Put an integer in a register. -/
def loadInt (r : Nat) (i : Int64) : Compiler Unit :=
  if loadable i then perform (.load r (.number (.int i)))
  else loadConstant r (.number (.int i))

/-- Put a floating-point number in a register. -/
def loadFloat (r : Nat) (x : Binary64) : Compiler Unit :=
  if ((Number.float x).toInt?.map loadable).getD false then
    perform (.load r (.number (.float x)))
  else loadConstant r (.number (.float x))

/-- Put a value in a register. What its jumps carry is not put there. -/
def settle (e : Pending) (r : Nat) : Compiler Pending := do
  let e ← discharge e
  match e.place with
  | .nil => emitNil r 1
  | .bool b => perform (.load r (.bool b))
  | .str bytes => loadConstant r (.str bytes)
  | .constant i => perform (.load r (← constant i))
  | .float x => loadFloat r x
  | .int i => loadInt r i
  | .unplaced at_ => change at_ (Instruction.into r)
  | .register source => if source ≠ r then perform (.move r source)
  | _ => pure ()
  match e.place with
  | .condition _ => return e
  | _ => return e.at_ (.register r)

/-- Put a value in some register, unless it is in one. What its jumps carry is not
put there. -/
def settleAnywhere (e : Pending) : Compiler Pending := do
  match e.place with
  | .register _ => return e
  | _ =>
    reserve 1
    settle e ((← draft).free - 1)

/-- One of some jumps has no value of its own. -/
def anyBare : List Nat → Compiler Bool
  | [] => return false
  | at_ :: rest => do
    if ← isBare at_ then return true else anyBare rest

/-- Put a value in a register, whichever way its expression is left. -/
def toRegister (e : Pending) (r : Nat) : Compiler Pending := do
  let e ← settle e r
  let e := match e.place with
    | .condition jump => { e with ifTrue := jump :: e.ifTrue }
    | _ => e
  if e.hasJumps then
    let bare := (← anyBare e.ifTrue) || (← anyBare e.ifFalse)
    let (no, yes) ← if bare then booleans e r else pure (0, 0)
    let done ← here
    patch (some r) done no e.ifFalse
    patch (some r) done yes e.ifTrue
  return .of (.register r)
where
  /-- Load false and true for the jumps without a value, and give the places of both
  instructions. -/
  booleans (e : Pending) (r : Nat) : Compiler (Nat × Nat) := do
    let around ← match e.place with
      | .condition _ => pure []
      | _ => do pure [← emitJump]
    let _ ← here
    let no ← emit (.loadFalse r)
    let _ ← here
    let yes ← emit (.load r (.bool true))
    patchHere around
    return (no, yes)

/-- Put a value in the next register. -/
def toNextRegister (e : Pending) : Compiler Pending := do
  let e ← discharge e
  releaseValue e
  reserve 1
  toRegister e ((← draft).free - 1)

/-- Put a value in some register; the result holds its number, too. -/
def toAnyRegister (e : Pending) : Compiler (Pending × Nat) := do
  let e ← discharge e
  match e.place with
  | .register r =>
    if !e.hasJumps then return (e, r)
    else if (← localCount) ≤ r then return (← toRegister e r, r)
    else next e
  | _ => next e
where
  /-- Put the value in the next register. -/
  next (e : Pending) : Compiler (Pending × Nat) := do
    let e ← toNextRegister e
    return (e, e.register?.getD 0)

/-- Put a value in some register, unless it is a variable of an enclosing function. -/
def toObject (e : Pending) : Compiler Pending := do
  match e.place with
  | .outer _ =>
    if e.hasJumps then
      let (e, _) ← toAnyRegister e
      return e
    else return e
  | _ =>
    let (e, _) ← toAnyRegister e
    return e

/-- Put a value in a register if there are jumps out of its expression, and else only
read it. -/
def toValue (e : Pending) : Compiler Pending := do
  if e.hasJumps then
    let (e, _) ← toAnyRegister e
    return e
  else discharge e

/-- The value as a constant of the function, if it is one that an operand can name. -/
def toConstant? (e : Pending) : Compiler (Option Nat) := do
  if e.hasJumps then return none
  else
    match e.place with
    | .nil => named (← constantIndex .nil)
    | .bool b => named (← constantIndex (.bool b))
    | .int i => named (← constantIndex (.number (.int i)))
    | .float x => named (← constantIndex (.number (.float x)))
    | .str bytes => named (← constantIndex (.str bytes))
    | .constant i => named i
    | _ => return none
where
  /-- The number of a constant, if an operand can name it. -/
  named (i : Nat) : Compiler (Option Nat) :=
    return if i < constantLimit then some i else none

/-- The value as an operand: a constant, or a register that it is put in. -/
def toOperand (e : Pending) : Compiler (Pending × Operand) := do
  match ← toConstant? e with
  | some i => return (e.at_ (.constant i), .constant (← constant i))
  | none =>
    let (e, r) ← toAnyRegister e
    return (e, .register r)

/-! ## Assignment and indexing -/

/-- Assign a value to a variable or a field. -/
def store (target : Pending) (e : Pending) : Compiler Unit := do
  match target.place with
  | .localVariable r =>
    releaseValue e
    let _ ← toRegister e r
  | .outer i =>
    let (e, r) ← toAnyRegister e
    perform (.writeOuter i r)
    releaseValue e
  | .outerField i key =>
    let (e, value) ← toOperand e
    perform (.writeOuterField i (← keyText key) value)
    releaseValue e
  | .field object key =>
    let (e, value) ← toOperand e
    perform (.writeField object (← keyText key) value)
    releaseValue e
  | .fieldAt object i =>
    let (e, value) ← toOperand e
    perform (.writePosition object i value)
    releaseValue e
  | .fieldUnder object key =>
    let (e, value) ← toOperand e
    perform (.writeKey object key value)
    releaseValue e
  | _ => return

/-- The longest text that can be the key of a field by itself, in bytes. -/
def longestKey : Nat := 40

/-- The number of a constant that can be the key of a field by itself. -/
def fieldKey? (key : Pending) : Compiler (Option Nat) := do
  match key.place with
  | .constant i =>
    match ← constant i with
    | .str bytes =>
      let fits := !key.hasJumps && i < constantLimit && bytes.length ≤ longestKey
      return if fits then some i else none
    | _ => return none
  | _ => return none

/-- The field of an object under a key. -/
def index (object key : Pending) : Compiler Pending := do
  let key ← match key.place with
    | .str bytes => do pure (key.at_ (.constant (← constantIndex (.str bytes))))
    | _ => pure key
  let known ← fieldKey? key
  match object.place, known with
  | .outer i, some k => return object.at_ (.outerField i k)
  | _, _ =>
    let (object, r) ← match object.place with
      | .outer _ => toAnyRegister object
      | .localVariable r => pure (object, r)
      | _ => pure (object, object.register?.getD 0)
    match known, key.int? with
    | some k, _ => return object.at_ (.field r k)
    | none, some i =>
      if 0 ≤ i.toInt && i.toInt < 256 then return object.at_ (.fieldAt r i.toInt.toNat)
      else under object r key
    | none, none => under object r key
where
  /-- The field under a key that has to be in a register. -/
  under (object : Pending) (r : Nat) (key : Pending) : Compiler Pending := do
    let (_, k) ← toAnyRegister key
    return object.at_ (.fieldUnder r k)

/-- The function of an object under a name, for a call with the object as its first
argument. -/
def method (object : Pending) (name : Bytes) : Compiler Pending := do
  let (object, r) ← toAnyRegister object
  releaseValue object
  let base := (← draft).free
  reserve 2
  let (key, operand) ← toOperand (.of (.str name))
  perform (.readMethod base r operand)
  releaseValue key
  return object.at_ (.register base)

/-! ## Conditions -/

/-- Add a test and the jump that it decides. -/
def emitTest (test : Instruction) : Compiler Nat := do
  perform test
  emitJump

/-- Turn the test of a jump around. -/
def negateTest (jump : Nat) : Compiler Unit := do
  change (← control jump) Instruction.opposite

/-- The jump that is made if a value counts as true or as false. -/
def jumpOn (e : Pending) (on : Bool) : Compiler Nat := do
  match e.place with
  | .unplaced at_ =>
    match ← instruction? at_ with
    | some (.not _ source) =>
      removePrevious
      emitTest (.test source (!on))
    | _ => placed e
  | _ => placed e
where
  /-- The jump for a value in a register. -/
  placed (e : Pending) : Compiler Nat := do
    let e ← settleAnywhere e
    releaseValue e
    let r := e.register?.getD 0
    emitTest (.testSet r r on)

/-- Go on if the value is true, and jump out of its expression if it is false. -/
def jumpUnless (e : Pending) : Compiler Pending := do
  let e ← discharge e
  let jumps ← match e.place with
    | .condition jump => do
      negateTest jump
      pure [jump]
    | .constant _ | .float _ | .int _ | .str _ | .bool true => pure []
    | _ => do pure [← jumpOn e false]
  patchHere e.ifTrue
  return ⟨e.place, [], jumps ++ e.ifFalse⟩

/-- Go on if the value is false, and jump out of its expression if it is true. -/
def jumpIf (e : Pending) : Compiler Pending := do
  let e ← discharge e
  let jumps ← match e.place with
    | .condition jump => pure [jump]
    | .nil | .bool false => pure []
    | _ => do pure [← jumpOn e true]
  patchHere e.ifFalse
  return ⟨e.place, jumps ++ e.ifTrue, []⟩

/-- Let jumps that carry a value carry none. -/
def dropValues : List Nat → Compiler Unit
  | [] => return
  | at_ :: rest => do
    let _ ← aim none at_
    dropValues rest

/-- The value that is true if another one is not. -/
def complement (e : Pending) : Compiler Pending := do
  let place ← match e.place with
    | .nil | .bool false => pure (.bool true)
    | .constant _ | .float _ | .int _ | .str _ | .bool true => pure (.bool false)
    | .condition jump => do
      negateTest jump
      pure (.condition jump)
    | _ => do
      let e ← settleAnywhere e
      releaseValue e
      pure (.unplaced (← emit (.not 0 (e.register?.getD 0))))
  dropValues e.ifTrue
  dropValues e.ifFalse
  return ⟨place, e.ifFalse, e.ifTrue⟩

end Compiler

end ScpiScript.Lua
