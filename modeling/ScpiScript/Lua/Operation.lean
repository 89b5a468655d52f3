import ScpiScript.Lua.Memory
/-!
# Operations on values

An operation fails with a `Trouble`, which the place where it stands turns into a
message. Where a message says which variable or field the value in question is, the
operation only says in which register it was.

- `fieldOf` and `writeField` are the reading and the writing of the fields of an
  object.
- `arithmetic`, `negate`, `concat`, `holds` and `lengthOf` are the operators.
- `Loop` holds the bounds of a loop over numbers.
-/

namespace ScpiScript.Lua

/-- Where a value that an operation got was. -/
inductive Origin
  | register (r : Nat)
  /-- A variable from outside the function. -/
  | outer (i : Nat)
  | unknown
  deriving DecidableEq, Repr

/-- A value, and where it was. -/
structure Sourced where
  value : Value
  origin : Origin

/-- Why an operation failed. -/
inductive Trouble
  /-- It does not apply to a value. -/
  | unfit (verb : String) (on : Sourced)
  /-- An error where the operation stands. -/
  | error (message : String)
  /-- An error in a function that the operation called, and which has no place. -/
  | inner (message : String)
  /-- An object of the program refused it. -/
  | refused (message : String)

namespace Operation

/-- Where the functions of texts are found among the tables. -/
def textFunctions : Nat := 1

/-! ## Fields -/

/-- A function of the vectors. -/
def vectorFunction? (name : Bytes) : Option Builtin :=
  if name = Utf8.encode "add" then some .add
  else if name = Utf8.encode "clear" then some .clear
  else none

/-- A function of the instrument. -/
def instrumentFunction? (name : Bytes) : Option Builtin :=
  [("command", .command), ("query", .query), ("send_floats", .sendFloats),
    ("send_block", .sendBlock), ("send_with_param_length", .sendParameter)].findSome?
    fun (known, f) => if name = Utf8.encode known then some f else none

/-- What a field is. -/
inductive Field
  | value (v : Value)
  /-- Whether the instrument has a session, which it has to be asked. -/
  | isOpen
  deriving DecidableEq, Repr

/-- The field of the instrument under a key. -/
def instrumentField (key : Value) : Field :=
  match key with
  | .str name =>
    match instrumentFunction? name with
    | some f => .value (.builtin f)
    | none =>
      if name = Utf8.encode "is_open" then .isOpen
      else if name = Utf8.encode "no_err_string" then .value (.ofText Instrument.noErrorReply)
      else .value .nil
  | _ => .value .nil

/-- The field of a vector under a key. -/
def vectorField (v : FloatList) (key : Value) : Value :=
  match key with
  | .str name => ((vectorFunction? name).map Value.builtin).getD .nil
  | _ => v.read key

/-- The functions of a stream. -/
def streamFunctions : List String :=
  ["close", "flush", "lines", "read", "seek", "setvbuf", "write"]

/-- The field of a stream under a key. -/
def streamField (key : Value) : Value :=
  match streamFunctions.find? fun name => key = .ofText name with
  | some name => .builtin (.library ("FILE*." ++ name))
  | none => .nil

/-- The field of an object under a key, if the object has fields. -/
def fieldOf (m : Memory) (object key : Value) : Option Field :=
  match object with
  | .table i => some (.value ((m.table i).get key))
  | .vector i => some (.value (vectorField (m.vector i) key))
  | .instrument => some (instrumentField key)
  | .stream _ => some (.value (streamField key))
  | .str _ => some (.value ((m.table textFunctions).get key))
  | _ => none

/-- The memory after a field was read. -/
def touched (m : Memory) (object key : Value) : Memory :=
  match object, key with
  | .table i, .number _ => m.modifyTable i fun t => t.touch key
  | _, _ => m

/-- Why a value cannot be a key of a table. -/
def badKey? (key : Value) : Option String :=
  match key with
  | .nil => some "table index is nil"
  | .number (.float x) => if x.datum = .nan then some "table index is NaN" else none
  | _ => none

/-- A change of an object that can be made. -/
inductive Change
  | entry (t : Nat) (key value : Value)
  | sample (v : Nat) (at_ : Nat) (x : Binary32)

/-- The change that writing a field of an object is. -/
def changeOf (m : Memory) (object : Sourced) (key value : Value) : Except Trouble Change :=
  match object.value with
  | .table i =>
    match badKey? key with
    | some message => .error (.error message)
    | none => .ok (.entry i key value)
  | .vector i =>
    match (m.vector i).target key value with
    | .ok (at_, x) => .ok (.sample i at_ x)
    | .error message => .error (.refused message)
  | _ => .error (.unfit "index" object)

/-- The memory after a change. -/
def Change.apply (m : Memory) : Change → Memory
  | entry t key value => m.modifyTable t fun t => t.set key value
  | sample v at_ x => m.modifyVector v fun v => v.put at_ x

/-! ## Operators -/

/-- The value is a text. -/
def isText : Value → Bool
  | .str _ => true
  | _ => false

/-- The value that keeps two from arithmetic: the first that is no number. -/
def culprit (a b : Sourced) : Sourced :=
  match a.value with
  | .number _ => b
  | _ => a

/-- Fail because a value is no number, for an operation with a name. Texts that hold
no number are refused by an operation of their own. -/
def notNumbers (name : String) (a b : Sourced) : Trouble :=
  if isText a.value || isText b.value then
    .error s!"attempt to {name} a '{a.value.typeName}' with a '{b.value.typeName}'"
  else .unfit "perform arithmetic on" (culprit a b)

/-- The name of an operation in the messages of texts. -/
def operationName : ArithmeticOp → String
  | .add => "add"
  | .sub => "sub"
  | .mul => "mul"
  | .div => "div"
  | .floorDiv => "idiv"
  | .mod => "mod"

/-- Arithmetic on two values, texts counting as the numbers that they hold. -/
def arithmetic (op : ArithmeticOp) (a b : Sourced) : Except Trouble Value :=
  match a.value.toNumber?, b.value.toNumber? with
  | some x, some y =>
    match Number.arithmetic op x y with
    | .ok n => .ok (.number n)
    | .error e =>
      if isText a.value || isText b.value then .error (.inner e.message)
      else .error (.error e.message)
  | _, _ => .error (notNumbers (operationName op) a b)

/-- A value less a small integer. From a number the integer is taken by adding its
opposite, so that negative zero less zero is zero. -/
def addOpposite (a : Sourced) (i : Int64) : Except Trouble Value :=
  let number (i : Int64) : Sourced := ⟨.number (.int i), .unknown⟩
  match a.value with
  | .number _ => arithmetic .add a (number (-i))
  | _ => arithmetic .sub a (number i)

/-- The number with the other sign. -/
def negate (a : Sourced) : Except Trouble Value :=
  match a.value.toNumber? with
  | some x => .ok (.number x.negate)
  | none => .error (notNumbers "unm" a a)

/-- Two texts joined, numbers counting as their texts. -/
def concat (a b : Sourced) : Except Trouble Value :=
  match a.value.toBytes?, b.value.toBytes? with
  | some x, some y => .ok (.str (x ++ y))
  | some _, none => .error (.unfit "concatenate" b)
  | none, _ => .error (.unfit "concatenate" a)

/-- The length of a text, a table or a vector. -/
def lengthOf (m : Memory) (a : Sourced) : Except Trouble Value :=
  match a.value with
  | .str bytes => .ok (.ofNat bytes.length)
  | .table i => .ok (.ofNat (m.table i).length)
  | .vector i => .ok (.ofNat (m.vector i).size)
  | _ => .error (.unfit "get length of" a)

/-- The memory after the length of a value was asked for. -/
def measured (m : Memory) (value : Value) : Memory :=
  match value with
  | .table i => m.modifyTable i Table.measured
  | _ => m

/-- Bytes are compared as numbers, and a text comes before all that it begins. -/
def compareBytes : Bytes → Bytes → Ordering
  | [], [] => .eq
  | [], _ => .lt
  | _, [] => .gt
  | x :: xs, y :: ys => (compare x.toNat y.toNat).then (compareBytes xs ys)

/-- How two numbers or two texts compare. -/
def order (a b : Value) : Except Trouble (Option Ordering) :=
  match a, b with
  | .number x, .number y => .ok (x.compare? y)
  | .str x, .str y => .ok (some (compareBytes x y))
  | _, _ =>
    if a.shownType = b.shownType then
      .error (.error s!"attempt to compare two {a.shownType} values")
    else .error (.error s!"attempt to compare {a.shownType} with {b.shownType}")

/-- A comparison of two numbers or two texts holds. -/
def holds (c : Comparison) (a b : Value) : Except Trouble Bool :=
  (order a b).map fun r =>
    match c with
    | .less => r == some .lt
    | .lessOrEqual => r == some .lt || r == some .eq

end Operation

/-! ## Loops -/

/-- The bounds of a loop while it runs: where it stands, how far it goes, and its
step. For integers the middle one is the number of rounds that are left. -/
structure Loop where
  now : Value
  until_ : Value
  step : Value

namespace Loop

/-- A limit that no integer is, for a loop by a step of this sign: the last integer in
its direction, if the limit lies there. -/
def farLimit (below : Bool) (step : Int) : Option Int :=
  if below then if 0 < step then none else some Int64.minValue.toInt
  else if 0 < step then some Int64.maxValue.toInt else none

/-- The last integer that a loop can reach by a step of this sign, if there is one. -/
def intLimit (limit : Number) (step : Int) : Option Int :=
  match limit with
  | .int i => some i.toInt
  | .float x =>
    match x.datum with
    | .nan => none
    | .infinite negative => farLimit negative step
    | .finite _ _ _ =>
      let down := (x.floor.datum.toInt?).getD 0
      let exact := x.datum.toInt? == some down
      let bound := if 0 < step || exact then down else down + 1
      if bound < Int64.minValue.toInt then farLimit true step
      else if Int64.maxValue.toInt < bound then farLimit false step
      else some bound

/-- An integer as a value. -/
def intValue (i : Int) : Value := .number (.int (Int64.ofInt i))

/-- A loop over integers, if it has a round. -/
def overInts (first step last : Int) : Option Loop :=
  let distance := if 0 < step then last - first else first - last
  if distance < 0 then none
  else some ⟨intValue first, intValue (distance / step.natAbs), intValue step⟩

/-- Fail because a bound is no number. -/
def badBound {α : Type} (what : String) (v : Value) : Except Trouble α :=
  .error (.error s!"bad 'for' {what} (number expected, got {v.shownType})")

/-- Fail because the step of a loop is zero. -/
def zeroStep {α : Type} : Except Trouble α := .error (.error "'for' step is zero")

/-- A floating-point number has not passed a limit. -/
def inside (now last step : Binary64) : Bool :=
  if Binary64.zero.lt step then now.le last else last.le now

/-- A loop whose numbers are not all integers, if it has a round. -/
def overFloats (first last step : Value) : Except Trouble (Option Loop) :=
  match last.toFloat?, step.toFloat?, first.toFloat? with
  | none, _, _ => badBound "limit" last
  | _, none, _ => badBound "step" step
  | _, _, none => badBound "initial value" first
  | some l, some s, some f =>
    if s.datum.isZero then zeroStep
    else
      let passed := if Binary64.zero.lt s then l.lt f else f.lt l
      .ok (if passed then none
        else some ⟨.number (.float f), .number (.float l), .number (.float s)⟩)

/-- A loop with these bounds, if it has a round. -/
def enter (first last step : Value) : Except Trouble (Option Loop) :=
  match first, step with
  | .number (.int f), .number (.int s) =>
    if s = 0 then zeroStep
    else
      match last.toNumber? with
      | none => badBound "limit" last
      | some limit => .ok ((intLimit limit s.toInt).bind (overInts f.toInt s.toInt))
  | _, _ => overFloats first last step

/-- The loop in its next round, if it has one. -/
def next (l : Loop) : Option Loop :=
  match l.now, l.until_, l.step with
  | .number (.int now), .number (.int left), .number (.int step) =>
    if left = 0 then none
    else some { l with now := .number (.int (now + step)), until_ := .number (.int (left - 1)) }
  | .number (.float now), .number (.float last), .number (.float step) =>
    let now := now.add step
    if inside now last step then some { l with now := .number (.float now) } else none
  | _, _, _ => none

end Loop

end ScpiScript.Lua
