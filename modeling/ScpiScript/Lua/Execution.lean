import ScpiScript.Lua.Call
/-!
# Execution

Code runs by one instruction of the running function after the other. An instruction
changes the registers and the memory, may ask the instrument, and may call or leave a
function.

- `Thread.carryOut` is what an instruction does, and `Thread.step` carries out the
  next one.
- `Thread.run` runs code to its end.
-/

namespace ScpiScript.Lua.Thread

/-! ## Fields -/

/-- Go on with the field of an object in a register. -/
def readField (t : Thread) (dest : Nat) (object : Sourced) (key : Value) : Dialogue Progress :=
  match Operation.fieldOf t.memory object.value key with
  | some (.value v) =>
    let t := { t with memory := Operation.touched t.memory object.value key }
    .done (.going (t.setRegister dest v))
  | some .isOpen => .ask .isOpen fun b => .done (.going (t.setRegister dest (.bool b)))
  | none => .done (t.stop (.unfit "index" object))

/-- Go on with a field of an object written. -/
def writeField (t : Thread) (object : Sourced) (key value : Value) : Progress :=
  match Operation.changeOf t.memory object key value with
  | .ok change => .going { t with memory := change.apply t.memory }
  | .error trouble => t.stop trouble

/-- Go on with a new table in a register. -/
def newTable (t : Thread) (dest slots others : Nat) : Thread :=
  let (v, memory) := t.memory.addTable (.sized slots others)
  { t with memory }.setRegister dest v

/-- Put values behind a register into its table, under the keys behind a number. -/
def fillTable (t : Thread) (object : Nat) (count : Option Nat) (before : Nat) : Thread :=
  let first := t.frame.base + object + 1
  let values := t.values first (count.getD (t.top - first))
  match t.register object with
  | .table i => { t with memory := t.memory.modifyTable i fun m => m.fill before values }
  | _ => t

/-! ## Operators -/

/-- Go on with the length of the value of a register in another one. -/
def takeLength (t : Thread) (dest source : Nat) : Progress :=
  let value := t.register source
  match Operation.lengthOf t.memory ⟨value, .register source⟩ with
  | .ok length =>
    .going ({ t with memory := Operation.measured t.memory value }.setRegister dest length)
  | .error trouble => t.stop trouble

/-- The texts in some registers before one, in front of a text that is joined
already. -/
def joined (t : Thread) : (count last : Nat) → (behind : Sourced) → Except Trouble Value
  | 0, _, behind => .ok behind.value
  | count + 1, last, behind =>
    let r := last - 1
    match Operation.concat ⟨t.register r, .register r⟩ behind with
    | .ok value => t.joined count r ⟨value, .register r⟩
    | .error trouble => .error trouble

/-- Go on with the texts in some registers joined in the first one, from the last one
on. -/
def concat (t : Thread) (first count : Nat) : Progress :=
  let last := first + count - 1
  t.settle first (t.joined (count - 1) last ⟨t.register last, .register last⟩)

/-- Compare two values, and go on as the comparison came out. -/
def testOrder (t : Thread) (c : Comparison) (a b : Value) (on : Bool) : Progress :=
  match Operation.holds c a b with
  | .ok holds => t.test (holds == on)
  | .error trouble => t.stop trouble

/-! ## Loops -/

/-- Put the bounds of a loop in three registers, and its variable in the fourth. -/
def setLoop (t : Thread) (bounds : Nat) (l : Loop) : Thread :=
  t.putAll (t.frame.base + bounds) [l.now, l.until_, l.step, l.now]

/-- The bounds of a loop in three registers. -/
def loopAt (t : Thread) (bounds : Nat) : Loop :=
  ⟨t.register bounds, t.register (bounds + 1), t.register (bounds + 2)⟩

/-- Begin a loop, or go on behind it. -/
def enterLoop (t : Thread) (bounds target : Nat) : Progress :=
  let l := t.loopAt bounds
  match Loop.enter l.now l.until_ l.step with
  | .ok (some l) => .going (t.setLoop bounds l)
  | .ok none => .going (t.jump target)
  | .error trouble => t.stop trouble

/-- Go on with the next round of a loop, or behind it. -/
def repeatLoop (t : Thread) (bounds target : Nat) : Thread :=
  match (t.loopAt bounds).next with
  | some l => (t.setLoop bounds l).jump target
  | none => t

/-! ## Instructions -/

/-- Go on with a new function in a register. -/
def makeFunction (t : Thread) (dest index : Nat) : Thread :=
  let prototype := t.frame.function.prototype.inner[index]?.getD default
  let (captured, t) := t.shareAll prototype.captures.toList
  let (v, memory) := t.memory.addClosure ⟨prototype, captured.toArray⟩
  { t with memory }.setRegister dest v

/-- Go on with a method of an object in a register, and the object in the next one. -/
def readMethod (t : Thread) (dest object : Nat) (key : Value) : Dialogue Progress :=
  let value := t.register object
  (t.setRegister (dest + 1) value).readField dest ⟨value, .register object⟩ key

/-- What an instruction does. The next instruction of the function is already the one
behind it. -/
def carryOut (t : Thread) : Instruction → Dialogue Progress
  | .move dest source => .done (.going (t.setRegister dest (t.register source)))
  | .load dest value => .done (.going (t.setRegister dest value))
  | .loadFalse dest => .done (.going (t.setRegister dest (.bool false)).skip)
  | .loadNil first last =>
    .done (.going (t.putAll (t.frame.base + first) (List.replicate (last + 1 - first) .nil)))
  | .readOuter dest index => .done (.going (t.setRegister dest (t.outer index)))
  | .writeOuter index source => .done (.going (t.setOuter index (t.register source)))
  | .readOuterField dest index key => t.readField dest ⟨t.outer index, .outer index⟩ (.str key)
  | .readField dest object key => t.readField dest ⟨t.register object, .register object⟩ (.str key)
  | .readPosition dest object i =>
    t.readField dest ⟨t.register object, .register object⟩ (.ofNat i)
  | .readKey dest object key =>
    t.readField dest ⟨t.register object, .register object⟩ (t.register key)
  | .writeOuterField index key value =>
    .done (t.writeField ⟨t.outer index, .outer index⟩ (.str key) (t.operand value).value)
  | .writeField object key value =>
    .done (t.writeField ⟨t.register object, .register object⟩ (.str key) (t.operand value).value)
  | .writePosition object i value =>
    .done (t.writeField ⟨t.register object, .register object⟩ (.ofNat i) (t.operand value).value)
  | .writeKey object key value =>
    .done (t.writeField ⟨t.register object, .register object⟩ (t.register key)
      (t.operand value).value)
  | .readMethod dest object key => t.readMethod dest object (t.operand key).value
  | .newTable dest slots others => .done (.going (t.newTable dest slots others))
  | .fillTable object count before => .done (.going (t.fillTable object count before))
  | .arithmetic op dest left right =>
    .done (t.settle dest (Operation.arithmetic op (t.operand left) (t.operand right)))
  | .addOpposite dest source i =>
    .done (t.settle dest (Operation.addOpposite ⟨t.register source, .register source⟩ i))
  | .negate dest source =>
    .done (t.settle dest (Operation.negate ⟨t.register source, .register source⟩))
  | .not dest source => .done (.going (t.setRegister dest (.bool !(t.register source).isTrue)))
  | .length dest source => .done (t.takeLength dest source)
  | .concat first count => .done (t.concat first count)
  | .close first => .done (.going (t.close (t.frame.base + first)))
  | .jump target => .done (.going (t.jump target))
  | .testEqual left right on =>
    .done (t.test ((t.register left).equal (t.operand right).value == on))
  | .testOrder c left right on =>
    .done (t.testOrder c (t.operand left).value (t.operand right).value on)
  | .test source on => .done (t.test ((t.register source).isTrue == on))
  | .testSet dest source on =>
    let value := t.register source
    .done (.going (if value.isTrue == on then t.setRegister dest value else t.skip))
  | .call f arguments results => t.call f arguments results
  | .leaveBy f arguments => t.leaveBy f arguments
  | .leave first count =>
    let slot := t.frame.base + first
    .done (t.leave (t.values slot (count.getD (t.top - slot))))
  | .enterLoop bounds target => .done (t.enterLoop bounds target)
  | .repeatLoop bounds target => .done (.going (t.repeatLoop bounds target))
  | .makeFunction dest index => .done (.going (t.makeFunction dest index))

/-- Carry out the next instruction. A function is left at the end of its code. -/
def step (t : Thread) : Dialogue Progress :=
  match t.frame.function.prototype.code[t.frame.next]? with
  | some i => t.skip.carryOut i
  | none => .done (t.leave [])

/-- How many instructions are carried out at the most. -/
def instructionLimit : Nat := Nat.pow 2 60

/-- Carry out so many instructions at the most. Code that is still running then is stopped as
by an error without a value. The language has no such limit and goes on: `instructionLimit` is
more than a machine carries out in its time. -/
def runFor : (count : Nat) → Thread → Dialogue (Except Fault (List Value) × Memory)
  | 0, t => .done (.error (.raised .nil), t.memory)
  | count + 1, t =>
    match t.step with
    | .done (.going t) => runFor count t
    | .done (.ended results memory) => .done (.ok results, memory)
    | .done (.failed fault memory) => .done (.error fault, memory)
    | .ask request next => .ask request fun answer =>
      (next answer).bind fun
        | .going t => runFor count t
        | .ended results memory => .done (.ok results, memory)
        | .failed fault memory => .done (.error fault, memory)

/-- The registers in front of those of a chunk. -/
def chunkBase : Nat := 4

/-- The state at the start of a chunk. -/
def start (memory : Memory) (chunk : Prototype) : Thread :=
  let (i, memory) := memory.addCell (.held (.table Memory.globalTable))
  let frame : Frame := ⟨⟨chunk, #[i]⟩, chunkBase, 2, 0, none⟩
  (⟨memory, #[], 0, [], frame, []⟩ : Thread).reserve (chunkBase + chunk.size)

/-- Run a chunk to its end: its results, or why it stopped, and the memory then. -/
def run (memory : Memory) (chunk : Prototype) : Dialogue (Except Fault (List Value) × Memory) :=
  runFor instructionLimit (start memory chunk)

end ScpiScript.Lua.Thread
