import ScpiScript.Lua.Thread
/-!
# Calls

The function of a call stands in a register, with its arguments behind it. A function
of code is entered with its first registers where its arguments are, and its results
are put where it stood; a function of the engine gives its results at once.

- `Thread.call` calls the function in a register, and `Thread.leaveBy` does so in
  place of the running function.
- `Thread.leave` goes back to the caller.
- `Thread.require` loads a module.
-/

namespace ScpiScript.Lua

/-- A call of a function. -/
structure Call where
  /-- Where the function stands among all registers, its arguments behind it. -/
  slot : Nat
  /-- How many arguments it has. -/
  count : Nat
  /-- How many results are wanted, unless all are. -/
  wanted : Option Nat

/-- The memory with nothing in it. -/
def Memory.blank : Memory := ⟨#[], #[], #[], #[], ⟨[], []⟩⟩

namespace Thread

/-! ## Room -/

/-- How many registers the running functions can have together. -/
def stackLimit : Nat := 1000000

/-- How many registers a function of the engine needs. -/
def builtinSize : Nat := 20

/-- There is no room for so many registers from a place on. -/
def overflows (slot size : Nat) : Bool := stackLimit < slot + size

/-- Stop because there is no room for a function's registers. -/
def overflow (t : Thread) : Progress := t.raise (Utf8.encode "stack overflow")

/-! ## Functions of code -/

/-- Run a function next, whose first registers hold so many arguments. Its other
parameters are nil. -/
def enter (t : Thread) (frame : Frame) (count : Nat) (callers : List Caller) : Thread :=
  let p := frame.function.prototype
  let t := t.reserve (frame.base + count + p.size)
  let t := t.putAll (frame.base + count) (List.replicate (p.parameters - count) .nil)
  { t with frame, callers }

/-- A function of code by its number. -/
def closure (t : Thread) (i : Nat) : Closure := t.memory.closures[i]?.getD default

/-- Call a function of code. -/
def callClosure (t : Thread) (f : Closure) (c : Call) : Progress :=
  if overflows (c.slot + 1 + c.count) f.prototype.size then t.overflow
  else
    .going (t.enter ⟨f, c.slot + 1, c.slot, 0, c.wanted⟩ c.count (⟨t.frame, none⟩ :: t.callers))

/-- Call a function of code in place of the running function. -/
def replaceBy (t : Thread) (f : Closure) (c : Call) : Progress :=
  if overflows (c.slot + 1 + c.count) f.prototype.size then t.overflow
  else
    let home := t.frame.home
    let t := t.close t.frame.base
    let t := t.putAll (home + 1) (t.values (c.slot + 1) c.count)
    .going (t.enter ⟨f, home + 1, home, 0, t.frame.wanted⟩ c.count t.callers)

/-! ## Functions of the engine -/

/-- The arguments of a call. -/
def arguments (t : Thread) (c : Call) : List Value := t.values (c.slot + 1) c.count

/-- Stop because an argument does not suit the function in a register. The arguments
of a method are counted without its object. -/
def badArgument (t : Thread) (f : Nat) (name : String) (number : Nat) (what : String) :
    Progress :=
  let known := t.frame.function.prototype.describe? (t.frame.next - 1) f
  let shown := (known.map Description.shown).getD (Utf8.encode name)
  let number := if (known.map Description.kind) = some "method" then number - 1 else number
  let (before, behind) := match number with
    | 0 => ("calling '", s!"' on bad self ({what})")
    | number => (s!"bad argument #{number} to '", s!"' ({what})")
  t.raise (Utf8.encode before ++ shown ++ Utf8.encode behind)

/-- What an argument is, for a function that wanted something else. -/
def argumentType (values : List Value) (i : Nat) : String :=
  (values[i]?.map Value.shownType).getD "no value"

/-- Raise a value as an error. A text gets the place of a call put before it. -/
def raiseAt (t : Thread) (level : Int) (value : Value) : Progress :=
  match value with
  | .str bytes => t.raiseBare (t.site level.toNat ++ bytes)
  | _ => t.fail (.raised value)

/-- Raise an error as its arguments say: the value, and the level of the call whose place
it gets, which has thirty-two bits. -/
def raiseBy (t : Thread) (f : Nat) (values : List Value) : Progress :=
  let value := argument values 0
  match argument values 1 with
  | .nil => t.raiseAt 1 value
  | level =>
    match level.toNumber? with
    | none => t.badArgument f "error" 2 s!"number expected, got {argumentType values 1}"
    | some n =>
      match n.toInt? with
      | none => t.badArgument f "error" 2 "number has no integer representation"
      | some i => t.raiseAt i.toInt32.toInt value

/-- Run a function that runs no code, and go on with its results. -/
def perform (t : Thread) (f : Builtin) (values : List Value)
    (next : Thread → List Value → Progress) : Dialogue Progress :=
  let memory := t.memory
  let t := { t with memory := .blank }
  ((f.call values).run memory).bind fun (result, memory) =>
    let t := { t with memory }
    .done (match result with
      | .ok results => next t results
      | .error fault => t.fail fault)

/-! ## Modules -/

/-- Remember what loading a module gave: the result of its function, else what the
function stored itself, else true. -/
def finishLoading (t : Thread) (l : Loading) (result : Value) : Thread :=
  let key := Value.ofText l.name
  let kept := (t.memory.table Module.loaded).get key
  let value := if result != .nil then result else if kept != .nil then kept else .bool true
  let t := { t with memory := t.memory.modifyTable Module.loaded fun m => m.set key value }
  t.deliver l.home l.wanted [value, l.origin]

/-- How many calls of the engine's own functions can run in each other. -/
def engineCalls : Nat := 200

/-- How many calls of the engine's own functions are running in a function that loads
a module. -/
def engineDepth (t : Thread) : Nat := 2 + t.callers.countP fun c => c.loading.isSome

/-- How many registers lie between a function that loads a module and the function of
the module. -/
def searchSize : Nat := 5

/-- Call the function of a module that was found. -/
def loadModule (t : Thread) (c : Call) (name : String) (found : Module.Found) :
    Dialogue Progress :=
  let home := c.slot + searchSize
  let loading (origin : Value) : Loading := ⟨name, origin, c.slot, c.wanted⟩
  let callers (origin : Value) := ⟨t.frame, some (loading origin)⟩ :: t.callers
  let put : Value := .ofText ":preload:"
  match found with
  | .missing messages => .done (t.raise (Module.missing name messages))
  | .bad message => .done (t.raiseBare message)
  | .builtin f =>
    t.perform f [.ofText name, put] fun t results =>
      .going (t.finishLoading (loading put) (argument results 0))
  | .closure i =>
    let f := t.closure i
    if overflows (home + 3) f.prototype.size then .done t.overflow
    else
      let callers := callers put
      let t := (t.reserve (home + 3)).putAll (home + 1) [.ofText name, put]
      .done (.going (t.enter ⟨f, home + 1, home, 0, some 1⟩ 2 callers))
  | .file prototype path =>
    if overflows (home + 4) prototype.size then .done t.overflow
    else
      let callers := callers (.ofText path)
      let (i, memory) := t.memory.addCell (.held (.table Memory.globalTable))
      let t := { t with memory }
      .done (.going (t.enter ⟨⟨prototype, #[i]⟩, home + 4, home, 0, some 1⟩ 0 callers))

/-- Load a module, unless it was loaded before. -/
def require (t : Thread) (f : Nat) (c : Call) : Dialogue Progress :=
  let values := t.arguments c
  match (argument values 0).toText? with
  | none =>
    .done (t.badArgument f "require" 1 s!"string expected, got {argumentType values 0}")
  | some text =>
    let name := Module.shortName text
    let kept := (t.memory.table Module.loaded).get (.ofText name)
    if kept.isTrue then .done (.going (t.deliver c.slot c.wanted [kept]))
    else if engineCalls ≤ t.engineDepth then
      .done (t.raiseBare (Utf8.encode "C stack overflow"))
    else
      match (t.memory.table Module.settings).get (.ofText "searchers") with
      | .table i =>
        let places := Module.places (t.memory.table i)
        t.loadModule c name (Module.searchAll t.memory name t.engineDepth places)
      | _ => .done (t.raise (Utf8.encode "'package.searchers' must be a table"))

/-! ## Calling and leaving -/

/-- Call a function of the engine that stands in a register. -/
def callBuiltin (t : Thread) (b : Builtin) (f : Nat) (c : Call) : Dialogue Progress :=
  if overflows (c.slot + 1 + c.count) builtinSize then .done t.overflow
  else
    match b with
    | .error => .done (t.raiseBy f (t.arguments c))
    | .require => t.require f c
    | b =>
      if b = .tostring && c.count = 0 then .done (t.badArgument f "tostring" 1 "value expected")
      else
        t.perform b (t.arguments c) fun t results => .going (t.deliver c.slot c.wanted results)

/-- The call of the function in a register with so many arguments, or all behind it. -/
def callAt (t : Thread) (f : Nat) (arguments results : Option Nat) : Call :=
  let slot := t.frame.base + f
  ⟨slot, arguments.getD (t.top - (slot + 1)), results⟩

/-- Call the function in a register. -/
def call (t : Thread) (f : Nat) (arguments results : Option Nat) : Dialogue Progress :=
  let c := t.callAt f arguments results
  match t.at_ c.slot with
  | .closure i => .done (t.callClosure (t.closure i) c)
  | .builtin b => t.callBuiltin b f c
  | value => .done (t.stop (.unfit "call" ⟨value, .register f⟩))

/-- Leave the running function for the function in a register, or, if that is one of
the engine's, call it for all of its results. -/
def leaveBy (t : Thread) (f : Nat) (arguments : Option Nat) : Dialogue Progress :=
  let c := t.callAt f arguments none
  match t.at_ c.slot with
  | .closure i => .done (t.replaceBy (t.closure i) c)
  | _ => t.call f arguments none

/-- Leave the running function with results. -/
def leave (t : Thread) (results : List Value) : Progress :=
  let t := t.close t.frame.base
  match t.callers with
  | [] => .ended results t.memory
  | ⟨frame, loading⟩ :: callers =>
    let t := match loading with
      | none => t.deliver t.frame.home t.frame.wanted results
      | some l => t.finishLoading l (argument results 0)
    .going { t with frame, callers }

end Thread

end ScpiScript.Lua
