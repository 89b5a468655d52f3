import ScpiScript.Lua.Compile.Pending
/-!
# Variables, blocks and functions

A local variable can be seen from behind its declaration to the end of its block, and
in the functions written there. A name that is no variable is a field of the variable
`_ENV`, which every chunk has from outside.

- `declare` and `showDeclared` bring local variables into sight in two steps.
- `enterBlock` and `leaveBlock`, `enterFunction` and `leaveFunction` enclose code.
- `nameValue` is the value that a name stands for.
-/

namespace ScpiScript.Lua

namespace Draft

/-- The register of the local variable with a name, the last one if there are
several. -/
def local? (d : Draft) (name : String) : Option Nat := go d.locals.size
where
  /-- Look below some register. -/
  go : Nat → Option Nat
    | 0 => none
    | r + 1 => if (d.locals[r]?.map Prod.fst) = some name then some r else go r

/-- The number of the variable with a name among the captures. -/
def capture? (d : Draft) (name : String) : Option Nat :=
  d.captures.findIdx? fun c => c.name = name

/-- Mark the block of a local variable as one with a variable that a function uses. -/
def markCaptured (d : Draft) (r : Nat) : Draft := { d with blocks := go d.blocks }
where
  /-- Mark the innermost block that begins before the variable. -/
  go : List BlockScope → List BlockScope
    | [] => []
    | block :: rest =>
      if r < block.around then block :: go rest else { block with captured := true } :: rest

/-- A variable of the functions around as a capture of this one, if there is such a
variable. -/
def withCapture (d : Draft) (name : String) (place : Place) : Place × Draft :=
  let add (isLocal : Bool) (index : Nat) : Place × Draft :=
    (.outer d.captures.size, { d with captures := d.captures.push ⟨name, isLocal, index⟩ })
  match place with
  | .localVariable r => add true r
  | .outer i => add false i
  | _ => (.none, d)

/-- The variable with a name as a function inside the innermost of some functions sees
it; on its way in it becomes a capture of each function that it passes. -/
def capture (name : String) : List Draft → Place × List Draft
  | [] => (.none, [])
  | d :: around =>
    match d.local? name, d.capture? name with
    | some r, _ => (.localVariable r, d.markCaptured r :: around)
    | none, some i => (.outer i, d :: around)
    | none, none =>
      let (place, around) := capture name around
      let (place, d) := d.withCapture name place
      (place, d :: around)

/-- How many variables of enclosing functions a function can use. -/
def captureLimit : Nat := 255

/-- How many local variables a function can have at a time. -/
def localLimit : Nat := 200

end Draft

namespace Compiler

/-! ## Local variables -/

/-- Declare a local variable. It cannot be seen yet. -/
def declare (name : String) : Compiler Unit := do
  let d ← draft
  if Draft.localLimit ≤ d.locals.size + d.declared.length then
    limitReached d.line Draft.localLimit "local variables"
  modifyDraft fun d => { d with declared := d.declared ++ [name] }

/-- Let the first variables that are declared be seen. -/
def showDeclared (count : Nat) : Compiler Unit := modifyDraft (go count)
where
  /-- Show the variables one by one. -/
  go : Nat → Draft → Draft
    | 0, d => d
    | count + 1, d =>
      match d.declared with
      | [] => d
      | name :: declared => go count
        { d with
          declared := declared
          locals := d.locals.push (name, d.allVariables.size)
          allVariables := d.allVariables.push ⟨name, d.code.size, d.code.size⟩ }

/-- Let the variable in a register begin behind the last instruction, in messages. -/
def beginLate (r : Nat) : Compiler Unit :=
  modifyDraft fun d =>
    match d.locals[r]? with
    | some (_, i) =>
      { d with allVariables := d.allVariables.modify i fun v => { v with start := d.code.size } }
    | none => d

/-- End the variables from a register on. -/
def endVariables (first : Nat) : Compiler Unit :=
  modifyDraft fun d =>
    let ended := (d.locals.toList.drop first).map Prod.snd
    { d with
      locals := d.locals.take first
      allVariables := ended.foldl
        (fun vs i => vs.modify i fun v => { v with stop := d.code.size }) d.allVariables }

/-! ## Blocks -/

/-- Begin a block. -/
def enterBlock (isLoop : Bool) : Compiler Unit :=
  modifyDraft fun d => { d with blocks := ⟨d.locals.size, false, isLoop⟩ :: d.blocks }

/-- End a block. Those of its variables that functions use get a place of their
own. -/
def leaveBlock : Compiler Unit := do
  match (← draft).blocks with
  | [] => return
  | block :: rest =>
    endVariables block.around
    if block.isLoop then
      let _ ← here
    if !rest.isEmpty && block.captured then perform (.close block.around)
    modifyDraft fun d => { d with free := block.around, blocks := rest }

/-! ## Functions -/

/-- Begin a function in some line. -/
def enterFunction (line : Nat) : Compiler Unit :=
  modify fun s => { s with draft := .empty line, outer := s.draft :: s.outer }

/-- How many jumps are followed to where they lead in the end. -/
def jumpsFollowed : Nat := 100

/-- Where a jump to a place leads in the end. -/
def finalTarget (code : Array Instruction) : Nat → Nat → Nat
  | 0, target => target
  | tries + 1, target =>
    match code[target]? with
    | some (.jump next) => finalTarget code tries next
    | _ => target

/-- The instruction with a jump made to where it leads in the end. -/
def straightened (code : Array Instruction) : Instruction → Instruction
  | .jump target => .jump (finalTarget code jumpsFollowed target)
  | other => other

/-- The function that was made. -/
def finished (chunk : Bytes) (parameters : Nat) (d : Draft) : Prototype where
  chunk := chunk
  code := d.code.map (straightened d.code)
  lines := d.lines
  inner := d.inner
  captures := d.captures
  allVariables := d.allVariables
  parameters := parameters
  size := d.size

/-- End the function that is being made. -/
def finish (parameters : Nat) : Compiler Prototype := do
  perform (.leave (← localCount) (some 0))
  leaveBlock
  let s ← get
  return finished s.chunk parameters s.draft

/-- End a function, and make it a value of the function around it. -/
def leaveFunction (parameters : Nat) : Compiler Pending := do
  let inner ← finish parameters
  modify fun s =>
    match s.outer with
    | [] => s
    | d :: outer => { s with draft := { d with inner := d.inner.push inner }, outer }
  let at_ ← emit (.makeFunction 0 ((← draft).inner.size - 1))
  toNextRegister (.of (.unplaced at_))

/-! ## Names -/

/-- Fail if a function uses too many variables from outside; of several, the outermost
one counts. -/
def checkCaptures : Compiler Unit := do
  let s ← get
  match (s.outer.reverse ++ [s.draft]).find? fun d => Draft.captureLimit < d.captures.size with
  | some d => limitReached d.line Draft.captureLimit "upvalues"
  | none => return

/-- The variable with a name, if there is one. -/
def resolve (name : String) : Compiler Place := do
  let s ← get
  match s.draft.local? name, s.draft.capture? name with
  | some r, _ => return .localVariable r
  | none, some i => return .outer i
  | none, none =>
    let (place, outer) := Draft.capture name s.outer
    let (place, d) := s.draft.withCapture name place
    set { s with draft := d, outer }
    checkCaptures
    return place

/-- The value of the variable with a name. -/
def nameValue (name : String) : Compiler Pending := do
  match ← resolve name with
  | .none =>
    let environment ← toObject (.of (← resolve environmentName))
    index environment (.of (.str (Utf8.encode name)))
  | place => return .of place

end Compiler

end ScpiScript.Lua
