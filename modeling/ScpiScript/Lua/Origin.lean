import ScpiScript.Lua.Operation
/-!
# Where a value came from

A message about a value says which variable, field or constant it is, where that can
be told from the instructions before the one that failed: a register holds a local
variable, or what the last instruction that sets it for certain has put there.

- `Prototype.setter?` is that instruction.
- `Prototype.describe?` is the kind of place that a value came from, and its name.
- `Prototype.note` is the description as it ends a message.
-/

namespace ScpiScript.Lua

/-- The kind of place that a value came from, and its name there. -/
structure Description where
  kind : String
  name : Bytes

/-- The name as a message shows it, up to its first zero byte. -/
def Description.shown (d : Description) : Bytes := d.name.takeWhile (· ≠ 0)

namespace Prototype

/-- The name of the local variable in a register at an instruction. -/
def local? (p : Prototype) (at_ r : Nat) : Option String :=
  (p.allVariables.toList.filter fun v => v.start ≤ at_ && at_ < v.stop)[r]?.map Variable.name

/-- The last instruction before one that sets a register, in a run over the
instructions from some place on. One that a jump leads past does not count: what the
register holds behind the jump is not known. -/
def setterFrom (p : Prototype) (last r : Nat) :
    (count at_ target : Nat) → (found : Option Nat) → Option Nat
  | 0, _, _, found => found
  | count + 1, at_, target, found =>
    match p.code[at_]? with
    | none => found
    | some (.jump dest) =>
      let ahead := at_ < dest && dest ≤ last && target < dest
      setterFrom p last r count (at_ + 1) (if ahead then dest else target) found
    | some i =>
      let found :=
        if i.sets r then (if at_ < target then none else some at_) else found
      setterFrom p last r count (at_ + 1) target found

/-- The instruction that set a register before an instruction, if that is certain. -/
def setter? (p : Prototype) (last r : Nat) : Option Nat :=
  p.setterFrom last r last 0 0 none

/-- The name of the variable from outside a function by its number. -/
def captureName (p : Prototype) (i : Nat) : Bytes :=
  ((p.captures[i]?).map fun c => Utf8.encode c.name).getD (Utf8.encode "?")

/-- What a register is known as: a description, or the instruction that set it. -/
inductive Known
  | described (d : Description)
  | set (at_ : Nat)
  | unknown

/-- What a register is known as, at an instruction. `tries` bounds how often a value
was copied. -/
def knownAs (p : Prototype) : (tries : Nat) → (at_ r : Nat) → Known
  | 0, _, _ => .unknown
  | tries + 1, at_, r =>
    match p.local? at_ r with
    | some name => .described ⟨"local", Utf8.encode name⟩
    | none =>
      match p.setter? at_ r with
      | none => .unknown
      | some setter =>
        match p.code[setter]? with
        | some (.move dest source) =>
          if source < dest then knownAs p tries setter source else .set setter
        | some (.readOuter _ i) => .described ⟨"upvalue", p.captureName i⟩
        | some (.load _ (.str bytes)) => .described ⟨"constant", bytes⟩
        | _ => .set setter

/-- How often a value is followed to the register that it was copied from. -/
def copies : Nat := 256

/-- The kind of a field of an object that has a name. -/
def fieldKind (objectName : Option Bytes) : String :=
  if objectName = some (Utf8.encode environmentName) then "global" else "field"

/-- The name of the variable in a register, if it holds one. -/
def variableName? (p : Prototype) (at_ r : Nat) : Option Bytes :=
  match p.knownAs copies at_ r with
  | .described d => if d.kind = "constant" then none else some d.name
  | _ => none

/-- The name of a key in a register: a constant text, or unknown. -/
def keyName (p : Prototype) (at_ r : Nat) : Bytes :=
  match p.knownAs copies at_ r with
  | .described d => if d.kind = "constant" then d.name else Utf8.encode "?"
  | _ => Utf8.encode "?"

/-- The name of the key of a method. -/
def methodName (p : Prototype) (at_ : Nat) : Operand → Bytes
  | .constant (.str bytes) => bytes
  | .constant _ => Utf8.encode "?"
  | .register r => p.keyName at_ r

/-- What an instruction puts in its register, if it is a field. -/
def field? (p : Prototype) (at_ : Nat) : Option Description :=
  match p.code[at_]? with
  | some (.readOuterField _ i key) => some ⟨fieldKind (some (p.captureName i)), key⟩
  | some (.readKey _ object key) =>
    some ⟨fieldKind (p.variableName? at_ object), p.keyName at_ key⟩
  | some (.readPosition _ _ _) => some ⟨"field", Utf8.encode "integer index"⟩
  | some (.readField _ object key) => some ⟨fieldKind (p.variableName? at_ object), key⟩
  | some (.readMethod _ _ key) => some ⟨"method", p.methodName at_ key⟩
  | _ => none

/-- What the value in a register is, at an instruction. -/
def describe? (p : Prototype) (at_ r : Nat) : Option Description :=
  match p.knownAs copies at_ r with
  | .described d => some d
  | .set setter => p.field? setter
  | .unknown => none

/-- What a value is that an instruction got from somewhere. -/
def sourceOf? (p : Prototype) (at_ : Nat) : Origin → Option Description
  | .register r => p.describe? at_ r
  | .outer i => some ⟨"upvalue", p.captureName i⟩
  | .unknown => none

/-- What a value is, as it ends a message. -/
def note (p : Prototype) (at_ : Nat) (origin : Origin) : Bytes :=
  match p.sourceOf? at_ origin with
  | some d => Utf8.encode s!" ({d.kind} '" ++ d.shown ++ Utf8.encode "')"
  | none => []

end Prototype

end ScpiScript.Lua
