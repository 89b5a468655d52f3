import ScpiScript.Scope.Value
/-!
# The execution scope

A scope binds names to values. Scripts read it when a command names a variable,
and the script engine writes it; any type that can look a name up and bind one is
a scope.

- `Scope.textOf` and `Scope.vectorOf` read a name for use in a command, and say
  why where they cannot.
-/

namespace ScpiScript

/-- Why a name could not be read or bound. -/
inductive ScopeError
  | undefined (name : String)
  | notText (name kind : String)
  | notVector (name kind : String)
  /-- The scope refuses to hold a value of a kind under a name. -/
  | unassignable (name kind : String)
  deriving DecidableEq, Repr

/-- The message for a scope error. -/
def ScopeError.message : ScopeError → String
  | undefined name => s!"'{name}' is not defined"
  | notText name kind => s!"'{name}' ({kind}) has no text form"
  | notVector name kind => s!"'{name}' is a {kind}, not a float vector"
  | unassignable name kind => s!"cannot assign a {kind} to '{name}'"

/-- The text form of what a name is bound to. -/
def ScopeValue.textFor (name : String) : Option ScopeValue → Except ScopeError String
  | none => .error (.undefined name)
  | some value =>
    match value.toText? with
    | some t => .ok t
    | none => .error (.notText name value.kind)

/-- The samples of what a name is bound to. -/
def ScopeValue.vectorFor (name : String) : Option ScopeValue → Except ScopeError (List Binary32)
  | none => .error (.undefined name)
  | some value =>
    match value.toVector? with
    | some samples => .ok samples
    | none => .error (.notVector name value.kind)

/-- A type of scopes. -/
class Scope (σ : Type) where
  lookup : σ → String → Option ScopeValue
  assign : σ → String → ScopeValue → Except ScopeError σ

namespace Scope

variable {σ : Type} [Scope σ]

/-- The text form of a name's value. -/
def textOf (scope : σ) (name : String) : Except ScopeError String :=
  ScopeValue.textFor name (lookup scope name)

/-- The samples bound to a name. -/
def vectorOf (scope : σ) (name : String) : Except ScopeError (List Binary32) :=
  ScopeValue.vectorFor name (lookup scope name)

end Scope

end ScpiScript
