import ScpiScript.Binary.Arithmetic
import ScpiScript.Decimal.Shortest
/-!
# Values of the execution scope

A name in the scope stands for a text, a number, a vector of samples, or
something that only the script engine can hold and that has no text.

- `numberText` writes a number: integers of moderate size without a point, all
  others by the shortest decimal that reads back, never with an exponent.
- `vectorText` writes a vector in rows of eight cells with five places.
- `ScopeValue.toText?` is the text that stands for a value in a command.
-/

namespace ScpiScript

open Binary

/-- A value bound to a name. -/
inductive ScopeValue
  | text (s : String)
  | number (x : Binary64)
  | vector (samples : List Binary32)
  /-- A value of the engine without a text form, by the name of its kind. -/
  | foreign (kind : String)
  deriving DecidableEq, Repr

/-- Integers from here on are written like other numbers. -/
def plainIntegerLimit : Nat := 1000000000000000

/-- The text of an integer. -/
def integerText (i : Int) : String :=
  String.ofList ((if i < 0 then ['-'] else []) ++ Decimal.digits i.natAbs)

/-- The text of a number. A zero of either sign is `0`. -/
def numberText (x : Binary64) : String :=
  match x.datum with
  | .nan => "NaN"
  | .infinite negative => if negative then "-inf" else "inf"
  | .finite negative mantissa exponent =>
    let shortest := (Decimal.shortest binary64 mantissa exponent).positional
    let decimal := String.ofList ((if negative then ['-'] else []) ++ shortest)
    match (Datum.finite negative mantissa exponent).toInt? with
    | some i => if i.natAbs < plainIntegerLimit then integerText i else decimal
    | none => decimal

/-- Cells in a full row of a vector's text. -/
def vectorRowLength : Nat := 8

/-- Places after the point in a cell of a vector's text. -/
def vectorPlaces : Nat := 5

/-- A sample in a vector's text: a separating space, then the sign and the value.
Zero has a space in place of the sign, so that columns stay aligned. -/
def cellText (x : Binary32) : List Char :=
  match x.datum with
  | .nan => " NaN".toList
  | .infinite negative => (if negative then " -inf" else " +inf").toList
  | .finite negative mantissa exponent =>
    let (num, den) := Format.quotient mantissa exponent
    let sign := if mantissa = 0 then ' ' else if negative then '-' else '+'
    ' ' :: sign :: Decimal.fixed vectorPlaces num den

/-- Cut a list into rows of `length` elements (at least one), the last row being
what is left. -/
def rows {α : Type} (length : Nat) : List α → List (List α)
  | [] => []
  | x :: xs => (x :: xs.take (length - 1)) :: rows length (xs.drop (length - 1))
termination_by xs => xs.length
decreasing_by simp only [List.length_drop, List.length_cons]; omega

/-- The text of a vector: its rows between a line with an opening bracket and one
with a closing bracket. -/
def vectorText (samples : List Binary32) : String :=
  let body := (rows vectorRowLength samples).flatMap fun row => row.flatMap cellText ++ ['\n']
  String.ofList ("[\n".toList ++ body ++ "]\n".toList)

namespace ScopeValue

/-- What a value is called in an error message. -/
def kind : ScopeValue → String
  | text _ => "text"
  | number _ => "number"
  | vector _ => "float vector"
  | foreign k => k

/-- The text that stands for a value in a command. -/
def toText? : ScopeValue → Option String
  | text s => some s
  | number x => some (numberText x)
  | vector v => some (vectorText v)
  | foreign _ => none

/-- The samples of a vector. -/
def toVector? : ScopeValue → Option (List Binary32)
  | vector v => some v
  | _ => none

end ScopeValue

end ScpiScript
