import ScpiScript.Binary.Arithmetic
import ScpiScript.Decimal.Significant
import ScpiScript.Scope.Value
import ScpiScript.Text.Blank
/-!
# Numbers of the language

A Lua number is a 64-bit integer, with arithmetic that wraps around, or a 64-bit
floating-point number.

- `Number.ofNumeral?` reads a numeral, `Number.ofText?` a text that holds one.
- `Number.text` is how a number prints.
- `Number.arithmetic` applies an operator: two integers give an integer, save in a
  division, and otherwise both operands count as floating-point numbers.
-/

namespace ScpiScript.Lua

/-- A number: an integer or a floating-point number. -/
inductive Number
  | int (i : Int64)
  | float (x : Binary64)
  deriving DecidableEq, Repr

/-- The arithmetic operators. -/
inductive ArithmeticOp
  | add
  | sub
  | mul
  | div
  | floorDiv
  | mod
  deriving DecidableEq, Repr

/-- Why an arithmetic operation has no result. -/
inductive ArithmeticError
  | floorDivByZero
  | modByZero
  deriving DecidableEq, Repr

/-- The message for a failed arithmetic operation. -/
def ArithmeticError.message : ArithmeticError → String
  | floorDivByZero => "attempt to divide by zero"
  | modByZero => "attempt to perform 'n%0'"

namespace Number

open Binary Decimal

/-! ## Reading -/

/-- The value of a hexadecimal digit. -/
def hexValue? (c : Char) : Option Nat :=
  if '0' ≤ c && c ≤ '9' then some (c.toNat - '0'.toNat)
  else if 'a' ≤ c && c ≤ 'f' then some (c.toNat - 'a'.toNat + 10)
  else if 'A' ≤ c && c ≤ 'F' then some (c.toNat - 'A'.toNat + 10)
  else none

/-- A hexadecimal digit. -/
def isHexDigit (c : Char) : Bool := (hexValue? c).isSome

/-- The value of a run of hexadecimal digits. -/
def hexNat (cs : List Char) : Nat := cs.foldl (fun n c => 16 * n + (hexValue? c).getD 0) 0

/-- A decimal exponent behind its letter: an optional sign and at least one digit. -/
def exponent? (cs : List Char) : Option Int :=
  match cs with
  | '-' :: rest => (read? rest).map fun n => -(n : Int)
  | '+' :: rest => (read? rest).map fun n => (n : Int)
  | _ => (read? cs).map fun n => (n : Int)

/-- The digits before and after the point of a mantissa, and what follows them. -/
def mantissa (digit : Char → Bool) (cs : List Char) : List Char × List Char × List Char :=
  let whole := cs.takeWhile digit
  match cs.dropWhile digit with
  | '.' :: rest => (whole, rest.takeWhile digit, rest.dropWhile digit)
  | rest => (whole, [], rest)

/-- The exponent that ends a numeral, if there is one; `marks` are its letters. -/
def ending? (marks : List Char) (rest : List Char) : Option Int :=
  match rest with
  | [] => some 0
  | c :: cs => if c ∈ marks then exponent? cs else none

/-- The floating-point number of a numeral without its sign: decimal, with an
exponent of ten, or hexadecimal, with an exponent of two. -/
def floatOf? (negative : Bool) (cs : List Char) : Option Binary64 :=
  match cs with
  | '0' :: 'x' :: rest | '0' :: 'X' :: rest =>
    let (whole, fraction, tail) := mantissa isHexDigit rest
    if whole.isEmpty && fraction.isEmpty then none
    else (ending? ['p', 'P'] tail).map fun e =>
      .ofBinary negative (hexNat (whole ++ fraction)) (e - 4 * fraction.length)
  | _ =>
    let (whole, fraction, tail) := mantissa Char.isDigit cs
    if whole.isEmpty && fraction.isEmpty then none
    else (ending? ['e', 'E'] tail).map fun e =>
      .ofDecimal negative (Nat.ofDigitChars 10 (whole ++ fraction) 0) (e - fraction.length)

/-- An integer that fits 64 bits. -/
def inRange? (i : Int) : Option Int64 :=
  if Int64.minValue.toInt ≤ i && i ≤ Int64.maxValue.toInt then some (Int64.ofInt i) else none

/-- The integer of a numeral without its sign. A hexadecimal one wraps around, and
a decimal one has to fit. -/
def intOf? (negative : Bool) (cs : List Char) : Option Int64 :=
  match cs with
  | '0' :: 'x' :: rest | '0' :: 'X' :: rest =>
    if rest.isEmpty || !rest.all isHexDigit then none
    else
      let n : Int := hexNat rest
      some (Int64.ofInt (if negative then -n else n))
  | _ =>
    (read? cs).bind fun n => inRange? (if negative then -(n : Int) else n)

/-- The number of a numeral without its sign. -/
def ofNumeral? (negative : Bool) (cs : List Char) : Option Number :=
  match intOf? negative cs with
  | some i => some (int i)
  | none => (floatOf? negative cs).map float

/-- A blank of the language. -/
def isSpace (c : Char) : Bool := c = ' ' || ('\t' ≤ c && c ≤ '\r')

/-- The number that a text stands for: a numeral, an optional sign before it and
blanks around it. -/
def ofText? (cs : List Char) : Option Number :=
  let trimmed := Text.dropWhileEnd isSpace (cs.dropWhile isSpace)
  match trimmed with
  | '-' :: rest => ofNumeral? true rest
  | '+' :: rest => ofNumeral? false rest
  | _ => ofNumeral? false trimmed

/-! ## Printing -/

/-- Significant figures of a printed floating-point number. -/
def printedFigures : Nat := 14

/-- The text of a floating-point number. An integral one keeps a point, to tell it
from an integer. -/
def floatText (x : Binary64) : String :=
  match x.datum with
  | .nan => if x.isNegative then "-nan" else "nan"
  | .infinite negative => if negative then "-inf" else "inf"
  | .finite negative m e =>
    let (num, den) := Format.quotient m e
    let cs := if m = 0 then ['0'] else general printedFigures num den
    let marked := if cs.all Char.isDigit then cs ++ ['.', '0'] else cs
    String.ofList ((if negative then ['-'] else []) ++ marked)

/-- The text of a number. -/
def text : Number → String
  | int i => integerText i.toInt
  | float x => floatText x

/-! ## Arithmetic -/

/-- The number as a floating-point number. -/
def toFloat : Number → Binary64
  | int i => .ofInt i.toInt
  | float x => x

/-- The integer that a number equals, if it is one in range. -/
def toInt? : Number → Option Int64
  | int i => some i
  | float x => x.datum.toInt?.bind inRange?

/-- The integer part, toward zero, of a number, if it is in range. -/
def truncate? : Number → Option Int64
  | int i => some i
  | float x => x.datum.truncate?.bind inRange?

/-- An operator applied to integers. -/
def intArithmetic (op : ArithmeticOp) (a b : Int64) : Except ArithmeticError Number :=
  match op with
  | .add => .ok (int (a + b))
  | .sub => .ok (int (a - b))
  | .mul => .ok (int (a * b))
  | .div => .ok (float ((Binary64.ofInt a.toInt).div (Binary64.ofInt b.toInt)))
  | .floorDiv =>
    if b = 0 then .error .floorDivByZero
    else .ok (int (Int64.ofInt (a.toInt.fdiv b.toInt)))
  | .mod =>
    if b = 0 then .error .modByZero
    else .ok (int (Int64.ofInt (a.toInt.fmod b.toInt)))

/-- An operator applied to floating-point numbers. -/
def floatArithmetic (op : ArithmeticOp) (a b : Binary64) : Binary64 :=
  match op with
  | .add => a.add b
  | .sub => a.sub b
  | .mul => a.mul b
  | .div => a.div b
  | .floorDiv => (a.div b).floor
  | .mod => a.remainder b

/-- An operator applied to two numbers. -/
def arithmetic (op : ArithmeticOp) : Number → Number → Except ArithmeticError Number
  | int a, int b => intArithmetic op a b
  | a, b => .ok (float (floatArithmetic op a.toFloat b.toFloat))

/-- The number with the other sign. -/
def negate : Number → Number
  | int i => int (-i)
  | float x => float x.neg

/-- How two numbers compare, by their exact values. -/
def compare? (a b : Number) : Option Ordering := (datum a).compare? (datum b)
where
  /-- The exact value of a number. -/
  datum : Number → Datum
    | int i => .finite (i.toInt < 0) i.toInt.natAbs 0
    | float x => x.datum

end Number

end ScpiScript.Lua
