import ScpiScript.Binary.Number
/-!
# Floating-point arithmetic

Each operation takes the exact result of its operands' values and rounds it to
the nearest number of the 64-bit format, ties to even.

- An operation on what is no number gives the first such operand.
- An operation without a result, such as `0 / 0`, gives `invalid`, whose sign bit
  is set.
-/

namespace ScpiScript.Binary64

open Binary

/-- The pattern of an operation that has no result. -/
def invalid : Binary64 := ofBits (binary64.signed true (binary64.infinity + binary64.quietBit))

/-- The number with the other sign. -/
def neg (x : Binary64) : Binary64 := ⟨x.bits ^^^ 0x8000000000000000⟩

/-- The sum of two numbers. Two zeros of opposite signs, or a number and its
negation, add up to the positive zero. -/
def add (x y : Binary64) : Binary64 :=
  match x.datum, y.datum with
  | .nan, _ => x
  | _, .nan => y
  | .infinite a, .infinite b => if a = b then x else invalid
  | .infinite _, _ => x
  | _, .infinite _ => y
  | .finite na ma ea, .finite nb mb eb =>
    let e := min ea eb
    let sum := Datum.aligned na ma ea e + Datum.aligned nb mb eb e
    ofDyadic (if sum = 0 then na && nb else sum < 0) sum.natAbs e

/-- The difference of two numbers; what is no number keeps its sign. -/
def sub (x y : Binary64) : Binary64 :=
  match x.datum, y.datum with
  | .nan, _ => x
  | _, .nan => y
  | _, _ => add x y.neg

/-- The product of two numbers. -/
def mul (x y : Binary64) : Binary64 :=
  match x.datum, y.datum with
  | .nan, _ => x
  | _, .nan => y
  | .infinite a, .infinite b => infinite (a != b)
  | .infinite a, .finite b m _ => if m = 0 then invalid else infinite (a != b)
  | .finite a m _, .infinite b => if m = 0 then invalid else infinite (a != b)
  | .finite na ma ea, .finite nb mb eb => ofDyadic (na != nb) (ma * mb) (ea + eb)

/-- The quotient of two numbers. -/
def div (x y : Binary64) : Binary64 :=
  match x.datum, y.datum with
  | .nan, _ => x
  | _, .nan => y
  | .infinite _, .infinite _ => invalid
  | .infinite a, .finite b _ _ => infinite (a != b)
  | .finite a _ _, .infinite b => ofDyadic (a != b) 0 0
  | .finite na ma ea, .finite nb mb eb =>
    if mb = 0 then
      if ma = 0 then invalid else infinite (na != nb)
    else
      let (numA, denA) := Format.quotient ma ea
      let (numB, denB) := Format.quotient mb eb
      ofBits (binary64.pack (na != nb) (numA * denB) (denA * numB))

/-- The largest integer not above a number. A zero, and what has no integer part,
is left as it is. -/
def floor (x : Binary64) : Binary64 :=
  match x.datum with
  | .finite negative m e =>
    let whole := m * Nat.pow 2 e.toNat / Nat.pow 2 (-e).toNat
    let exact := m % Nat.pow 2 (-e).toNat = 0
    ofDyadic negative (if negative && !exact then whole + 1 else whole) 0
  | _ => x

/-- The remainder of a division that truncates: it has the sign of the dividend. -/
def truncatedRemainder (x y : Binary64) : Binary64 :=
  match x.datum, y.datum with
  | .nan, _ => x
  | _, .nan => y
  | .infinite _, _ => invalid
  | _, .infinite _ => x
  | .finite na ma ea, .finite _ mb eb =>
    if mb = 0 then invalid
    else
      let e := min ea eb
      ofDyadic na ((ma * Nat.pow 2 (ea - e).toNat) % (mb * Nat.pow 2 (eb - e).toNat)) e

/-- How two numbers compare, if both are numbers. -/
def compare? (x y : Binary64) : Option Ordering := x.datum.compare? y.datum

/-- The first number is below the second. -/
def lt (x y : Binary64) : Bool := x.compare? y == some .lt

/-- The first number is not above the second. -/
def le (x y : Binary64) : Bool :=
  match x.compare? y with
  | some .gt => false
  | some _ => true
  | none => false

/-- The zero. -/
def zero : Binary64 := ofBits 0

/-- The remainder of a division that rounds down: it has the sign of the divisor. -/
def remainder (x y : Binary64) : Binary64 :=
  let m := truncatedRemainder x y
  let wrong := if zero.lt m then y.lt zero else m.lt zero && zero.lt y
  if wrong then m.add y else m

end ScpiScript.Binary64
