import ScpiScript.Binary.Format
import ScpiScript.Decimal.Numeral
/-!
# Floating-point numbers

- `Binary64` is the number type of scripts, `Binary32` the sample type of waveforms.
- Both are their bit patterns; `datum` is what a pattern denotes.
- Widening keeps a value, narrowing rounds it to nearest; the payload of a
  pattern that is no number is shifted, and its quiet bit set.
-/

namespace ScpiScript

open Binary

/-- A number in the 64-bit format, by its bit pattern. -/
structure Binary64 where
  bits : UInt64
  deriving DecidableEq, Repr, Inhabited

/-- A number in the 32-bit format, by its bit pattern. -/
structure Binary32 where
  bits : UInt32
  deriving DecidableEq, Repr, Inhabited

namespace Binary.Datum

/-- The number is zero, of either sign. -/
def isZero : Datum → Bool
  | .finite _ m _ => m = 0
  | _ => false

/-- The integer part, toward zero, of a finite number. -/
def truncate? : Datum → Option Int
  | .finite negative m e =>
    let magnitude : Int := (m * Nat.pow 2 e.toNat / Nat.pow 2 (-e).toNat : Nat)
    some (if negative then -magnitude else magnitude)
  | _ => none

/-- The value of a number that is an integer. -/
def toInt? : Datum → Option Int
  | d@(.finite _ m e) => if m % Nat.pow 2 (-e).toNat = 0 then d.truncate? else none
  | _ => none

/-- The mantissa, with its sign, of a finite number written with the exponent `e`,
which must not exceed the number's own. -/
def aligned (negative : Bool) (mantissa : Nat) (exponent e : Int) : Int :=
  let magnitude : Int := (mantissa * Nat.pow 2 (exponent - e).toNat : Nat)
  if negative then -magnitude else magnitude

/-- How two numbers compare; nothing compares with what is no number. -/
def compare? : Datum → Datum → Option Ordering
  | .nan, _ => none
  | _, .nan => none
  | .infinite true, .infinite true => some .eq
  | .infinite false, .infinite false => some .eq
  | .infinite negative, _ => some (if negative then .lt else .gt)
  | _, .infinite negative => some (if negative then .gt else .lt)
  | .finite na ma ea, .finite nb mb eb =>
    let e := min ea eb
    some (compare (aligned na ma ea e) (aligned nb mb eb e))

end Binary.Datum

namespace Binary64

/-- The number with a bit pattern given as an integer. -/
def ofBits (bits : Nat) : Binary64 := ⟨UInt64.ofNat bits⟩

/-- What the pattern denotes. -/
def datum (x : Binary64) : Datum := binary64.unpack x.bits.toNat

/-- The sign bit is set. -/
def isNegative (x : Binary64) : Bool := binary64.signUnit ≤ x.bits.toNat

/-- The number nearest to an integer. -/
def ofInt (i : Int) : Binary64 := ofBits (binary64.pack (i < 0) i.natAbs 1)

/-- The number nearest to `± mantissa · 2 ^ exponent`. -/
def ofDyadic (negative : Bool) (mantissa : Nat) (exponent : Int) : Binary64 :=
  ofBits (binary64.packDyadic negative mantissa exponent)

/-- An infinity. -/
def infinite (negative : Bool) : Binary64 := ofBits (binary64.signed negative binary64.infinity)

/-- The largest binary order of a finite number, rounded up. -/
def maxBinaryOrder : Int := 1030

/-- The smallest binary order at which a number is not yet rounded to zero, rounded
down. -/
def minBinaryOrder : Int := -1080

/-- The number nearest to `± units · 2 ^ exponent`, for any exponent. Orders beyond
the format's own are decided without writing the power out. -/
def ofBinary (negative : Bool) (units : Nat) (exponent : Int) : Binary64 :=
  let order := exponent + (Nat.log2 units : Int)
  if units = 0 || order < minBinaryOrder then ofBits (binary64.signed negative 0)
  else if maxBinaryOrder < order then infinite negative
  else ofDyadic negative units exponent

/-- The largest decimal order of a finite number, rounded up. -/
def maxDecimalOrder : Int := 310

/-- The smallest decimal order at which a number is not yet rounded to zero,
rounded down. -/
def minDecimalOrder : Int := -330

/-- The number nearest to `± digits · 10 ^ exponent`. Orders beyond the format's
own are decided without writing the power out. -/
def ofDecimal (negative : Bool) (digits : Nat) (exponent : Int) : Binary64 :=
  let order := exponent + (Decimal.digitCount digits : Int)
  if digits = 0 || order < minDecimalOrder then ofBits (binary64.signed negative 0)
  else if maxDecimalOrder < order then infinite negative
  else
    ofBits (binary64.pack negative (digits * Nat.pow 10 exponent.toNat)
      (Nat.pow 10 (-exponent).toNat))

end Binary64

/-- How many patterns of the 64-bit format share the fraction of one of the 32-bit
format. -/
def payloadRatio : Nat := binary64.fractionUnits / binary32.fractionUnits

namespace Binary32

/-- What the pattern denotes. -/
def datum (x : Binary32) : Datum := binary32.unpack x.bits.toNat

/-- The same value in the 64-bit format. -/
def widen (x : Binary32) : Binary64 :=
  let bits := x.bits.toNat
  match x.datum with
  | .nan =>
    .ofBits (binary64.signed (binary32.signUnit ≤ bits)
      (binary64.infinity + binary64.quietBit + bits % binary32.quietBit * payloadRatio))
  | .infinite negative => .infinite negative
  | .finite negative m e => .ofDyadic negative m e

end Binary32

namespace Binary64

/-- The nearest number of the 32-bit format. -/
def narrow (x : Binary64) : Binary32 :=
  let bits := x.bits.toNat
  match x.datum with
  | .nan =>
    ⟨UInt32.ofNat (binary32.signed x.isNegative
      (binary32.infinity + binary32.quietBit + bits / payloadRatio % binary32.quietBit))⟩
  | .infinite negative => ⟨UInt32.ofNat (binary32.signed negative binary32.infinity)⟩
  | .finite negative m e => ⟨UInt32.ofNat (binary32.packDyadic negative m e)⟩

end Binary64

end ScpiScript
