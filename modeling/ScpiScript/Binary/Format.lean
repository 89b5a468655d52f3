import ScpiScript.Decimal.Rounding
/-!
# IEEE 754 binary formats

A floating-point number is the bit pattern that stores it. Its value is an exact
dyadic rational, so rounding, comparing and printing are integer arithmetic and
need no floating-point unit.

- `Format` holds the widths of a format; `binary64` and `binary32` are the two used.
- `Datum` is what a pattern denotes: a number `± mantissa · 2 ^ exponent`, an
  infinity or no number.
- `Format.pack` writes the pattern of the nearest representable value.
-/

namespace ScpiScript.Binary

/-- A binary interchange format: significant bits, hidden one included, and bits
of the exponent field. -/
structure Format where
  precision : Nat
  exponentWidth : Nat
  deriving DecidableEq, Repr

/-- The 64-bit format. -/
def binary64 : Format := ⟨53, 11⟩

/-- The 32-bit format. -/
def binary32 : Format := ⟨24, 8⟩

/-- What a bit pattern denotes. -/
inductive Datum
  | nan
  | infinite (negative : Bool)
  | finite (negative : Bool) (mantissa : Nat) (exponent : Int)
  deriving DecidableEq, Repr

namespace Format

/-- The exponent of the least significant bit of the smallest numbers. -/
def minExponent (f : Format) : Int :=
  3 - (Nat.pow 2 (f.exponentWidth - 1) : Nat) - f.precision

/-- The stored fraction's width in units: one more than its largest value. -/
def fractionUnits (f : Format) : Nat := Nat.pow 2 (f.precision - 1)

/-- The pattern of positive infinity. -/
def infinity (f : Format) : Nat := (Nat.pow 2 f.exponentWidth - 1) * f.fractionUnits

/-- The weight of the bit that marks a pattern which is no number as quiet. -/
def quietBit (f : Format) : Nat := Nat.pow 2 (f.precision - 2)

/-- The weight of the sign bit. -/
def signUnit (f : Format) : Nat := Nat.pow 2 f.exponentWidth * f.fractionUnits

/-- The pattern of a sign and a magnitude. -/
def signed (f : Format) (negative : Bool) (magnitude : Nat) : Nat :=
  if negative then f.signUnit + magnitude else magnitude

/-- What a bit pattern denotes. The smallest numbers, whose exponent field is
zero, have no hidden bit. -/
def unpack (f : Format) (bits : Nat) : Datum :=
  let negative := bits / f.signUnit % 2 = 1
  let field := bits / f.fractionUnits % Nat.pow 2 f.exponentWidth
  let fraction := bits % f.fractionUnits
  if field = Nat.pow 2 f.exponentWidth - 1 then
    if fraction = 0 then .infinite negative else .nan
  else if field = 0 then .finite negative fraction f.minExponent
  else .finite negative (f.fractionUnits + fraction) (f.minExponent + (field - 1 : Nat))

/-- The exponent `e` for which a positive quotient lies in `2 ^ e` to `2 ^ (e + 1)`. -/
def scale (num den : Nat) : Int :=
  let e : Int := (num.log2 : Int) - den.log2
  if num * Nat.pow 2 (-e).toNat < den * Nat.pow 2 e.toNat then e - 1 else e

/-- The pattern of the magnitude nearest to a quotient, ties to even. One unit of
the pattern is one unit in the last place, so that a rounding that carries into
the next exponent, or out of the smallest numbers, needs no case of its own. -/
def packMagnitude (f : Format) (num den : Nat) : Nat :=
  if num = 0 then 0
  else
    let q := max (scale num den - (f.precision - 1 : Nat)) f.minExponent
    let mantissa := Decimal.roundDiv (num * Nat.pow 2 (-q).toNat) (den * Nat.pow 2 q.toNat)
    min ((q - f.minExponent).toNat * f.fractionUnits + mantissa) f.infinity

/-- The pattern of the value nearest to `± num / den`. -/
def pack (f : Format) (negative : Bool) (num den : Nat) : Nat :=
  f.signed negative (f.packMagnitude num den)

/-- The pattern of the value nearest to `± mantissa · 2 ^ exponent`. -/
def packDyadic (f : Format) (negative : Bool) (mantissa : Nat) (exponent : Int) : Nat :=
  f.pack negative (mantissa * Nat.pow 2 exponent.toNat) (Nat.pow 2 (-exponent).toNat)

/-- The exact quotient `num / den` of a magnitude `mantissa · 2 ^ exponent`. -/
def quotient (mantissa : Nat) (exponent : Int) : Nat × Nat :=
  (mantissa * Nat.pow 2 exponent.toNat, Nat.pow 2 (-exponent).toNat)

end Format

end ScpiScript.Binary
