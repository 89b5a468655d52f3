import ScpiScript.Decimal.Numeral
import ScpiScript.Decimal.Rounding
/-!
# Decimal numbers and their layout

A decimal number is an integer and a power of ten. Its text is laid out with a
point and no exponent, or with a fixed number of places.

- `order` is the power of ten that a positive quotient begins with.
- `Scaled.positional` writes a decimal number out in full.
- `fixed` rounds a quotient to a number of places.
-/

namespace ScpiScript.Decimal

/-- The decimal number `figures · 10 ^ exponent`. -/
structure Scaled where
  figures : Nat
  exponent : Int
  deriving DecidableEq, Repr

/-- The exponent `e` for which a positive quotient lies in `10 ^ e` to `10 ^ (e + 1)`. -/
def order (num den : Nat) : Int :=
  if den ≤ num then (digitCount (num / den) : Int) - 1
  else
    let d := digitCount (den / num)
    if num * Nat.pow 10 (d - 1) = den then 1 - (d : Int) else -(d : Int)

/-- The numerator and denominator of a quotient divided by `10 ^ k`. -/
def unscale (num den : Nat) (k : Int) : Nat × Nat :=
  (num * Nat.pow 10 (-k).toNat, den * Nat.pow 10 k.toNat)

/-- Figures with a point before the last `places` of them, a zero standing where
no figure would come before the point. -/
def withPoint (cs : List Char) (places : Nat) : List Char :=
  let padded := List.replicate (places + 1 - cs.length) '0' ++ cs
  let whole := padded.length - places
  padded.take whole ++ (if places = 0 then [] else '.' :: padded.drop whole)

/-- A decimal number in full: zeros after the figures, or a point before or
among them. -/
def Scaled.positional (s : Scaled) : List Char :=
  withPoint (digits s.figures ++ List.replicate s.exponent.toNat '0') (-s.exponent).toNat

/-- The same number without zeros at the end of its figures. -/
def Scaled.trimmed (s : Scaled) : Scaled :=
  let cs := digits s.figures
  let kept := (cs.reverse.dropWhile (· == '0')).reverse
  ⟨Nat.ofDigitChars 10 kept 0, s.exponent + ((cs.length - kept.length : Nat) : Int)⟩

/-- A quotient rounded to a fixed number of places, ties to even. -/
def fixed (places num den : Nat) : List Char :=
  withPoint (digits (roundDiv (num * Nat.pow 10 places) den)) places

end ScpiScript.Decimal
