import ScpiScript.Decimal.Scaled
import ScpiScript.Binary.Format
/-!
# The shortest decimal that reads back

A positive floating-point number stands for every real that rounds to it. Of the
decimals in that interval the ones with the fewest figures are shortest, and of
these the nearest to the number is its text; a tie goes to the larger.

- `Interval` is the set of reals that round to a number.
- `shortest` tests, for one figure, two and so on, the number's two neighbours on
  the grid with that many figures. If any point of a grid lies in the interval,
  one of these two does, so the first grid with a hit is the coarsest.
-/

namespace ScpiScript.Decimal

open Binary

/-- The reals that round to a positive number, counted in units of `2 ^ exponent`.
A bound belongs to the interval when the number's mantissa is even. -/
structure Interval where
  low : Nat
  value : Nat
  high : Nat
  exponent : Int
  closed : Bool
  deriving DecidableEq, Repr

/-- The interval of a positive number of a format, in quarters of its last place.
Below a power of two the numbers are twice as dense, save among the smallest. -/
def Interval.ofNumber (f : Format) (mantissa : Nat) (exponent : Int) : Interval :=
  let denseBelow := mantissa = f.fractionUnits ∧ f.minExponent < exponent
  { low := 4 * mantissa - (if denseBelow then 1 else 2)
    value := 4 * mantissa
    high := 4 * mantissa + 2
    exponent := exponent - 2
    closed := mantissa % 2 = 0 }

/-- The sizes of a unit of the interval and of a power of ten, on a common scale. -/
def Interval.units (i : Interval) (power : Int) : Nat × Nat :=
  (Nat.pow 2 i.exponent.toNat * Nat.pow 10 (-power).toNat,
    Nat.pow 2 (-i.exponent).toNat * Nat.pow 10 power.toNat)

/-- The decimal `figures · 10 ^ power` lies in the interval. -/
def Interval.contains (i : Interval) (figures : Nat) (power : Int) : Bool :=
  let (unit, ten) := i.units power
  let x := figures * ten
  if i.closed then i.low * unit ≤ x && x ≤ i.high * unit
  else i.low * unit < x && x < i.high * unit

/-- The point nearest to the number, on the grid of multiples of `10 ^ power`, if
one of its two neighbours on the grid lies in the interval. -/
def Interval.onGrid? (i : Interval) (power : Int) : Option Nat :=
  let (unit, ten) := i.units power
  let below := i.value * unit / ten
  let rest := i.value * unit % ten
  match i.contains below power, i.contains (below + 1) power with
  | true, true => some (if 2 * rest < ten then below else below + 1)
  | true, false => some below
  | false, true => some (below + 1)
  | false, false => none

/-- Try grids of decreasing step until one has a point in the interval. The last
grid is used whatever it holds, so its step has to be fine enough. -/
def Interval.search (i : Interval) : Nat → Int → Scaled
  | 0, power =>
    let (unit, ten) := i.units power
    ⟨roundDiv (i.value * unit) ten, power⟩
  | more + 1, power =>
    match i.onGrid? power with
    | some figures => ⟨figures, power⟩
    | none => i.search more (power - 1)

/-- The most figures that a number of either format needs. -/
def maxFigures : Nat := 17

/-- The shortest decimal that reads back as a positive number of a format. -/
def shortest (f : Format) (mantissa : Nat) (exponent : Int) : Scaled :=
  let (num, den) := Format.quotient mantissa exponent
  ((Interval.ofNumber f mantissa exponent).search maxFigures (order num den)).trimmed

end ScpiScript.Decimal
