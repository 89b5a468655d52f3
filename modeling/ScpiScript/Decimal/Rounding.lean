/-!
# Rounding a quotient to an integer

- `roundDiv num den` is the integer nearest to `num / den`; of two equally near
  the even one.
-/

namespace ScpiScript.Decimal

/-- The integer nearest to a quotient; a half goes to the even neighbour. -/
def roundDiv (num den : Nat) : Nat :=
  let q := num / den
  let twice := 2 * (num % den)
  if twice < den then q
  else if den < twice then q + 1
  else if q % 2 = 0 then q else q + 1

end ScpiScript.Decimal
