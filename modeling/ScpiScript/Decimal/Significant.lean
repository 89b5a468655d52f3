import ScpiScript.Decimal.Scaled
/-!
# Decimals with a bounded number of significant figures

- `significant` rounds a positive quotient to a number of figures, ties to even.
- `general` lays the result out in full when its order is small, and with an
  exponent of at least two digits otherwise; zeros at the end are left out.
-/

namespace ScpiScript.Decimal

/-- A positive quotient rounded to `count` significant figures, with the power of
ten that it begins with. A rounding that carries to one more figure raises the
order by one. -/
def significant (count num den : Nat) : Nat × Int :=
  let e := order num den
  let (n, d) := unscale num den (e - ((count - 1 : Nat) : Int))
  let figures := roundDiv n d
  if figures = Nat.pow 10 count then (Nat.pow 10 (count - 1), e + 1) else (figures, e)

/-- The lowest order that is written without an exponent. -/
def minPlainOrder : Int := -4

/-- An exponent: a sign and at least two digits. -/
def exponentText (e : Int) : List Char :=
  let cs := digits e.natAbs
  (if e < 0 then '-' else '+') :: (List.replicate (2 - cs.length) '0' ++ cs)

/-- The text of a positive quotient with at most `count` significant figures. -/
def general (count num den : Nat) : List Char :=
  let (figures, e) := significant count num den
  let scaled : Scaled := ⟨figures, e - ((count - 1 : Nat) : Int)⟩
  if minPlainOrder ≤ e && e < (count : Int) then scaled.trimmed.positional
  else
    let cs := digits scaled.trimmed.figures
    withPoint cs (cs.length - 1) ++ 'e' :: exponentText e

end ScpiScript.Decimal
