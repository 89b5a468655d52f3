import ScpiScript.Decimal.Numeral
/-!
# Length prefixes

A count is sent as its decimal digits behind one digit that says how many there
are, so a reader knows where the count ends.

- `lengthPrefix` writes a count of at most nine digits.
- `readLengthPrefix?` reads a count and says how many characters it took.
- `lengthPrefix_of_le` spells out what is written.
-/

namespace ScpiScript.Block

/-- The largest count whose number of digits is itself one digit. -/
def maxLength : Nat := 999999999

/-- A block whose length cannot be written. -/
inductive BlockError
  | lengthOverflow (n : Nat)
  deriving DecidableEq, Repr

/-- The message for a block error. -/
def BlockError.message : BlockError → String
  | lengthOverflow n => s!"block length {n} exceeds {maxLength}"

/-- The prefix for a count: its number of digits, then its digits. -/
def lengthPrefix (n : Nat) : Except BlockError (List Char) :=
  if maxLength < n then .error (.lengthOverflow n)
  else .ok (Decimal.digits (Decimal.digitCount n) ++ Decimal.digits n)

/-- The count at the beginning of a text, and how many characters its prefix takes. -/
def readLengthPrefix? : List Char → Option (Nat × Nat)
  | [] => none
  | c :: cs =>
    if !c.isDigit || c = '0' then none
    else
      let d := c.toNat - '0'.toNat
      let counted := cs.take d
      if counted.length < d then none
      else (Decimal.read? counted).map fun n => (n, 1 + d)

theorem digitCount_le_of_le_maxLength {n : Nat} (h : n ≤ maxLength) :
    Decimal.digitCount n ≤ 9 := by
  rw [Decimal.digitCount, Decimal.digits, Nat.length_toDigits_le_iff (by decide) (by decide)]
  simp only [maxLength] at h
  omega

/-- A count of at most nine digits begins with the digit for how many there are. -/
theorem lengthPrefix_of_le {n : Nat} (h : n ≤ maxLength) :
    lengthPrefix n = .ok (Nat.digitChar (Decimal.digitCount n) :: Decimal.digits n) := by
  have h9 := digitCount_le_of_le_maxLength h
  have hd : Decimal.digits (Decimal.digitCount n) = [Nat.digitChar (Decimal.digitCount n)] :=
    Nat.toDigits_of_lt_base (by omega)
  simp [lengthPrefix, Nat.not_lt.2 h, hd]

end ScpiScript.Block
