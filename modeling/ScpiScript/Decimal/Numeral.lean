/-!
# Decimal numerals

Counts, ports and waiting times are written as runs of ASCII digits.

- `digits` writes a number without leading zeros, `read?` reads any run of digits.
- `readUpTo?` is the form of a bounded setting: a plus sign may stand in front.
-/

namespace ScpiScript.Decimal

/-- The digits of a number, most significant first; zero has one. -/
def digits (n : Nat) : List Char := Nat.toDigits 10 n

/-- How many digits a number has. -/
def digitCount (n : Nat) : Nat := (digits n).length

/-- The number that a non-empty run of digits stands for. -/
def read? (cs : List Char) : Option Nat :=
  if cs.isEmpty || !cs.all Char.isDigit then none else some (Nat.ofDigitChars 10 cs 0)

/-- A number of at most `limit`, with an optional plus sign. -/
def readUpTo? (limit : Nat) (cs : List Char) : Option Nat :=
  let unsigned := match cs with
    | '+' :: rest => rest
    | _ => cs
  (read? unsigned).filter (· ≤ limit)

theorem digits_ne_nil (n : Nat) : digits n ≠ [] := Nat.toDigits_ne_nil

theorem isDigit_of_mem_digits {n : Nat} {c : Char} (h : c ∈ digits n) : c.isDigit = true :=
  Nat.isDigit_of_mem_toDigits (by decide) (by decide) h

/-- Reading gives back the number that was written. -/
@[simp] theorem read?_digits (n : Nat) : read? (digits n) = some n := by
  have hall : ∀ c ∈ Nat.toDigits 10 n, c.isDigit = true := fun _ h => isDigit_of_mem_digits h
  simpa [read?, digits, Nat.ofDigitChars_ten_toDigits] using hall

end ScpiScript.Decimal
