import Mathlib.Data.List.Induction
import Mathlib.Data.Nat.Digits.Defs
import Mathlib.Tactic.Positivity
import Mathlib.Tactic.Ring
import ScpiScript.Decimal.Numeral
/-!
# What a numeral stands for

A numeral is a run of digits, and its value is the sum of its digits by their places.
Every number has one numeral that is written for it; the others have zeros in front.

- `IsNumeral` and `value` are the two notions.
- `read?_eq_some_iff`: exactly the numerals are read, as their values, and
  `readUpTo?_eq_some_iff` says so of bounded numbers.
- `digits_value_iff` tells a numeral that is written for its value from one that is not.
- `pow_digitCount_le` and `lt_pow_digitCount` bound a number by how many digits it has.
-/

namespace ScpiScript.Decimal

/-- A run of one or more ASCII digits. -/
structure IsNumeral (cs : List Char) : Prop where
  ne_nil : cs ≠ []
  isDigit : ∀ c ∈ cs, c.isDigit = true

/-- The number that a digit stands for by itself. -/
def digitValue (c : Char) : Nat := c.toNat - '0'.toNat

/-- The number that a run of digits stands for: a digit counts by its place from the end. -/
def value (cs : List Char) : Nat := Nat.ofDigits 10 (cs.reverse.map digitValue)

/-! ## Digits -/

theorem bounds_of_isDigit {c : Char} (h : c.isDigit = true) : 48 ≤ c.toNat ∧ c.toNat ≤ 57 := by
  simp only [Char.isDigit, Bool.and_eq_true, decide_eq_true_eq, ge_iff_le] at h
  exact ⟨UInt32.le_iff_toNat_le.mp h.1, UInt32.le_iff_toNat_le.mp h.2⟩

theorem digitValue_lt {c : Char} (h : c.isDigit = true) : digitValue c < 10 := by
  have hbounds := bounds_of_isDigit h
  show c.toNat - 48 < 10
  omega

/-- A digit is the one that is written for its value. -/
theorem digitChar_digitValue {c : Char} (h : c.isDigit = true) :
    Nat.digitChar (digitValue c) = c := by
  have hbounds := bounds_of_isDigit h
  have hcode : (Nat.digitChar (digitValue c)).toNat = c.toNat := by
    rw [Nat.toNat_digitChar_of_lt_ten (digitValue_lt h)]
    show 48 + (c.toNat - 48) = c.toNat
    omega
  exact Char.toNat_inj.mp hcode

theorem digitValue_digitChar {d : Nat} (h : d < 10) : digitValue (Nat.digitChar d) = d := by
  rw [digitValue, Nat.toNat_digitChar_of_lt_ten h]
  exact Nat.add_sub_cancel_left 48 d

theorem digitChar_inj {d e : Nat} (hd : d < 10) (he : e < 10)
    (h : Nat.digitChar d = Nat.digitChar e) : d = e := by
  rw [← digitValue_digitChar hd, h, digitValue_digitChar he]

/-! ## Values -/

@[simp] theorem value_nil : value [] = 0 := rfl

/-- One more digit at the end makes every other count tenfold. -/
theorem value_concat (cs : List Char) (c : Char) :
    value (cs ++ [c]) = 10 * value cs + digitValue c := by
  rw [value, List.reverse_concat, List.map_cons, Nat.ofDigits_cons, ← value, Nat.add_comm]

theorem value_cons (c : Char) (cs : List Char) :
    value (c :: cs) = digitValue c * 10 ^ cs.length + value cs := by
  rw [value, List.reverse_cons, List.map_append, Nat.ofDigits_append, List.length_map,
    List.length_reverse, ← value]
  show value cs + 10 ^ cs.length * Nat.ofDigits 10 [digitValue c] = _
  rw [Nat.ofDigits_singleton]
  ring

@[simp] theorem value_replicate_zero (zeros : Nat) : value (List.replicate zeros '0') = 0 := by
  induction zeros with
  | zero => rfl
  | succ zeros ih =>
    rw [List.replicate_succ, value_cons, ih]
    show 0 * _ + 0 = 0
    rw [Nat.zero_mul]

/-- Digits read from left to right come to their value, behind the number read before. -/
theorem ofDigitChars_eq_value (cs : List Char) (front : Nat) :
    Nat.ofDigitChars 10 cs front = front * 10 ^ cs.length + value cs := by
  induction cs generalizing front with
  | nil => rw [Nat.ofDigitChars_nil, value_nil, List.length_nil, pow_zero, mul_one, add_zero]
  | cons c cs ih =>
    rw [Nat.ofDigitChars_cons, ih, value_cons, List.length_cons, ← digitValue]
    ring

/-- Exactly the numerals are read, and what is read is their value. -/
theorem read?_eq_some_iff {cs : List Char} {n : Nat} :
    read? cs = some n ↔ IsNumeral cs ∧ value cs = n := by
  have hvalue : Nat.ofDigitChars 10 cs 0 = value cs := by
    rw [ofDigitChars_eq_value, Nat.zero_mul, Nat.zero_add]
  have hrefused : (cs.isEmpty || !cs.all Char.isDigit) = true ↔ ¬ IsNumeral cs := by
    rw [Bool.or_eq_true, Bool.not_eq_true', List.isEmpty_iff, ← Bool.not_eq_true, List.all_eq_true]
    constructor
    · rintro (hnil | hother) hnumeral
      · exact hnumeral.ne_nil hnil
      · exact hother hnumeral.isDigit
    · intro hnot
      by_cases hnil : cs = []
      · exact .inl hnil
      · exact .inr fun hall => hnot ⟨hnil, hall⟩
  unfold read?
  split
  · rename_i h
    exact iff_of_false nofun fun hread => hrefused.mp h hread.1
  · rename_i h
    have hnumeral : IsNumeral cs := not_not.mp (mt hrefused.mpr h)
    rw [hvalue, Option.some_inj]
    exact ⟨fun heq => ⟨hnumeral, heq⟩, fun hread => hread.2⟩

/-- A bounded number is read from a numeral with or without a plus sign in front. -/
theorem readUpTo?_eq_some_iff {limit : Nat} {cs : List Char} {n : Nat} :
    readUpTo? limit cs = some n ↔
      ∃ run, (cs = run ∨ cs = '+' :: run) ∧ IsNumeral run ∧ value run = n ∧ n ≤ limit := by
  unfold readUpTo?
  rw [Option.filter_eq_some_iff, read?_eq_some_iff, decide_eq_true_eq]
  split
  · rename_i rest
    constructor
    · rintro ⟨⟨hnumeral, hvalue⟩, hle⟩
      exact ⟨rest, .inr rfl, hnumeral, hvalue, hle⟩
    · rintro ⟨run, rfl | hsigned, hnumeral, hvalue, hle⟩
      · -- a plus sign is no digit
        have hplus := hnumeral.isDigit '+' List.mem_cons_self
        exact absurd hplus (by decide)
      · obtain rfl := (List.cons.inj hsigned).2
        exact ⟨⟨hnumeral, hvalue⟩, hle⟩
  · rename_i hunsigned
    constructor
    · rintro ⟨⟨hnumeral, hvalue⟩, hle⟩
      exact ⟨cs, .inl rfl, hnumeral, hvalue, hle⟩
    · rintro ⟨run, rfl | hsigned, hnumeral, hvalue, hle⟩
      · exact ⟨⟨hnumeral, hvalue⟩, hle⟩
      · exact absurd hsigned (hunsigned run)

/-! ## The numeral of a number -/

theorem isNumeral_digits (n : Nat) : IsNumeral (digits n) :=
  ⟨digits_ne_nil n, fun _ => isDigit_of_mem_digits⟩

@[simp] theorem value_digits (n : Nat) : value (digits n) = n :=
  (read?_eq_some_iff.mp (read?_digits n)).2

theorem digits_of_lt {d : Nat} (h : d < 10) : digits d = [Nat.digitChar d] :=
  Nat.toDigits_of_lt_base h

/-- No number but zero is written with a zero in front. -/
theorem eq_zero_of_head?_digits {n : Nat} (h : (digits n).head? = some '0') : n = 0 := by
  induction n using Nat.strongRecOn with
  | ind n ih =>
    by_cases hn : n < 10
    · rw [digits_of_lt hn, List.head?_cons, Option.some_inj] at h
      exact digitChar_inj hn (by decide) h
    · -- the first digit is that of the tens
      have hsplit : digits n = digits (n / 10) ++ [Nat.digitChar (n % 10)] := by
        rw [digits, Nat.toDigits_eq_if (by decide), if_neg hn, ← digits]
      obtain ⟨first, rest, hfirst⟩ := List.exists_cons_of_ne_nil (digits_ne_nil (n / 10))
      rw [hsplit, hfirst, List.cons_append, List.head?_cons, Option.some_inj] at h
      subst h
      have htens := ih (n / 10) (by omega) (by rw [hfirst, List.head?_cons])
      omega

theorem digits_digitValue {c : Char} (h : c.isDigit = true) : digits (digitValue c) = [c] := by
  rw [digits_of_lt (digitValue_lt h), digitChar_digitValue h]

/-- A digit behind a number that is not zero is written behind it. -/
theorem digits_value_concat {front : List Char} (hfront : 0 < value front) {c : Char}
    (hc : c.isDigit = true) :
    digits (value (front ++ [c])) = digits (value front) ++ [c] := by
  rw [value_concat, digits, ← Nat.toDigits_append_toDigits (by decide) hfront (digitValue_lt hc),
    ← digits, ← digits, digits_digitValue hc]

/-- A numeral is the one written for its value, unless a zero stands in front of it. -/
theorem digits_value_iff {cs : List Char} (h : IsNumeral cs) :
    digits (value cs) = cs ↔ cs.length = 1 ∨ cs.head? ≠ some '0' := by
  constructor
  · intro hwritten
    by_cases hzero : cs.head? = some '0'
    · rw [← hwritten] at hzero
      rw [eq_zero_of_head?_digits hzero] at hwritten
      exact .inl (congrArg List.length hwritten).symm
    · exact .inr hzero
  · -- by the digits from the end, as a number is written
    intro hplain
    obtain ⟨hne, hdigits⟩ := h
    induction cs using List.reverseRecOn with
    | nil => exact absurd rfl hne
    | append_singleton front c ih =>
      have hc : c.isDigit = true := hdigits c (List.mem_append_right _ List.mem_cons_self)
      rcases front with _ | ⟨first, others⟩
      · exact digits_digitValue hc
      · have hfirst : (first :: others).head? ≠ some '0' := by
          refine hplain.resolve_left ?_
          simp
        have hothers := ih (.inr hfirst) (List.cons_ne_nil first others)
          fun d hd => hdigits d (List.mem_append_left _ hd)
        have hpos : 0 < value (first :: others) := by
          refine Nat.pos_of_ne_zero fun hzero => hfirst ?_
          rw [← hothers, hzero]
          rfl
        rw [digits_value_concat hpos hc, hothers]

/-- Zeros behind a number that is not zero are written behind it. -/
theorem digits_mul_pow {n : Nat} (h : 0 < n) (zeros : Nat) :
    digits (n * 10 ^ zeros) = digits n ++ List.replicate zeros '0' := by
  induction zeros with
  | zero => simp
  | succ zeros ih =>
    have hpos : 0 < value (digits (n * 10 ^ zeros)) := by
      rw [value_digits]
      positivity
    have hconcat := digits_value_concat hpos (c := '0') (by decide)
    rw [value_concat, value_digits, ih] at hconcat
    rw [List.replicate_succ', ← List.append_assoc, ← hconcat]
    congr 1
    show n * 10 ^ (zeros + 1) = 10 * (n * 10 ^ zeros) + 0
    ring

/-! ## How many digits -/

theorem value_lt {cs : List Char} (h : ∀ c ∈ cs, c.isDigit = true) :
    value cs < 10 ^ cs.length := by
  induction cs with
  | nil => exact Nat.one_pos
  | cons c cs ih =>
    have hfirst := digitValue_lt (h c List.mem_cons_self)
    have hrest := ih fun d hd => h d (.tail c hd)
    rw [value_cons, List.length_cons, Nat.pow_succ]
    calc digitValue c * 10 ^ cs.length + value cs
      _ < digitValue c * 10 ^ cs.length + 10 ^ cs.length := by omega
      _ = (digitValue c + 1) * 10 ^ cs.length := by ring
      _ ≤ 10 * 10 ^ cs.length := Nat.mul_le_mul_right _ hfirst
      _ = 10 ^ cs.length * 10 := Nat.mul_comm _ _

theorem lt_pow_digitCount (n : Nat) : n < 10 ^ digitCount n := by
  have h := value_lt (isNumeral_digits n).isDigit
  rwa [value_digits] at h

/-- A number that is not zero begins with the power of ten that its digits count. -/
theorem pow_digitCount_le {n : Nat} (h : 0 < n) : 10 ^ (digitCount n - 1) ≤ n := by
  obtain ⟨c, cs, hdigits⟩ := List.exists_cons_of_ne_nil (digits_ne_nil n)
  have hne : c ≠ '0' := by
    rintro rfl
    exact h.ne' (eq_zero_of_head?_digits (by rw [hdigits, List.head?_cons]))
  have hc : c.isDigit = true := isDigit_of_mem_digits (by rw [hdigits]; exact List.mem_cons_self)
  have hfirst : 1 ≤ digitValue c := by
    refine Nat.pos_of_ne_zero fun hzero => hne ?_
    rw [← digitChar_digitValue hc, hzero]
    rfl
  calc 10 ^ (digitCount n - 1)
    _ = 10 ^ cs.length := by rw [digitCount, hdigits, List.length_cons, Nat.add_sub_cancel]
    _ ≤ digitValue c * 10 ^ cs.length := Nat.le_mul_of_pos_left _ hfirst
    _ ≤ value (c :: cs) := by
      rw [value_cons]
      exact Nat.le_add_right _ _
    _ = n := by rw [← hdigits, value_digits]

end ScpiScript.Decimal
