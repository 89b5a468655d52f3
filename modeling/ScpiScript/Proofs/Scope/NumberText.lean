import ScpiScript.Proofs.Decimal.Plain
import ScpiScript.Proofs.Scope.WholeNumber
/-!
# The text of a number

The text of a finite number is a plain decimal that is read as that number, and numbers with
the same value have the same text.

- `Covers.nearest`: what lies in the interval of a number is at least as near to it as to any
  other, and `isNearestTo_of_covers` says so of numbers with a sign.
- `Decimal.IsSigned` says what a text with a sign stands for.
- `numberText_readsBack` is the text of any finite number.
-/

namespace ScpiScript

open Binary

/-! ## What an interval holds -/

namespace Decimal.Interval

variable {f : Format} {m m' : Nat} {e e' : Int} {v : ℚ}

/-- Up to the middle of a gap the near end is nearer, and only in the middle the far end is as
near. -/
theorem abs_sub_le_of_gap {a b gap : ℚ} (hgap : 0 < gap) (hb : a + gap ≤ b)
    (hv : v ≤ a + gap / 2) :
    |v - a| ≤ |v - b| ∧ (|v - a| = |v - b| → v = a + gap / 2) := by
  have hbelow : |v - b| = b - v := by rw [abs_sub_comm, abs_of_nonneg (by linarith)]
  rw [hbelow]
  rcases le_total a v with hle | hle
  · rw [abs_of_nonneg (sub_nonneg.mpr hle)]
    exact ⟨by linarith, fun h => by linarith⟩
  · rw [abs_of_nonpos (sub_nonpos.mpr hle)]
    exact ⟨by linarith, fun h => by linarith⟩

/-- What lies in the interval of a number is at least as near to it as to any other, and where
another is as near, its mantissa is even. -/
theorem Covers.nearest (hcovers : (ofNumber f m e).Covers v) (h : f.IsNumber m e) (hm : 0 < m)
    (h' : f.IsNumber m' e') :
    |v - m * 2 ^ e| ≤ |v - m' * 2 ^ e'| ∧
      (|v - m * 2 ^ e| = |v - m' * 2 ^ e'| → (m' : ℚ) * 2 ^ e' ≠ m * 2 ^ e → m % 2 = 0) := by
  obtain ⟨hlow, hhigh, hclosed⟩ := hcovers
  have hparity : (ofNumber f m e).closed = true ↔ m % 2 = 0 := decide_eq_true_iff
  have hunit : (0 : ℚ) < 2 ^ e := by positivity
  rw [low_ofNumber hm] at hlow hclosed
  rw [high_ofNumber] at hhigh hclosed
  rw [hparity] at hclosed
  rcases lt_trichotomy ((m : ℚ) * 2 ^ e) (m' * 2 ^ e') with hlt | heq | hgt
  · have hnext := h.le_of_lt h' hlt
    obtain ⟨hle, htie⟩ := abs_sub_le_of_gap (v := v) (b := m' * 2 ^ e') hunit
      (by linarith : (m : ℚ) * 2 ^ e + 2 ^ e ≤ _) (by linarith)
    refine ⟨hle, fun hequal _ => hclosed (.inr ?_)⟩
    rw [htie hequal]
    ring
  · rw [heq]
    exact ⟨le_rfl, fun _ hne => absurd rfl hne⟩
  · -- below, seen from the other side
    have hbefore := h.le_of_gt h' hgt
    obtain ⟨gap, hgap, hhalf, hends⟩ : ∃ gap : ℚ, 0 < gap ∧ m' * 2 ^ e' ≤ (m - gap) * 2 ^ e ∧
        (m - if m = f.fractionUnits ∧ f.minExponent < e then 1 / 4 else 1 / 2 : ℚ) =
          m - gap / 2 := by
      refine ⟨_, ?_, hbefore, ?_⟩
      · split <;> norm_num
      · split <;> norm_num
    rw [hends] at hlow hclosed
    obtain ⟨hle, htie⟩ := abs_sub_le_of_gap (v := -v) (b := -(m' * 2 ^ e')) (mul_pos hgap hunit)
      (by linarith : -((m : ℚ) * 2 ^ e) + gap * 2 ^ e ≤ _) (by linarith)
    rw [neg_sub_neg, neg_sub_neg, abs_sub_comm, abs_sub_comm _ v] at hle htie
    refine ⟨hle, fun hequal _ => hclosed (.inl ?_)⟩
    linarith [htie hequal]

end Decimal.Interval

/-! ## The number that is read -/

namespace Binary64

open Decimal.Interval

/-- Magnitudes under one sign are as far apart as without it. -/
theorem abs_signed_sub (negative : Bool) (v w : ℚ) :
    |(if negative then -v else v) - (if negative then -w else w)| = |v - w| := by
  cases negative with
  | false => rfl
  | true => exact (congrArg abs (neg_sub_neg v w)).trans (abs_sub_comm w v)

theorem abs_signed (negative : Bool) (v : ℚ) : |if negative then -v else v| = |v| := by
  cases negative with
  | false => rfl
  | true => exact abs_neg v

/-- Magnitudes under opposite signs are as far apart as they are from zero together. -/
theorem abs_signed_sub_not (negative : Bool) {v w : ℚ} (hv : 0 ≤ v) (hw : 0 ≤ w) :
    |(if negative then -v else v) - (if !negative then -w else w)| = v + w := by
  cases negative with
  | false =>
    show |v - -w| = _
    rw [sub_neg_eq_add, abs_of_nonneg (by linarith)]
  | true =>
    show |-v - w| = _
    rw [abs_of_nonpos (by linarith)]
    ring

/-- The largest exponent of a finite number. -/
theorem exponent_le {m : Nat} {e : Int} (h : binary64.IsNumber m e) : e ≤ 971 := by
  have hfinite := h.finite
  have hnormal := h.normal
  rw [Format.pattern, binary64_infinity, binary64_minExponent, binary64_units] at hfinite
  rw [binary64_minExponent, binary64_units] at hnormal
  by_contra hlarge
  rw [not_le] at hlarge
  have hplace : 2046 ≤ (e - -1074).toNat := by omega
  have hmantissa := hnormal.resolve_left (by omega)
  have hfields := Nat.mul_le_mul_right 4503599627370496 hplace
  omega

/-- The bound in halves of the largest last place. -/
theorem overflowBound_eq : overflowBound = (9007199254740991 + 1 / 2) * 2 ^ (971 : Int) := by
  have hhigh : (2 : ℚ) ^ 1024 = 2 ^ 54 * 2 ^ 970 := by rw [← pow_add]
  have hplace : (2 : ℚ) ^ (971 : Int) = 2 * 2 ^ 970 := by
    rw [mul_comm, ← pow_succ]
    exact zpow_natCast 2 971
  rw [overflowBound, hhigh, hplace]
  generalize (2 : ℚ) ^ 970 = half
  ring

/-- What lies in the interval of a finite number is not read as an infinity. -/
theorem lt_overflowBound {m : Nat} {e : Int} (h : binary64.IsNumber m e) {v : ℚ}
    (hcovers : (ofNumber binary64 m e).Covers v) : v < overflowBound := by
  have hpower : (2 : ℚ) ^ e ≤ 2 ^ (971 : Int) := zpow_le_zpow_right₀ (by norm_num) (exponent_le h)
  have hplace : (0 : ℚ) < 2 ^ (971 : Int) := by positivity
  have hlt := h.lt
  obtain ⟨-, hhigh, hclosed⟩ := hcovers
  have hparity : (ofNumber binary64 m e).closed = true ↔ m % 2 = 0 := decide_eq_true_iff
  rw [high_ofNumber] at hhigh hclosed
  rw [hparity] at hclosed
  rw [binary64_units] at hlt
  rw [overflowBound_eq]
  generalize (2 : ℚ) ^ (971 : Int) = place at *
  have htop : ((m : ℚ) + 1 / 2) * 2 ^ e ≤ (m + 1 / 2) * place := by gcongr
  rcases Nat.lt_or_ge m 9007199254740991 with hless | hge
  · have hcast : (m : ℚ) < 9007199254740991 := by exact_mod_cast hless
    calc v
      _ ≤ (m + 1 / 2) * place := hhigh.trans htop
      _ < (9007199254740991 + 1 / 2) * place := by gcongr
  · -- the largest mantissa is odd, so that its interval is without its end
    have hlargest : m = 9007199254740991 := by omega
    have hcast : (m : ℚ) = 9007199254740991 := by exact_mod_cast hlargest
    rw [← hcast]
    refine lt_of_lt_of_le (lt_of_le_of_ne hhigh fun hend => ?_) htop
    have heven := hclosed (.inr hend)
    omega

theorem isNumber_zero : binary64.IsNumber 0 binary64.minExponent :=
  ⟨le_refl _, Nat.mul_pos Nat.two_pos binary64.fractionUnits_pos, .inl rfl, by decide⟩

/-- What lies in the interval of a number is read as the number, under either sign. -/
theorem isNearestTo_of_covers {x : Binary64} {negative : Bool} {m : Nat} {e : Int}
    (h : x.datum = .finite negative m e) (hm : 0 < m) {v : ℚ}
    (hcovers : (ofNumber binary64 m e).Covers v) :
    IsNearestTo (if negative then -v else v) x := by
  obtain ⟨hnumber, -⟩ := isNumber_of_datum h
  have hpos := hcovers.pos hm
  have hvalue : x.value? = _ := congrArg Datum.value? h
  -- numbers with the other sign are farther away than zero
  have key : ∀ y : Binary64, ∀ b ∈ y.value?,
      |v - m * 2 ^ e| ≤ |(if negative then -v else v) - b| ∧
        (|v - m * 2 ^ e| = |(if negative then -v else v) - b| →
          b ≠ (if negative then -((m : ℚ) * 2 ^ e) else m * 2 ^ e) → m % 2 = 0) := by
    intro y b hb
    obtain ⟨negative', m', e', hdatum, rfl⟩ := Datum.value?_eq_some_iff.mp hb
    obtain ⟨hnumber', -⟩ := isNumber_of_datum hdatum
    by_cases hsign : negative' = negative
    · subst hsign
      obtain ⟨hle, htie⟩ := hcovers.nearest hnumber hm hnumber'
      rw [abs_signed_sub]
      refine ⟨hle, fun hequal hne => htie hequal fun hsame => hne ?_⟩
      rw [hsame]
    · obtain rfl : negative' = !negative := Bool.eq_not_of_ne hsign
      obtain ⟨hle, htie⟩ := hcovers.nearest hnumber hm isNumber_zero
      rw [Nat.cast_zero, zero_mul, sub_zero, abs_of_pos hpos] at hle htie
      have hsize : (0 : ℚ) ≤ m' * 2 ^ e' := by positivity
      rw [abs_signed_sub_not negative hpos.le hsize]
      refine ⟨by linarith, fun hequal _ => htie (by linarith) ?_⟩
      positivity
  refine ⟨?_, ?_, ?_, ?_, ?_⟩
  · rw [abs_signed, abs_of_pos hpos]
    exact lt_overflowBound hnumber hcovers
  · rw [isNegative_eq h]
    cases negative with
    | false => simp [hpos.le]
    | true => simp [hpos]
  · rw [hvalue]
    rfl
  · intro a ha y b hb
    obtain rfl := Option.some.inj (hvalue.symm.trans ha)
    rw [abs_signed_sub]
    exact (key y b hb).1
  · intro a ha y b hb hequal hne
    obtain rfl := Option.some.inj (hvalue.symm.trans ha)
    rw [abs_signed_sub] at hequal
    rw [bits_mod_two h]
    exact (key y b hb).2 hequal hne

theorem datum_zero : zero.datum = .finite false 0 binary64.minExponent :=
  datum_ofBits isNumber_zero false

theorem value?_zero : zero.value? = some 0 := by
  rw [value?, datum_zero]
  show some ((0 : Nat) * (2 : ℚ) ^ binary64.minExponent) = some 0
  rw [Nat.cast_zero, zero_mul]

/-- Zero is read as the zero without a sign. -/
theorem isNearestTo_zero : IsNearestTo 0 zero := by
  have hself (a : ℚ) (ha : a ∈ zero.value?) : a = 0 := Option.some.inj (ha.symm.trans value?_zero)
  refine ⟨?_, ?_, ?_, ?_, ?_⟩
  · rw [abs_zero, overflowBound_eq]
    positivity
  · rw [isNegative_eq datum_zero]
    simp
  · rw [value?_zero]
    rfl
  · intro a ha y b _
    rw [hself a ha, sub_self, abs_zero]
    exact abs_nonneg _
  · intro a ha y b _ _ _
    rfl

end Binary64

/-! ## The text -/

/-- What is read as an integer is one. -/
theorem Binary.Datum.exists_of_toInt? {negative : Bool} {m : Nat} {e i : Int}
    (h : (Datum.finite negative m e).toInt? = some i) :
    ∃ n : Nat, (m : ℚ) * 2 ^ e = n ∧ i = if negative then -(n : Int) else n := by
  have hexact : m % Nat.pow 2 (-e).toNat = 0 := by
    rw [toInt?] at h
    split at h
    · assumption
    · cases h
  obtain ⟨n, hn⟩ : ∃ n : Nat, (m : ℚ) * 2 ^ e = n := by
    obtain ⟨k, rfl | rfl⟩ := e.eq_nat_or_neg
    · refine ⟨m * 2 ^ k, ?_⟩
      push_cast
      rw [zpow_natCast]
    · rw [neg_neg, Int.toNat_natCast] at hexact
      obtain ⟨n, hn⟩ := Nat.dvd_of_mod_eq_zero hexact
      refine ⟨n, ?_⟩
      rw [hn, zpow_neg, zpow_natCast]
      push_cast [Nat.pow_eq]
      field_simp
  refine ⟨n, hn, ?_⟩
  rw [toInt?_of_eq hn] at h
  exact (Option.some.inj h).symm

/-- A number that is not zero is written as a decimal in its interval, behind its sign. -/
theorem exists_numberText {x : Binary64} {negative : Bool} {m : Nat} {e : Int}
    (h : x.datum = .finite negative m e) (hm : 0 < m) :
    ∃ cs places v, Decimal.IsPlain cs places v ∧
      (Decimal.Interval.ofNumber binary64 m e).Covers v ∧
      numberText x = String.ofList ((if negative then ['-'] else []) ++ cs) := by
  obtain ⟨hnumber, -⟩ := Binary64.isNumber_of_datum h
  obtain ⟨places, v, hplain, hcovers⟩ := Decimal.exists_shortest hnumber hm (by decide)
  unfold numberText
  rw [h]
  dsimp only
  split
  · rename_i i hint
    split
    · obtain ⟨n, hn, hi⟩ := Datum.exists_of_toInt? hint
      have hpos : 0 < n := by
        have hproduct : (0 : ℚ) < m * 2 ^ e := by positivity
        rw [hn] at hproduct
        exact_mod_cast hproduct
      refine ⟨_, _, _, .whole (Decimal.isNumeral_digits n), ?_, ?_⟩
      · rw [Decimal.value_digits, ← hn]
        exact Decimal.Interval.covers_value hm
      · have hsize : i.natAbs = n := by
          rw [hi]
          split <;> omega
        have hsign : i < 0 ↔ negative = true := by
          rw [hi]
          split
          · rename_i hnegative
            exact iff_of_true (by omega) hnegative
          · rename_i hnegative
            exact iff_of_false (by omega) hnegative
        rw [integerText, hsize]
        simp only [hsign]
    · exact ⟨_, places, v, hplain, hcovers, rfl⟩
  · exact ⟨_, places, v, hplain, hcovers, rfl⟩

/-- A zero of either sign is written without one. -/
theorem numberText_of_zero {x : Binary64} {negative : Bool} {e : Int}
    (h : x.datum = .finite negative 0 e) : numberText x = integerText 0 := by
  have hint : (Datum.finite negative 0 e).toInt? = some 0 := by
    rw [Datum.toInt?_of_eq (n := 0) (by rw [Nat.cast_zero, zero_mul])]
    cases negative <;> rfl
  unfold numberText
  rw [h]
  dsimp only
  rw [hint]
  rfl

/-- A number is the one nearest to its own value, where that is an integer. -/
theorem Binary64.eq_ofInt {x : Binary64} {negative : Bool} {m : Nat} {e : Int}
    (h : x.datum = .finite negative m e) (hm : 0 < m) {i : Int}
    (hi : (if negative then -((m : ℚ) * 2 ^ e) else m * 2 ^ e) = i) : x = ofInt i := by
  obtain ⟨hnumber, hbits⟩ := isNumber_of_datum h
  obtain ⟨habs, -, hsign⟩ := Datum.signed_value hi.symm
  have hsize : (i.natAbs : ℚ) = m * 2 ^ e := by
    rw [← habs, ← Int.cast_abs, Int.abs_eq_natAbs]
    rfl
  have hpos : 0 < i.natAbs := by
    have hproduct : (0 : ℚ) < m * 2 ^ e := by positivity
    rw [← hsize] at hproduct
    exact_mod_cast hproduct
  have hpattern : binary64.packMagnitude i.natAbs 1 = binary64.pattern m e := by
    refine Decimal.Interval.packMagnitude_eq_pattern hnumber hm hpos Nat.one_pos ?_
    rw [Nat.cast_one, div_one, hsize]
    exact Decimal.Interval.covers_value hm
  have hnegative : decide (i < 0) = negative := by
    rw [Bool.eq_iff_iff, decide_eq_true_eq, ← hsign hm]
    exact Int.cast_lt_zero.symm
  rw [ofInt, Format.pack, hpattern, hnegative, ← hbits, ofBits, UInt64.ofNat_toNat]

/-- What a number is read back as: itself, but for a zero, which loses its sign. -/
theorem Binary64.value?_read {x : Binary64} {a : ℚ} (h : x.value? = some a) :
    (if a = 0 then zero else x).value? = some a := by
  split
  · rename_i hzero
    rw [hzero]
    exact value?_zero
  · exact h

/-- The text of a finite number is a plain decimal that is read as the number. -/
theorem exists_isSigned_numberText {x : Binary64} {a : ℚ} (hx : x.value? = some a) :
    ∃ v, Decimal.IsSigned (numberText x) v ∧
      Binary64.IsNearestTo v (if a = 0 then .zero else x) := by
  obtain ⟨negative, m, e, hdatum, ha⟩ := Datum.value?_eq_some_iff.mp hx
  obtain ⟨-, hzero, -⟩ := Datum.signed_value ha
  rcases Nat.eq_zero_or_pos m with rfl | hm
  · rw [if_pos (hzero.mpr rfl), numberText_of_zero hdatum]
    refine ⟨0, ?_, Binary64.isNearestTo_zero⟩
    have hplain := Decimal.IsPlain.whole (Decimal.isNumeral_digits 0)
    rw [Decimal.value_digits, Nat.cast_zero] at hplain
    exact .unsigned hplain
  · rw [if_neg (mt hzero.mp hm.ne')]
    obtain ⟨cs, places, v, hplain, hcovers, htext⟩ := exists_numberText hdatum hm
    refine ⟨_, ?_, Binary64.isNearestTo_of_covers hdatum hm hcovers⟩
    rw [htext]
    cases negative with
    | false => exact .unsigned hplain
    | true => exact .negated hplain

/-- A number whose value is an integer that the format holds exactly is written as that integer,
whichever way it is laid out. -/
theorem numberText_of_integer {x : Binary64} {i : Int} (hx : x.value? = some (i : ℚ))
    (hi : i.natAbs ≤ Binary64.exactLimit) : numberText x = integerText i := by
  obtain ⟨negative, m, e, hdatum, ha⟩ := Datum.value?_eq_some_iff.mp hx
  obtain ⟨-, hzero, -⟩ := Datum.signed_value ha
  rcases Nat.eq_zero_or_pos m with rfl | hm
  · obtain rfl : i = 0 := by exact_mod_cast hzero.mpr rfl
    exact numberText_of_zero hdatum
  · have hlimit : Binary64.exactLimit ≤ Nat.pow 2 63 := Nat.pow_le_pow_right Nat.two_pos (by decide)
    obtain ⟨d, htext, -, hexact⟩ := numberText_ofInt (hi.trans hlimit)
    rw [Binary64.eq_ofInt hdatum hm ha.symm, htext, hexact hi]

/-- Numbers have the same text if and only if they have the same value. -/
theorem numberText_eq_iff {x y : Binary64} {a b : ℚ} (hx : x.value? = some a)
    (hy : y.value? = some b) : numberText x = numberText y ↔ a = b := by
  constructor
  · intro hsame
    obtain ⟨v, hsigned, hnearest⟩ := exists_isSigned_numberText hx
    obtain ⟨w, hsigned', hnearest'⟩ := exists_isSigned_numberText hy
    rw [← hsame] at hsigned'
    obtain rfl := hsigned.unique hsigned'
    have hread := congrArg Binary64.value? (hnearest.unique hnearest')
    rw [Binary64.value?_read hx, Binary64.value?_read hy] at hread
    exact Option.some.inj hread
  · rintro rfl
    obtain ⟨negative, m, e, hdatum, ha⟩ := Datum.value?_eq_some_iff.mp hx
    obtain ⟨negative', m', e', hdatum', ha'⟩ := Datum.value?_eq_some_iff.mp hy
    obtain ⟨habs, hzero, hsign⟩ := Datum.signed_value ha
    obtain ⟨habs', hzero', hsign'⟩ := Datum.signed_value ha'
    obtain ⟨rfl, rfl⟩ := (Binary64.isNumber_of_datum hdatum).1.eq_of_value_eq
      (Binary64.isNumber_of_datum hdatum').1 (habs.symm.trans habs')
    rcases Nat.eq_zero_or_pos m with rfl | hm
    · rw [numberText_of_zero hdatum, numberText_of_zero hdatum']
    · have hsame : negative = negative' := by
        rw [Bool.eq_iff_iff, ← hsign hm, ← hsign' hm]
      rw [numberText, numberText, hdatum, hdatum', hsame]

/-- The text of a finite number is a plain decimal which is read as that number, a zero as the
zero without a sign. Where the value is an integer that the format holds exactly, it is that
integer's own text, and two numbers have the same text if and only if they are equal. -/
theorem numberText_readsBack {x : Binary64} {a : ℚ} (hx : x.value? = some a) :
    (∃ v, Decimal.IsSigned (numberText x) v ∧
        Binary64.IsNearestTo v (if a = 0 then .zero else x)) ∧
      (∀ i : Int, a = i → i.natAbs ≤ Binary64.exactLimit → numberText x = integerText i) ∧
      ∀ {y : Binary64} {b : ℚ}, y.value? = some b → (numberText x = numberText y ↔ a = b) := by
  refine ⟨exists_isSigned_numberText hx, ?_, fun hy => numberText_eq_iff hx hy⟩
  rintro i rfl hi
  exact numberText_of_integer hx hi

/-- The first number that is not laid out as an integer, and the last one in front of it. -/
theorem numberText_at_plainIntegerLimit :
    Binary64.value? ⟨0x430C6BF526340000⟩ = some 1000000000000000 ∧
      Binary64.value? ⟨0x430C6BF52633FFFF⟩ = some (1000000000000000 - 1 / 8) ∧
      numberText ⟨0x430C6BF526340000⟩ = integerText 1000000000000000 ∧
      (∃ v, Decimal.IsSigned (numberText ⟨0x430C6BF52633FFFF⟩) v ∧
        Binary64.IsNearestTo v ⟨0x430C6BF52633FFFF⟩) ∧
      numberText ⟨0x430C6BF526340000⟩ ≠ numberText ⟨0x430C6BF52633FFFF⟩ := by
  have hdatum : Binary64.datum ⟨0x430C6BF526340000⟩ = .finite false 8000000000000000 (-3) := rfl
  have hdatum' : Binary64.datum ⟨0x430C6BF52633FFFF⟩ = .finite false 7999999999999999 (-3) := rfl
  have hx : Binary64.value? ⟨0x430C6BF526340000⟩ = some 1000000000000000 := by
    rw [Binary64.value?, hdatum]
    show some ((8000000000000000 : Nat) * (2 : ℚ) ^ (-3 : Int)) = _
    norm_num
  have hy : Binary64.value? ⟨0x430C6BF52633FFFF⟩ = some (1000000000000000 - 1 / 8) := by
    rw [Binary64.value?, hdatum']
    show some ((7999999999999999 : Nat) * (2 : ℚ) ^ (-3 : Int)) = _
    norm_num
  obtain ⟨-, hinteger, hequal⟩ := numberText_readsBack hx
  obtain ⟨hread, -, -⟩ := numberText_readsBack hy
  refine ⟨hx, hy, hinteger 1000000000000000 (by norm_num) ?_, ?_, ?_⟩
  · show 1000000000000000 ≤ 9007199254740992
    omega
  · rwa [if_neg (by norm_num)] at hread
  · rw [Ne, hequal hy]
    norm_num

end ScpiScript
