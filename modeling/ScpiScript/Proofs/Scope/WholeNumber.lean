import ScpiScript.Proofs.Binary.Value
import ScpiScript.Proofs.Decimal.Shortest
import ScpiScript.Scope.Value
/-!
# The text of a whole number

An integer that is held as a floating-point number is the nearest one of the format. It is
written in digits alone, as an integer that the same floating-point number is nearest to, and
up to the size that the format holds without rounding as itself.

- `Datum.toInt?_of_eq` reads a whole number off a mantissa and an exponent.
- `Binary64.Rounds` says what the number nearest to an integer is: `rounds_of_le`.
- `numberText_ofInt` is the text of that number.
-/

namespace ScpiScript

open Binary

/-- A number that is whole is read as an integer. -/
theorem Binary.Datum.toInt?_of_eq {m n : Nat} {e : Int} (h : (m : ℚ) * 2 ^ e = n)
    (negative : Bool) :
    (Datum.finite negative m e).toInt? = some (if negative then -(n : Int) else n) := by
  have hmagnitude : m % Nat.pow 2 (-e).toNat = 0 ∧
      m * Nat.pow 2 e.toNat / Nat.pow 2 (-e).toNat = n := by
    obtain ⟨k, rfl | rfl⟩ := e.eq_nat_or_neg
    · rw [zpow_natCast] at h
      rw [Int.toNat_neg_natCast, Int.toNat_natCast]
      refine ⟨Nat.mod_one m, ?_⟩
      rw [Nat.pow_eq, Nat.pow_eq, Nat.pow_zero, Nat.div_one]
      exact_mod_cast h
    · rw [zpow_neg, zpow_natCast, ← div_eq_mul_inv, div_eq_iff (by positivity)] at h
      have hmul : m = n * 2 ^ k := by exact_mod_cast h
      rw [neg_neg, Int.toNat_natCast, Int.toNat_neg_natCast, hmul]
      exact ⟨Nat.mul_mod_left n _, by simp⟩
  rw [Datum.toInt?, if_pos hmagnitude.1, Datum.truncate?, hmagnitude.2]

namespace Binary64

/-- The largest integer up to which the format holds all. -/
def exactLimit : Nat := Nat.pow 2 53

/-- The finite number `± m · 2 ^ e` of the format is the one that a positive magnitude `n` is
rounded to. -/
structure Rounds (n m : Nat) (e : Int) : Prop where
  isNumber : binary64.IsNumber m e
  pos : 0 < m
  pattern_eq : binary64.packMagnitude n 1 = binary64.pattern m e
  whole : ∃ k : Nat, (m : ℚ) * 2 ^ e = k
  exact_of_lt : n < exactLimit → (m : ℚ) * 2 ^ e = n ∧ e ≤ 0

/-- The last place of an integer of at most 64 bits. -/
theorem lastPlace_bounds {n : Nat} (hpos : 0 < n) (hle : n ≤ Nat.pow 2 63) {q : Int}
    (hq : binary64.IsLastPlace n q) : -1074 < q ∧ q ≤ 11 := by
  obtain ⟨-, hlt, hfills⟩ := hq
  rw [binary64_units, Nat.cast_ofNat] at hlt hfills
  rw [binary64_minExponent] at hfills
  have hlow : -54 < q := by
    refine not_le.mp fun hsmall => ?_
    have hone : (1 : ℚ) ≤ n := by exact_mod_cast hpos
    have hpower : (2 : ℚ) ^ q ≤ 2 ^ (-54 : Int) := zpow_le_zpow_right₀ (by norm_num) hsmall
    norm_num at hpower
    linarith
  have hfills := hfills.resolve_left (by omega)
  refine ⟨by omega, not_lt.mp fun hlarge => ?_⟩
  have hpower : (2 : ℚ) ^ (12 : Int) ≤ 2 ^ q := zpow_le_zpow_right₀ (by norm_num) hlarge
  have hsize : (n : ℚ) ≤ 9223372036854775808 := by exact_mod_cast hle
  norm_num at hpower
  linarith

/-- Below the limit, the last place of an integer is not above the units. -/
theorem lastPlace_le_zero {n : Nat} (hlt : n < exactLimit) {q : Int}
    (hq : binary64.IsLastPlace n q) : q ≤ 0 := by
  refine not_lt.mp fun hone => ?_
  have hfills := hq.fills.resolve_left (by rw [binary64_minExponent]; omega)
  rw [binary64_units, Nat.cast_ofNat] at hfills
  have hpower : (2 : ℚ) ^ (1 : Int) ≤ 2 ^ q := zpow_le_zpow_right₀ (by norm_num) hone
  have hless : (n : ℚ) < 9007199254740992 := by exact_mod_cast hlt
  norm_num at hpower
  linarith

/-- At a place from the units down, an integer is not rounded. -/
theorem nearest_eq_of_le_zero {n r : Nat} {q : Int} (hr : IsNearest (n * 2 ^ (-q)) r)
    (hunits : q ≤ 0) : (r : ℚ) * 2 ^ q = n := by
  obtain ⟨k, rfl⟩ : ∃ k : Nat, q = -(k : Int) := ⟨(-q).toNat, by omega⟩
  have hwhole : (n : ℚ) * 2 ^ (-(-(k : Int))) = (n * 2 ^ k : Nat) := by
    rw [neg_neg, zpow_natCast]
    push_cast
    rfl
  rw [hwhole] at hr
  rw [hr.unique (isNearest_natCast _), zpow_neg, zpow_natCast]
  push_cast
  field_simp

theorem rounds_of_le {n : Nat} (hpos : 0 < n) (hle : n ≤ Nat.pow 2 63) : ∃ m e, Rounds n m e := by
  have hplace := binary64.isLastPlace_scale hpos Nat.one_pos
  rw [Nat.cast_one, div_one] at hplace
  generalize max (Format.scale n 1 - (binary64.precision - 1 : Nat)) binary64.minExponent = q
    at hplace
  obtain ⟨hlow, hhigh⟩ := lastPlace_bounds hpos hle hplace
  obtain ⟨r, hr⟩ := exists_isNearest n Nat.one_pos q
  rw [Nat.cast_one, div_one] at hr
  have hbound := (hplace.bounds hr).1
  have hfills := (hplace.bounds hr).2.resolve_left (by rw [binary64_minExponent]; omega)
  have hfinite : binary64.pattern r q < binary64.infinity := by
    rw [Format.pattern, binary64_minExponent, binary64_infinity]
    rw [binary64_units] at hbound ⊢
    omega
  have hpack : binary64.packMagnitude n 1 = binary64.pattern r q := by
    rw [Format.packMagnitude_eq hpos Nat.one_pos (by rwa [Nat.cast_one, div_one])
      (by rwa [Nat.cast_one, div_one]), min_eq_left hfinite.le]
  obtain ⟨m, e, hnumber, hpattern, hvalue, hqe, hcarry⟩ := hplace.exists_isNumber hr hfinite
  have hunit : (0 : ℚ) < 2 ^ q := by positivity
  have hpositive : 0 < m := by
    have hrpos : (0 : ℚ) < r := by
      have hunits := binary64.fractionUnits_pos
      exact_mod_cast (by omega : 0 < r)
    have hproduct : (0 : ℚ) < m * 2 ^ e := by
      rw [hvalue]
      positivity
    have hunit' : (0 : ℚ) < 2 ^ e := by positivity
    exact_mod_cast (mul_pos_iff_of_pos_right hunit').mp hproduct
  have hexact (hunits : q ≤ 0) : (m : ℚ) * 2 ^ e = n :=
    hvalue.trans (nearest_eq_of_le_zero hr hunits)
  refine ⟨m, e, hnumber, hpositive, hpack.trans hpattern.symm, ?_, fun hlt => ?_⟩
  · rcases le_total q 0 with hunits | hunits
    · exact ⟨n, hexact hunits⟩
    · refine ⟨r * 2 ^ q.toNat, ?_⟩
      rw [hvalue]
      push_cast
      rw [← zpow_natCast, Int.toNat_of_nonneg hunits]
  · have hunits := lastPlace_le_zero hlt hplace
    have hsame := hexact hunits
    refine ⟨hsame, ?_⟩
    -- a carry would make it as large as the place allows no integer to be
    rcases hcarry with ⟨-, rfl⟩ | hcarry
    · exact hunits
    · rw [hvalue, hcarry] at hsame
      push_cast at hsame
      exact absurd hplace.lt (by rw [hsame]; exact lt_irrefl _)

theorem datum_ofInt {i : Int} {m : Nat} {e : Int} (h : Rounds i.natAbs m e) :
    (ofInt i).datum = .finite (i < 0) m e := by
  rw [ofInt, Format.pack, h.pattern_eq, datum_ofBits h.isNumber]

/-- Integers with the same sign that are rounded to the same magnitude are the same number. -/
theorem ofInt_eq_of_covers {i : Int} {m : Nat} {e : Int} (h : Rounds i.natAbs m e) {d : Nat}
    (hpos : 0 < d) (hcovers : (Decimal.Interval.ofNumber binary64 m e).Covers d) :
    ofInt (if i < 0 then -(d : Int) else d) = ofInt i := by
  have hmagnitude : binary64.packMagnitude d 1 = binary64.pattern m e := by
    refine Decimal.Interval.packMagnitude_eq_pattern h.isNumber h.pos hpos Nat.one_pos ?_
    rwa [Nat.cast_one, div_one]
  have hnatAbs : (if i < 0 then -(d : Int) else d).natAbs = d := by
    split <;> omega
  have hsign : decide ((if i < 0 then -(d : Int) else d) < 0) = decide (i < 0) := by
    split <;> simp <;> omega
  rw [ofInt, ofInt, hnatAbs, hsign, Format.pack, Format.pack, hmagnitude, h.pattern_eq]

/-- Below the limit, an integer is the only one in the interval of its number. -/
theorem eq_of_covers {n m : Nat} {e : Int} (h : Rounds n m e) (hlt : n < exactLimit) {d : Nat}
    (hcovers : (Decimal.Interval.ofNumber binary64 m e).Covers d) : d = n := by
  obtain ⟨hvalue, he⟩ := h.exact_of_lt hlt
  obtain ⟨hlow, hhigh, -⟩ := hcovers
  rw [Decimal.Interval.low_ofNumber h.pos, sub_mul, hvalue] at hlow
  rw [Decimal.Interval.high_ofNumber, add_mul, hvalue] at hhigh
  have hpower : (2 : ℚ) ^ e ≤ 1 := zpow_le_one_of_nonpos₀ (by norm_num) he
  have hunit : (0 : ℚ) < 2 ^ e := by positivity
  have hless : (d : ℚ) < n + 1 := by linarith
  have hmore : (n : ℚ) < d + 1 := by
    split at hlow <;> linarith
  exact Nat.le_antisymm (Nat.le_of_lt_succ (by exact_mod_cast hless))
    (Nat.le_of_lt_succ (by exact_mod_cast hmore))

end Binary64

/-! ## The text -/

/-- The text of the number nearest to an integer of at most 64 bits: that of an integer which
the same number is nearest to. -/
theorem exists_numberText_ofInt {i : Int} {m : Nat} {e : Int}
    (h : Binary64.Rounds i.natAbs m e) :
    ∃ d : Nat, 0 < d ∧ (Decimal.Interval.ofNumber binary64 m e).Covers d ∧
      numberText (.ofInt i) = integerText (if i < 0 then -(d : Int) else d) := by
  obtain ⟨k, hk⟩ := h.whole
  have hint : (Datum.finite (i < 0) m e).toInt? = some (if i < 0 then -(k : Int) else k) := by
    rw [Datum.toInt?_of_eq hk]
    simp only [decide_eq_true_eq]
  obtain ⟨d, hpos, hpositional, hcovers⟩ :=
    Decimal.shortest_whole h.isNumber h.pos (by decide) hk
  have hkpos : 0 < k := by
    have hproduct : (0 : ℚ) < m * 2 ^ e := by
      have hm := h.pos
      positivity
    rw [hk] at hproduct
    exact_mod_cast hproduct
  have hself : (Decimal.Interval.ofNumber binary64 m e).Covers k :=
    hk ▸ Decimal.Interval.covers_value h.pos
  generalize hz : (if i < 0 then -(k : Int) else k) = z at hint
  unfold numberText
  rw [Binary64.datum_ofInt h]
  dsimp only
  rw [hint]
  dsimp only
  split
  · exact ⟨k, hkpos, hself, congrArg integerText hz.symm⟩
  · refine ⟨d, hpos, hcovers, ?_⟩
    have hnatAbs : (if i < 0 then -(d : Int) else d).natAbs = d := by
      split <;> omega
    have hsign : (if i < 0 then -(d : Int) else d) < 0 ↔ i < 0 := by
      split <;> omega
    rw [hpositional, integerText, hnatAbs]
    simp only [hsign, decide_eq_true_eq]

/-- The text of the number nearest to an integer of at most 64 bits is that of an integer
which the same number is nearest to, and up to the limit that of the integer itself. -/
theorem numberText_ofInt {i : Int} (hsize : i.natAbs ≤ Nat.pow 2 63) :
    ∃ d : Int, numberText (.ofInt i) = integerText d ∧ Binary64.ofInt d = Binary64.ofInt i ∧
      (i.natAbs ≤ Binary64.exactLimit → d = i) := by
  rcases Nat.eq_zero_or_pos i.natAbs with hzero | hpos
  · obtain rfl : i = 0 := by omega
    exact ⟨0, by decide +kernel, rfl, fun _ => rfl⟩
  obtain ⟨m, e, hrounds⟩ := Binary64.rounds_of_le hpos hsize
  rcases Nat.lt_or_ge i.natAbs Binary64.exactLimit with hlt | hge
  · obtain ⟨d, hd, hcovers, htext⟩ := exists_numberText_ofInt hrounds
    refine ⟨_, htext, Binary64.ofInt_eq_of_covers hrounds hd hcovers, fun _ => ?_⟩
    rw [Binary64.eq_of_covers hrounds hlt hcovers]
    split <;> omega
  · rcases Nat.lt_or_eq_of_le hge with hgt | heq
    · obtain ⟨d, hd, hcovers, htext⟩ := exists_numberText_ofInt hrounds
      exact ⟨_, htext, Binary64.ofInt_eq_of_covers hrounds hd hcovers, fun hle => by omega⟩
    · -- the limit itself is written as it is
      have hlimit : Binary64.exactLimit = 9007199254740992 := rfl
      obtain rfl | rfl : i = 9007199254740992 ∨ i = -9007199254740992 := by omega
      · exact ⟨9007199254740992, by decide +kernel, rfl, fun _ => rfl⟩
      · exact ⟨-9007199254740992, by decide +kernel, rfl, fun _ => rfl⟩

end ScpiScript
