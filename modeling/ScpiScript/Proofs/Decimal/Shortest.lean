import Mathlib.Data.List.TakeWhile
import ScpiScript.Decimal.Shortest
import ScpiScript.Proofs.Binary.Rounding
import ScpiScript.Proofs.Decimal.Numeral
/-!
# The decimal that is written for a number

The decimals that read back as a number are those in its interval. The search for the one
with the fewest figures always ends with one of them.

- `order_spec` is the decimal order of a quotient.
- `Interval.Covers` says that a rational number lies in an interval: `contains_iff`.
- `packMagnitude_eq_pattern`: what lies in the interval of a number is rounded to it.
- `Interval.search_eq` is the search on finer and finer grids, and `onGrid?_isSome_of_lt`
  that a grid finer than the interval ends it.
- `positional_trimmed` is the text of a whole number.
-/

namespace ScpiScript.Decimal

open Binary

/-! ## Orders of ten -/

/-- The decimal order of a quotient. -/
theorem order_spec {num den : Nat} (hnum : 0 < num) (hden : 0 < den) :
    (10 : ℚ) ^ order num den ≤ num / den ∧ (num : ℚ) / den < 10 ^ (order num den + 1) := by
  have hn : (0 : ℚ) < num := by exact_mod_cast hnum
  have hd : (0 : ℚ) < den := by exact_mod_cast hden
  unfold order
  split
  · rename_i hle
    have hpos : 0 < num / den := Nat.div_pos hle hden
    have hlow := pow_digitCount_le hpos
    have hhigh := lt_pow_digitCount (num / den)
    have hcount : 0 < digitCount (num / den) := List.length_pos_iff.mpr (digits_ne_nil _)
    generalize digitCount (num / den) = d at *
    constructor
    · rw [le_div_iff₀ hd, ← Nat.cast_pred hcount, zpow_natCast]
      have hmul := Nat.mul_le_of_le_div den _ num hlow
      exact_mod_cast hmul
    · rw [sub_add_cancel, div_lt_iff₀ hd, zpow_natCast]
      have hmul := (Nat.div_lt_iff_lt_mul hden).mp hhigh
      exact_mod_cast hmul
  · rename_i hgt
    have hpos : 0 < den / num := Nat.div_pos (by omega) hnum
    have hlow := Nat.mul_le_of_le_div num _ den (pow_digitCount_le hpos)
    have hhigh := (Nat.div_lt_iff_lt_mul hnum).mp (lt_pow_digitCount (den / num))
    have hcount : 0 < digitCount (den / num) := List.length_pos_iff.mpr (digits_ne_nil _)
    dsimp only
    generalize digitCount (den / num) = d at *
    have hexponent : (1 : Int) - d = -((d - 1 : Nat) : Int) := by omega
    have hupper : (num : ℚ) / den ≤ 10 ^ (-((d - 1 : Nat) : Int)) := by
      rw [zpow_neg, zpow_natCast, div_le_iff₀ hd, ← div_eq_inv_mul, le_div_iff₀ (by positivity),
        mul_comm]
      exact_mod_cast hlow
    split
    · rename_i heq
      have hquotient : (num : ℚ) / den = 10 ^ (-((d - 1 : Nat) : Int)) := by
        rw [zpow_neg, zpow_natCast, div_eq_iff hd.ne', ← div_eq_inv_mul, eq_div_iff (by positivity)]
        exact_mod_cast heq
      rw [hexponent, ← hquotient]
      refine ⟨le_rfl, ?_⟩
      rw [hquotient]
      exact zpow_lt_zpow_right₀ (by norm_num) (by omega)
    · rename_i hne
      constructor
      · rw [zpow_neg, zpow_natCast, le_div_iff₀ hd, ← div_eq_inv_mul, div_le_iff₀ (by positivity)]
        exact_mod_cast hhigh.le.trans_eq (Nat.mul_comm _ _)
      · have hstep : -(d : Int) + 1 = -((d - 1 : Nat) : Int) := by omega
        rw [hstep]
        refine lt_of_le_of_ne hupper fun hquotient => hne ?_
        rw [zpow_neg, zpow_natCast, div_eq_iff hd.ne', ← div_eq_inv_mul,
          eq_div_iff (by positivity)] at hquotient
        exact_mod_cast hquotient

/-! ## Intervals -/

namespace Interval

/-- A number lies in an interval. -/
structure Covers (i : Interval) (x : ℚ) : Prop where
  low_le : i.low * 2 ^ i.exponent ≤ x
  le_high : x ≤ i.high * 2 ^ i.exponent
  closed : x = i.low * 2 ^ i.exponent ∨ x = i.high * 2 ^ i.exponent → i.closed = true

variable {i : Interval} {power : Int}

/-- The two sizes of a unit are counted on one scale. -/
theorem units_eq (i : Interval) (power : Int) :
    ∃ c : ℚ, 0 < c ∧ ((i.units power).1 : ℚ) = c * 2 ^ i.exponent ∧
      ((i.units power).2 : ℚ) = c * 10 ^ power := by
  have hpower : ∀ {b : ℚ}, b ≠ 0 → ∀ e : Int, b ^ e.toNat = b ^ (-e).toNat * b ^ e := by
    intro b hb e
    rw [← zpow_natCast, ← zpow_natCast, ← zpow_add₀ hb]
    congr 1
    omega
  refine ⟨2 ^ (-i.exponent).toNat * 10 ^ (-power).toNat, by positivity, ?_, ?_⟩
  · show ((Nat.pow 2 i.exponent.toNat * Nat.pow 10 (-power).toNat : Nat) : ℚ) = _
    push_cast [Nat.pow_eq]
    rw [hpower (by norm_num) i.exponent]
    ring
  · show ((Nat.pow 2 (-i.exponent).toNat * Nat.pow 10 power.toNat : Nat) : ℚ) = _
    push_cast [Nat.pow_eq]
    rw [hpower (by norm_num) power]
    ring

theorem mul_units_le_iff {a b : Nat} :
    a * (i.units power).1 ≤ b * (i.units power).2 ↔
      (a : ℚ) * 2 ^ i.exponent ≤ b * 10 ^ power := by
  obtain ⟨c, hc, hunit, hten⟩ := i.units_eq power
  rw [← Nat.cast_le (α := ℚ)]
  push_cast
  rw [hunit, hten, mul_left_comm, mul_left_comm (b : ℚ)]
  exact mul_le_mul_iff_right₀ hc

theorem le_mul_units_iff {a b : Nat} :
    b * (i.units power).2 ≤ a * (i.units power).1 ↔
      (b : ℚ) * 10 ^ power ≤ a * 2 ^ i.exponent := by
  obtain ⟨c, hc, hunit, hten⟩ := i.units_eq power
  rw [← Nat.cast_le (α := ℚ)]
  push_cast
  rw [hunit, hten, mul_left_comm, mul_left_comm (a : ℚ)]
  exact mul_le_mul_iff_right₀ hc

theorem covers_of_lt {x : ℚ} (hlow : i.low * 2 ^ i.exponent < x)
    (hhigh : x < i.high * 2 ^ i.exponent) : i.Covers x :=
  ⟨hlow.le, hhigh.le, fun h => (h.elim hlow.ne' hhigh.ne).elim⟩

/-- What is tested of a decimal is that it lies in the interval. -/
theorem contains_iff {figures : Nat} :
    i.contains figures power = true ↔ i.Covers (figures * 10 ^ power) := by
  have hlow : i.low * (i.units power).1 ≤ figures * (i.units power).2 ↔ _ := mul_units_le_iff
  have hhigh : figures * (i.units power).2 ≤ i.high * (i.units power).1 ↔ _ := le_mul_units_iff
  have hlow' : figures * (i.units power).2 ≤ i.low * (i.units power).1 ↔ _ := le_mul_units_iff
  have hhigh' : i.high * (i.units power).1 ≤ figures * (i.units power).2 ↔ _ := mul_units_le_iff
  show (if i.closed then
      decide (i.low * (i.units power).1 ≤ figures * (i.units power).2) &&
        decide (figures * (i.units power).2 ≤ i.high * (i.units power).1)
    else
      decide (i.low * (i.units power).1 < figures * (i.units power).2) &&
        decide (figures * (i.units power).2 < i.high * (i.units power).1)) = true ↔ _
  split
  · rename_i hclosed
    rw [Bool.and_eq_true, decide_eq_true_eq, decide_eq_true_eq, hlow, hhigh]
    exact ⟨fun h => ⟨h.1, h.2, fun _ => hclosed⟩, fun h => ⟨h.low_le, h.le_high⟩⟩
  · rename_i hopen
    rw [Bool.and_eq_true, decide_eq_true_eq, decide_eq_true_eq, ← not_le, ← not_le, hlow', hhigh',
      not_le, not_le]
    constructor
    · exact fun h => covers_of_lt h.1 h.2
    · intro h
      exact ⟨lt_of_le_of_ne h.low_le fun heq => hopen (h.closed (.inl heq.symm)),
        lt_of_le_of_ne h.le_high fun heq => hopen (h.closed (.inr heq))⟩

/-! ## Points on a grid -/

/-- The last point on a grid that is not above the number. -/
def gridBelow (i : Interval) (power : Int) : Nat :=
  i.value * (i.units power).1 / (i.units power).2

/-- The number lies between two neighbours on a grid. -/
theorem gridBelow_spec (i : Interval) (power : Int) :
    i.gridBelow power * (10 : ℚ) ^ power ≤ i.value * 2 ^ i.exponent ∧
      i.value * (2 : ℚ) ^ i.exponent < (i.gridBelow power + 1 : Nat) * 10 ^ power := by
  have hten : 0 < (i.units power).2 :=
    Nat.mul_pos (Nat.two_pow_pos _) (Nat.pow_pos (by decide))
  constructor
  · exact le_mul_units_iff.mp (Nat.div_mul_le_self _ _)
  · rw [← not_le, ← le_mul_units_iff, not_le, mul_comm (i.gridBelow power + 1)]
    exact Nat.lt_mul_div_succ _ hten

/-- Either a point is found, which lies in the interval, or neither of the two neighbours of the
number does. -/
theorem onGrid?_cases (i : Interval) (power : Int) :
    (∃ figures, i.onGrid? power = some figures ∧ i.contains figures power = true) ∨
      i.onGrid? power = none ∧ i.contains (i.gridBelow power) power = false ∧
        i.contains (i.gridBelow power + 1) power = false := by
  unfold onGrid? gridBelow
  dsimp only
  split
  next hbelow habove =>
    refine .inl ⟨_, rfl, ?_⟩
    split
    · exact hbelow
    · exact habove
  next hbelow _ => exact .inl ⟨_, rfl, hbelow⟩
  next _ habove => exact .inl ⟨_, rfl, habove⟩
  next hbelow habove => exact .inr ⟨rfl, hbelow, habove⟩

/-- A point that is found lies in the interval. -/
theorem covers_of_onGrid? {figures : Nat} (h : i.onGrid? power = some figures) :
    i.Covers (figures * 10 ^ power) := by
  obtain ⟨found, hfound, hin⟩ | ⟨hnone, -⟩ := i.onGrid?_cases power
  · rw [← contains_iff, Option.some.inj (h.symm.trans hfound)]
    exact hin
  · rw [hnone] at h
    cases h

/-- If no point is found, neither of the two neighbours lies in the interval. -/
theorem not_covers_of_onGrid? (h : i.onGrid? power = none) :
    ¬ i.Covers (i.gridBelow power * 10 ^ power) ∧
      ¬ i.Covers ((i.gridBelow power + 1 : Nat) * 10 ^ power) := by
  obtain ⟨found, hfound, -⟩ | ⟨-, hbelow, habove⟩ := i.onGrid?_cases power
  · rw [hfound] at h
    cases h
  · rw [← contains_iff, ← contains_iff, hbelow, habove]
    exact ⟨Bool.false_ne_true, Bool.false_ne_true⟩

/-- The number lies inside its interval. -/
structure Inside (i : Interval) : Prop where
  low_lt : i.low < i.value
  lt_high : i.value < i.high

theorem Inside.lt (h : i.Inside) : i.low * (2 : ℚ) ^ i.exponent < i.value * 2 ^ i.exponent ∧
    i.value * (2 : ℚ) ^ i.exponent < i.high * 2 ^ i.exponent := by
  have hunit : (0 : ℚ) < 2 ^ i.exponent := by positivity
  exact ⟨mul_lt_mul_of_pos_right (by exact_mod_cast h.low_lt) hunit,
    mul_lt_mul_of_pos_right (by exact_mod_cast h.lt_high) hunit⟩

/-- A grid that is finer than the interval has a point in it. -/
theorem Inside.onGrid?_isSome_of_lt (h : i.Inside)
    (hwidth : (10 : ℚ) ^ power < (i.high - i.low) * 2 ^ i.exponent) :
    (i.onGrid? power).isSome = true := by
  rw [Option.isSome_iff_ne_none]
  intro hnone
  obtain ⟨hbelow, habove⟩ := not_covers_of_onGrid? hnone
  obtain ⟨hle, hlt⟩ := i.gridBelow_spec power
  obtain ⟨hlow, hhigh⟩ := h.lt
  have hfirst : i.gridBelow power * (10 : ℚ) ^ power ≤ i.low * 2 ^ i.exponent :=
    not_lt.mp fun hin => hbelow (covers_of_lt hin (hle.trans_lt hhigh))
  have hlast : i.high * (2 : ℚ) ^ i.exponent ≤ (i.gridBelow power + 1 : Nat) * 10 ^ power :=
    not_lt.mp fun hin => habove (covers_of_lt (hlow.trans hlt) hin)
  push_cast at hlast
  linarith

/-- A grid that the number itself is on has a point in its interval. -/
theorem Inside.onGrid?_isSome_of_eq (h : i.Inside) {figures : Nat}
    (hon : i.value * (2 : ℚ) ^ i.exponent = figures * 10 ^ power) :
    (i.onGrid? power).isSome = true := by
  rw [Option.isSome_iff_ne_none]
  intro hnone
  obtain ⟨hbelow, -⟩ := not_covers_of_onGrid? hnone
  obtain ⟨hle, hlt⟩ := i.gridBelow_spec power
  have hten : (0 : ℚ) < 10 ^ power := by positivity
  rw [hon, mul_le_mul_iff_left₀ hten] at hle
  rw [hon, mul_lt_mul_iff_left₀ hten] at hlt
  have hsame : i.gridBelow power = figures := by
    refine Nat.le_antisymm (by exact_mod_cast hle) (Nat.le_of_lt_succ (by exact_mod_cast hlt))
  rw [hsame, ← hon] at hbelow
  exact hbelow (covers_of_lt h.lt.1 h.lt.2)

/-! ## The search -/

/-- The search ends on the first grid that has a point in the interval. -/
theorem search_eq {tries : Nat} {power : Int}
    (h : ∃ j < tries, (i.onGrid? (power - (j : Nat))).isSome = true) :
    ∃ j < tries, ∃ figures, i.onGrid? (power - (j : Nat)) = some figures ∧
      i.search tries power = ⟨figures, power - j⟩ ∧
        ∀ k < j, i.onGrid? (power - (k : Nat)) = none := by
  induction tries generalizing power with
  | zero =>
    obtain ⟨j, hj, -⟩ := h
    exact absurd hj (Nat.not_lt_zero j)
  | succ tries ih =>
    cases hfirst : i.onGrid? power with
    | some figures =>
      refine ⟨0, Nat.zero_lt_succ _, figures, ?_, ?_, fun k hk => absurd hk (Nat.not_lt_zero k)⟩
      · simpa using hfirst
      · rw [search, hfirst]
        simp
    | none =>
      have hstep : ∀ k : Nat, power - 1 - k = power - (k + 1 : Nat) := fun k => by
        push_cast
        ring
      have hrest : ∃ j < tries, (i.onGrid? (power - 1 - (j : Nat))).isSome = true := by
        obtain ⟨j, hj, hsome⟩ := h
        cases j with
        | zero => simp [hfirst] at hsome
        | succ j => exact ⟨j, Nat.lt_of_succ_lt_succ hj, by rwa [hstep]⟩
      obtain ⟨j, hj, figures, hon, hsearch, hbefore⟩ := ih hrest
      refine ⟨j + 1, Nat.succ_lt_succ hj, figures, by rwa [← hstep], ?_, fun k hk => ?_⟩
      · rw [search, hfirst]
        dsimp only
        rw [hsearch, hstep]
      · cases k with
        | zero => simpa using hfirst
        | succ k => rw [← hstep]; exact hbefore k (Nat.lt_of_succ_lt_succ hk)

/-! ## The interval of a number -/

section OfNumber

variable {f : Format} {m : Nat} {e : Int}

theorem inside_ofNumber (hm : 0 < m) : (ofNumber f m e).Inside := by
  refine ⟨?_, Nat.lt_add_of_pos_right (by decide)⟩
  show 4 * m - _ < 4 * m
  split <;> omega

/-- The ends of the interval are counted in quarters of the last place. -/
theorem exponent_ofNumber : (2 : ℚ) ^ (ofNumber f m e).exponent = 2 ^ e / 4 := by
  show (2 : ℚ) ^ (e - 2) = _
  rw [zpow_sub₀ (by norm_num)]
  norm_num

/-- How far the interval of a number goes down, in units of the last place: a quarter where
the numbers below are twice as dense, else a half. -/
theorem low_ofNumber (hm : 0 < m) : ((ofNumber f m e).low : ℚ) * 2 ^ (ofNumber f m e).exponent =
    (m - if m = f.fractionUnits ∧ f.minExponent < e then 1 / 4 else 1 / 2) * 2 ^ e := by
  rw [exponent_ofNumber]
  show ((4 * m - _ : Nat) : ℚ) * _ = _
  split
  · rw [Nat.cast_sub (by omega)]
    push_cast
    ring
  · rw [Nat.cast_sub (by omega)]
    push_cast
    ring

/-- It goes up by half a unit of the last place. -/
theorem high_ofNumber : ((ofNumber f m e).high : ℚ) * 2 ^ (ofNumber f m e).exponent =
    (m + 1 / 2) * 2 ^ e := by
  rw [exponent_ofNumber]
  show ((4 * m + 2 : Nat) : ℚ) * _ = _
  push_cast
  ring

theorem value_ofNumber : ((ofNumber f m e).value : ℚ) * 2 ^ (ofNumber f m e).exponent =
    m * 2 ^ e := by
  rw [exponent_ofNumber]
  show ((4 * m : Nat) : ℚ) * _ = _
  push_cast
  ring

/-- In units of its last place, what lies in the interval of a number is nearest to its
mantissa. -/
theorem Covers.isNearest {y : ℚ} (h : (ofNumber f m e).Covers (y * 2 ^ e)) (hm : 0 < m) :
    IsNearest y m := by
  obtain ⟨hlow, hhigh, hclosed⟩ := h
  have hunit : (0 : ℚ) < 2 ^ e := by positivity
  have hparity : (ofNumber f m e).closed = true ↔ m % 2 = 0 := decide_eq_true_iff
  rw [low_ofNumber hm] at hlow hclosed
  rw [high_ofNumber] at hhigh hclosed
  rw [hparity, mul_left_inj' hunit.ne', mul_left_inj' hunit.ne'] at hclosed
  rw [mul_le_mul_iff_left₀ hunit] at hlow hhigh
  have hbelow : (m : ℚ) - 1 / 2 ≤ y := by
    split at hlow <;> linarith
  refine ⟨abs_le.mpr ⟨by linarith, by linarith⟩, fun hhalf => hclosed ?_⟩
  rcases abs_eq (by norm_num : (0 : ℚ) ≤ 1 / 2) |>.mp hhalf with habove | hbelow
  · exact .inr (by linarith)
  · refine .inl ?_
    split
    · rename_i hdense
      rw [if_pos hdense] at hlow
      linarith
    · linarith

/-- Only the interval of the first number with an exponent reaches below all numbers with that
exponent, by a half of the place below. -/
theorem Covers.below_first {x : ℚ} (hcovers : (ofNumber f m e).Covers x) (h : f.IsNumber m e)
    (hm : 0 < m) (hne : e ≠ f.minExponent) (hlt : x < f.fractionUnits * 2 ^ e) :
    m = f.fractionUnits ∧ ∃ y : ℚ, x = y * 2 ^ (e - 1) ∧
      2 * f.fractionUnits - 1 / 2 ≤ y ∧ y < 2 * f.fractionUnits := by
  have hlow := hcovers.low_le
  rw [low_ofNumber hm] at hlow
  have hunit : (0 : ℚ) < 2 ^ e := by positivity
  have hmin := h.min_le
  have hfirst : m = f.fractionUnits := by
    refine le_antisymm (not_lt.mp fun hmore => ?_) (h.normal.resolve_left hne)
    have hcast : (f.fractionUnits : ℚ) + 1 ≤ m := by exact_mod_cast hmore
    have hless := hlow.trans_lt hlt
    rw [mul_lt_mul_iff_left₀ hunit] at hless
    split at hless <;> linarith
  have hdense : m = f.fractionUnits ∧ f.minExponent < e := ⟨hfirst, by omega⟩
  have hstep : (2 : ℚ) ^ e = 2 * 2 ^ (e - 1) := by
    rw [mul_comm, ← zpow_add_one₀ (by norm_num), sub_add_cancel]
  have hunit' : (0 : ℚ) < 2 ^ (e - 1) := by positivity
  refine ⟨hfirst, x / 2 ^ (e - 1), (div_mul_cancel₀ x hunit'.ne').symm, ?_, ?_⟩
  · rw [if_pos hdense, hfirst, hstep] at hlow
    rw [le_div_iff₀ hunit']
    linarith
  · rw [hstep] at hlt
    rw [div_lt_iff₀ hunit']
    linarith

/-- A number is rounded within its interval: at its own last place, or in front of a power
of two at the place below, where the rounding carries. -/
theorem Covers.exists_isNearest {x : ℚ} (hcovers : (ofNumber f m e).Covers x)
    (h : f.IsNumber m e) (hm : 0 < m) :
    ∃ q r, f.IsLastPlace x q ∧ IsNearest (x * 2 ^ (-q)) r ∧ f.pattern r q = f.pattern m e := by
  have hmin := h.min_le
  have hunits (y : ℚ) (q : Int) : y * 2 ^ q * 2 ^ (-q) = y := by
    rw [mul_assoc, ← zpow_add₀ (by norm_num), add_neg_cancel, zpow_zero, mul_one]
  by_cases hplace : e = f.minExponent ∨ f.fractionUnits * 2 ^ e ≤ x
  · have hunit : (0 : ℚ) < 2 ^ e := by positivity
    obtain ⟨y, rfl⟩ : ∃ y, x = y * 2 ^ e := ⟨x / 2 ^ e, (div_mul_cancel₀ x hunit.ne').symm⟩
    have hnearest := hcovers.isNearest hm
    refine ⟨e, m, ⟨hmin, mul_lt_mul_of_pos_right ?_ hunit, hplace⟩, ?_, rfl⟩
    · have hlt : (m : ℚ) + 1 ≤ 2 * f.fractionUnits := by exact_mod_cast h.lt
      linarith [(abs_le.mp hnearest.le).2]
    · rwa [hunits]
  · rw [not_or, not_le] at hplace
    obtain ⟨hfirst, y, rfl, hlow, hlt⟩ := hcovers.below_first h hm hplace.1 hplace.2
    have hunit : (0 : ℚ) < 2 ^ (e - 1) := by positivity
    have hone : (1 : ℚ) ≤ f.fractionUnits := by exact_mod_cast f.fractionUnits_pos
    refine ⟨e - 1, 2 * f.fractionUnits,
      ⟨by omega, mul_lt_mul_of_pos_right hlt hunit, .inr ?_⟩, ?_, ?_⟩
    · rw [mul_le_mul_iff_left₀ hunit]
      linarith
    · rw [hunits]
      refine ⟨abs_le.mpr ?_, fun _ => Nat.mul_mod_right 2 _⟩
      push_cast
      exact ⟨by linarith, by linarith⟩
    · have hnat : (e - f.minExponent).toNat = (e - 1 - f.minExponent).toNat + 1 := by omega
      rw [Format.pattern, Format.pattern, hnat, hfirst]
      ring

/-- An interval holds positive numbers alone. -/
theorem Covers.pos {x : ℚ} (h : (ofNumber f m e).Covers x) (hm : 0 < m) : 0 < x := by
  have hlow := h.low_le
  rw [low_ofNumber hm] at hlow
  have hone : (1 : ℚ) ≤ m := by exact_mod_cast hm
  refine lt_of_lt_of_le (mul_pos ?_ (by positivity)) hlow
  split <;> linarith

/-- The number itself lies in its interval. -/
theorem covers_value (hm : 0 < m) : (ofNumber f m e).Covers (m * 2 ^ e) := by
  obtain ⟨hlow, hhigh⟩ := (inside_ofNumber (f := f) (e := e) hm).lt
  rw [value_ofNumber] at hlow hhigh
  exact covers_of_lt hlow hhigh

/-- What lies in the interval of a number is rounded to it. -/
theorem packMagnitude_eq_pattern (h : f.IsNumber m e) (hm : 0 < m) {num den : Nat}
    (hnum : 0 < num) (hden : 0 < den) (hcovers : (ofNumber f m e).Covers (num / den)) :
    f.packMagnitude num den = f.pattern m e := by
  obtain ⟨q, r, hq, hr, hpattern⟩ := hcovers.exists_isNearest h hm
  rw [Format.packMagnitude_eq hnum hden hq hr, hpattern, min_eq_left h.finite.le]

/-- A grid with seventeen figures has a point in the interval. -/
theorem onGrid?_isSome_of_figures (h : f.IsNumber m e) (hm : 0 < m) (hf : f.precision ≤ 53)
    {power : Int} (hpower : (10 : ℚ) ^ (power + 16) ≤ m * 2 ^ e) :
    ((ofNumber f m e).onGrid? power).isSome = true := by
  refine (inside_ofNumber hm).onGrid?_isSome_of_lt ?_
  rw [sub_mul, low_ofNumber hm, high_ofNumber, ← sub_mul]
  have hunit : (0 : ℚ) < 2 ^ e := by positivity
  have hunits : (f.fractionUnits : ℚ) ≤ 4503599627370496 := by
    have hwidth : f.precision - 1 ≤ 52 := by omega
    exact_mod_cast Nat.pow_le_pow_right (by decide : 0 < 2) hwidth
  have hlt : (m : ℚ) < 2 * f.fractionUnits := by exact_mod_cast h.lt
  have hten : (10 : ℚ) ^ power * 10 ^ 16 ≤ m * 2 ^ e := by
    rwa [zpow_add₀ (by norm_num)] at hpower
  refine lt_of_mul_lt_mul_right (hten.trans_lt ?_) (by norm_num : (0 : ℚ) ≤ 10 ^ 16)
  rw [mul_right_comm]
  refine mul_lt_mul_of_pos_right ?_ hunit
  -- numbers are twice as dense only below a mantissa with one bit less
  split
  · rename_i hdense
    rw [hdense.1]
    linarith
  · linarith

/-- The search for a number ends on a grid with at most seventeen figures. -/
theorem search_ofNumber (h : f.IsNumber m e) (hm : 0 < m) (hf : f.precision ≤ 53) :
    ∃ j < maxFigures, ∃ figures,
      (ofNumber f m e).search maxFigures
          (order (Format.quotient m e).1 (Format.quotient m e).2) =
        ⟨figures, order (Format.quotient m e).1 (Format.quotient m e).2 - (j : Nat)⟩ ∧
      (ofNumber f m e).Covers (figures *
        10 ^ (order (Format.quotient m e).1 (Format.quotient m e).2 - (j : Nat))) ∧
      ∀ k < j, (ofNumber f m e).onGrid?
        (order (Format.quotient m e).1 (Format.quotient m e).2 - (k : Nat)) = none := by
  have hnum : 0 < (Format.quotient m e).1 := Nat.mul_pos hm (Nat.two_pow_pos _)
  have hden : 0 < (Format.quotient m e).2 := Nat.two_pow_pos _
  have horder := (order_spec hnum hden).1
  rw [Format.quotient_eq] at horder
  generalize order (Format.quotient m e).1 (Format.quotient m e).2 = top at *
  have hlast : ((ofNumber f m e).onGrid? (top - (16 : Nat))).isSome = true := by
    refine onGrid?_isSome_of_figures h hm hf ?_
    rwa [Nat.cast_ofNat, sub_add_cancel]
  obtain ⟨j, hj, figures, hon, hsearch, hbefore⟩ :=
    @search_eq (ofNumber f m e) maxFigures top ⟨16, by decide, hlast⟩
  exact ⟨j, hj, figures, hsearch, covers_of_onGrid? hon, hbefore⟩

end OfNumber

end Interval

/-! ## Whole numbers -/

theorem withPoint_zero {cs : List Char} (h : cs ≠ []) : withPoint cs 0 = cs := by
  have hlength : 0 < cs.length := List.length_pos_iff.mpr h
  have hpad : 0 + 1 - cs.length = 0 := by omega
  simp [withPoint, hpad]

/-- The digits of a positive number are a numeral without a zero at the end or the front, and
zeros behind it. -/
theorem exists_kept {n : Nat} (hn : 0 < n) : ∃ kept zeros,
    ((digits n).reverse.dropWhile (· == '0')).reverse = kept ∧
      digits n = kept ++ List.replicate zeros '0' ∧ IsNumeral kept ∧ kept.head? ≠ some '0' := by
  have hzeros : (digits n).reverse.takeWhile (· == '0') =
      List.replicate ((digits n).reverse.takeWhile (· == '0')).length '0' :=
    List.eq_replicate_iff.mpr ⟨rfl, fun c hc => by simpa using List.mem_takeWhile_imp hc⟩
  have hsplit : digits n = ((digits n).reverse.dropWhile (· == '0')).reverse ++
      List.replicate ((digits n).reverse.takeWhile (· == '0')).length '0' := by
    rw [← List.reverse_replicate, ← List.reverse_append, ← hzeros,
      List.takeWhile_append_dropWhile, List.reverse_reverse]
  refine ⟨_, _, rfl, hsplit, ⟨?_, fun c hc => ?_⟩, fun hzero => ?_⟩
  · intro hnil
    have hvalue := value_digits n
    rw [hsplit, hnil, List.nil_append, value_replicate_zero] at hvalue
    omega
  · refine isDigit_of_mem_digits (n := n) ?_
    rw [hsplit]
    exact List.mem_append_left _ hc
  · refine hn.ne' (eq_zero_of_head?_digits ?_)
    rw [hsplit, List.head?_append, hzero, Option.some_or]

/-- Without the zeros at its end, a decimal number has a larger exponent by as many. -/
theorem exists_trimmed {s : Scaled} (h : 0 < s.figures) : ∃ kept zeros,
    digits s.figures = kept ++ List.replicate zeros '0' ∧ IsNumeral kept ∧
      kept.head? ≠ some '0' ∧ s.trimmed = ⟨value kept, s.exponent + (zeros : Nat)⟩ := by
  obtain ⟨kept, zeros, hkept, hsplit, hnumeral, hfirst⟩ := exists_kept h
  have hdropped : (digits s.figures).length - kept.length = zeros := by
    rw [hsplit, List.length_append, List.length_replicate, Nat.add_sub_cancel_left]
  refine ⟨kept, zeros, hsplit, hnumeral, hfirst, ?_⟩
  unfold Scaled.trimmed
  dsimp only
  rw [hkept, hdropped, ofDigitChars_eq_value, Nat.zero_mul, Nat.zero_add]

/-- It is written with as many more zeros behind it. -/
theorem positional_trimmed {s : Scaled} (hfigures : 0 < s.figures) (hexponent : 0 ≤ s.exponent) :
    s.trimmed.positional = digits (s.figures * 10 ^ s.exponent.toNat) := by
  obtain ⟨kept, zeros, hsplit, hnumeral, hfirst, htrimmed⟩ := exists_trimmed hfigures
  have hwritten : digits (value kept) = kept := (digits_value_iff hnumeral).mpr (.inr hfirst)
  have hpower : (s.exponent + (zeros : Nat)).toNat = zeros + s.exponent.toNat := by omega
  have hplaces : (-(s.exponent + (zeros : Nat))).toNat = 0 := by omega
  rw [htrimmed, Scaled.positional]
  dsimp only
  rw [hplaces, withPoint_zero (by simp [digits_ne_nil]), hwritten, hpower,
    ← List.replicate_append_replicate, ← List.append_assoc, ← hsplit, digits_mul_pow hfigures]

/-- Of a number that is whole, the decimal is whole too: it is written in digits alone. -/
theorem shortest_whole {f : Format} {m : Nat} {e : Int} (h : f.IsNumber m e) (hm : 0 < m)
    (hf : f.precision ≤ 53) {n : Nat} (hn : (m : ℚ) * 2 ^ e = n) :
    ∃ d : Nat, 0 < d ∧ (shortest f m e).positional = digits d ∧
      (Interval.ofNumber f m e).Covers d := by
  have hnum : 0 < (Format.quotient m e).1 := Nat.mul_pos hm (Nat.two_pow_pos _)
  have hden : 0 < (Format.quotient m e).2 := Nat.two_pow_pos _
  have horder := (order_spec hnum hden).2
  obtain ⟨j, -, figures, hsearch, hcovers, hbefore⟩ := Interval.search_ofNumber h hm hf
  rw [Format.quotient_eq, hn] at horder
  have hshortest : shortest f m e =
      ((Interval.ofNumber f m e).search maxFigures
        (order (Format.quotient m e).1 (Format.quotient m e).2)).trimmed := rfl
  generalize order (Format.quotient m e).1 (Format.quotient m e).2 = top at *
  -- the number is on the grid of the whole numbers, where the search ends at the latest
  have htop : 0 ≤ top := by
    have hone : (1 : ℚ) ≤ n := by
      have hpos : (0 : ℚ) < n := by
        rw [← hn]
        positivity
      exact_mod_cast hpos
    have hlt : (10 : ℚ) ^ (0 : Int) < 10 ^ (top + 1) := by
      rw [zpow_zero]
      exact hone.trans_lt horder
    have hexponents := (zpow_lt_zpow_iff_right₀ (by norm_num)).mp hlt
    omega
  have hpower : 0 ≤ top - (j : Nat) := by
    by_contra hneg
    have hzero : top - (top.toNat : Nat) = 0 := by omega
    have hnone := hbefore top.toNat (by omega)
    rw [hzero] at hnone
    have hon : ((Interval.ofNumber f m e).value : ℚ) * 2 ^ (Interval.ofNumber f m e).exponent =
        n * 10 ^ (0 : Int) := by
      rw [Interval.value_ofNumber, hn, zpow_zero, mul_one]
    have hsome := (Interval.inside_ofNumber hm).onGrid?_isSome_of_eq hon
    rw [hnone] at hsome
    cases hsome
  have hvalue : (figures : ℚ) * 10 ^ (top - (j : Nat)) =
      (figures * 10 ^ (top - (j : Nat)).toNat : Nat) := by
    push_cast
    rw [← zpow_natCast, Int.toNat_of_nonneg hpower]
  rw [hvalue] at hcovers
  have hpos : 0 < figures * 10 ^ (top - (j : Nat)).toNat := by exact_mod_cast hcovers.pos hm
  refine ⟨_, hpos, ?_, hcovers⟩
  rw [hshortest, hsearch]
  exact positional_trimmed (Nat.pos_of_mul_pos_right hpos) hpower

end ScpiScript.Decimal
