import Mathlib.Algebra.Order.Field.Power
import Mathlib.Data.Rat.Cast.Order
import Mathlib.Tactic.FieldSimp
import Mathlib.Tactic.Linarith
import Mathlib.Tactic.Positivity
import Mathlib.Tactic.Push
import Mathlib.Tactic.Ring
import ScpiScript.Binary.Number
/-!
# Rounding to a binary format

A quotient is written as the number of the format that is nearest to it, the even one of
two. What that means is said here of rational numbers, with no word of how it is found.

- `IsNearest` is an integer nearest to a rational number: `isNearest_roundDiv`.
- `scale_spec` is the binary order of a quotient, and `IsLastPlace` the place that a
  magnitude is rounded at.
- `Format.IsNumber` are the finite numbers of a format, `pattern` their bit patterns.
- `packMagnitude_eq` is the rounding of a quotient, and `exists_isNumber` the number that
  it is rounded to.
-/

namespace ScpiScript.Binary

/-! ## The nearest integer -/

/-- An integer nearest to a number; of two equally near the even one. -/
structure IsNearest (x : ℚ) (n : Nat) : Prop where
  le : |x - n| ≤ 1 / 2
  even : |x - n| = 1 / 2 → n % 2 = 0

variable {x : ℚ} {n k : Nat}

/-- There is only one. -/
theorem IsNearest.unique (hn : IsNearest x n) (hk : IsNearest x k) : n = k := by
  -- two of them would be neighbours, both half a unit away, and so both even
  have key : ∀ {a b : Nat}, IsNearest x a → IsNearest x b → ¬ a < b := by
    intro a b ha hb hlt
    have hla := abs_le.mp ha.le
    have hlb := abs_le.mp hb.le
    have hcast : (a : ℚ) + 1 ≤ b := by exact_mod_cast hlt
    have hxa : x - a = 1 / 2 := by linarith [hla.2, hlb.1]
    have hxb : x - b = -(1 / 2) := by linarith [hla.2, hlb.1]
    have hea := ha.even (by rw [hxa, abs_of_pos (by norm_num)])
    have heb := hb.even (by rw [hxb, abs_neg, abs_of_pos (by norm_num)])
    have hnext : (b : ℚ) = a + 1 := by linarith
    have hnext : b = a + 1 := by exact_mod_cast hnext
    omega
  exact Nat.le_antisymm (Nat.le_of_not_lt (key hk hn)) (Nat.le_of_not_lt (key hn hk))

theorem isNearest_natCast (n : Nat) : IsNearest (n : ℚ) n := by
  refine ⟨by simp, fun h => ?_⟩
  rw [sub_self, abs_zero] at h
  norm_num at h

/-- An integer does not lie between a number and its nearest integer. -/
theorem IsNearest.le_of_le (h : IsNearest x n) (hk : (k : ℚ) ≤ x) : k ≤ n := by
  have hle := (abs_le.mp h.le).2
  have hlt : (k : ℚ) < n + 1 := by linarith
  exact Nat.le_of_lt_succ (by exact_mod_cast hlt)

theorem IsNearest.le_of_lt (h : IsNearest x n) (hk : x < (k : ℚ)) : n ≤ k := by
  have hle := (abs_le.mp h.le).1
  have hlt : (n : ℚ) < k + 1 := by linarith
  exact Nat.le_of_lt_succ (by exact_mod_cast hlt)

/-- Less than a half behind an integer, that is the nearest. -/
theorem isNearest_add_of_lt {y : ℚ} (h : 0 ≤ y) (hlt : y < 1 / 2) : IsNearest (n + y) n := by
  have hdistance : |(n : ℚ) + y - n| = y := by rw [add_sub_cancel_left, abs_of_nonneg h]
  exact ⟨by linarith, fun heq => absurd (hdistance.symm.trans heq) (by linarith)⟩

/-- More than a half behind an integer, the next one is the nearest. -/
theorem isNearest_add_of_gt {y : ℚ} (h : y ≤ 1) (hgt : 1 / 2 < y) :
    IsNearest (n + y) (n + 1) := by
  have hdistance : |(n : ℚ) + y - (n + 1 : Nat)| = 1 - y := by
    rw [Nat.cast_succ, add_sub_add_left_eq_sub, abs_sub_comm, abs_of_nonneg (by linarith)]
  exact ⟨by linarith, fun heq => absurd (hdistance.symm.trans heq) (by linarith)⟩

/-- A half behind an integer, the nearest is the even neighbour. -/
theorem isNearest_add_half : IsNearest (n + 1 / 2) (if n % 2 = 0 then n else n + 1) := by
  split
  · rename_i heven
    exact ⟨by rw [add_sub_cancel_left, abs_of_pos (by norm_num)], fun _ => heven⟩
  · rename_i hodd
    refine ⟨?_, fun _ => by omega⟩
    rw [Nat.cast_succ, add_sub_add_left_eq_sub, abs_of_neg (by norm_num)]
    norm_num

/-- A quotient is rounded to the nearest integer. -/
theorem isNearest_roundDiv (num : Nat) {den : Nat} (hden : 0 < den) :
    IsNearest ((num : ℚ) / den) (Decimal.roundDiv num den) := by
  have hpos : (0 : ℚ) < den := by exact_mod_cast hden
  have hrest : num % den < den := Nat.mod_lt num hden
  have hsplit : (num : ℚ) / den = (num / den : Nat) + ((num % den : Nat) : ℚ) / den := by
    rw [eq_comm, add_div' _ _ _ hpos.ne', div_left_inj' hpos.ne']
    exact_mod_cast (Nat.div_add_mod' num den)
  rw [hsplit]
  unfold Decimal.roundDiv
  generalize num / den = q
  generalize num % den = r at hrest
  have hnonneg : (0 : ℚ) ≤ (r : ℚ) / den := by positivity
  have hone : (r : ℚ) / den ≤ 1 := by
    rw [div_le_one hpos]
    exact_mod_cast hrest.le
  dsimp only
  rcases Nat.lt_trichotomy (2 * r) den with hlt | heq | hgt
  · have hhalf : (r : ℚ) / den < 1 / 2 := by
      rw [div_lt_div_iff₀ hpos (by norm_num)]
      exact_mod_cast (by omega : r * 2 < 1 * den)
    rw [if_pos hlt]
    exact isNearest_add_of_lt hnonneg hhalf
  · have hhalf : (r : ℚ) / den = 1 / 2 := by
      rw [div_eq_div_iff hpos.ne' (by norm_num)]
      exact_mod_cast (by omega : r * 2 = 1 * den)
    rw [if_neg heq.not_lt, if_neg heq.not_gt, hhalf]
    exact isNearest_add_half
  · have hhalf : 1 / 2 < (r : ℚ) / den := by
      rw [div_lt_div_iff₀ (by norm_num) hpos]
      exact_mod_cast (by omega : 1 * den < r * 2)
    rw [if_neg hgt.not_gt, if_pos hgt]
    exact isNearest_add_of_gt hone hhalf

/-! ## The order of a quotient -/

/-- A quotient counted in units of a power of two. -/
theorem scaled_eq (num den : Nat) (q : Int) :
    ((num * Nat.pow 2 (-q).toNat : Nat) : ℚ) / (den * Nat.pow 2 q.toNat : Nat) =
      num / den * 2 ^ (-q) := by
  obtain ⟨i, rfl | rfl⟩ := q.eq_nat_or_neg
  · rw [Int.toNat_natCast, Int.toNat_neg_natCast, zpow_neg, zpow_natCast]
    push_cast [Nat.pow_eq]
    field_simp
  · rw [neg_neg, Int.toNat_natCast, Int.toNat_neg_natCast, zpow_natCast]
    push_cast [Nat.pow_eq]
    ring

/-- A quotient has a nearest integer in every unit. -/
theorem exists_isNearest (num : Nat) {den : Nat} (hden : 0 < den) (q : Int) :
    ∃ r, IsNearest (num / den * 2 ^ (-q)) r := by
  have hpos : 0 < den * Nat.pow 2 q.toNat := Nat.mul_pos hden (Nat.two_pow_pos _)
  have hround := isNearest_roundDiv (num * Nat.pow 2 (-q).toNat) hpos
  rw [scaled_eq] at hround
  exact ⟨_, hround⟩

/-- The exact quotient of a magnitude. -/
theorem Format.quotient_eq (m : Nat) (e : Int) :
    ((quotient m e).1 : ℚ) / (quotient m e).2 = m * 2 ^ e := by
  have h := scaled_eq m 1 (-e)
  rw [neg_neg, Nat.cast_one, div_one, Nat.one_mul] at h
  exact h

/-- The order of a positive integer. -/
theorem log2_bounds {n : Nat} (hn : 0 < n) :
    (2 : ℚ) ^ (n.log2 : Int) ≤ n ∧ (n : ℚ) < 2 ^ ((n.log2 : Int) + 1) := by
  have hlow := Nat.log2_self_le hn.ne'
  have hhigh : n < 2 ^ (n.log2 + 1) := Nat.lt_log2_self
  constructor
  · rw [zpow_natCast]
    exact_mod_cast hlow
  · rw [← Nat.cast_succ, zpow_natCast]
    exact_mod_cast hhigh

/-- The difference of the orders is that of the quotient, within a factor of two. -/
theorem log2_sub_bounds {num den : Nat} (hnum : 0 < num) (hden : 0 < den) {e : Int}
    (he : (num.log2 : Int) = e + den.log2) :
    (2 : ℚ) ^ (e - 1) < num / den ∧ (num : ℚ) / den < 2 ^ (e + 1) := by
  have hpos : (0 : ℚ) < den := by exact_mod_cast hden
  obtain ⟨hnlow, hnhigh⟩ := log2_bounds hnum
  obtain ⟨hdlow, hdhigh⟩ := log2_bounds hden
  constructor
  · rw [lt_div_iff₀ hpos]
    calc (2 : ℚ) ^ (e - 1) * den
      _ < 2 ^ (e - 1) * 2 ^ ((den.log2 : Int) + 1) := by gcongr
      _ = 2 ^ (num.log2 : Int) := by
        rw [← zpow_add₀ (by norm_num), he]
        congr 1
        ring
      _ ≤ num := hnlow
  · rw [div_lt_iff₀ hpos]
    calc (num : ℚ)
      _ < 2 ^ ((num.log2 : Int) + 1) := hnhigh
      _ = 2 ^ (e + 1) * 2 ^ (den.log2 : Int) := by
        rw [← zpow_add₀ (by norm_num), he]
        congr 1
        ring
      _ ≤ 2 ^ (e + 1) * den := by gcongr

/-- The binary order of a quotient. -/
theorem scale_spec {num den : Nat} (hnum : 0 < num) (hden : 0 < den) :
    (2 : ℚ) ^ Format.scale num den ≤ num / den ∧
      (num : ℚ) / den < 2 ^ (Format.scale num den + 1) := by
  unfold Format.scale
  generalize he : (num.log2 : Int) - den.log2 = e
  obtain ⟨hlow, hhigh⟩ := log2_sub_bounds hnum hden (e := e) (by omega)
  -- which side of `2 ^ e` it is on is tested
  have htest : num * Nat.pow 2 (-e).toNat < den * Nat.pow 2 e.toNat ↔
      (num : ℚ) / den < 2 ^ e := by
    have hden' : (0 : ℚ) < (den * Nat.pow 2 e.toNat : Nat) := by
      exact_mod_cast Nat.mul_pos hden (Nat.two_pow_pos _)
    have hunit : (0 : ℚ) < 2 ^ (-e) := by positivity
    rw [← Nat.cast_lt (α := ℚ), ← div_lt_one hden', scaled_eq, zpow_neg, ← div_eq_mul_inv,
      div_lt_one (by positivity)]
  dsimp only
  split
  · rename_i hless
    rw [htest] at hless
    rw [sub_add_cancel]
    exact ⟨hlow.le, hless⟩
  · rename_i hmore
    rw [htest, not_lt] at hmore
    exact ⟨hmore, hhigh⟩

namespace Format

variable {f : Format}

/-! ## The last place -/

theorem fractionUnits_pos (f : Format) : 0 < f.fractionUnits := Nat.two_pow_pos _

/-- The exponent of the place that a magnitude is rounded at: the magnitude fills the
significant bits above it, unless the format has no smaller place. -/
structure IsLastPlace (f : Format) (x : ℚ) (q : Int) : Prop where
  min_le : f.minExponent ≤ q
  lt : x < 2 * f.fractionUnits * 2 ^ q
  fills : q = f.minExponent ∨ f.fractionUnits * 2 ^ q ≤ x

/-- There is only one. -/
theorem IsLastPlace.unique {p q : Int} (hp : f.IsLastPlace x p) (hq : f.IsLastPlace x q) :
    p = q := by
  have key : ∀ {a b : Int}, f.IsLastPlace x a → f.IsLastPlace x b → ¬ a < b := by
    intro a b ha hb hlt
    have hmin := ha.min_le
    have hfills := hb.fills.resolve_left (by omega)
    have hpower : (2 : ℚ) * 2 ^ a ≤ 2 ^ b := by
      rw [mul_comm, ← zpow_add_one₀ (by norm_num)]
      exact zpow_le_zpow_right₀ (by norm_num) hlt
    have hcompare : 2 * f.fractionUnits * (2 : ℚ) ^ a ≤ f.fractionUnits * 2 ^ b := by
      calc 2 * f.fractionUnits * (2 : ℚ) ^ a
        _ = f.fractionUnits * (2 * 2 ^ a) := by ring
        _ ≤ f.fractionUnits * 2 ^ b := by gcongr
    linarith [ha.lt]
  exact le_antisymm (not_lt.mp (key hq hp)) (not_lt.mp (key hp hq))

/-- The last place follows from the binary order. -/
theorem isLastPlace_scale {num den : Nat} (hnum : 0 < num) (hden : 0 < den) :
    f.IsLastPlace (num / den) (max (scale num den - (f.precision - 1 : Nat)) f.minExponent) := by
  obtain ⟨hlow, hhigh⟩ := scale_spec hnum hden
  have hunits : (f.fractionUnits : ℚ) = 2 ^ ((f.precision - 1 : Nat) : Int) := by
    rw [zpow_natCast]
    exact_mod_cast rfl
  generalize (f.precision - 1 : Nat) = width at *
  generalize scale num den = s at *
  refine ⟨le_max_right _ _, ?_, ?_⟩
  · calc (num : ℚ) / den
      _ < 2 ^ (s + 1) := hhigh
      _ = 2 * f.fractionUnits * 2 ^ (s - width) := by
        rw [hunits, mul_assoc, ← zpow_add₀ (by norm_num), add_sub_cancel,
          zpow_add_one₀ (by norm_num), mul_comm]
      _ ≤ 2 * f.fractionUnits * 2 ^ max (s - width) f.minExponent := by
        have hpower : (2 : ℚ) ^ (s - width) ≤ 2 ^ max (s - width) f.minExponent :=
          zpow_le_zpow_right₀ (by norm_num) (le_max_left _ _)
        gcongr
  · rcases le_total (s - width) f.minExponent with hle | hle
    · exact .inl (max_eq_right hle)
    · rw [max_eq_left hle]
      refine .inr ?_
      calc f.fractionUnits * (2 : ℚ) ^ (s - width)
        _ = 2 ^ s := by rw [hunits, ← zpow_add₀ (by norm_num), add_sub_cancel]
        _ ≤ num / den := hlow

/-! ## Finite numbers -/

/-- The bit pattern of a magnitude. -/
def pattern (f : Format) (m : Nat) (e : Int) : Nat :=
  (e - f.minExponent).toNat * f.fractionUnits + m

/-- A magnitude `m · 2 ^ e` is written with the mantissa and the exponent that a format
has for it. -/
structure IsNumber (f : Format) (m : Nat) (e : Int) : Prop where
  min_le : f.minExponent ≤ e
  lt : m < 2 * f.fractionUnits
  normal : e = f.minExponent ∨ f.fractionUnits ≤ m
  finite : f.pattern m e < f.infinity

/-- A quotient is rounded at its last place. -/
theorem packMagnitude_eq {num den : Nat} (hnum : 0 < num) (hden : 0 < den) {q : Int}
    (hq : f.IsLastPlace (num / den) q) {r : Nat}
    (hr : IsNearest (num / den * 2 ^ (-q)) r) :
    f.packMagnitude num den = min (f.pattern r q) f.infinity := by
  have hplace := (isLastPlace_scale hnum hden).unique hq
  have hpos : 0 < den * Nat.pow 2 q.toNat := Nat.mul_pos hden (Nat.two_pow_pos _)
  have hround := isNearest_roundDiv (num * Nat.pow 2 (-q).toNat) hpos
  rw [scaled_eq] at hround
  unfold packMagnitude
  rw [if_neg hnum.ne']
  dsimp only
  rw [hplace, hround.unique hr]
  rfl

/-- What is rounded at its last place fills at most one bit more than a mantissa has, and
no less than a mantissa unless the format has no smaller place. -/
theorem IsLastPlace.bounds {q : Int} (h : f.IsLastPlace x q) {r : Nat}
    (hr : IsNearest (x * 2 ^ (-q)) r) :
    r ≤ 2 * f.fractionUnits ∧ (q = f.minExponent ∨ f.fractionUnits ≤ r) := by
  have hunit : (0 : ℚ) < 2 ^ q := by positivity
  constructor
  · refine hr.le_of_lt ?_
    rw [zpow_neg, ← div_eq_mul_inv, div_lt_iff₀ hunit]
    push_cast
    exact h.lt
  · refine h.fills.imp_right fun hfills => hr.le_of_le ?_
    rw [zpow_neg, ← div_eq_mul_inv, le_div_iff₀ hunit]
    exact hfills

/-- What is rounded at its last place is a number of the format, unless it is too large. A
rounding that carries out of the mantissa gives the first number with the next exponent. -/
theorem IsLastPlace.exists_isNumber {q : Int} (h : f.IsLastPlace x q) {r : Nat}
    (hr : IsNearest (x * 2 ^ (-q)) r) (hfinite : f.pattern r q < f.infinity) :
    ∃ m e, f.IsNumber m e ∧ f.pattern m e = f.pattern r q ∧ (m : ℚ) * 2 ^ e = r * 2 ^ q ∧
      q ≤ e ∧ (m = r ∧ e = q ∨ r = 2 * f.fractionUnits) := by
  obtain ⟨hle, hfills⟩ := h.bounds hr
  have hmin := h.min_le
  rcases Nat.lt_or_eq_of_le hle with hlt | heq
  · exact ⟨r, q, ⟨hmin, hlt, hfills, hfinite⟩, rfl, rfl, le_refl q, .inl ⟨rfl, rfl⟩⟩
  · have hcarry : f.pattern f.fractionUnits (q + 1) = f.pattern r q := by
      have hnat : (q + 1 - f.minExponent).toNat = (q - f.minExponent).toNat + 1 := by omega
      rw [pattern, pattern, hnat, heq]
      ring
    have hpos := f.fractionUnits_pos
    refine ⟨f.fractionUnits, q + 1, ⟨by omega, by omega, .inr (le_refl _), hcarry ▸ hfinite⟩,
      hcarry, ?_, by omega, .inr heq⟩
    rw [heq, zpow_add_one₀ (by norm_num)]
    push_cast
    ring

/-- The fields of a pattern. -/
theorem fields_signed (f : Format) (negative : Bool) {field fraction : Nat}
    (hfield : field < Nat.pow 2 f.exponentWidth) (hfraction : fraction < f.fractionUnits) :
    let bits := f.signed negative (field * f.fractionUnits + fraction)
    decide (bits / f.signUnit % 2 = 1) = negative ∧
      bits / f.fractionUnits % Nat.pow 2 f.exponentWidth = field ∧
      bits % f.fractionUnits = fraction := by
  have hpos := f.fractionUnits_pos
  have hbits : f.signed negative (field * f.fractionUnits + fraction) =
      ((if negative then Nat.pow 2 f.exponentWidth else 0) + field) * f.fractionUnits +
        fraction := by
    unfold signed signUnit
    split <;> ring
  have hupper : f.signed negative (field * f.fractionUnits + fraction) / f.fractionUnits =
      (if negative then Nat.pow 2 f.exponentWidth else 0) + field := by
    rw [hbits, mul_comm, Nat.mul_add_div hpos, Nat.div_eq_of_lt hfraction, add_zero]
  have hsign : f.signed negative (field * f.fractionUnits + fraction) / f.signUnit =
      if negative then 1 else 0 := by
    have hunit : f.signUnit = f.fractionUnits * Nat.pow 2 f.exponentWidth := mul_comm _ _
    have hpower : 0 < Nat.pow 2 f.exponentWidth := Nat.two_pow_pos _
    rw [hunit, ← Nat.div_div_eq_div_mul, hupper]
    split
    · rw [Nat.add_div_left _ hpower, Nat.div_eq_of_lt hfield]
    · rw [zero_add, Nat.div_eq_of_lt hfield]
  refine ⟨?_, ?_, ?_⟩
  · rw [hsign]
    cases negative <;> rfl
  · rw [hupper]
    split
    · rw [Nat.add_mod_left, Nat.mod_eq_of_lt hfield]
    · rw [zero_add, Nat.mod_eq_of_lt hfield]
  · rw [hbits, Nat.mul_add_mod_self_right, Nat.mod_eq_of_lt hfraction]

/-- The fields of a finite pattern tell its mantissa and its exponent. -/
theorem IsNumber.unpack_eq {m : Nat} {e : Int} (h : f.IsNumber m e) (negative : Bool) :
    f.unpack (f.signed negative (f.pattern m e)) = .finite negative m e := by
  obtain ⟨hmin, hlt, hnormal, hfinite⟩ := h
  -- the pattern in fields
  obtain ⟨field, fraction, hfraction, hpattern, hfields⟩ : ∃ field fraction,
      fraction < f.fractionUnits ∧ f.pattern m e = field * f.fractionUnits + fraction ∧
        (field = 0 ∧ m = fraction ∧ e = f.minExponent ∨
          0 < field ∧ m = f.fractionUnits + fraction ∧
            e = f.minExponent + (field - 1 : Nat)) := by
    generalize hk : (e - f.minExponent).toNat = k
    have hpattern : f.pattern m e = k * f.fractionUnits + m := by rw [pattern, hk]
    rcases Nat.lt_or_ge m f.fractionUnits with hsmall | hlarge
    · have he : e = f.minExponent := hnormal.resolve_right (by omega)
      have hzero : k = 0 := by omega
      exact ⟨0, m, hsmall, by rw [hpattern, hzero], .inl ⟨rfl, rfl, he⟩⟩
    · refine ⟨k + 1, m - f.fractionUnits, by omega, ?_, .inr ⟨by omega, by omega, by omega⟩⟩
      rw [hpattern, Nat.succ_mul]
      omega
  rw [hpattern] at hfinite ⊢
  have hfield : field < Nat.pow 2 f.exponentWidth - 1 := by
    refine Nat.lt_of_mul_lt_mul_right (a := f.fractionUnits) ?_
    exact Nat.lt_of_le_of_lt (Nat.le_add_right _ fraction) hfinite
  have hwidth : field < Nat.pow 2 f.exponentWidth := by omega
  obtain ⟨hnegative, hupper, hlower⟩ := f.fields_signed negative hwidth hfraction
  unfold unpack
  dsimp only
  rw [hnegative, hupper, hlower, if_neg (by omega)]
  rcases hfields with ⟨rfl, rfl, rfl⟩ | ⟨hnormal, rfl, rfl⟩
  · rw [if_pos rfl]
  · rw [if_neg (by omega)]

end Format

end ScpiScript.Binary
