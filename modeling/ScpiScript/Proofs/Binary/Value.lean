import ScpiScript.Proofs.Binary.Rounding
/-!
# Values of floating-point numbers

A finite number stands for a rational number. Two numbers of a format with different values
are at least a unit of a last place apart, or half of one in front of a power of two.

- `Datum.value?` is the value of a finite number.
- `Format.isNumber_of_unpack`: every finite pattern is that of a number of its format.
- `Format.IsNumber.le_of_lt` and `Format.IsNumber.le_of_gt` are the gaps above and below a
  number.
- `Binary64.IsNearestTo` says which number a rational number is read as.
-/

namespace ScpiScript

open Binary

/-! ## Values -/

/-- The value of a finite number. -/
def Binary.Datum.value? : Datum → Option ℚ
  | .finite negative m e => some (if negative then -(m * 2 ^ e) else m * 2 ^ e)
  | _ => none

/-- The value of a finite number of the 64-bit format. -/
def Binary64.value? (x : Binary64) : Option ℚ := x.datum.value?

/-- The value of a finite number of the 32-bit format. -/
def Binary32.value? (x : Binary32) : Option ℚ := x.datum.value?

/-- Only finite numbers have a value. -/
theorem Binary.Datum.value?_eq_some_iff {d : Datum} {a : ℚ} :
    d.value? = some a ↔ ∃ negative m e, d = .finite negative m e ∧
      a = if negative then -((m : ℚ) * 2 ^ e) else m * 2 ^ e := by
  constructor
  · intro h
    cases d with
    | nan => cases h
    | infinite negative => cases h
    | finite negative m e => exact ⟨negative, m, e, rfl, (Option.some.inj h).symm⟩
  · rintro ⟨negative, m, e, rfl, rfl⟩
    rfl

/-- The size of a value, and its sign. -/
theorem Binary.Datum.signed_value {negative : Bool} {m : Nat} {e : Int} {a : ℚ}
    (h : a = if negative then -((m : ℚ) * 2 ^ e) else m * 2 ^ e) :
    |a| = m * 2 ^ e ∧ (a = 0 ↔ m = 0) ∧ (0 < m → (a < 0 ↔ negative = true)) := by
  have hunit : (0 : ℚ) < 2 ^ e := by positivity
  have hsize : (0 : ℚ) ≤ m * 2 ^ e := by positivity
  have habs : |a| = m * 2 ^ e := by
    rw [h]
    split
    · rw [abs_neg, abs_of_nonneg hsize]
    · rw [abs_of_nonneg hsize]
  refine ⟨habs, ?_, ?_⟩
  · rw [← abs_eq_zero, habs, mul_eq_zero, Nat.cast_eq_zero]
    simp [hunit.ne']
  · intro hm
    have hpos : (0 : ℚ) < m * 2 ^ e := by positivity
    cases negative with
    | false => simp [h, hsize]
    | true => simp [h, hpos]

/-! ## Numbers of a format -/

namespace Binary.Format

variable {f : Format} {m m' : Nat} {e e' : Int}

/-- A bit pattern in fields. -/
theorem fields_eq (f : Format) {bits : Nat} (h : bits < 2 * f.signUnit) :
    bits = f.signed (bits / f.signUnit % 2 = 1)
      (bits / f.fractionUnits % Nat.pow 2 f.exponentWidth * f.fractionUnits +
        bits % f.fractionUnits) := by
  have hsign : bits / f.signUnit < 2 := Nat.div_lt_of_lt_mul (by rwa [Nat.mul_comm])
  have hupper : bits / f.fractionUnits / Nat.pow 2 f.exponentWidth = bits / f.signUnit := by
    rw [Nat.div_div_eq_div_mul, Nat.mul_comm]
    rfl
  have hlow := Nat.div_add_mod' bits f.fractionUnits
  have hhigh := Nat.div_add_mod' (bits / f.fractionUnits) (Nat.pow 2 f.exponentWidth)
  rw [hupper] at hhigh
  generalize bits / f.signUnit = s at *
  generalize bits / f.fractionUnits % Nat.pow 2 f.exponentWidth = field at *
  rw [← hhigh] at hlow
  have hunit : s * Nat.pow 2 f.exponentWidth * f.fractionUnits = s * f.signUnit := by
    rw [Nat.mul_assoc]
    rfl
  rw [Nat.add_mul, hunit] at hlow
  unfold signed
  split
  · rename_i hset
    have hone : s = 1 := by simpa [Nat.mod_eq_of_lt hsign] using hset
    rw [hone, Nat.one_mul] at hlow
    omega
  · rename_i hclear
    have hzero : s = 0 := by
      rw [decide_eq_true_eq, Nat.mod_eq_of_lt hsign] at hclear
      omega
    rw [hzero, Nat.zero_mul] at hlow
    omega

/-- Every finite pattern is that of a number of its format. -/
theorem isNumber_of_unpack {bits : Nat} (hbits : bits < 2 * f.signUnit) {negative : Bool}
    (h : f.unpack bits = .finite negative m e) :
    f.IsNumber m e ∧ bits = f.signed negative (f.pattern m e) := by
  have hfields := f.fields_eq hbits
  have hfraction : bits % f.fractionUnits < f.fractionUnits := Nat.mod_lt _ f.fractionUnits_pos
  have hfield : bits / f.fractionUnits % Nat.pow 2 f.exponentWidth < Nat.pow 2 f.exponentWidth :=
    Nat.mod_lt _ (Nat.two_pow_pos _)
  unfold unpack at h
  dsimp only at h
  generalize bits / f.fractionUnits % Nat.pow 2 f.exponentWidth = field at *
  generalize bits % f.fractionUnits = fraction at *
  -- a field below that of the infinities keeps the pattern below them
  have hfinite : ∀ k < Nat.pow 2 f.exponentWidth - 1,
      k * f.fractionUnits + fraction < f.infinity := by
    intro k hk
    calc k * f.fractionUnits + fraction
      _ < k * f.fractionUnits + f.fractionUnits := Nat.add_lt_add_left hfraction _
      _ = (k + 1) * f.fractionUnits := (Nat.succ_mul k _).symm
      _ ≤ f.infinity := Nat.mul_le_mul_right _ hk
  split at h
  · split at h <;> cases h
  split at h
  · cases h
    rename_i hnot hzero
    have hpattern : f.pattern m f.minExponent = 0 * f.fractionUnits + m := by
      rw [pattern, Int.sub_self]
      rfl
    subst hzero
    refine ⟨⟨Int.le_refl _, by omega, .inl rfl, ?_⟩, ?_⟩
    · rw [hpattern]
      exact hfinite 0 (by omega)
    · rw [hpattern]
      exact hfields
  · cases h
    rename_i hnot hpositive
    have hpattern : f.pattern (f.fractionUnits + fraction) (f.minExponent + (field - 1 : Nat)) =
        field * f.fractionUnits + fraction := by
      have hplace : (f.minExponent + (field - 1 : Nat) - f.minExponent).toNat = field - 1 := by
        omega
      rw [pattern, hplace, ← Nat.add_assoc, ← Nat.succ_mul]
      congr 2
      omega
    refine ⟨⟨by omega, by omega, .inr (Nat.le_add_right _ _), ?_⟩, ?_⟩
    · rw [hpattern]
      exact hfinite field (by omega)
    · rw [hpattern]
      exact hfields

/-- A larger number with a smaller exponent is not there. -/
theorem IsNumber.exponent_le_of_lt (h : f.IsNumber m e) (h' : f.IsNumber m' e')
    (hlt : (m : ℚ) * 2 ^ e < m' * 2 ^ e') : e ≤ e' := by
  by_contra hless
  rw [not_le] at hless
  have hmin := h'.min_le
  have hunits : f.fractionUnits ≤ m := h.normal.resolve_left (by omega)
  have hbelow : (2 : ℚ) ^ e' ≤ 2 ^ (e - 1) := zpow_le_zpow_right₀ (by norm_num) (by omega)
  have hstep : (2 : ℚ) ^ e = 2 * 2 ^ (e - 1) := by
    rw [mul_comm, ← zpow_add_one₀ (by norm_num), sub_add_cancel]
  have hcontra : (m' : ℚ) * 2 ^ e' < m * 2 ^ e := by
    have hm' : (m' : ℚ) < 2 * f.fractionUnits := by exact_mod_cast h'.lt
    have hm : (f.fractionUnits : ℚ) ≤ m := by exact_mod_cast hunits
    have hunit : (0 : ℚ) < 2 ^ (e - 1) := by positivity
    calc (m' : ℚ) * 2 ^ e'
      _ ≤ m' * 2 ^ (e - 1) := by gcongr
      _ < 2 * f.fractionUnits * 2 ^ (e - 1) := by gcongr
      _ ≤ 2 * m * 2 ^ (e - 1) := by gcongr
      _ = m * 2 ^ e := by rw [hstep]; ring
  exact lt_asymm hlt hcontra

/-- A magnitude counted in units of a smaller exponent. -/
theorem exists_units (m' : Nat) (h : e ≤ e') : ∃ k : Nat, (m' : ℚ) * 2 ^ e' = k * 2 ^ e := by
  refine ⟨m' * 2 ^ (e' - e).toNat, ?_⟩
  push_cast
  rw [mul_assoc, ← zpow_natCast, ← zpow_add₀ (by norm_num), Int.toNat_of_nonneg (by omega),
    sub_add_cancel]

/-- The next number is a unit of the last place above. -/
theorem IsNumber.le_of_lt (h : f.IsNumber m e) (h' : f.IsNumber m' e')
    (hlt : (m : ℚ) * 2 ^ e < m' * 2 ^ e') : ((m : ℚ) + 1) * 2 ^ e ≤ m' * 2 ^ e' := by
  have hunit : (0 : ℚ) < 2 ^ e := by positivity
  obtain ⟨k, hk⟩ := exists_units m' (h.exponent_le_of_lt h' hlt)
  rw [hk, mul_lt_mul_iff_left₀ hunit] at hlt
  rw [hk, mul_le_mul_iff_left₀ hunit]
  have hnext : m + 1 ≤ k := by exact_mod_cast hlt
  exact_mod_cast hnext

/-- The number before is a unit of the last place below; where numbers are twice as dense
below, it is half a unit. -/
theorem IsNumber.le_of_gt (h : f.IsNumber m e) (h' : f.IsNumber m' e')
    (hlt : (m' : ℚ) * 2 ^ e' < m * 2 ^ e) :
    (m' : ℚ) * 2 ^ e' ≤
      (m - if m = f.fractionUnits ∧ f.minExponent < e then 1 / 2 else 1) * 2 ^ e := by
  have hunit : (0 : ℚ) < 2 ^ e := by positivity
  rcases le_or_gt e e' with hle | hless
  · obtain ⟨k, hk⟩ := exists_units m' hle
    rw [hk, mul_lt_mul_iff_left₀ hunit] at hlt
    rw [hk, mul_le_mul_iff_left₀ hunit]
    have hnext : k + 1 ≤ m := by exact_mod_cast hlt
    have hcast : (k : ℚ) + 1 ≤ m := by exact_mod_cast hnext
    split <;> linarith
  · have hmin := h'.min_le
    have hunits : f.fractionUnits ≤ m := h.normal.resolve_left (by omega)
    have hstep : (2 : ℚ) ^ e = 2 * 2 ^ (e - 1) := by
      rw [mul_comm, ← zpow_add_one₀ (by norm_num), sub_add_cancel]
    have hunit' : (0 : ℚ) < 2 ^ (e - 1) := by positivity
    have hm' : (m' : ℚ) + 1 ≤ 2 * f.fractionUnits := by exact_mod_cast h'.lt
    have hbelow : (2 : ℚ) ^ e' ≤ 2 ^ (e - 1) := zpow_le_zpow_right₀ (by norm_num) (by omega)
    have hfirst : (m' : ℚ) * 2 ^ e' ≤ (2 * f.fractionUnits - 1) * 2 ^ (e - 1) := by
      calc (m' : ℚ) * 2 ^ e'
        _ ≤ m' * 2 ^ (e - 1) := by gcongr
        _ ≤ (2 * f.fractionUnits - 1) * 2 ^ (e - 1) := by gcongr; linarith
    have hcompare : (2 * (f.fractionUnits : ℚ) - 1) ≤
        2 * (m - if m = f.fractionUnits ∧ f.minExponent < e then 1 / 2 else 1) := by
      split
      · rename_i hdense
        rw [hdense.1]
        linarith
      · rename_i hsparse
        have hmore : f.fractionUnits + 1 ≤ m := by
          refine Nat.lt_of_le_of_ne hunits fun heq => hsparse ⟨heq.symm, by omega⟩
        have hcast : (f.fractionUnits : ℚ) + 1 ≤ m := by exact_mod_cast hmore
        linarith
    refine hfirst.trans ?_
    rw [hstep, ← mul_assoc, mul_comm _ (2 : ℚ)]
    gcongr

end Binary.Format

/-! ## The order of patterns -/

namespace Binary.Format

variable {f : Format} {m m' : Nat} {e e' : Int}

/-- Larger numbers have larger patterns. -/
theorem IsNumber.pattern_lt (h : f.IsNumber m e) (h' : f.IsNumber m' e')
    (hlt : (m : ℚ) * 2 ^ e < m' * 2 ^ e') : f.pattern m e < f.pattern m' e' := by
  have hle := h.exponent_le_of_lt h' hlt
  have hmin := h.min_le
  unfold pattern
  rcases hle.eq_or_lt with rfl | hless
  · have hunit : (0 : ℚ) < 2 ^ e := by positivity
    rw [mul_lt_mul_iff_left₀ hunit] at hlt
    have hmantissa : m < m' := by exact_mod_cast hlt
    exact Nat.add_lt_add_left hmantissa _
  · have hunits := h'.normal.resolve_left (by omega)
    have hplace : (e - f.minExponent).toNat + 1 ≤ (e' - f.minExponent).toNat := by omega
    calc (e - f.minExponent).toNat * f.fractionUnits + m
      _ < (e - f.minExponent).toNat * f.fractionUnits + 2 * f.fractionUnits :=
        Nat.add_lt_add_left h.lt _
      _ = ((e - f.minExponent).toNat + 1) * f.fractionUnits + f.fractionUnits := by ring
      _ ≤ (e' - f.minExponent).toNat * f.fractionUnits + m' :=
        Nat.add_le_add (Nat.mul_le_mul_right _ hplace) hunits

/-- A number is written with one mantissa and one exponent only. -/
theorem IsNumber.eq_of_value_eq (h : f.IsNumber m e) (h' : f.IsNumber m' e')
    (heq : (m : ℚ) * 2 ^ e = m' * 2 ^ e') : m = m' ∧ e = e' := by
  -- with a smaller exponent the mantissa would have one bit more
  have key : ∀ {n n' : Nat} {p p' : Int}, f.IsNumber n p → f.IsNumber n' p' →
      (n : ℚ) * 2 ^ p = n' * 2 ^ p' → ¬ p < p' := by
    intro n n' p p' hn hn' hvalue hless
    have hmin := hn.min_le
    have hunits := hn'.normal.resolve_left (by omega)
    have hcast : (f.fractionUnits : ℚ) ≤ n' := by exact_mod_cast hunits
    have hlt : (n : ℚ) < 2 * f.fractionUnits := by exact_mod_cast hn.lt
    have hpower : (2 : ℚ) * 2 ^ p ≤ 2 ^ p' := by
      rw [mul_comm, ← zpow_add_one₀ (by norm_num)]
      exact zpow_le_zpow_right₀ (by norm_num) hless
    have hunit : (0 : ℚ) < 2 ^ p := by positivity
    refine lt_irrefl ((n : ℚ) * 2 ^ p) ?_
    calc (n : ℚ) * 2 ^ p
      _ < 2 * f.fractionUnits * 2 ^ p := by gcongr
      _ = f.fractionUnits * (2 * 2 ^ p) := by ring
      _ ≤ n' * 2 ^ p' := by gcongr
      _ = n * 2 ^ p := hvalue.symm
  have hexponent : e = e' := le_antisymm (not_lt.mp (key h' h heq.symm)) (not_lt.mp (key h h' heq))
  subst hexponent
  have hunit : (0 : ℚ) < 2 ^ e := by positivity
  rw [mul_left_inj' hunit.ne'] at heq
  exact ⟨by exact_mod_cast heq, rfl⟩

/-- The patterns are in the order of the numbers. -/
theorem IsNumber.value_lt_iff (h : f.IsNumber m e) (h' : f.IsNumber m' e') :
    (m : ℚ) * 2 ^ e < m' * 2 ^ e' ↔ f.pattern m e < f.pattern m' e' := by
  constructor
  · exact h.pattern_lt h'
  · intro hlt
    rw [← not_le]
    intro hle
    rcases hle.lt_or_eq with hless | heq
    · exact Nat.lt_asymm hlt (h'.pattern_lt h hless)
    · obtain ⟨rfl, rfl⟩ := h'.eq_of_value_eq h heq
      exact Nat.lt_irrefl _ hlt

/-- Every pattern below that of the infinities is that of a number. -/
theorem exists_isNumber_of_lt {bits : Nat} (h : bits < f.infinity) :
    ∃ m e, f.IsNumber m e ∧ f.pattern m e = bits := by
  have hsign : bits < f.signUnit :=
    h.trans_le (Nat.mul_le_mul_right _ (Nat.sub_le _ _))
  have hfield : bits / f.fractionUnits < Nat.pow 2 f.exponentWidth - 1 :=
    (Nat.div_lt_iff_lt_mul f.fractionUnits_pos).mpr h
  obtain ⟨m, e, hdatum⟩ : ∃ m e, f.unpack bits = .finite false m e := by
    unfold unpack
    dsimp only
    rw [Nat.div_eq_of_lt hsign, Nat.mod_eq_of_lt (Nat.lt_of_lt_pred hfield),
      if_neg (Nat.ne_of_lt hfield)]
    split
    · exact ⟨_, _, rfl⟩
    · exact ⟨_, _, rfl⟩
  obtain ⟨hnumber, hbits⟩ := isNumber_of_unpack (by omega) hdatum
  exact ⟨m, e, hnumber, hbits.symm⟩

end Binary.Format

/-! ## The 64-bit format -/

namespace Binary64

theorem binary64_units : binary64.fractionUnits = 4503599627370496 := rfl

theorem binary64_minExponent : binary64.minExponent = -1074 := rfl

theorem binary64_infinity : binary64.infinity = 2047 * 4503599627370496 := rfl

/-- The bits of a signed magnitude are stored as they are. -/
theorem datum_ofBits {m : Nat} {e : Int} (h : binary64.IsNumber m e) (negative : Bool) :
    (ofBits (binary64.signed negative (binary64.pattern m e))).datum = .finite negative m e := by
  have hsize : binary64.signed negative (binary64.pattern m e) < UInt64.size := by
    have hfinite := h.finite
    rw [binary64_infinity] at hfinite
    have hsign : binary64.signUnit = 2048 * 4503599627370496 := rfl
    have hlimit : UInt64.size = 2 * (2048 * 4503599627370496) := rfl
    rw [Format.signed, hlimit, hsign]
    split <;> omega
  show binary64.unpack (UInt64.ofNat _).toNat = _
  rw [UInt64.toNat_ofNat_of_lt' hsize, h.unpack_eq]

/-- A finite number of the format, by its fields. -/
theorem isNumber_of_datum {x : Binary64} {negative : Bool} {m : Nat} {e : Int}
    (h : x.datum = .finite negative m e) :
    binary64.IsNumber m e ∧ x.bits.toNat = binary64.signed negative (binary64.pattern m e) := by
  refine Format.isNumber_of_unpack ?_ h
  have hlimit : 2 * binary64.signUnit = UInt64.size := by decide
  rw [hlimit]
  exact x.bits.toNat_lt_size

/-- The sign bit of a finite number. -/
theorem isNegative_eq {x : Binary64} {negative : Bool} {m : Nat} {e : Int}
    (h : x.datum = .finite negative m e) : x.isNegative = negative := by
  obtain ⟨hnumber, hbits⟩ := isNumber_of_datum h
  have hfinite := hnumber.finite
  have hinfinity : binary64.infinity < binary64.signUnit := by decide
  rw [isNegative, hbits, Format.signed]
  cases negative with
  | false =>
    rw [if_neg Bool.false_ne_true, decide_eq_false_iff_not]
    omega
  | true =>
    rw [if_pos rfl, decide_eq_true_eq]
    omega

/-- The last bit of a pattern is that of the mantissa. -/
theorem pattern_mod_two (m : Nat) (e : Int) : binary64.pattern m e % 2 = m % 2 := by
  rw [Format.pattern, binary64_units]
  omega

theorem bits_mod_two {x : Binary64} {negative : Bool} {m : Nat} {e : Int}
    (h : x.datum = .finite negative m e) : x.bits.toNat % 2 = m % 2 := by
  have hsign : binary64.signUnit = 2048 * 4503599627370496 := rfl
  rw [(isNumber_of_datum h).2, ← pattern_mod_two m e, Format.signed, hsign]
  split <;> omega

/-! ## The nearest number -/

/-- Half-way between the largest finite number and the first power of two beyond. From here on
a rational number is read as an infinity. -/
def overflowBound : ℚ := 2 ^ 1024 - 2 ^ 970

/-- The number that a rational number is read as: a finite one with its sign, to which it is at
least as near as to any other, and with an even last place if another is as near. Zero is read
as the zero without a sign. -/
structure IsNearestTo (v : ℚ) (x : Binary64) : Prop where
  bounded : |v| < overflowBound
  sign_eq : x.isNegative = decide (v < 0)
  finite : x.value?.isSome
  le : ∀ a ∈ x.value?, ∀ y : Binary64, ∀ b ∈ y.value?, |v - a| ≤ |v - b|
  even : ∀ a ∈ x.value?, ∀ y : Binary64, ∀ b ∈ y.value?, |v - a| = |v - b| → b ≠ a →
    x.bits.toNat % 2 = 0

/-- What is as near to two numbers as to a third has none between them. -/
theorem not_between {v a b c : ℚ} (ha : |v - a| ≤ |v - c|) (hb : |v - b| ≤ |v - c|) :
    ¬ (a < c ∧ c < b) := by
  rintro ⟨hac, hcb⟩
  rcases le_total v c with hle | hle
  · rw [abs_sub_comm v c, abs_of_nonneg (sub_nonneg.mpr hle), abs_sub_comm] at hb
    linarith [le_abs_self (b - v)]
  · rw [abs_of_nonneg (sub_nonneg.mpr hle)] at ha
    linarith [le_abs_self (v - a)]

section Unique

variable {v : ℚ} {x y : Binary64}

/-- Of two numbers that a rational number is nearest to, none is larger. Both would have an even
last place, and so there would be another between them. -/
theorem IsNearestTo.not_lt (hx : IsNearestTo v x) (hy : IsNearestTo v y) {negative : Bool}
    {m m' : Nat} {e e' : Int} (hdx : x.datum = .finite negative m e)
    (hdy : y.datum = .finite negative m' e') : ¬ (m : ℚ) * 2 ^ e < m' * 2 ^ e' := by
  intro hlt
  obtain ⟨hnumber, -⟩ := isNumber_of_datum hdx
  obtain ⟨hnumber', -⟩ := isNumber_of_datum hdy
  have hax : x.value? = _ := congrArg Datum.value? hdx
  have hby : y.value? = _ := congrArg Datum.value? hdy
  have hequal := le_antisymm (hx.le _ hax y _ hby) (hy.le _ hby x _ hax)
  have hne : (if negative then -((m : ℚ) * 2 ^ e) else m * 2 ^ e) ≠
      if negative then -((m' : ℚ) * 2 ^ e') else m' * 2 ^ e' := by
    split
    · exact fun h => hlt.ne (neg_injective h)
    · exact hlt.ne
  have heven := hx.even _ hax y _ hby hequal hne.symm
  have heven' := hy.even _ hby x _ hax hequal.symm hne
  rw [bits_mod_two hdx, ← pattern_mod_two m e] at heven
  rw [bits_mod_two hdy, ← pattern_mod_two m' e'] at heven'
  have hnext : binary64.pattern m e + 1 < binary64.pattern m' e' := by
    have hpatterns := hnumber.pattern_lt hnumber' hlt
    omega
  obtain ⟨k, p, hbetween, hpattern⟩ :=
    Format.exists_isNumber_of_lt (hnext.trans hnumber'.finite)
  have habove : (m : ℚ) * 2 ^ e < k * 2 ^ p := by
    rw [hnumber.value_lt_iff hbetween, hpattern]
    exact Nat.lt_succ_self _
  have hbelow : (k : ℚ) * 2 ^ p < m' * 2 ^ e' := by
    rw [hbetween.value_lt_iff hnumber', hpattern]
    exact hnext
  have hck : (ofBits (binary64.signed negative (binary64.pattern k p))).value? = _ :=
    congrArg Datum.value? (datum_ofBits hbetween negative)
  have hxk := hx.le _ hax _ _ hck
  have hyk := hy.le _ hby _ _ hck
  cases negative with
  | false => exact not_between hxk hyk ⟨habove, hbelow⟩
  | true => exact not_between hyk hxk ⟨neg_lt_neg hbelow, neg_lt_neg habove⟩

/-- A rational number is read as one number only. -/
theorem IsNearestTo.unique (hx : IsNearestTo v x) (hy : IsNearestTo v y) : x = y := by
  obtain ⟨a, ha⟩ := Option.isSome_iff_exists.mp hx.finite
  obtain ⟨b, hb⟩ := Option.isSome_iff_exists.mp hy.finite
  obtain ⟨negative, m, e, hdx, -⟩ := Datum.value?_eq_some_iff.mp ha
  obtain ⟨negative', m', e', hdy, -⟩ := Datum.value?_eq_some_iff.mp hb
  obtain rfl : negative = negative' := by
    rw [← isNegative_eq hdx, ← isNegative_eq hdy, hx.sign_eq, hy.sign_eq]
  obtain ⟨hnumber, hbits⟩ := isNumber_of_datum hdx
  obtain ⟨hnumber', hbits'⟩ := isNumber_of_datum hdy
  have hsame : (m : ℚ) * 2 ^ e = m' * 2 ^ e' :=
    le_antisymm (le_of_not_gt (hy.not_lt hx hdy hdx)) (le_of_not_gt (hx.not_lt hy hdx hdy))
  obtain ⟨rfl, rfl⟩ := hnumber.eq_of_value_eq hnumber' hsame
  exact congrArg Binary64.mk (UInt64.toNat_inj.mp (hbits.trans hbits'.symm))

end Unique

end Binary64

end ScpiScript
