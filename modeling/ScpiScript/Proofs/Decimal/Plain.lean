import ScpiScript.Proofs.Decimal.Shortest
/-!
# Plain decimals

Numbers are written as digits, with or without a point among them, and never with an exponent.
What such a text stands for is said here of the text alone; every text that the program lays
out for a decimal number stands for that number.

- `IsPlain` is the notion, and `IsSigned` that of a plain decimal with a sign. A text stands
  for one number only: `IsPlain.unique` and `IsSigned.unique`.
- `isPlain_withPoint` and `isPlain_positional` are the two layouts.
- `exists_shortest`: the shortest decimal of a number lies in the number's interval.
- `exists_fixed`: with a fixed number of places it is at most half a unit of the last one away.
-/

namespace ScpiScript.Decimal

open Binary

/-- Digits that may have a point among them, by how many stand behind it and by the number that
they stand for. -/
inductive IsPlain : List Char → Nat → ℚ → Prop
  | whole {cs : List Char} (h : IsNumeral cs) : IsPlain cs 0 (value cs)
  | pointed {front behind : List Char} (hfront : IsNumeral front) (hbehind : IsNumeral behind) :
      IsPlain (front ++ '.' :: behind) behind.length
        (value (front ++ behind) / 10 ^ behind.length)

variable {cs : List Char} {places : Nat} {v : ℚ}

/-! ## What a plain decimal stands for -/

/-- The digits in front of a point end there. -/
theorem takeWhile_isDigit_pointed {front : List Char} (h : IsNumeral front)
    (behind : List Char) : (front ++ '.' :: behind).takeWhile Char.isDigit = front := by
  rw [List.takeWhile_append_of_pos h.isDigit, List.takeWhile_cons_of_neg (by decide),
    List.append_nil]

/-- A text stands for one number only. -/
theorem IsPlain.unique {places' : Nat} {w : ℚ} (h : IsPlain cs places v)
    (h' : IsPlain cs places' w) : places = places' ∧ v = w := by
  cases h with
  | whole hnumeral =>
    generalize hsame : cs = cs' at h'
    cases h' with
    | whole _ =>
      subst hsame
      exact ⟨rfl, rfl⟩
    | @pointed front behind hfront _ =>
      -- a point is no digit
      have hpoint : '.' ∈ cs := by
        rw [hsame]
        exact List.mem_append_right _ List.mem_cons_self
      exact absurd (hnumeral.isDigit '.' hpoint) (by decide)
  | @pointed front behind hfront hbehind =>
    generalize hsame : front ++ '.' :: behind = cs' at h'
    cases h' with
    | whole hnumeral =>
      have hpoint : '.' ∈ cs' := by
        rw [← hsame]
        exact List.mem_append_right _ List.mem_cons_self
      exact absurd (hnumeral.isDigit '.' hpoint) (by decide)
    | @pointed front' behind' hfront' _ =>
      have hcut := congrArg (List.takeWhile Char.isDigit) hsame
      rw [takeWhile_isDigit_pointed hfront, takeWhile_isDigit_pointed hfront'] at hcut
      subst hcut
      obtain rfl := (List.cons.inj (List.append_cancel_left hsame)).2
      exact ⟨rfl, rfl⟩

/-- It begins with a digit. -/
theorem IsPlain.exists_cons (h : IsPlain cs places v) :
    ∃ c rest, cs = c :: rest ∧ c.isDigit = true := by
  cases h with
  | whole hnumeral =>
    obtain ⟨c, rest, rfl⟩ := List.exists_cons_of_ne_nil hnumeral.ne_nil
    exact ⟨c, rest, rfl, hnumeral.isDigit c List.mem_cons_self⟩
  | @pointed front behind hfront _ =>
    obtain ⟨c, rest, rfl⟩ := List.exists_cons_of_ne_nil hfront.ne_nil
    exact ⟨c, rest ++ '.' :: behind, rfl, hfront.isDigit c List.mem_cons_self⟩

/-- It is made of digits and points. -/
theorem IsPlain.isDigit_or_point (h : IsPlain cs places v) :
    ∀ c ∈ cs, c.isDigit = true ∨ c = '.' := by
  intro c hc
  cases h with
  | whole hnumeral => exact .inl (hnumeral.isDigit c hc)
  | pointed hfront hbehind =>
    rcases List.mem_append.mp hc with hc | hc
    · exact .inl (hfront.isDigit c hc)
    · rcases List.mem_cons.mp hc with hc | hc
      · exact .inr hc
      · exact .inl (hbehind.isDigit c hc)

/-- A plain decimal with or without a minus sign in front, by the number that it stands for. -/
inductive IsSigned : String → ℚ → Prop
  | unsigned {cs : List Char} {places : Nat} {v : ℚ} (h : IsPlain cs places v) :
      IsSigned (String.ofList cs) v
  | negated {cs : List Char} {places : Nat} {v : ℚ} (h : IsPlain cs places v) :
      IsSigned (String.ofList ('-' :: cs)) (-v)

/-- A minus sign is no digit. -/
theorem IsPlain.ne_minus_cons (h : IsPlain cs places v) (cs' : List Char) : cs ≠ '-' :: cs' := by
  rintro rfl
  obtain ⟨c, rest, hcons, hdigit⟩ := h.exists_cons
  obtain rfl := (List.cons.inj hcons).1
  exact absurd hdigit (by decide)

/-- A text with or without a sign stands for one number only. -/
theorem IsSigned.unique {text : String} {w : ℚ} (h : IsSigned text v) (h' : IsSigned text w) :
    v = w := by
  cases h with
  | @unsigned cs _ _ hplain =>
    generalize hsame : String.ofList cs = text at h'
    cases h' with
    | unsigned hplain' =>
      rw [String.ofList_inj] at hsame
      subst hsame
      exact (hplain.unique hplain').2
    | negated hplain' =>
      rw [String.ofList_inj] at hsame
      exact absurd hsame (hplain.ne_minus_cons _)
  | @negated cs _ _ hplain =>
    generalize hsame : String.ofList ('-' :: cs) = text at h'
    cases h' with
    | unsigned hplain' =>
      rw [String.ofList_inj] at hsame
      exact absurd hsame.symm (hplain'.ne_minus_cons _)
    | negated hplain' =>
      rw [String.ofList_inj] at hsame
      obtain rfl := (List.cons.inj hsame).2
      rw [(hplain.unique hplain').2]

/-! ## Layouts -/

/-- Digits in front of others count by the places of the others. -/
theorem value_append (front back : List Char) :
    value (front ++ back) = value front * 10 ^ back.length + value back := by
  rw [value, List.reverse_append, List.map_append, Nat.ofDigits_append, List.length_map,
    List.length_reverse, ← value, ← value]
  ring

theorem IsNumeral.append {front back : List Char} (h : IsNumeral front)
    (hback : ∀ c ∈ back, c.isDigit = true) : IsNumeral (front ++ back) := by
  refine ⟨List.append_ne_nil_of_left_ne_nil h.ne_nil back, fun c hc => ?_⟩
  exact (List.mem_append.mp hc).elim (h.isDigit c) (hback c)

theorem isDigit_of_mem_zeros {zeros : Nat} : ∀ c ∈ List.replicate zeros '0', c.isDigit = true := by
  intro c hc
  rw [List.eq_of_mem_replicate hc]
  rfl

/-- A point is put in front of the last places, with zeros where digits are missing. -/
theorem isPlain_withPoint (h : IsNumeral cs) (places : Nat) :
    IsPlain (withPoint cs places) places (value cs / 10 ^ places) := by
  by_cases hzero : places = 0
  · subst hzero
    rw [withPoint_zero h.ne_nil, pow_zero, div_one]
    exact .whole h
  · unfold withPoint
    dsimp only
    rw [if_neg hzero]
    have hvalue : value cs = value (List.replicate (places + 1 - cs.length) '0' ++ cs) := by
      rw [value_append, value_replicate_zero, Nat.zero_mul, Nat.zero_add]
    have hlong : places < (List.replicate (places + 1 - cs.length) '0' ++ cs).length := by
      rw [List.length_append, List.length_replicate]
      omega
    have hdigits : ∀ c ∈ List.replicate (places + 1 - cs.length) '0' ++ cs, c.isDigit = true := by
      intro c hc
      exact (List.mem_append.mp hc).elim (isDigit_of_mem_zeros c) (h.isDigit c)
    rw [hvalue]
    generalize List.replicate (places + 1 - cs.length) '0' ++ cs = padded at *
    have hbehind : (padded.drop (padded.length - places)).length = places := by
      rw [List.length_drop]
      omega
    have hplain := @IsPlain.pointed (padded.take (padded.length - places))
      (padded.drop (padded.length - places))
      ⟨List.ne_nil_of_length_pos (by rw [List.length_take]; omega),
        fun c hc => hdigits c (List.mem_of_mem_take hc)⟩
      ⟨List.ne_nil_of_length_pos (by omega), fun c hc => hdigits c (List.mem_of_mem_drop hc)⟩
    rwa [hbehind, List.take_append_drop] at hplain

/-- A decimal number in full stands for itself. -/
theorem isPlain_positional (s : Scaled) :
    IsPlain s.positional (-s.exponent).toNat (s.figures * 10 ^ s.exponent) := by
  have hvalue : (s.figures : ℚ) * 10 ^ s.exponent =
      value (digits s.figures ++ List.replicate s.exponent.toNat '0') /
        10 ^ (-s.exponent).toNat := by
    rw [value_append, value_digits, value_replicate_zero, List.length_replicate, Nat.add_zero]
    push_cast
    obtain ⟨k, hk | hk⟩ := s.exponent.eq_nat_or_neg
    · rw [hk, Int.toNat_natCast, Int.toNat_neg_natCast, zpow_natCast, pow_zero, div_one]
    · rw [hk, Int.toNat_neg_natCast, neg_neg, Int.toNat_natCast, zpow_neg, zpow_natCast, pow_zero,
        mul_one, div_eq_mul_inv]
  rw [hvalue]
  exact isPlain_withPoint ((isNumeral_digits s.figures).append isDigit_of_mem_zeros) _

/-- Zeros at the end of the figures do not count. -/
theorem value_trimmed {s : Scaled} (h : 0 < s.figures) :
    (s.trimmed.figures : ℚ) * 10 ^ s.trimmed.exponent = s.figures * 10 ^ s.exponent := by
  obtain ⟨kept, zeros, hsplit, -, -, htrimmed⟩ := exists_trimmed h
  have hfigures : s.figures = value kept * 10 ^ zeros := by
    rw [← value_digits s.figures, hsplit, value_append, value_replicate_zero,
      List.length_replicate, Nat.add_zero]
  rw [htrimmed, hfigures]
  push_cast
  rw [zpow_add₀ (by norm_num), zpow_natCast]
  ring

/-- The shortest decimal of a number lies in the number's interval. -/
theorem exists_shortest {f : Format} {m : Nat} {e : Int} (h : f.IsNumber m e) (hm : 0 < m)
    (hf : f.precision ≤ 53) : ∃ places v, IsPlain (shortest f m e).positional places v ∧
      (Interval.ofNumber f m e).Covers v := by
  obtain ⟨j, -, figures, hsearch, hcovers, -⟩ := Interval.search_ofNumber h hm hf
  have hpos : 0 < figures := by
    have hproduct := hcovers.pos hm
    rw [mul_pos_iff_of_pos_right (by positivity)] at hproduct
    exact_mod_cast hproduct
  have hshortest : shortest f m e =
      ((Interval.ofNumber f m e).search maxFigures
        (order (Format.quotient m e).1 (Format.quotient m e).2)).trimmed := rfl
  refine ⟨_, _, isPlain_positional _, ?_⟩
  rw [hshortest, hsearch, value_trimmed hpos]
  exact hcovers

/-- A quotient with a fixed number of places is at most half a unit of the last one away. -/
theorem exists_fixed (places num : Nat) {den : Nat} (hden : 0 < den) :
    ∃ v, IsPlain (fixed places num den) places v ∧ |v - num / den| ≤ 1 / 2 / 10 ^ places := by
  refine ⟨_, isPlain_withPoint (isNumeral_digits _) places, ?_⟩
  have hnearest := (isNearest_roundDiv (num * Nat.pow 10 places) hden).le
  rw [value_digits, abs_sub_comm]
  have hunit : (0 : ℚ) < 10 ^ places := by positivity
  generalize (roundDiv (num * Nat.pow 10 places) den : ℚ) = r at *
  have hscaled : (num : ℚ) / den - r / 10 ^ places =
      ((num * Nat.pow 10 places : Nat) / den - r) / 10 ^ places := by
    push_cast [Nat.pow_eq]
    field_simp
  rw [hscaled, abs_div, abs_of_pos hunit]
  gcongr

end ScpiScript.Decimal
