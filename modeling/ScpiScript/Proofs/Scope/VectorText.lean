import Mathlib.Data.List.Forall2
import ScpiScript.Proofs.Binary.Value
import ScpiScript.Proofs.Decimal.Plain
import ScpiScript.Scope.Value
import ScpiScript.Text.Blank
/-!
# The text of a vector

A vector is written in rows of eight words, one for each sample in order, and from the text
every sample can be told to within a unit of the last place.

- `words` are the words of a text, which blanks tell apart.
- `IsCell` says what the word of a sample is, and `exists_cell` that it is written so.
- `rows_flatten`, `length_rows` and `length_of_mem_rows` are the rows of a list.
- `vectorText_accurate` is the text of any vector.
-/

namespace ScpiScript

open Binary

/-! ## Words -/

namespace Text

/-- The words of a text: what is between its blanks. -/
def words (cs : List Char) : List (List Char) :=
  (cs.splitOnP isBlank).filter fun word => !word.isEmpty

@[simp] theorem words_nil : words [] = [] := rfl

/-- A blank ends a word. -/
theorem words_append_cons (front back : List Char) {c : Char} (hc : isBlank c = true) :
    words (front ++ c :: back) = words front ++ words back := by
  rw [words, List.splitOnP_append_cons _ _ hc, List.filter_append]
  rfl

/-- A blank in front belongs to no word. -/
theorem words_cons {c : Char} (hc : isBlank c = true) (cs : List Char) :
    words (c :: cs) = words cs :=
  words_append_cons [] cs hc

/-- What begins with a blank, or is nothing, is read apart from what is in front. -/
theorem words_append (front : List Char) {back : List Char}
    (hback : ∀ c ∈ back.head?, isBlank c = true) :
    words (front ++ back) = words front ++ words back := by
  cases back with
  | nil => rw [List.append_nil, words_nil, List.append_nil]
  | cons c rest =>
    have hc := hback c rfl
    rw [words_append_cons front rest hc, words_cons hc]

theorem words_replicate_append {c : Char} (hc : isBlank c = true) (count : Nat)
    (cs : List Char) : words (List.replicate count c ++ cs) = words cs := by
  induction count with
  | zero => rfl
  | succ count ih => rw [List.replicate_succ, List.cons_append, words_cons hc, ih]

/-- Without a blank there is one word. -/
theorem words_of_not_isBlank {cs : List Char} (hne : cs ≠ [])
    (h : ∀ c ∈ cs, isBlank c = false) : words cs = [cs] := by
  rw [words, List.splitOnP_eq_singleton h]
  refine List.filter_eq_self.mpr fun word hword => ?_
  rw [List.mem_singleton] at hword
  simp [hword, hne]

end Text

open Text

/-! ## Cells -/

/-- The word of a sample: its sign, and its value to the fifth place. Zero has no sign. -/
structure IsCell (x : Binary32) (word : List Char) : Prop where
  zero : x.value? = some 0 → word = "0.00000".toList
  nonzero : ∀ a, x.value? = some a → a ≠ 0 → ∃ cs v, Decimal.IsPlain cs 5 v ∧
    word = (if a < 0 then '-' else '+') :: cs ∧ |(if a < 0 then -v else v) - a| ≤ 1 / 2 / 10 ^ 5
  other : x.value? = none → word = "NaN".toList ∨ word = "-inf".toList ∨ word = "+inf".toList

/-- A plain decimal has no blank in it. -/
theorem Decimal.IsPlain.not_isBlank {cs : List Char} {places : Nat} {v : ℚ}
    (h : Decimal.IsPlain cs places v) : ∀ c ∈ cs, isBlank c = false := by
  intro c hc
  rcases h.isDigit_or_point c hc with hdigit | rfl
  · have hbounds := Decimal.bounds_of_isDigit hdigit
    exact isBlank_of_bounds (by omega)
  · rfl

/-- Zero to five places. -/
theorem fixed_zero (den : Nat) (hden : 0 < den) :
    Decimal.fixed vectorPlaces 0 den = "0.00000".toList := by
  have hround : Decimal.roundDiv (0 * Nat.pow 10 vectorPlaces) den = 0 := by
    rw [Nat.zero_mul, Decimal.roundDiv, Nat.zero_div, Nat.zero_mod]
    exact if_pos hden
  rw [Decimal.fixed, hround]
  rfl

/-- What has no value is written by its kind. -/
theorem isCell_of_none {x : Binary32} (h : x.value? = none) {word : List Char}
    (hword : word = "NaN".toList ∨ word = "-inf".toList ∨ word = "+inf".toList) :
    IsCell x word := by
  refine ⟨?_, ?_, fun _ => hword⟩
  · rw [h]
    nofun
  · rw [h]
    nofun

/-- A number is written by its value, and its sign unless it is zero. -/
theorem isCell_of_finite {x : Binary32} {negative : Bool} {m : Nat} {e : Int}
    (h : x.datum = .finite negative m e) :
    IsCell x (if m = 0 then "0.00000".toList else
      (if negative then '-' else '+') :: Decimal.fixed vectorPlaces (Format.quotient m e).1
        (Format.quotient m e).2) := by
  have hvalue : x.value? = _ := congrArg Datum.value? h
  have hden : 0 < (Format.quotient m e).2 := Nat.two_pow_pos _
  obtain ⟨v, hplain, herror⟩ := Decimal.exists_fixed vectorPlaces (Format.quotient m e).1 hden
  rw [Format.quotient_eq] at herror
  refine ⟨fun ha => ?_, fun a ha hne => ?_, fun ha => ?_⟩
  · obtain ⟨-, hzero, -⟩ := Datum.signed_value (Option.some.inj (ha.symm.trans hvalue))
    rw [if_pos (hzero.mp rfl)]
  · have heq := Option.some.inj (ha.symm.trans hvalue)
    obtain ⟨-, hzero, hsign⟩ := Datum.signed_value heq
    have hm : m ≠ 0 := mt hzero.mpr hne
    refine ⟨_, v, hplain, ?_, ?_⟩
    · simp only [if_neg hm, hsign (Nat.pos_of_ne_zero hm)]
    · simp only [hsign (Nat.pos_of_ne_zero hm)]
      rw [heq]
      cases negative with
      | false => exact herror
      | true =>
        show |-v - -(m * 2 ^ e)| ≤ _
        rwa [neg_sub_neg, abs_sub_comm]
  · rw [hvalue] at ha
    cases ha

/-- A sample is a word behind one or two spaces. -/
theorem exists_cell (x : Binary32) : ∃ spaces word, IsCell x word ∧ word ≠ [] ∧
    (∀ c ∈ word, isBlank c = false) ∧ cellText x = ' ' :: (List.replicate spaces ' ' ++ word) := by
  have hblank : ∀ {cs : List Char}, cs.all (!isBlank ·) = true → ∀ c ∈ cs, isBlank c = false := by
    intro cs h
    simpa using h
  unfold cellText
  split
  · rename_i h
    have hvalue : x.value? = none := congrArg Datum.value? h
    exact ⟨0, "NaN".toList, isCell_of_none hvalue (.inl rfl), by decide, hblank rfl, rfl⟩
  · rename_i negative h
    have hvalue : x.value? = none := congrArg Datum.value? h
    cases negative with
    | false =>
      exact ⟨0, "+inf".toList, isCell_of_none hvalue (.inr (.inr rfl)), by decide, hblank rfl, rfl⟩
    | true =>
      exact ⟨0, "-inf".toList, isCell_of_none hvalue (.inr (.inl rfl)), by decide, hblank rfl, rfl⟩
  · rename_i negative m e h
    have hcell := isCell_of_finite h
    have hden : 0 < (Format.quotient m e).2 := Nat.two_pow_pos _
    dsimp only
    by_cases hm : m = 0
    · rw [if_pos hm] at hcell ⊢
      have hnum : (Format.quotient m e).1 = 0 := by
        rw [hm]
        exact Nat.zero_mul _
      rw [hnum, fixed_zero _ hden]
      exact ⟨1, _, hcell, by decide, hblank rfl, rfl⟩
    · rw [if_neg hm] at hcell ⊢
      obtain ⟨v, hplain, -⟩ := Decimal.exists_fixed vectorPlaces (Format.quotient m e).1 hden
      refine ⟨0, _, hcell, List.cons_ne_nil _ _, ?_, rfl⟩
      intro c hc
      rcases List.mem_cons.mp hc with rfl | hc
      · cases negative <;> rfl
      · exact hplain.not_isBlank c hc

/-- Samples that, where both are numbers, differ by at most a unit of the fifth place. -/
def Binary32.IsNear (x y : Binary32) : Prop :=
  ∀ a ∈ x.value?, ∀ b ∈ y.value?, |a - b| ≤ 1 / 10 ^ 5

/-- Samples that are written as the same word are near to each other. -/
theorem IsCell.isNear {x y : Binary32} {word : List Char} (hx : IsCell x word)
    (hy : IsCell y word) : x.IsNear y := by
  intro a ha b hb
  have hsigned (c : Char) (cs : List Char) (hc : c ≠ '0') : "0.00000".toList ≠ c :: cs :=
    fun h => hc (List.cons.inj h).1.symm
  by_cases hzero : a = 0 <;> by_cases hzero' : b = 0
  · rw [hzero, hzero', sub_zero, abs_zero]
    positivity
  · -- a sign is no zero
    obtain ⟨cs, v, -, hword, -⟩ := hy.nonzero b hb hzero'
    rw [hx.zero (hzero ▸ ha)] at hword
    exact absurd hword (hsigned _ _ (by split <;> decide))
  · obtain ⟨cs, v, -, hword, -⟩ := hx.nonzero a ha hzero
    rw [hy.zero (hzero' ▸ hb)] at hword
    exact absurd hword (hsigned _ _ (by split <;> decide))
  · obtain ⟨cs, v, hplain, hword, herror⟩ := hx.nonzero a ha hzero
    obtain ⟨cs', w, hplain', hword', herror'⟩ := hy.nonzero b hb hzero'
    obtain ⟨hsign, rfl⟩ := List.cons.inj (hword.symm.trans hword')
    obtain ⟨-, rfl⟩ := hplain.unique hplain'
    have hsame : (if a < 0 then -v else v) = if b < 0 then -v else v := by
      by_cases ha' : a < 0 <;> by_cases hb' : b < 0 <;> simp [ha', hb'] at hsign ⊢
    rw [← hsame] at herror'
    generalize (if a < 0 then -v else v) = written at herror herror'
    calc |a - b|
      _ ≤ |a - written| + |written - b| := abs_sub_le a written b
      _ ≤ 1 / 2 / 10 ^ 5 + 1 / 2 / 10 ^ 5 :=
        add_le_add (by rwa [abs_sub_comm]) herror'
      _ = 1 / 10 ^ 5 := by ring

/-! ## Rows -/

section Rows

variable {α : Type} {length : Nat}

/-- All elements are in the rows, in order. -/
theorem rows_flatten (length : Nat) (xs : List α) : (rows length xs).flatten = xs := by
  fun_induction rows length xs with
  | case1 => rfl
  | case2 x xs ih => rw [List.flatten_cons, ih, List.cons_append, List.take_append_drop]

/-- No row is empty, and none is longer than a full one. -/
theorem length_of_mem_rows (hlength : 0 < length) (xs : List α) :
    ∀ row ∈ rows length xs, 1 ≤ row.length ∧ row.length ≤ length := by
  fun_induction rows length xs with
  | case1 => nofun
  | case2 x xs ih =>
    intro row hrow
    rcases List.mem_cons.mp hrow with rfl | hrow
    · rw [List.length_cons, List.length_take]
      omega
    · exact ih row hrow

/-- All rows but the last are full. -/
theorem length_of_mem_dropLast_rows (hlength : 0 < length) (xs : List α) :
    ∀ row ∈ (rows length xs).dropLast, row.length = length := by
  fun_induction rows length xs with
  | case1 => nofun
  | case2 x xs ih =>
    intro row hrow
    by_cases hrest : xs.length ≤ length - 1
    · rw [List.drop_eq_nil_of_le hrest, rows] at hrow
      cases hrow
    · have hmore : rows length (xs.drop (length - 1)) ≠ [] := by
        intro hnil
        have hnone := rows_flatten length (xs.drop (length - 1))
        rw [hnil, List.flatten_nil, eq_comm, List.drop_eq_nil_iff] at hnone
        exact hrest hnone
      rw [List.dropLast_cons_of_ne_nil hmore] at hrow
      rcases List.mem_cons.mp hrow with rfl | hrow
      · rw [List.length_cons, List.length_take]
        omega
      · exact ih row hrow

/-- There are as few rows as can hold the elements. -/
theorem length_rows (hlength : 0 < length) (xs : List α) :
    (rows length xs).length = (xs.length + (length - 1)) / length := by
  fun_induction rows length xs with
  | case1 =>
    rw [List.length_nil, List.length_nil, Nat.zero_add, Nat.div_eq_of_lt (by omega)]
  | case2 x xs ih =>
    rw [List.length_cons, ih, List.length_drop, List.length_cons]
    by_cases hrest : xs.length ≤ length - 1
    · have hnone : xs.length - (length - 1) = 0 := by omega
      rw [hnone, Nat.zero_add, Nat.div_eq_of_lt (by omega)]
      refine (Nat.div_eq_of_lt_le ?_ ?_).symm
      · omega
      · omega
    · have hmore : xs.length + 1 + (length - 1) = xs.length - (length - 1) + (length - 1) + length := by
        omega
      rw [hmore, Nat.add_div_right _ hlength]

end Rows

/-! ## The text -/

/-- The lines of a vector's text, without the brackets around them. -/
def vectorLines (samples : List Binary32) : List (List Char) :=
  (rows vectorRowLength samples).map fun row => row.flatMap cellText

theorem vectorText_eq (samples : List Binary32) :
    vectorText samples = String.ofList
      ("[\n".toList ++ (vectorLines samples).flatMap (· ++ ['\n']) ++ "]\n".toList) := by
  rw [vectorLines, List.flatMap_map]
  rfl

/-- The words of a line are those of its samples. -/
theorem isCell_words_flatMap (row : List Binary32) :
    List.Forall₂ IsCell row (words (row.flatMap cellText)) := by
  induction row with
  | nil => exact .nil
  | cons x row ih =>
    obtain ⟨spaces, word, hcell, hne, hword, htext⟩ := exists_cell x
    have hspace : isBlank ' ' = true := by decide
    have hnext : ∀ c ∈ (row.flatMap cellText).head?, isBlank c = true := by
      intro c hc
      cases row with
      | nil => cases hc
      | cons y row =>
        obtain ⟨_, _, -, -, -, hy⟩ := exists_cell y
        rw [List.flatMap_cons, hy] at hc
        cases hc
        exact hspace
    rw [List.flatMap_cons, words_append _ hnext, htext, words_cons hspace,
      words_replicate_append hspace, words_of_not_isBlank hne hword]
    exact .cons hcell ih

/-- No line goes on behind its end. -/
theorem newline_not_mem_vectorLines {samples : List Binary32} :
    ∀ line ∈ vectorLines samples, '\n' ∉ line := by
  intro line hline hmem
  obtain ⟨row, -, rfl⟩ := List.mem_map.mp hline
  obtain ⟨x, -, hx⟩ := List.mem_flatMap.mp hmem
  obtain ⟨spaces, word, -, -, hword, htext⟩ := exists_cell x
  rw [htext] at hx
  rcases List.mem_cons.mp hx with hx | hx
  · exact absurd hx (by decide)
  · rcases List.mem_append.mp hx with hx | hx
    · exact absurd (List.eq_of_mem_replicate hx) (by decide)
    · exact absurd (hword '\n' hx) (by decide)

/-- The words of all lines are those of all samples. -/
theorem isCell_vectorLines (samples : List Binary32) :
    List.Forall₂ IsCell samples ((vectorLines samples).flatMap words) := by
  have hrows (rs : List (List Binary32)) : List.Forall₂ IsCell rs.flatten
      ((rs.map fun row => row.flatMap cellText).flatMap words) := by
    induction rs with
    | nil => exact .nil
    | cons row rs ih => exact List.rel_append (isCell_words_flatMap row) ih
  have hall := hrows (rows vectorRowLength samples)
  rwa [rows_flatten] at hall

/-- Line ends belong to no word. -/
theorem words_flatMap_newline (lines : List (List Char)) :
    words (lines.flatMap (· ++ ['\n'])) = lines.flatMap words := by
  induction lines with
  | nil => rfl
  | cons line lines ih =>
    rw [List.flatMap_cons, List.append_assoc, List.singleton_append,
      words_append_cons _ _ (by decide), ih, List.flatMap_cons]

/-- Of lists that match the same words, the one matches the other. -/
theorem forall₂_of_common {α β : Type} {R : α → β → Prop} {S : α → α → Prop}
    (h : ∀ x y word, R x word → R y word → S x y) {xs ys : List α} {ws : List β}
    (hxs : List.Forall₂ R xs ws) (hys : List.Forall₂ R ys ws) : List.Forall₂ S xs ys := by
  induction hxs generalizing ys with
  | nil =>
    cases hys
    exact .nil
  | cons hx _ ih =>
    cases hys with
    | cons hy hys => exact .cons (h _ _ _ hx hy) (ih hys)

/-- Vectors with the same text have as many samples, each near to the other. -/
theorem isNear_of_vectorText_eq {samples others : List Binary32}
    (h : vectorText samples = vectorText others) :
    List.Forall₂ Binary32.IsNear samples others := by
  rw [vectorText_eq, vectorText_eq, String.ofList_inj] at h
  have hbody := List.append_cancel_left (List.append_cancel_right h)
  have hwords := congrArg words hbody
  rw [words_flatMap_newline, words_flatMap_newline] at hwords
  have hsamples := isCell_vectorLines samples
  rw [hwords] at hsamples
  exact forall₂_of_common (fun _ _ _ hx hy => hx.isNear hy) hsamples
    (isCell_vectorLines others)

/-- The text of a vector has a line for every eight samples begun between its brackets, all full
but the last; their words are the samples in order, each to within half a unit of the last
place, so that vectors with the same text differ nowhere by more than a unit. -/
theorem vectorText_accurate (samples : List Binary32) :
    (∃ lines : List (List Char),
      vectorText samples =
          String.ofList ("[\n".toList ++ lines.flatMap (· ++ ['\n']) ++ "]\n".toList) ∧
        (∀ line ∈ lines, '\n' ∉ line) ∧
        lines.length = (samples.length + 7) / 8 ∧
        (∀ line ∈ lines.dropLast, (words line).length = 8) ∧
        (∀ line ∈ lines, 1 ≤ (words line).length ∧ (words line).length ≤ 8) ∧
        List.Forall₂ IsCell samples (lines.flatMap words)) ∧
      ∀ others : List Binary32, vectorText samples = vectorText others →
        List.Forall₂ Binary32.IsNear samples others := by
  have hcount (row : List Binary32) : (words (row.flatMap cellText)).length = row.length :=
    (isCell_words_flatMap row).length_eq.symm
  have hlength : 0 < vectorRowLength := Nat.succ_pos 7
  refine ⟨⟨vectorLines samples, vectorText_eq samples, newline_not_mem_vectorLines, ?_, ?_, ?_,
    isCell_vectorLines samples⟩, fun others h => isNear_of_vectorText_eq h⟩
  · rw [vectorLines, List.length_map, length_rows hlength]
    rfl
  · intro line hline
    rw [vectorLines, ← List.map_dropLast] at hline
    obtain ⟨row, hrow, rfl⟩ := List.mem_map.mp hline
    rw [hcount]
    exact length_of_mem_dropLast_rows hlength samples row hrow
  · intro line hline
    obtain ⟨row, hrow, rfl⟩ := List.mem_map.mp hline
    rw [hcount]
    exact length_of_mem_rows hlength samples row hrow

/-- Neighbours that are written alike. -/
theorem vectorText_neighbours :
    vectorText [⟨0x3F800000⟩] = vectorText [⟨0x3F800001⟩] ∧
      List.Forall₂ Binary32.IsNear [⟨0x3F800000⟩] [⟨0x3F800001⟩] := by
  have hcell : cellText ⟨0x3F800000⟩ = cellText ⟨0x3F800001⟩ := by decide
  have htext : vectorText [⟨0x3F800000⟩] = vectorText [⟨0x3F800001⟩] := by
    simp [vectorText, rows, hcell]
  exact ⟨htext, (vectorText_accurate _).2 _ htext⟩

end ScpiScript
