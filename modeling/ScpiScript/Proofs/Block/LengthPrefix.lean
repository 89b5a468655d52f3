import ScpiScript.Proofs.Block.Limit
import ScpiScript.Proofs.Decimal.Numeral
import ScpiScript.Proofs.Outcome
import ScpiScript.Proofs.Text.Encoding
import ScpiScript.Proofs.Text.RoundTrip
/-!
# Length prefixes as a code

A length prefix says itself where it ends. So it is read back from in front of any text, no
prefix is a beginning of another, and what is read depends on the prefix alone. The reader
takes more than is written: the count behind the first digit may have zeros in front.

- `BeginsWithCount` says what a text has to begin with for a count to be read.
- `readLengthPrefix?_eq_some_iff`: nothing else is read.
- `lengthPrefix_eq_ok_iff` spells out what is written for a count, and
  `readLengthPrefix?_append` reads it back.
- `lengthPrefix_selfDelimiting` is all of it together.
-/

namespace ScpiScript.Block

/-- A text begins with a digit from one to nine and behind it a numeral of as many digits. -/
structure BeginsWithCount (text numeral : List Char) : Prop where
  isNumeral : Decimal.IsNumeral numeral
  length_le : numeral.length ≤ 9
  isPrefix : Nat.digitChar numeral.length :: numeral <+: text

theorem BeginsWithCount.length_pos {text numeral : List Char} (h : BeginsWithCount text numeral) :
    0 < numeral.length :=
  List.length_pos_iff.mpr h.isNumeral.ne_nil

theorem BeginsWithCount.append {text numeral : List Char} (h : BeginsWithCount text numeral)
    (more : List Char) : BeginsWithCount (text ++ more) numeral :=
  ⟨h.isNumeral, h.length_le, h.isPrefix.trans (List.prefix_append text more)⟩

/-- A prefix is made of ASCII characters. -/
theorem BeginsWithCount.ascii {text numeral : List Char} (h : BeginsWithCount text numeral) :
    ∀ c ∈ Nat.digitChar numeral.length :: numeral, c.toNat < 0x80 := by
  have hdigit : ∀ c ∈ Nat.digitChar numeral.length :: numeral, c.isDigit = true := by
    intro c hc
    rcases List.mem_cons.mp hc with rfl | hc
    · rw [Nat.isDigit_digitChar, decide_eq_true_eq]
      exact Nat.lt_succ_of_le h.length_le
    · exact h.isNumeral.isDigit c hc
  intro c hc
  have hbounds := Decimal.bounds_of_isDigit (hdigit c hc)
  omega

/-- So it takes as many bytes as characters of the text. -/
theorem BeginsWithCount.take_encode {text numeral : List Char} (h : BeginsWithCount text numeral) :
    (Utf8.encode (String.ofList text)).take (numeral.length + 1) =
      Utf8.encode (String.ofList (Nat.digitChar numeral.length :: numeral)) := by
  have hlength : (Utf8.encode (String.ofList (Nat.digitChar numeral.length :: numeral))).length =
      numeral.length + 1 := by
    rw [Utf8.encode_ascii h.ascii, List.length_map, List.length_cons]
  obtain ⟨rest, rfl⟩ := h.isPrefix
  rw [String.ofList_append, Utf8.encode_append, ← hlength, List.take_left]

/-! ## Reading -/

/-- The digit in front of a numeral says where it ends. -/
theorem readLengthPrefix?_of_begins {text numeral : List Char}
    (h : BeginsWithCount text numeral) :
    readLengthPrefix? text = some (Decimal.value numeral, numeral.length + 1) := by
  obtain ⟨rest, rfl⟩ := h.isPrefix
  have hlt : numeral.length < 10 := Nat.lt_succ_of_le h.length_le
  have hdigit : (Nat.digitChar numeral.length).isDigit = true := by
    rw [Nat.isDigit_digitChar, decide_eq_true_eq]
    exact hlt
  have hnonzero : Nat.digitChar numeral.length ≠ '0' := by
    rw [Ne, Nat.digitChar_eq_zero]
    exact Nat.pos_iff_ne_zero.mp h.length_pos
  have hcount : (Nat.digitChar numeral.length).toNat - '0'.toNat = numeral.length :=
    Decimal.digitValue_digitChar hlt
  have hread : Decimal.read? numeral = some (Decimal.value numeral) :=
    Decimal.read?_eq_some_iff.mpr ⟨h.isNumeral, rfl⟩
  rw [List.cons_append, readLengthPrefix?, if_neg (by simp [hdigit, hnonzero]), hcount]
  dsimp only
  rw [List.take_left, if_neg (Nat.lt_irrefl _), hread, Option.map_some, Nat.add_comm]

/-- A count is read exactly from a text that begins with one. -/
theorem readLengthPrefix?_eq_some_iff {text : List Char} {n k : Nat} :
    readLengthPrefix? text = some (n, k) ↔
      ∃ numeral, BeginsWithCount text numeral ∧ Decimal.value numeral = n ∧
        k = numeral.length + 1 := by
  constructor
  · intro h
    rcases text with _ | ⟨c, cs⟩
    · cases h
    rw [readLengthPrefix?] at h
    split at h
    · cases h
    rename_i hfirst
    simp only [Bool.or_eq_true, Bool.not_eq_true', decide_eq_true_eq, not_or,
      Bool.not_eq_false] at hfirst
    obtain ⟨hdigit, hnonzero⟩ := hfirst
    rw [← Decimal.digitValue] at h
    dsimp only at h
    split at h
    · cases h
    rename_i hshort
    obtain ⟨value, hread, hpair⟩ := Option.map_eq_some_iff.mp h
    obtain ⟨hnumeral, hvalue⟩ := Decimal.read?_eq_some_iff.mp hread
    obtain ⟨rfl, rfl⟩ := Prod.mk.inj hpair
    have hlength : (cs.take (Decimal.digitValue c)).length = Decimal.digitValue c :=
      Nat.le_antisymm (List.length_take_le _ _) (Nat.le_of_not_lt hshort)
    refine ⟨cs.take (Decimal.digitValue c), ⟨hnumeral, ?_, ?_⟩, hvalue, ?_⟩
    · rw [hlength]
      exact Nat.le_of_lt_succ (Decimal.digitValue_lt hdigit)
    · rw [hlength, Decimal.digitChar_digitValue hdigit]
      exact List.cons_prefix_cons.mpr ⟨rfl, List.take_prefix _ cs⟩
    · rw [hlength, Nat.add_comm]
  · rintro ⟨numeral, hbegins, rfl, rfl⟩
    exact readLengthPrefix?_of_begins hbegins

-- a count that is never written so is read all the same
example : readLengthPrefix? "3007x".toList = some (7, 4) := by decide

/-! ## Writing -/

/-- What is written for a count within the limit, and only for one. -/
theorem lengthPrefix_eq_ok_iff {n : Nat} {written : List Char} :
    lengthPrefix n = .ok written ↔
      n ≤ maxLength ∧ written = Nat.digitChar (Decimal.digitCount n) :: Decimal.digits n := by
  constructor
  · intro h
    by_cases hn : n ≤ maxLength
    · rw [lengthPrefix_of_le hn] at h
      exact ⟨hn, (Except.ok.inj h).symm⟩
    · rw [lengthPrefix_of_lt (Nat.lt_of_not_le hn)] at h
      cases h
  · rintro ⟨hn, rfl⟩
    exact lengthPrefix_of_le hn

theorem lengthPrefix_eq_error_iff {n : Nat} {e : BlockError} :
    lengthPrefix n = .error e ↔ maxLength < n ∧ e = .lengthOverflow n := by
  constructor
  · intro h
    by_cases hn : n ≤ maxLength
    · rw [lengthPrefix_of_le hn] at h
      cases h
    · have hlarge := Nat.lt_of_not_le hn
      rw [lengthPrefix_of_lt hlarge] at h
      exact ⟨hlarge, (Except.error.inj h).symm⟩
  · rintro ⟨hn, rfl⟩
    exact lengthPrefix_of_lt hn

section Written

variable {n : Nat} {written : List Char}

/-- A prefix that was written begins with a count. -/
theorem beginsWithCount_of_written (h : lengthPrefix n = .ok written) :
    BeginsWithCount written (Decimal.digits n) := by
  obtain ⟨hn, rfl⟩ := lengthPrefix_eq_ok_iff.mp h
  exact ⟨Decimal.isNumeral_digits n, digitCount_le_of_le_maxLength hn, List.prefix_rfl⟩

theorem length_of_written (h : lengthPrefix n = .ok written) :
    written.length = Decimal.digitCount n + 1 := by
  obtain ⟨-, rfl⟩ := lengthPrefix_eq_ok_iff.mp h
  rfl

/-- A prefix is read back from in front of any text. -/
theorem readLengthPrefix?_append (h : lengthPrefix n = .ok written) (text : List Char) :
    readLengthPrefix? (written ++ text) = some (n, written.length) := by
  rw [readLengthPrefix?_of_begins ((beginsWithCount_of_written h).append text),
    Decimal.value_digits, length_of_written h, Decimal.digitCount]

theorem ascii_of_written (h : lengthPrefix n = .ok written) : ∀ c ∈ written, c.toNat < 0x80 := by
  have hascii := (beginsWithCount_of_written h).ascii
  obtain ⟨-, rfl⟩ := lengthPrefix_eq_ok_iff.mp h
  exact hascii

theorem length_encode_written (h : lengthPrefix n = .ok written) :
    (Utf8.encode (String.ofList written)).length = written.length := by
  rw [Utf8.encode_ascii (ascii_of_written h), List.length_map]

/-- No prefix is the beginning of that of another count. -/
theorem eq_of_written_isPrefix {m : Nat} {other : List Char} (h : lengthPrefix n = .ok written)
    (hother : lengthPrefix m = .ok other) (hstart : written <+: other) : n = m := by
  obtain ⟨rest, rfl⟩ := hstart
  have hread := readLengthPrefix?_append hother []
  rw [List.append_nil, readLengthPrefix?_append h rest] at hread
  exact congrArg Prod.fst (Option.some.inj hread)

end Written

/-- What a text begins with was written for its count, unless zeros stand in front of it. -/
theorem lengthPrefix_value_iff {text numeral : List Char} (h : BeginsWithCount text numeral) :
    lengthPrefix (Decimal.value numeral) = .ok (Nat.digitChar numeral.length :: numeral) ↔
      numeral.length = 1 ∨ numeral.head? ≠ some '0' := by
  rw [← Decimal.digits_value_iff h.isNumeral, lengthPrefix_eq_ok_iff, Decimal.digitCount]
  constructor
  · rintro ⟨-, hwritten⟩
    exact (List.cons.inj hwritten).2.symm
  · intro hdigits
    rw [hdigits]
    refine ⟨?_, rfl⟩
    -- nine digits are within the limit
    have hnine : (Nat.toDigits 10 (Decimal.value numeral)).length ≤ 9 := by
      rw [← Decimal.digits, hdigits]
      exact h.length_le
    have hlt := (Nat.length_toDigits_le_iff (by decide) (by decide)).mp hnine
    rw [maxLength]
    omega

/-- A prefix can be written for the counts up to the limit. It is read back from in front of
any text, as the count and the number of its bytes, and none is the beginning of another. A
count is read exactly from a text that begins with a digit from one to nine and as many
decimal digits as it says. These bytes are the prefix for the count exactly if it is a single
digit or has no zero in front. -/
theorem lengthPrefix_selfDelimiting (n : Nat) (text : List Char) :
    ((∃ written, lengthPrefix n = .ok written) ↔ n ≤ maxLength) ∧
    (∀ written, lengthPrefix n = .ok written →
      readLengthPrefix? (written ++ text) =
          some (n, (Utf8.encode (String.ofList written)).length) ∧
        ∀ m ≠ n, ∀ other, lengthPrefix m = .ok other → ¬ written <+: other ∧ ¬ other <+: written) ∧
    (∀ k, readLengthPrefix? text = some (n, k) ↔
      ∃ numeral, BeginsWithCount text numeral ∧ Decimal.value numeral = n ∧
        k = numeral.length + 1) ∧
    ∀ k numeral, BeginsWithCount text numeral → readLengthPrefix? text = some (n, k) →
      ((lengthPrefix n).map (fun written => Utf8.encode (String.ofList written)) =
          .ok ((Utf8.encode (String.ofList text)).take k) ↔
        numeral.length = 1 ∨ numeral.head? ≠ some '0') := by
  refine ⟨?_, ?_, fun k => readLengthPrefix?_eq_some_iff, ?_⟩
  · simp only [lengthPrefix_eq_ok_iff]
    exact ⟨fun ⟨_, hn, _⟩ => hn, fun hn => ⟨_, hn, rfl⟩⟩
  · intro written hwritten
    rw [length_encode_written hwritten]
    refine ⟨readLengthPrefix?_append hwritten text, fun m hne other hother => ⟨?_, ?_⟩⟩
    · exact fun hstart => hne (eq_of_written_isPrefix hwritten hother hstart).symm
    · exact fun hstart => hne (eq_of_written_isPrefix hother hwritten hstart)
  · intro k numeral hbegins hread
    rw [readLengthPrefix?_of_begins hbegins, Option.some_inj] at hread
    obtain ⟨rfl, rfl⟩ := Prod.mk.inj hread
    rw [← lengthPrefix_value_iff hbegins, hbegins.take_encode, map_eq_ok_iff]
    constructor
    · rintro ⟨written, hwritten, hbytes⟩
      rw [hwritten, String.ofList_inj.mp (Utf8.encode_injective hbytes)]
    · exact fun hwritten => ⟨_, hwritten, rfl⟩

end ScpiScript.Block
