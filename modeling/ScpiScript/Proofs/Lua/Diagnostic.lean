import Mathlib.Data.List.TakeWhile
import ScpiScript.Lua.Machine
import ScpiScript.Proofs.Decimal.Numeral
import ScpiScript.Proofs.Outcome
import ScpiScript.Proofs.Text.Decoding
import ScpiScript.Proofs.Text.RoundTrip
/-!
# The line of a diagnostic

The text of a diagnostic begins with the name of the chunk, and the line behind it stands
between two colons. Of a long name only the beginning is shown, so that the line is looked
for in the whole text, where a number of the name itself can stand in its place.

- `FirstNumber` and `FirstBehind` say what is looked for, with no word of the search:
  `lineDigits?_eq_some_iff` and `behind?_eq_some_iff` hold the search against them.
- `messageChars_eq` is the text of a diagnostic.
- `badCode_line` says when the line that is told is that of the diagnostic.
-/

namespace ScpiScript.Lua.Machine

/-! ## Numbers between colons -/

/-- A number between two colons stands at a place of a text. -/
structure NumberAt (cs : List Char) (k : Nat) (digits : List Char) : Prop where
  ne_nil : digits ≠ []
  isDigit : ∀ c ∈ digits, Text.isDecimalDigit c = true
  at_ : ':' :: (digits ++ [':']) <+: cs.drop k

/-- The first number between two colons in a text. -/
def FirstNumber (cs digits : List Char) : Prop :=
  ∃ k, NumberAt cs k digits ∧ ∀ j < k, ∀ other, ¬ NumberAt cs j other

/-- Digits in front of a colon are taken as a whole. -/
theorem takeWhile_isDecimalDigit {digits : List Char}
    (h : ∀ c ∈ digits, Text.isDecimalDigit c = true) (rest : List Char) :
    (digits ++ ':' :: rest).takeWhile Text.isDecimalDigit = digits := by
  rw [List.takeWhile_append_of_pos h, List.takeWhile_cons_of_neg (by decide), List.append_nil]

theorem numberAt_succ_iff {c : Char} {cs digits : List Char} {k : Nat} :
    NumberAt (c :: cs) (k + 1) digits ↔ NumberAt cs k digits :=
  ⟨fun h => ⟨h.ne_nil, h.isDigit, h.at_⟩, fun h => ⟨h.ne_nil, h.isDigit, h.at_⟩⟩

theorem not_numberAt_nil {k : Nat} {digits : List Char} : ¬ NumberAt [] k digits := by
  intro h
  have hat := h.at_
  rw [List.drop_nil, List.prefix_nil] at hat
  cases hat

/-- Where a text begins with a number between colons, it is the run of digits that is
tested. -/
theorem numberAt_zero_iff {c : Char} {cs digits : List Char} :
    NumberAt (c :: cs) 0 digits ↔
      digits = cs.takeWhile Text.isDecimalDigit ∧
        (c = ':' && !(cs.takeWhile Text.isDecimalDigit).isEmpty &&
          (cs.drop (cs.takeWhile Text.isDecimalDigit).length).head? = some ':') = true := by
  simp only [Bool.and_eq_true, decide_eq_true_eq, Bool.not_eq_true', List.isEmpty_eq_false_iff]
  constructor
  · rintro ⟨hne, hdigits, rest, hrest⟩
    rw [List.drop_zero, List.cons_append, List.append_assoc, List.singleton_append] at hrest
    obtain ⟨rfl, rfl⟩ := List.cons.inj hrest
    rw [takeWhile_isDecimalDigit hdigits, List.drop_left]
    exact ⟨rfl, ⟨rfl, hne⟩, rfl⟩
  · rintro ⟨rfl, ⟨rfl, hne⟩, hcolon⟩
    refine ⟨hne, fun d hd => List.mem_takeWhile_imp hd, ?_⟩
    obtain ⟨behind, hbehind⟩ := List.takeWhile_prefix Text.isDecimalDigit (l := cs)
    generalize cs.takeWhile Text.isDecimalDigit = digits at *
    subst hbehind
    rw [List.drop_left] at hcolon
    obtain ⟨rest, rfl⟩ := List.head?_eq_some_iff.mp hcolon
    exact ⟨rest, by simp⟩

theorem firstNumber_cons_iff {c : Char} {cs digits : List Char} :
    FirstNumber (c :: cs) digits ↔
      NumberAt (c :: cs) 0 digits ∨
        (∀ other, ¬ NumberAt (c :: cs) 0 other) ∧ FirstNumber cs digits := by
  constructor
  · rintro ⟨_ | k, hat, hfirst⟩
    · exact .inl hat
    · exact .inr ⟨hfirst 0 (Nat.zero_lt_succ k), k, numberAt_succ_iff.mp hat, fun j hj other h =>
        hfirst (j + 1) (Nat.succ_lt_succ hj) other (numberAt_succ_iff.mpr h)⟩
  · rintro (hat | ⟨hnone, k, hat, hfirst⟩)
    · exact ⟨0, hat, fun j hj => absurd hj (Nat.not_lt_zero j)⟩
    · refine ⟨k + 1, numberAt_succ_iff.mpr hat, fun j hj other h => ?_⟩
      cases j with
      | zero => exact hnone other h
      | succ j => exact hfirst j (Nat.lt_of_succ_lt_succ hj) other (numberAt_succ_iff.mp h)

/-- The search finds the first number between two colons. -/
theorem lineDigits?_eq_some_iff {cs digits : List Char} :
    lineDigits? cs = some digits ↔ FirstNumber cs digits := by
  induction cs with
  | nil => exact iff_of_false nofun fun ⟨_, hat, _⟩ => not_numberAt_nil hat
  | cons c cs ih =>
    rw [firstNumber_cons_iff, ← ih, lineDigits?]
    simp only [numberAt_zero_iff]
    split
    · rename_i h
      simp only [h, and_true, Option.some_inj]
      rw [eq_comm]
      simp
    · rename_i h
      simp only [h, Bool.false_eq_true, and_false, false_or, not_false_eq_true, implies_true,
        true_and]

theorem lineDigits?_eq_none_iff {cs : List Char} :
    lineDigits? cs = none ↔ ∀ digits, ¬ FirstNumber cs digits := by
  rw [Option.eq_none_iff_forall_ne_some]
  simp only [ne_eq, lineDigits?_eq_some_iff]

/-- A colon ends the digits in front of it, whatever is behind it. -/
theorem takeWhile_isDecimalDigit_append (cs rest : List Char) :
    (cs ++ ':' :: rest).takeWhile Text.isDecimalDigit = cs.takeWhile Text.isDecimalDigit := by
  rw [List.takeWhile_append, List.takeWhile_cons_of_neg (by decide)]
  split
  · rename_i hall
    rw [List.append_nil, (List.takeWhile_prefix _).eq_of_length hall]
  · rfl

/-- A number that a text holds up to a colon is the first; if there is none, the first
number stands from that colon on. -/
theorem lineDigits?_append (front rest : List Char) :
    lineDigits? (front ++ ':' :: rest) =
      (lineDigits? (front ++ [':'])).or (lineDigits? (':' :: rest)) := by
  induction front with
  | nil => rfl
  | cons c cs ih =>
    -- what is tested for a number behind `c` ends at the colon at the latest
    have hrun (rest : List Char) :
        ((cs ++ ':' :: rest).drop (cs.takeWhile Text.isDecimalDigit).length).head? =
          (cs.drop (cs.takeWhile Text.isDecimalDigit).length).head?.or (some ':') := by
      rw [List.drop_append_of_le_length (List.takeWhile_prefix _).length_le, List.head?_append]
      rfl
    simp only [List.cons_append, lineDigits?, takeWhile_isDecimalDigit_append, hrun, ih]
    split <;> rfl

/-- A number in front of a text, between colons, is its first. -/
theorem lineDigits?_number {digits : List Char} (hne : digits ≠ [])
    (h : ∀ c ∈ digits, Text.isDecimalDigit c = true) (rest : List Char) :
    lineDigits? (':' :: (digits ++ ':' :: rest)) = some digits := by
  rw [lineDigits?_eq_some_iff]
  exact ⟨0, ⟨hne, h, rest, by simp⟩, fun j hj => absurd hj (Nat.not_lt_zero j)⟩

/-! ## The name in a text -/

/-- What stands behind the first occurrence of a part in a text. -/
def FirstBehind (part cs rest : List Char) : Prop :=
  ∃ k, cs.drop k = part ++ rest ∧ ∀ j < k, ¬ part <+: cs.drop j

theorem behind?_eq_some_iff {part cs rest : List Char} (hne : part ≠ []) :
    behind? part cs = some rest ↔ FirstBehind part cs rest := by
  induction cs with
  | nil =>
    rw [behind?, if_neg (by simpa using hne)]
    refine iff_of_false nofun fun ⟨k, hk, _⟩ => ?_
    rw [List.drop_nil] at hk
    exact hne (List.append_eq_nil_iff.mp hk.symm).1
  | cons c cs ih =>
    rw [behind?]
    split
    · rename_i hprefix
      rw [List.isPrefixOf_iff_prefix] at hprefix
      obtain ⟨behind, hbehind⟩ := hprefix
      constructor
      · intro h
        refine ⟨0, ?_, fun j hj => absurd hj (Nat.not_lt_zero j)⟩
        rw [← Option.some.inj h, ← hbehind, List.drop_left, List.drop_zero]
      · rintro ⟨_ | k, hk, hfirst⟩
        · rw [List.drop_zero] at hk
          rw [hk, List.drop_left]
        · exact absurd ⟨behind, hbehind⟩ (hfirst 0 (Nat.zero_lt_succ k))
    · rename_i hprefix
      rw [List.isPrefixOf_iff_prefix] at hprefix
      rw [ih]
      constructor
      · rintro ⟨k, hk, hfirst⟩
        refine ⟨k + 1, hk, fun j hj => ?_⟩
        cases j with
        | zero => exact hprefix
        | succ j => exact hfirst j (Nat.lt_of_succ_lt_succ hj)
      · rintro ⟨_ | k, hk, hfirst⟩
        · exact absurd ⟨rest, hk.symm⟩ hprefix
        · exact ⟨k, hk, fun j hj => hfirst (j + 1) (Nat.succ_lt_succ hj)⟩

theorem behind?_eq_none {part cs : List Char} (hne : part ≠ []) (h : ¬ part <:+: cs) :
    behind? part cs = none := by
  rw [Option.eq_none_iff_forall_ne_some]
  intro rest hrest
  obtain ⟨k, hk, -⟩ := (behind?_eq_some_iff hne).mp hrest
  exact h (List.infix_iff_prefix_suffix.mpr ⟨cs.drop k, ⟨rest, hk.symm⟩, List.drop_suffix k cs⟩)

/-! ## The text of a diagnostic -/

/-- The text of a diagnostic in a chunk, as characters. -/
def messageChars (chunk : String) (line : Nat) (text : Bytes) : List Char :=
  (Utf8.decodeLossy (LoadError.message (shownName chunk) (.malformed ⟨line, text⟩))).toList

/-- The name of a chunk as it is shown in a diagnostic, as characters. -/
def shownChars (chunk : String) : List Char := (Utf8.decodeLossy (shownName chunk)).toList

theorem shownName_eq {chunk : String} (h : (Utf8.encode chunk).length ≤ longestName) :
    shownName chunk = Utf8.encode chunk := List.take_of_length_le h

/-- The name is followed by the line between two colons, and that by the text. -/
theorem messageChars_eq (chunk : String) (line : Nat) (text : Bytes) :
    messageChars chunk line text =
      shownChars chunk ++ ':' :: (Decimal.digits line ++ ':' :: ' ' ::
        (Utf8.decodeLossy text).toList) := by
  have hline : Utf8.encode (":" ++ toString line ++ ": ") =
      58 :: (Utf8.encode (toString line) ++ [58, 32]) := by
    rw [Utf8.encode_append, Utf8.encode_append]
    rfl
  have hdigits : (toString line).toList = Decimal.digits line := by
    rw [Nat.toString_eq_repr, Nat.toList_repr]
    rfl
  have hmessage : LoadError.message (shownName chunk) (.malformed ⟨line, text⟩) =
      shownName chunk ++ 58 :: (Utf8.encode (toString line) ++ 58 :: ([] ++ 32 :: text)) := by
    rw [LoadError.message, hline]
    simp
  unfold messageChars shownChars
  rw [hmessage, Utf8.toList_decodeLossy_append_ascii (by decide),
    Utf8.toList_decodeLossy_append_ascii (by decide),
    Utf8.toList_decodeLossy_append_ascii (by decide), Utf8.decodeLossy_encode, hdigits]
  rfl

/-! ## The line that is told -/

/-- The line that a number stands for; one where it is none that can be read. -/
def lineOf (digits : List Char) : Nat := (Decimal.readUpTo? largestLine digits).getD 1

theorem lineOf_digits {line : Nat} (h : line ≤ largestLine) :
    lineOf (Decimal.digits line) = line := by
  have hread : Decimal.readUpTo? largestLine (Decimal.digits line) = some line :=
    Decimal.readUpTo?_eq_some_iff.mpr
      ⟨_, .inl rfl, Decimal.isNumeral_digits line, Decimal.value_digits line, h⟩
  rw [lineOf, hread]
  rfl

theorem lineDigits?_line (line : Nat) (rest : List Char) :
    lineDigits? (':' :: (Decimal.digits line ++ ':' :: rest)) = some (Decimal.digits line) :=
  lineDigits?_number (Decimal.digits_ne_nil line)
    (fun _ h => Text.isDecimalDigit_of_isDigit (Decimal.isDigit_of_mem_digits h)) rest

/-- The line that is told, for the text that is searched. -/
def toldLine (searched : List Char) : Nat := ((lineDigits? searched).map lineOf).getD 1

theorem toldLine_eq_iff {searched : List Char} {line : Nat} :
    toldLine searched = line ↔
      (∃ digits, FirstNumber searched digits ∧ lineOf digits = line) ∨
        (∀ digits, ¬ FirstNumber searched digits) ∧ line = 1 := by
  unfold toldLine
  rw [← lineDigits?_eq_none_iff]
  simp only [← lineDigits?_eq_some_iff]
  cases lineDigits? searched with
  | none => simp [eq_comm]
  | some digits => simp

/-- The line of a diagnostic is the one that is told of it. -/
def TellsLine (code chunk : String) (line : Nat) (text : Bytes) : Prop :=
  loadError code chunk (.malformed ⟨line, text⟩) = .badCode line none (Text.trim code)

section Told

variable {code chunk : String} {line : Nat} {text : Bytes}

theorem codeLine_eq (text : String) :
    codeLine text chunk =
      toldLine (match behind? (chunk.toList ++ [':']) text.toList with
        | some rest => ':' :: rest
        | none => text.toList) := by
  have htold (searched : List Char) :
      ((lineDigits? searched).bind (Decimal.readUpTo? largestLine)).getD 1 =
        toldLine searched := by
    unfold toldLine
    cases lineDigits? searched <;> rfl
  exact htold _

theorem loadError_malformed :
    loadError code chunk (.malformed ⟨line, text⟩) =
      .badCode
        (toldLine (match behind? (chunk.toList ++ [':']) (messageChars chunk line text) with
          | some rest => ':' :: rest
          | none => messageChars chunk line text))
        none (Text.trim code) := by
  rw [loadError, codeLine_eq, messageChars]

/-- Of code that cannot be read, the line of the diagnostic is the one that is told. -/
theorem read_eq_badCode_iff
    (h : Chunk.read (shownName chunk) (Utf8.encode code) 0 = .error (.malformed ⟨line, text⟩)) :
    read code chunk = .error (.badCode line none (Text.trim code)) ↔
      TellsLine code chunk line text := by
  rw [read, h, TellsLine]
  exact ⟨Except.error.inj, congrArg Except.error⟩

/-- Behind the name, if it is in the text, the first number is the line that is told. -/
theorem tellsLine_iff_of_firstBehind {rest : List Char}
    (h : FirstBehind (chunk.toList ++ [':']) (messageChars chunk line text) rest) :
    TellsLine code chunk line text ↔ toldLine (':' :: rest) = line := by
  rw [TellsLine, loadError_malformed, (behind?_eq_some_iff (by simp)).mpr h]
  simp

/-- If the name is not in the text, it is a number in what is shown of the name, or else
the line of the diagnostic. -/
theorem tellsLine_iff_of_not_infix (hline : line ≤ largestLine)
    (h : ¬ chunk.toList ++ [':'] <:+: messageChars chunk line text) :
    TellsLine code chunk line text ↔
      ∀ digits, FirstNumber (shownChars chunk ++ [':']) digits → lineOf digits = line := by
  rw [TellsLine, loadError_malformed, behind?_eq_none (by simp) h]
  simp only [EvalError.badCode.injEq, and_true, toldLine]
  rw [messageChars_eq, lineDigits?_append, lineDigits?_line]
  simp only [← lineDigits?_eq_some_iff]
  cases lineDigits? (shownChars chunk ++ [':']) with
  | none => simp [lineOf_digits hline]
  | some digits => simp

/-- A name that is shown in full is found in front of the line. -/
theorem firstBehind_of_short (h : (Utf8.encode chunk).length ≤ longestName) :
    FirstBehind (chunk.toList ++ [':']) (messageChars chunk line text)
      (Decimal.digits line ++ ':' :: ' ' :: (Utf8.decodeLossy text).toList) := by
  refine ⟨0, ?_, fun j hj => absurd hj (Nat.not_lt_zero j)⟩
  rw [messageChars_eq, shownChars, shownName_eq h, Utf8.decodeLossy_encode]
  simp

theorem tellsLine_of_short (hline : line ≤ largestLine)
    (h : (Utf8.encode chunk).length ≤ longestName) : TellsLine code chunk line text := by
  rw [tellsLine_iff_of_firstBehind (firstBehind_of_short h), toldLine, lineDigits?_line,
    Option.map_some, Option.getD_some, lineOf_digits hline]

end Told

/-- In a chunk whose name is shown in full, the line that is told is that of the
diagnostic, whatever the name and the text hold. Of a longer name that is not in the text,
it is so exactly if no number stands between colons in what is shown of the name, up to the
colon behind it, or if the first that does is the line by chance. Where the text happens to
hold all of a longer name, the first number behind its first occurrence decides, and one
stands for none. -/
theorem badCode_line (code chunk : String) {line : Nat} (hline : line ≤ largestLine)
    (text : Bytes) :
    ((Utf8.encode chunk).length ≤ longestName → TellsLine code chunk line text) ∧
      (longestName < (Utf8.encode chunk).length →
        ¬ chunk.toList ++ [':'] <:+: messageChars chunk line text →
        (TellsLine code chunk line text ↔
          ∀ digits, FirstNumber (shownChars chunk ++ [':']) digits → lineOf digits = line)) ∧
      (longestName < (Utf8.encode chunk).length → ∀ rest,
        FirstBehind (chunk.toList ++ [':']) (messageChars chunk line text) rest →
        (TellsLine code chunk line text ↔
          (∃ digits, FirstNumber (':' :: rest) digits ∧ lineOf digits = line) ∨
            (∀ digits, ¬ FirstNumber (':' :: rest) digits) ∧ line = 1)) := by
  refine ⟨tellsLine_of_short hline, fun _ hname => tellsLine_iff_of_not_infix hline hname, ?_⟩
  intro _ rest hrest
  rw [tellsLine_iff_of_firstBehind hrest, toldLine_eq_iff]

/-- A name of 57 letters, of which a colon and one digit more are shown. -/
def longTag : String := "aaaaaaaaaaaaaaaaaaaaaaaaaaaaaaaaaaaaaaaaaaaaaaaaaaaaaaaaa"

/-- In a chunk `a:12` the line of a diagnostic is told; with the long name in front it is
not, because the number 12 is cut to a one. -/
theorem badCode_line_longTag :
    2 ≤ largestLine ∧ (Utf8.encode "a:12").length ≤ longestName ∧ TellsLine "" "a:12" 2 [] ∧
      longestName < (Utf8.encode (longTag ++ ":12")).length ∧
      ¬ TellsLine "" (longTag ++ ":12") 2 [] := by
  have hline : 2 ≤ largestLine := by decide +kernel
  have hshort : (Utf8.encode "a:12").length ≤ longestName := by decide +kernel
  have hlong : longestName < (Utf8.encode (longTag ++ ":12")).length := by decide +kernel
  have hname : ¬ (longTag ++ ":12").toList ++ [':'] <:+:
      messageChars (longTag ++ ":12") 2 [] := by decide +kernel
  have hfirst : FirstNumber (shownChars (longTag ++ ":12") ++ [':']) ['1'] :=
    lineDigits?_eq_some_iff.mp (by decide +kernel)
  refine ⟨hline, hshort, (badCode_line "" "a:12" hline []).1 hshort, hlong, fun htells => ?_⟩
  have hone := ((badCode_line "" (longTag ++ ":12") hline []).2.1 hlong hname).mp htells _ hfirst
  exact absurd hone (by decide +kernel)

/-- With the long name in front, the number 12 is cut to a one, and the diagnostic of the
second line is told of the first. -/
theorem read_longTag :
    errorOf? (Chunk.read (shownName (longTag ++ ":12")) (Utf8.encode "x = 1\ny = = 2") 0) =
        some (.malformed ⟨2, Utf8.encode "unexpected symbol near '='"⟩) ∧
      errorOf? (read "x = 1\ny = = 2" (longTag ++ ":12")) =
        some (.badCode 1 none "x = 1\ny = = 2") := by
  decide +kernel

end ScpiScript.Lua.Machine
