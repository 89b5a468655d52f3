import Mathlib.Algebra.Group.Nat.Defs
import Mathlib.Tactic.SplitIfs
import ScpiScript.Text.Utf8
/-!
# Reading texts around ASCII bytes

A byte below the multi-byte range is a character of its own wherever it stands: a longer
sequence in progress ends before it as a gap, and no longer sequence gives its character.

- `decode?_append_ascii` cuts a byte string at an ASCII byte.
- `mem_of_mem_decode?`: an ASCII character is read only from its own byte.
-/

namespace ScpiScript.Utf8

/-- A sequence in progress that no ASCII byte continues, and whose character, once it is
complete, is no ASCII character. -/
structure Pending.Wide (p : Pending) : Prop where
  lo : 0x80 ≤ p.lo
  hi : p.hi ≤ 0xBF
  value : 0x80 ≤ (p.value * 0x40 + p.lo % 0x40) * 0x40 ^ (p.missing - 1)

theorem Pending.wide_ofLead? {lead : UInt8} {p : Pending} (h : ofLead? lead = some p) :
    p.Wide := by
  unfold ofLead? at h
  simp only [Bool.and_eq_true, decide_eq_true_eq] at h
  split_ifs at h
  all_goals
    obtain rfl := Option.some.inj h
    refine ⟨?_, ?_, ?_⟩ <;> dsimp only <;> omega

/-- The sequence in progress between two bytes, if there is one, is wide. -/
def WideState (state : Option Pending) : Prop := ∀ p ∈ state, p.Wide

theorem wideState_none : WideState none := fun _ h => by cases h

theorem wideState_begin (b : UInt8) : WideState (begin b).2 := by
  unfold begin
  split
  · exact wideState_none
  · split
    · rename_i p hlead
      rintro _ ⟨⟩
      exact Pending.wide_ofLead? hlead
    · exact wideState_none

/-- One more byte of a wide sequence only makes its character larger. -/
theorem Pending.Wide.le_value {p : Pending} (h : p.Wide) {n : Nat} (hlo : p.lo ≤ n)
    (hhi : n ≤ p.hi) : 0x80 ≤ (p.value * 0x40 + n % 0x40) * 0x40 ^ (p.missing - 1) := by
  have hbits : p.lo % 0x40 ≤ n % 0x40 := by
    have hlow := h.lo
    have hhigh := h.hi
    omega
  exact Nat.le_trans h.value (Nat.mul_le_mul_right _ (Nat.add_le_add_left hbits _))

theorem wideState_step {state : Option Pending} (h : WideState state) (b : UInt8) :
    WideState (step state b).2 := by
  cases state with
  | none => exact wideState_begin b
  | some p =>
    have hp : p.Wide := h p rfl
    simp only [step, Bool.and_eq_true, decide_eq_true_eq]
    split
    · rename_i hbounds
      split
      · exact wideState_none
      · rename_i hmissing
        rintro _ ⟨⟩
        refine ⟨Nat.le_refl _, Nat.le_refl _, ?_⟩
        have hvalue := hp.le_value hbounds.1 hbounds.2
        obtain ⟨k, hk⟩ : ∃ k, p.missing = k + 2 := ⟨p.missing - 2, by omega⟩
        dsimp only
        rw [hk, show k + 2 - 1 - 1 = k from rfl]
        rw [hk, show k + 2 - 1 = k + 1 from rfl, Nat.pow_succ] at hvalue
        calc 0x80 ≤ (p.value * 0x40 + b.toNat % 0x40) * (0x40 ^ k * 0x40) := hvalue
          _ = ((p.value * 0x40 + b.toNat % 0x40) * 0x40 + 0x80 % 0x40) * 0x40 ^ k := by
            rw [Nat.mul_comm (0x40 ^ k), ← Nat.mul_assoc]
            rfl
    · exact wideState_begin b

theorem scanFrom_cons (state : Option Pending) (b : UInt8) (rest : Bytes) :
    scanFrom state (b :: rest) = (step state b).1 ++ scanFrom (step state b).2 rest := by
  cases state <;> rfl

theorem begin_ascii {b : UInt8} (h : b.toNat < 0x80) :
    begin b = ([.char (Char.ofNat b.toNat)], none) := by
  rw [begin, if_pos h]

/-- An ASCII byte is a character, behind the gap that a sequence in progress leaves. -/
theorem scanFrom_append_ascii {b : UInt8} (hb : b.toNat < 0x80) (front rest : Bytes)
    {state : Option Pending} (hstate : WideState state) :
    scanFrom state (front ++ b :: rest) =
      scanFrom state front ++ .char (Char.ofNat b.toNat) :: scan rest := by
  induction front generalizing state with
  | nil =>
    rw [List.nil_append, scanFrom_cons]
    cases state with
    | none =>
      rw [step, begin_ascii hb]
      rfl
    | some p =>
      have hlo := (hstate p rfl).lo
      have hout : ¬ (p.lo ≤ b.toNat && b.toNat ≤ p.hi) = true := by
        simp only [Bool.and_eq_true, decide_eq_true_eq]
        omega
      rw [step, if_neg hout, begin_ascii hb]
      rfl
  | cons c front ih =>
    rw [List.cons_append, scanFrom_cons, scanFrom_cons, ih (wideState_step hstate c),
      List.append_assoc]

theorem scan_append_ascii {b : UInt8} (hb : b.toNat < 0x80) (front rest : Bytes) :
    scan (front ++ b :: rest) = scan front ++ .char (Char.ofNat b.toNat) :: scan rest :=
  scanFrom_append_ascii hb front rest wideState_none

/-- The text before an ASCII byte and the text after it are read apart. -/
theorem decode?_append_ascii {b : UInt8} (hb : b.toNat < 0x80) (front rest : Bytes) :
    decode? (front ++ b :: rest) =
      (decode? front).bind fun before =>
        (decode? rest).map fun after => before ++ String.ofList [Char.ofNat b.toNat] ++ after := by
  unfold decode?
  rw [scan_append_ascii hb, List.mapM_append, List.mapM_cons]
  cases (scan front).mapM Piece.toChar? with
  | none => rfl
  | some before =>
    cases (scan rest).mapM Piece.toChar? with
    | none => rfl
    | some after =>
      show some (String.ofList (before ++ Char.ofNat b.toNat :: after)) = some _
      rw [List.append_cons, String.ofList_append, String.ofList_append]

/-- Read leniently, the two texts stand around the character as well. -/
theorem toList_decodeLossy_append_ascii {b : UInt8} (hb : b.toNat < 0x80) (front rest : Bytes) :
    (decodeLossy (front ++ b :: rest)).toList =
      (decodeLossy front).toList ++ Char.ofNat b.toNat :: (decodeLossy rest).toList := by
  simp only [decodeLossy, String.toList_ofList]
  rw [scan_append_ascii hb, List.map_append, List.map_cons]
  rfl

/-! ## ASCII characters -/

theorem toNat_ofNat_lt {n : Nat} (h : n < 0x80) : (Char.ofNat n).toNat = n := by
  have hvalid : n.isValidChar := .inl (by omega)
  rw [Char.ofNat, dif_pos hvalid]
  rfl

/-- An ASCII character, zero aside, comes from no code beyond its range. -/
theorem lt_of_toNat_ofNat_lt {n : Nat} (hpos : 0 < (Char.ofNat n).toNat)
    (h : (Char.ofNat n).toNat < 0x80) : n < 0x80 := by
  by_cases hvalid : n.isValidChar
  · rw [Char.ofNat, dif_pos hvalid] at h
    exact h
  · rw [Char.ofNat, dif_neg hvalid] at hpos
    exact absurd hpos (by decide)

theorem eq_of_char_mem_begin {b : UInt8} {c : Char} (h : .char c ∈ (begin b).1) :
    c.toNat = b.toNat := by
  unfold begin at h
  split at h
  · rename_i hb
    obtain rfl : c = Char.ofNat b.toNat := by simpa using h
    exact toNat_ofNat_lt hb
  · split at h
    · cases h
    · simp at h

/-- An ASCII character is completed only by its own byte. -/
theorem eq_of_char_mem_step {state : Option Pending} (hstate : WideState state) {b : UInt8}
    {c : Char} (hpos : 0 < c.toNat) (hascii : c.toNat < 0x80) (h : .char c ∈ (step state b).1) :
    c.toNat = b.toNat := by
  cases state with
  | none => exact eq_of_char_mem_begin h
  | some p =>
    simp only [step, Bool.and_eq_true, decide_eq_true_eq] at h
    split at h
    · rename_i hbounds
      split at h
      · rename_i hmissing
        -- the last byte of a longer sequence
        obtain rfl : c = Char.ofNat (p.value * 0x40 + b.toNat % 0x40) := by simpa using h
        have hvalue := (hstate p rfl).le_value hbounds.1 hbounds.2
        rw [show p.missing - 1 = 0 by omega, Nat.pow_zero, Nat.mul_one] at hvalue
        have hsmall := lt_of_toNat_ofNat_lt hpos hascii
        omega
      · cases h
    · obtain h | h := List.mem_cons.mp h
      · cases h
      · exact eq_of_char_mem_begin h

theorem mem_of_char_mem_scanFrom {state : Option Pending} (hstate : WideState state)
    {bytes : Bytes} {c : Char} (hpos : 0 < c.toNat) (hascii : c.toNat < 0x80)
    (h : .char c ∈ scanFrom state bytes) : UInt8.ofNat c.toNat ∈ bytes := by
  induction bytes generalizing state with
  | nil => cases state <;> simp [scanFrom] at h
  | cons b rest ih =>
    rw [scanFrom_cons, List.mem_append] at h
    rcases h with h | h
    · rw [eq_of_char_mem_step hstate hpos hascii h, UInt8.ofNat_toNat]
      exact List.mem_cons_self
    · exact List.mem_cons_of_mem _ (ih (wideState_step hstate b) h)

theorem eq_map_char_of_mapM {pieces : List Piece} {cs : List Char}
    (h : pieces.mapM Piece.toChar? = some cs) : pieces = cs.map Piece.char := by
  induction pieces generalizing cs with
  | nil =>
    obtain rfl := Option.some.inj h
    rfl
  | cons piece rest ih =>
    rw [List.mapM_cons] at h
    cases piece with
    | gap => cases h
    | char c =>
      rcases hrest : rest.mapM Piece.toChar? with _ | tail
      · rw [hrest] at h
        cases h
      · rw [hrest] at h
        obtain rfl := Option.some.inj h
        rw [ih hrest, List.map_cons]

/-- An ASCII character of a text is one of its bytes. -/
theorem mem_of_mem_decode? {bytes : Bytes} {text : String} {c : Char} (hpos : 0 < c.toNat)
    (hascii : c.toNat < 0x80) (htext : decode? bytes = some text) (h : c ∈ text.toList) :
    UInt8.ofNat c.toNat ∈ bytes := by
  obtain ⟨cs, hcs, rfl⟩ := Option.map_eq_some_iff.mp htext
  rw [String.toList_ofList] at h
  refine mem_of_char_mem_scanFrom wideState_none hpos hascii ?_
  show .char c ∈ scan bytes
  rw [eq_map_char_of_mapM hcs]
  exact List.mem_map_of_mem h

end ScpiScript.Utf8
