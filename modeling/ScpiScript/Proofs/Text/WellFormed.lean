import ScpiScript.Proofs.Text.Decoding
import ScpiScript.Proofs.Text.Encoding
import ScpiScript.Proofs.Text.RoundTrip
/-!
# What can be read is an encoding

The strict reading takes a byte string exactly if it encodes a text, and then gives that text.
So "not UTF-8" can be said without a word of how bytes are read.

- `exists_inside`: a byte that leaves no gap continues the sequence in progress.
- `exists_utf8EncodeChar`: bytes without a gap begin with the bytes of a character, with one
  case for each length of a sequence.
- `decode?_eq_some_iff` is the statement for texts.
-/

namespace ScpiScript.Utf8

/-! ## Bytes without a gap -/

theorem exists_ofNat (b : UInt8) : ∃ n < 256, b = UInt8.ofNat n :=
  ⟨b.toNat, b.toNat_lt, UInt8.ofNat_toNat.symm⟩

theorem ofLead?_none : ∀ n < 256, 0x80 ≤ n → n < 0xC2 ∨ 0xF4 < n →
    Pending.ofLead? (UInt8.ofNat n) = none := by
  decide +kernel

/-- What follows a sequence in progress without a gap is a byte that continues it. -/
theorem exists_inside {p : Pending} {bytes : Bytes} (h : .gap ∉ scanFrom (some p) bytes) :
    ∃ n rest, bytes = UInt8.ofNat n :: rest ∧ n < 256 ∧ p.lo ≤ n ∧ n ≤ p.hi := by
  rcases bytes with _ | ⟨b, rest⟩
  · exact absurd List.mem_cons_self h
  obtain ⟨n, hn, rfl⟩ := exists_ofNat b
  by_cases hbounds : p.lo ≤ n ∧ n ≤ p.hi
  · exact ⟨n, rest, rfl, hn, hbounds⟩
  · have hout : ¬ (p.lo ≤ (UInt8.ofNat n).toNat && (UInt8.ofNat n).toNat ≤ p.hi) = true := by
      rw [toNat_ofNat hn, Bool.and_eq_true, decide_eq_true_eq, decide_eq_true_eq]
      exact hbounds
    rw [scanFrom, step, if_neg hout] at h
    exact absurd List.mem_cons_self h

/-! ## The characters of sequences -/

theorem val_ofNat {n : Nat} (h : n < 0xD800 ∨ 0xDFFF < n ∧ n < 0x110000) :
    (Char.ofNat n).val.toNat = n := by
  have hvalid : n.isValidChar := h
  rw [Char.ofNat, dif_pos hvalid]
  rfl

section Sequence

variable {n₁ n₂ n₃ n₄ : Nat}

theorem utf8EncodeChar_two (h₁ : 0xC2 ≤ n₁ ∧ n₁ ≤ 0xDF) (h₂ : 0x80 ≤ n₂ ∧ n₂ ≤ 0xBF) :
    String.utf8EncodeChar (Char.ofNat (n₁ % 0x20 * 0x40 + n₂ % 0x40)) =
      [UInt8.ofNat n₁, UInt8.ofNat n₂] := by
  unfold String.utf8EncodeChar
  rw [val_ofNat (by omega)]
  generalize hcode : n₁ % 0x20 * 0x40 + n₂ % 0x40 = code
  dsimp only
  rw [if_neg (by omega), if_pos (by omega), show code / 64 % 32 + 192 = n₁ by omega,
    show code % 64 + 128 = n₂ by omega]

/-- The narrowed bounds keep out what two bytes can write, and surrogates. -/
theorem utf8EncodeChar_three (h₁ : 0xE0 ≤ n₁ ∧ n₁ ≤ 0xEF)
    (h₂ : (if n₁ = 0xE0 then 0xA0 else 0x80) ≤ n₂ ∧ n₂ ≤ if n₁ = 0xED then 0x9F else 0xBF)
    (h₃ : 0x80 ≤ n₃ ∧ n₃ ≤ 0xBF) :
    String.utf8EncodeChar
        (Char.ofNat ((n₁ % 0x10 * 0x40 + n₂ % 0x40) * 0x40 + n₃ % 0x40)) =
      [UInt8.ofNat n₁, UInt8.ofNat n₂, UInt8.ofNat n₃] := by
  have hlow : 0x80 ≤ n₂ ∧ n₂ ≤ 0xBF ∧ (n₁ = 0xE0 → 0xA0 ≤ n₂) ∧ (n₁ = 0xED → n₂ ≤ 0x9F) := by
    split at h₂ <;> split at h₂ <;> omega
  unfold String.utf8EncodeChar
  rw [val_ofNat (by omega)]
  generalize hcode : (n₁ % 0x10 * 0x40 + n₂ % 0x40) * 0x40 + n₃ % 0x40 = code
  dsimp only
  rw [if_neg (by omega), if_neg (by omega), if_pos (by omega),
    show code / 4096 % 16 + 224 = n₁ by omega, show code / 64 % 64 + 128 = n₂ by omega,
    show code % 64 + 128 = n₃ by omega]

/-- The narrowed bounds keep out what three bytes can write, and numbers too large. -/
theorem utf8EncodeChar_four (h₁ : 0xF0 ≤ n₁ ∧ n₁ ≤ 0xF4)
    (h₂ : (if n₁ = 0xF0 then 0x90 else 0x80) ≤ n₂ ∧ n₂ ≤ if n₁ = 0xF4 then 0x8F else 0xBF)
    (h₃ : 0x80 ≤ n₃ ∧ n₃ ≤ 0xBF) (h₄ : 0x80 ≤ n₄ ∧ n₄ ≤ 0xBF) :
    String.utf8EncodeChar (Char.ofNat
        (((n₁ % 0x08 * 0x40 + n₂ % 0x40) * 0x40 + n₃ % 0x40) * 0x40 + n₄ % 0x40)) =
      [UInt8.ofNat n₁, UInt8.ofNat n₂, UInt8.ofNat n₃, UInt8.ofNat n₄] := by
  have hlow : 0x80 ≤ n₂ ∧ n₂ ≤ 0xBF ∧ (n₁ = 0xF0 → 0x90 ≤ n₂) ∧ (n₁ = 0xF4 → n₂ ≤ 0x8F) := by
    split at h₂ <;> split at h₂ <;> omega
  unfold String.utf8EncodeChar
  rw [val_ofNat (by omega)]
  generalize hcode : ((n₁ % 0x08 * 0x40 + n₂ % 0x40) * 0x40 + n₃ % 0x40) * 0x40 + n₄ % 0x40 = code
  dsimp only
  rw [if_neg (by omega), if_neg (by omega), if_neg (by omega),
    show code / 262144 % 8 + 240 = n₁ by omega, show code / 4096 % 64 + 128 = n₂ by omega,
    show code / 64 % 64 + 128 = n₃ by omega, show code % 64 + 128 = n₄ by omega]

end Sequence

/-- Bytes that are read without a gap begin with the bytes of a character. -/
theorem exists_utf8EncodeChar {bytes : Bytes} (hne : bytes ≠ [])
    (h : .gap ∉ scanFrom none bytes) : ∃ c rest, bytes = String.utf8EncodeChar c ++ rest := by
  obtain ⟨b, rest, rfl⟩ := List.exists_cons_of_ne_nil hne
  obtain ⟨n₁, hn₁, rfl⟩ := exists_ofNat b
  by_cases hascii : n₁ < 0x80
  · have hcode : (Char.ofNat n₁).toNat = n₁ := toNat_ofNat_lt hascii
    refine ⟨Char.ofNat n₁, rest, ?_⟩
    rw [utf8EncodeChar_ascii (by rwa [hcode]), hcode]
    rfl
  have hwide : 0x80 ≤ n₁ := Nat.le_of_not_lt hascii
  by_cases hnone : n₁ < 0xC2 ∨ 0xF4 < n₁
  · rw [scanFrom, step, begin, toNat_ofNat hn₁, if_neg hascii, ofLead?_none n₁ hn₁ hwide hnone]
      at h
    exact absurd List.mem_cons_self h
  by_cases htwo : n₁ ≤ 0xDF
  · rw [scanFrom_lead hwide hn₁ (ofLead?_two n₁ hn₁ (by omega) htwo)] at h
    obtain ⟨n₂, rest, rfl, hn₂, hlo, hhi⟩ := exists_inside h
    exact ⟨_, rest, by rw [utf8EncodeChar_two ⟨by omega, htwo⟩ ⟨hlo, hhi⟩]; rfl⟩
  by_cases hthree : n₁ ≤ 0xEF
  · rw [scanFrom_lead hwide hn₁ (ofLead?_three n₁ hn₁ (by omega) hthree)] at h
    obtain ⟨n₂, rest, rfl, hn₂, h₂⟩ := exists_inside h
    rw [scanFrom_next h₂.1 h₂.2 hn₂] at h
    obtain ⟨n₃, rest, rfl, hn₃, h₃⟩ := exists_inside h
    exact ⟨_, rest, by rw [utf8EncodeChar_three ⟨by omega, hthree⟩ h₂ h₃]; rfl⟩
  · rw [scanFrom_lead hwide hn₁ (ofLead?_four n₁ hn₁ (by omega) (by omega))] at h
    obtain ⟨n₂, rest, rfl, hn₂, h₂⟩ := exists_inside h
    rw [scanFrom_next h₂.1 h₂.2 hn₂] at h
    obtain ⟨n₃, rest, rfl, hn₃, h₃⟩ := exists_inside h
    rw [scanFrom_next h₃.1 h₃.2 hn₃] at h
    obtain ⟨n₄, rest, rfl, hn₄, h₄⟩ := exists_inside h
    exact ⟨_, rest, by rw [utf8EncodeChar_four ⟨by omega, by omega⟩ h₂ h₃ h₄]; rfl⟩

/-! ## Texts -/

theorem exists_encode_of_gapless {bytes : Bytes} (h : .gap ∉ scanFrom none bytes) :
    ∃ text, encode text = bytes := by
  -- by the number of bytes, of which each character takes some
  induction hlength : bytes.length using Nat.strongRecOn generalizing bytes with
  | ind k ih =>
    by_cases hne : bytes = []
    · exact ⟨"", hne.symm⟩
    obtain ⟨c, rest, rfl⟩ := exists_utf8EncodeChar hne h
    rw [scanFrom_utf8EncodeChar] at h
    have hpos := List.length_pos_iff.mpr (String.utf8EncodeChar_ne_nil (c := c))
    rw [List.length_append] at hlength
    obtain ⟨text, rfl⟩ := ih rest.length (by omega) (fun hgap => h (.tail _ hgap)) rfl
    refine ⟨String.ofList (c :: text.toList), ?_⟩
    rw [encode_cons, String.ofList_toList]

/-- The strict reading takes the encodings of texts and nothing else. -/
theorem decode?_eq_some_iff {bytes : Bytes} {text : String} :
    decode? bytes = some text ↔ encode text = bytes := by
  constructor
  · intro h
    have hgapless : .gap ∉ scanFrom none bytes := by
      obtain ⟨cs, hcs, -⟩ := Option.map_eq_some_iff.mp h
      rw [show scanFrom none bytes = cs.map .char from eq_map_char_of_mapM hcs]
      intro hgap
      obtain ⟨c, -, hc⟩ := List.mem_map.mp hgap
      cases hc
    obtain ⟨text', rfl⟩ := exists_encode_of_gapless hgapless
    rw [decode?_encode] at h
    rw [Option.some.inj h]
  · rintro rfl
    exact decode?_encode text

end ScpiScript.Utf8
