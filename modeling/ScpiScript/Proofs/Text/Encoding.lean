import ScpiScript.Text.Utf8
/-!
# Bytes of a text

A byte below the multi-byte range stands in the encoding of a text only for the
character it encodes, and a text of such characters is their numbers: `encode_ascii`.
-/

namespace ScpiScript.Utf8

theorem encode_cons (c : Char) (cs : List Char) :
    encode (String.ofList (c :: cs)) = String.utf8EncodeChar c ++ encode (String.ofList cs) := by
  simp [encode]

/-- The line feed is the only character whose encoding is the line feed byte. -/
theorem eq_lineFeed_of_utf8EncodeChar {c : Char} (h : String.utf8EncodeChar c = [10]) :
    c = '\n' := by
  have hsize : c.utf8Size = 1 := by
    rw [← String.length_utf8EncodeChar, h]
    rfl
  rw [String.utf8EncodeChar_eq_singleton hsize] at h
  have hbyte : c.val.toUInt8.toNat = 10 := by
    rw [List.singleton_inj.mp h]
    rfl
  have hsmall : c.val.toNat ≤ 127 :=
    UInt32.le_iff_toNat_le.mp (Char.utf8Size_eq_one_iff.mp hsize)
  have hval : c.val.toNat = 10 := by
    rw [UInt32.toNat_toUInt8] at hbyte
    omega
  exact Char.ext (UInt32.toNat_inj.mp hval)

/-- A text without line feeds is not encoded as the line feed byte. -/
theorem encode_ne_lineFeed {text : String} (h : '\n' ∉ text.toList) : encode text ≠ [10] := by
  intro hencode
  rw [← String.ofList_toList (s := text)] at hencode
  cases hchars : text.toList with
  | nil =>
    rw [hchars] at hencode
    simp at hencode
  | cons c rest =>
    rw [hchars, encode_cons] at hencode
    have hne : String.utf8EncodeChar c ≠ [] := String.utf8EncodeChar_ne_nil
    have hfirst : String.utf8EncodeChar c = [10] := by
      rcases List.append_eq_singleton_iff.mp hencode with ⟨hnil, -⟩ | ⟨hone, -⟩
      · exact absurd hnil hne
      · exact hone
    apply h
    rw [hchars, eq_lineFeed_of_utf8EncodeChar hfirst]
    exact List.mem_cons_self

/-- A byte below the multi-byte range stands for the character with its number. -/
theorem toNat_of_mem_utf8EncodeChar {c : Char} {b : UInt8} (hb : b.toNat < 0x80)
    (h : b ∈ String.utf8EncodeChar c) : c.toNat = b.toNat := by
  have hne : ∀ n, n % 256 ≥ 0x80 → b ≠ UInt8.ofNat n := by
    rintro n hn rfl
    rw [UInt8.toNat_ofNat'] at hb
    omega
  unfold String.utf8EncodeChar at h
  show c.val.toNat = b.toNat
  generalize c.val.toNat = v at h ⊢
  dsimp only at h
  -- only a character of one byte is encoded by such a byte
  split at h
  · rw [List.mem_singleton.mp h, UInt8.toNat_ofNat']
    omega
  · exfalso
    split at h
    · simp only [List.mem_cons, List.not_mem_nil, or_false] at h
      rcases h with h | h <;> exact hne _ (by omega) h
    split at h
    · simp only [List.mem_cons, List.not_mem_nil, or_false] at h
      rcases h with h | h | h <;> exact hne _ (by omega) h
    · simp only [List.mem_cons, List.not_mem_nil, or_false] at h
      rcases h with h | h | h | h <;> exact hne _ (by omega) h

/-- A text is encoded without the byte of an ASCII character that it does not hold. -/
theorem notMem_encode {text : String} {c : Char} (hc : c.toNat < 0x80) (h : c ∉ text.toList) :
    UInt8.ofNat c.toNat ∉ encode text := by
  intro hmem
  have hbyte : (UInt8.ofNat c.toNat).toNat = c.toNat := by
    rw [UInt8.toNat_ofNat']
    omega
  obtain ⟨d, hd, hencoded⟩ := List.mem_flatMap.mp hmem
  have hcode : d.toNat = c.toNat :=
    (toNat_of_mem_utf8EncodeChar (by rwa [hbyte]) hencoded).trans hbyte
  have hchar : d = c := Char.ext (UInt32.toNat_inj.mp hcode)
  exact h (hchar ▸ hd)

/-- A character below the multi-byte range is encoded as its number. -/
theorem utf8EncodeChar_ascii {c : Char} (h : c.toNat < 0x80) :
    String.utf8EncodeChar c = [UInt8.ofNat c.toNat] := by
  have hsize : c.utf8Size = 1 :=
    Char.utf8Size_eq_one_iff.mpr (UInt32.le_iff_toNat_le.mpr (Nat.le_of_lt_succ h))
  rw [String.utf8EncodeChar_eq_singleton hsize]
  rfl

/-- A text of such characters has one byte for each. -/
theorem encode_ascii {cs : List Char} (h : ∀ c ∈ cs, c.toNat < 0x80) :
    encode (String.ofList cs) = cs.map fun c => UInt8.ofNat c.toNat := by
  induction cs with
  | nil => rfl
  | cons c cs ih =>
    rw [encode_cons, utf8EncodeChar_ascii (h c List.mem_cons_self),
      ih fun d hd => h d (.tail _ hd)]
    rfl

/-- A text is encoded without the zero byte if it holds no zero character. -/
theorem zero_notMem_encode {text : String} (h : '\x00' ∉ text.toList) : 0 ∉ encode text :=
  notMem_encode (by decide) h

end ScpiScript.Utf8
