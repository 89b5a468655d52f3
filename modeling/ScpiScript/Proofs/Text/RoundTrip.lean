import ScpiScript.Text.Utf8
/-!
# Reading what was encoded

The encoding of a text is read back as the text, so no two texts are encoded alike.

- `scanFrom_utf8EncodeChar` reads one character from in front of other bytes.
- `decodeLossy_encode`, `decode?_encode` and `encode_injective` are the texts.
-/

namespace ScpiScript.Utf8

theorem toNat_ofNat {n : Nat} (h : n < 256) : (UInt8.ofNat n).toNat = n :=
  UInt8.toNat_ofNat_of_lt' h

/-! ## Lead bytes -/

theorem ofLead?_two : ∀ n < 256, 0xC2 ≤ n → n ≤ 0xDF →
    Pending.ofLead? (UInt8.ofNat n) = some ⟨1, 0x80, 0xBF, n % 0x20⟩ := by
  decide +kernel

/-- The first byte after the lead of three is bounded where the code point would be too
small or a surrogate. -/
theorem ofLead?_three : ∀ n < 256, 0xE0 ≤ n → n ≤ 0xEF →
    Pending.ofLead? (UInt8.ofNat n) =
      some ⟨2, if n = 0xE0 then 0xA0 else 0x80, if n = 0xED then 0x9F else 0xBF, n % 0x10⟩ := by
  decide +kernel

/-- The first byte after the lead of four is bounded where the code point would be too small
or too large. -/
theorem ofLead?_four : ∀ n < 256, 0xF0 ≤ n → n ≤ 0xF4 →
    Pending.ofLead? (UInt8.ofNat n) =
      some ⟨3, if n = 0xF0 then 0x90 else 0x80, if n = 0xF4 then 0x8F else 0xBF, n % 0x08⟩ := by
  decide +kernel

/-! ## Bytes of a longer sequence -/

section Sequence

variable {n lo hi value : Nat}

theorem scanFrom_lead {p : Pending} (hwide : 0x80 ≤ n) (hn : n < 256)
    (h : Pending.ofLead? (UInt8.ofNat n) = some p) (rest : Bytes) :
    scanFrom none (UInt8.ofNat n :: rest) = scanFrom (some p) rest := by
  have hlarge : ¬ (UInt8.ofNat n).toNat < 0x80 := by
    rw [toNat_ofNat hn]
    exact Nat.not_lt.mpr hwide
  rw [scanFrom, step, begin, if_neg hlarge, h]
  rfl

/-- A byte continues a sequence that goes on after it. -/
theorem scanFrom_next {missing : Nat} (hlo : lo ≤ n) (hhi : n ≤ hi) (hn : n < 256)
    (rest : Bytes) :
    scanFrom (some ⟨missing + 2, lo, hi, value⟩) (UInt8.ofNat n :: rest) =
      scanFrom (some ⟨missing + 1, 0x80, 0xBF, value * 0x40 + n % 0x40⟩) rest := by
  have hmissing : ¬ missing + 2 ≤ 1 := by omega
  rw [scanFrom, step, toNat_ofNat hn, if_pos (by simp [hlo, hhi]), if_neg hmissing]
  rfl

/-- A byte completes a sequence. -/
theorem scanFrom_last (hlo : lo ≤ n) (hhi : n ≤ hi) (hn : n < 256) (rest : Bytes) :
    scanFrom (some ⟨1, lo, hi, value⟩) (UInt8.ofNat n :: rest) =
      .char (Char.ofNat (value * 0x40 + n % 0x40)) :: scanFrom none rest := by
  rw [scanFrom, step, toNat_ofNat hn, if_pos (by simp [hlo, hhi]), if_pos (Nat.le_refl 1)]
  rfl

end Sequence

/-! ## Characters and texts -/

/-- The bytes of a character are read as the character. -/
theorem scanFrom_utf8EncodeChar (c : Char) (rest : Bytes) :
    scanFrom none (String.utf8EncodeChar c ++ rest) = .char c :: scanFrom none rest := by
  have hvalid : c.toNat < 0xD800 ∨ 0xDFFF < c.toNat ∧ c.toNat < 0x110000 := c.valid
  have hchar : Char.ofNat c.toNat = c := Char.ofNat_toNat c
  unfold String.utf8EncodeChar
  generalize hv : c.val.toNat = v
  rw [show c.toNat = v from hv] at hvalid hchar
  dsimp only
  -- one case for each number of bytes
  split
  · have hbyte : (UInt8.ofNat v).toNat = v := toNat_ofNat (by omega)
    rw [List.singleton_append, scanFrom, step, begin, hbyte, if_pos (by omega), hchar]
    rfl
  split
  · rw [List.cons_append, List.singleton_append,
      scanFrom_lead (by omega) (by omega) (ofLead?_two _ (by omega) (by omega) (by omega)),
      scanFrom_last (by omega) (by omega) (by omega)]
    have hcode : (v / 64 % 32 + 192) % 0x20 * 0x40 + (v % 64 + 128) % 0x40 = v := by omega
    rw [hcode, hchar]
  split
  · rw [List.cons_append, List.cons_append, List.singleton_append,
      scanFrom_lead (by omega) (by omega) (ofLead?_three _ (by omega) (by omega) (by omega)),
      scanFrom_next (by split <;> omega) (by split <;> omega) (by omega),
      scanFrom_last (by omega) (by omega) (by omega)]
    have hcode : ((v / 4096 % 16 + 224) % 0x10 * 0x40 + (v / 64 % 64 + 128) % 0x40) * 0x40 +
        (v % 64 + 128) % 0x40 = v := by
      omega
    rw [hcode, hchar]
  · rw [List.cons_append, List.cons_append, List.cons_append, List.singleton_append,
      scanFrom_lead (by omega) (by omega) (ofLead?_four _ (by omega) (by omega) (by omega)),
      scanFrom_next (by split <;> omega) (by split <;> omega) (by omega),
      scanFrom_next (by omega) (by omega) (by omega),
      scanFrom_last (by omega) (by omega) (by omega)]
    have hcode : (((v / 262144 % 8 + 240) % 0x08 * 0x40 + (v / 4096 % 64 + 128) % 0x40) * 0x40 +
        (v / 64 % 64 + 128) % 0x40) * 0x40 + (v % 64 + 128) % 0x40 = v := by
      omega
    rw [hcode, hchar]

theorem scan_encode (text : String) : scan (encode text) = text.toList.map .char := by
  unfold scan encode
  induction text.toList with
  | nil => rfl
  | cons c rest ih => rw [List.flatMap_cons, scanFrom_utf8EncodeChar, ih, List.map_cons]

@[simp] theorem decodeLossy_encode (text : String) : decodeLossy (encode text) = text := by
  have hpieces : (text.toList.map Piece.char).map (fun p => p.toChar?.getD replacement) =
      text.toList := by
    rw [List.map_map]
    exact List.map_id text.toList
  rw [decodeLossy, scan_encode, hpieces, String.ofList_toList]

/-- The strict reading gives the text as well. -/
theorem decode?_encode (text : String) : decode? (encode text) = some text := by
  have hchars : ∀ cs : List Char, (cs.map Piece.char).mapM Piece.toChar? = some cs := by
    intro cs
    induction cs with
    | nil => rfl
    | cons c rest ih =>
      rw [List.map_cons, List.mapM_cons, ih]
      rfl
  rw [decode?, scan_encode, hchars]
  exact congrArg some String.ofList_toList

theorem encode_injective {text text' : String} (h : encode text = encode text') :
    text = text' := by
  rw [← decodeLossy_encode text, h, decodeLossy_encode]

end ScpiScript.Utf8
