import ScpiScript.Block.Sample
/-!
# Blocks within the limit

A block can be written exactly when its payload is short enough for a length prefix.
-/

namespace ScpiScript.Block

theorem lengthPrefix_of_lt {n : Nat} (h : maxLength < n) :
    lengthPrefix n = .error (.lengthOverflow n) := by
  rw [lengthPrefix, if_pos h]

theorem length_sampleBytes (order : ByteOrder) (x : Binary32) :
    (sampleBytes order x).length = 4 := by
  cases order <;> rfl

/-- A sample takes four bytes. -/
theorem length_samplePayload (order : ByteOrder) (samples : List Binary32) :
    (samplePayload order samples).length = 4 * samples.length := by
  induction samples with
  | nil => rfl
  | cons x rest ih =>
    rw [samplePayload, List.flatMap_cons, List.length_append, length_sampleBytes,
      List.length_cons]
    rw [samplePayload] at ih
    omega

/-- A vector can be written as a block exactly when its bytes are within the limit. -/
theorem encodeSampleBlock_isOk_iff (lead : String) (samples : List Binary32)
    (order : ByteOrder) :
    (∃ message, encodeSampleBlock lead samples order = .ok message) ↔
      4 * samples.length ≤ maxLength := by
  unfold encodeSampleBlock blockHeader
  simp only [length_samplePayload]
  constructor
  · rintro ⟨message, h⟩
    refine Nat.le_of_not_lt fun hlarge => ?_
    rw [lengthPrefix_of_lt hlarge] at h
    cases h
  · intro hsmall
    rw [lengthPrefix_of_le hsmall]
    exact ⟨_, rfl⟩

/-- An encoded parameter holds its length sign, so it is not empty. -/
theorem encodeParameterBlock_ne_empty {text encoded : String}
    (h : encodeParameterBlock text = .ok (some encoded)) : encoded ≠ "" := by
  simp only [encodeParameterBlock] at h
  split at h
  · cases h
  · rename_i sign payload _
    rcases hwritten : lengthPrefix payload.length with e | written
    · rw [hwritten] at h
      cases h
    · rw [hwritten] at h
      obtain rfl := Option.some.inj (Except.ok.inj h)
      intro hempty
      have hlist := congrArg String.toList hempty
      simp at hlist

end ScpiScript.Block
