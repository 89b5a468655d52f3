import ScpiScript.Proofs.Block.Parameter
/-!
# Sample blocks read back

A sample block is read as a lead up to the first hash sign, a space before the sign, a length
prefix behind it, and raw bytes. The bytes may be any, also signs and digits: what stands in
front says where they begin, and the prefix how many there are.

- `readBlock?` reads a message, and `readPayload?` the samples from its bytes.
- `readBlock?_of_encoded` and `readPayload?_samplePayload` read what was written.
- `samplePayload_big` compares the two byte orders.
- `sampleBlock_readsBack` is all of it together.
-/

namespace ScpiScript.Block

/-! ## Samples -/

/-- A sample, from its bytes with the least significant first. -/
def sampleOfBytes (b₀ b₁ b₂ b₃ : UInt8) : Binary32 :=
  ⟨UInt32.ofNat (b₀.toNat + b₁.toNat * 0x100 + b₂.toNat * 0x10000 + b₃.toNat * 0x1000000)⟩

/-- The samples of a payload, four bytes to each. -/
def readPayload? (order : ByteOrder) : Bytes → Option (List Binary32)
  | [] => some []
  | a :: b :: c :: d :: rest =>
    let sample := match order with
      | .little => sampleOfBytes a b c d
      | .big => sampleOfBytes d c b a
    (readPayload? order rest).map (sample :: ·)
  | _ => none

/-- A byte string with every four bytes in reverse. -/
def reverseFours : Bytes → Bytes
  | a :: b :: c :: d :: rest => d :: c :: b :: a :: reverseFours rest
  | bytes => bytes

theorem exists_littleBytes (x : Binary32) : ∃ b₀ b₁ b₂ b₃,
    littleBytes x = [b₀, b₁, b₂, b₃] ∧ sampleOfBytes b₀ b₁ b₂ b₃ = x := by
  refine ⟨_, _, _, _, rfl, ?_⟩
  obtain ⟨bits⟩ := x
  have hlt : bits.toNat < 2 ^ 32 := bits.toNat_lt
  simp only [sampleOfBytes, UInt8.toNat_ofNat']
  have hsum : bits.toNat % 2 ^ 8 + bits.toNat / 0x100 % 2 ^ 8 * 0x100 +
      bits.toNat / 0x10000 % 2 ^ 8 * 0x10000 + bits.toNat / 0x1000000 % 2 ^ 8 * 0x1000000 =
        bits.toNat := by
    omega
  rw [hsum, UInt32.ofNat_toNat]

theorem samplePayload_cons (order : ByteOrder) (x : Binary32) (samples : List Binary32) :
    samplePayload order (x :: samples) = sampleBytes order x ++ samplePayload order samples :=
  List.flatMap_cons

/-- The bytes of a sample are read back from in front of any others. -/
theorem readPayload?_append (order : ByteOrder) (x : Binary32) (rest : Bytes) :
    readPayload? order (sampleBytes order x ++ rest) = (readPayload? order rest).map (x :: ·) := by
  obtain ⟨b₀, b₁, b₂, b₃, hbytes, hsample⟩ := exists_littleBytes x
  cases order with
  | little =>
    show readPayload? .little (littleBytes x ++ rest) = _
    rw [hbytes, ← hsample]
    rfl
  | big =>
    show readPayload? .big ((littleBytes x).reverse ++ rest) = _
    rw [hbytes, ← hsample]
    rfl

/-- Every bit of every sample is read back. -/
theorem readPayload?_samplePayload (order : ByteOrder) (samples : List Binary32) :
    readPayload? order (samplePayload order samples) = some samples := by
  induction samples with
  | nil => rfl
  | cons x samples ih => rw [samplePayload_cons, readPayload?_append, ih, Option.map_some]

/-- The two byte orders differ by the order of the bytes of each sample. -/
theorem samplePayload_big (samples : List Binary32) :
    samplePayload .big samples = reverseFours (samplePayload .little samples) := by
  induction samples with
  | nil => rfl
  | cons x samples ih =>
    rw [samplePayload_cons, samplePayload_cons, ih]
    rfl

/-! ## Messages -/

/-- What is read from a message. -/
structure BlockReading where
  lead : String
  /-- How many bytes the length prefix promises. -/
  count : Nat
  /-- The bytes behind the prefix. -/
  payload : Bytes
  deriving DecidableEq, Repr

/-- The byte of the length sign. -/
def signByte : UInt8 := 35

/-- The byte of the space between a lead and the sign. -/
def spaceByte : UInt8 := 32

/-- A byte as the character with its number. -/
def byteChar (b : UInt8) : Char := Char.ofNat b.toNat

/-- Read a message: a lead and a space up to the first sign, a length prefix, and the rest. -/
def readBlock? (message : Bytes) : Option BlockReading :=
  let front := message.takeWhile (· ≠ signByte)
  match message.dropWhile (· ≠ signByte) with
  | [] => none
  | _ :: counted =>
    if front.getLast? ≠ some spaceByte then none
    else match Utf8.decode? front.dropLast, readLengthPrefix? (counted.map byteChar) with
      | some lead, some (count, used) => some ⟨lead, count, counted.drop used⟩
      | _, _ => none

theorem byteChar_ofNat {c : Char} (h : c.toNat < 0x80) : byteChar (UInt8.ofNat c.toNat) = c := by
  have hbyte : (UInt8.ofNat c.toNat).toNat = c.toNat := Utf8.toNat_ofNat (by omega)
  rw [byteChar, hbyte, Char.ofNat_toNat]

theorem map_byteChar_encode {cs : List Char} (h : ∀ c ∈ cs, c.toNat < 0x80) :
    (Utf8.encode (String.ofList cs)).map byteChar = cs := by
  rw [Utf8.encode_ascii h, List.map_map]
  calc cs.map (byteChar ∘ fun c => UInt8.ofNat c.toNat)
      = cs.map id := List.map_congr_left fun c hc => byteChar_ofNat (h c hc)
    _ = cs := List.map_id cs

/-- A message whose lead and space stand before the first sign is read as what stands there. -/
theorem readBlock?_of_cut {message counted : Bytes} {lead : String} {count used : Nat}
    (hcut : CutAt signByte message (Utf8.encode lead ++ [spaceByte]) counted)
    (hread : readLengthPrefix? (counted.map byteChar) = some (count, used)) :
    readBlock? message = some ⟨lead, count, counted.drop used⟩ := by
  have hspace : ¬ (Utf8.encode lead ++ [spaceByte]).getLast? ≠ some spaceByte := by
    rw [List.getLast?_concat]
    exact not_not.mpr rfl
  simp only [readBlock?, hcut.takeWhile_eq, hcut.dropWhile_eq]
  rw [if_neg hspace, List.dropLast_concat, Utf8.decode?_encode, hread]

section Encoded

variable {lead : String} {samples : List Binary32} {order : ByteOrder} {message : Bytes}

/-- What a message is made of. -/
theorem encodeSampleBlock_eq (lead : String) (samples : List Binary32) (order : ByteOrder) :
    encodeSampleBlock lead samples order =
      (lengthPrefix (4 * samples.length)).map fun written =>
        Utf8.encode lead ++ spaceByte :: signByte ::
          (Utf8.encode (String.ofList written) ++ samplePayload order samples) := by
  have hheader : ∀ written, Utf8.encode (String.ofList (' ' :: lengthSign :: written)) =
      spaceByte :: signByte :: Utf8.encode (String.ofList written) := by
    intro written
    rw [Utf8.encode_cons, Utf8.encode_cons]
    rfl
  simp only [encodeSampleBlock, blockHeader, length_samplePayload]
  rcases lengthPrefix (4 * samples.length) with e | written
  · rfl
  · simp only [Except.map, hheader, List.append_assoc, List.cons_append]

theorem encodeSampleBlock_eq_error_iff {e : BlockError} :
    encodeSampleBlock lead samples order = .error e ↔
      maxLength < 4 * samples.length ∧ e = .lengthOverflow (4 * samples.length) := by
  rw [encodeSampleBlock_eq, map_eq_error_iff, lengthPrefix_eq_error_iff]

/-- The first sign of a message is the one behind its lead and the space. -/
theorem cutAt_sign (hlead : lengthSign ∉ lead.toList) (counted : Bytes) :
    CutAt signByte (Utf8.encode lead ++ spaceByte :: signByte :: counted)
      (Utf8.encode lead ++ [spaceByte]) counted := by
  refine ⟨(List.append_assoc _ [spaceByte] _).symm, fun hmem => ?_⟩
  rcases List.mem_append.mp hmem with hmem | hmem
  · exact Utf8.notMem_encode (c := lengthSign) (by decide) hlead hmem
  · exact absurd (List.mem_singleton.mp hmem) (by decide)

/-- A prefix is read from in front of any bytes. -/
theorem readLengthPrefix?_bytes {n : Nat} {written : List Char}
    (h : lengthPrefix n = .ok written) (payload : Bytes) :
    readLengthPrefix? ((Utf8.encode (String.ofList written) ++ payload).map byteChar) =
      some (n, (Utf8.encode (String.ofList written)).length) := by
  rw [List.map_append, map_byteChar_encode (ascii_of_written h), readLengthPrefix?_append h,
    length_encode_written h]

/-- A message is read as its lead, the number of its bytes, and these bytes. -/
theorem readBlock?_of_encoded (hlead : lengthSign ∉ lead.toList)
    (h : encodeSampleBlock lead samples order = .ok message) :
    readBlock? message = some ⟨lead, 4 * samples.length, samplePayload order samples⟩ := by
  rw [encodeSampleBlock_eq] at h
  obtain ⟨written, hwritten, rfl⟩ := map_eq_ok_iff.mp h
  rw [readBlock?_of_cut (cutAt_sign hlead _) (readLengthPrefix?_bytes hwritten _),
    List.drop_left]

theorem encodeSampleBlock_injective {lead' : String} {samples' : List Binary32}
    (hlead : lengthSign ∉ lead.toList) (hlead' : lengthSign ∉ lead'.toList)
    (h : encodeSampleBlock lead samples order = .ok message)
    (h' : encodeSampleBlock lead' samples' order = .ok message) :
    lead = lead' ∧ samples = samples' := by
  have hread := readBlock?_of_encoded hlead h
  rw [readBlock?_of_encoded hlead' h', Option.some_inj] at hread
  obtain ⟨rfl, -, hpayload⟩ := BlockReading.mk.inj hread
  refine ⟨rfl, ?_⟩
  have hsamples := readPayload?_samplePayload order samples
  rw [← hpayload, readPayload?_samplePayload, Option.some_inj] at hsamples
  exact hsamples.symm

end Encoded

/-- A vector whose bytes are more than the limit is refused, and no other. The message of any
other is read, in front of its first sign and a space, as its lead, then as a count that is
four for each sample and the number of the bytes behind it, and these bytes as the samples,
bit for bit. The other byte order has the bytes of each sample in reverse. So what differs in
lead or samples differs in its message. -/
theorem sampleBlock_readsBack {lead : String} (hlead : lengthSign ∉ lead.toList)
    (samples : List Binary32) (order : ByteOrder) :
    (encodeSampleBlock lead samples order = .error (.lengthOverflow (4 * samples.length)) ↔
      maxLength < 4 * samples.length) ∧
    (4 * samples.length ≤ maxLength → ∃ message payload,
      encodeSampleBlock lead samples order = .ok message ∧
        readBlock? message = some ⟨lead, 4 * samples.length, payload⟩ ∧
        payload.length = 4 * samples.length ∧ readPayload? order payload = some samples) ∧
    samplePayload .big samples = reverseFours (samplePayload .little samples) ∧
    ∀ lead' samples' message, lengthSign ∉ lead'.toList →
      encodeSampleBlock lead samples order = .ok message →
      encodeSampleBlock lead' samples' order = .ok message → lead' = lead ∧ samples' = samples := by
  refine ⟨?_, fun hsmall => ?_, samplePayload_big samples, ?_⟩
  · rw [encodeSampleBlock_eq_error_iff]
    exact and_iff_left rfl
  · obtain ⟨message, hmessage⟩ := (encodeSampleBlock_isOk_iff lead samples order).mpr hsmall
    exact ⟨message, samplePayload order samples, hmessage, readBlock?_of_encoded hlead hmessage,
      length_samplePayload order samples, readPayload?_samplePayload order samples⟩
  · intro lead' samples' message hlead' h h'
    exact encodeSampleBlock_injective hlead' hlead h' h

/-- A pattern that is no number and whose bytes hold a sign and a digit, and negative zero. -/
def markedSamples : List Binary32 := [⟨0x7FC02331⟩, ⟨0x80000000⟩]

theorem sampleBlock_readsBack_marked :
    lengthSign ∉ "DATA a,".toList ∧ 4 * markedSamples.length ≤ maxLength ∧
      ∃ message payload, encodeSampleBlock "DATA a," markedSamples .big = .ok message ∧
        readBlock? message = some ⟨"DATA a,", 8, payload⟩ ∧ payload.length = 8 ∧
        readPayload? .big payload = some markedSamples := by
  have hlead : lengthSign ∉ "DATA a,".toList := by decide
  have hsmall : 4 * markedSamples.length ≤ maxLength := by decide
  exact ⟨hlead, hsmall, (sampleBlock_readsBack hlead markedSamples .big).2.1 hsmall⟩

end ScpiScript.Block
