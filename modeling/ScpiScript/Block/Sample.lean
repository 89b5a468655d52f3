import ScpiScript.Binary.Number
import ScpiScript.Block.Parameter
import ScpiScript.Text.Utf8
/-!
# Blocks of samples

A vector of samples is sent as a block of IEEE 488.2: a hash sign, the length
prefix of the payload in bytes, and the payload, four bytes to a sample.

- `ByteOrder` says which byte of a sample comes first.
- `samplePayload` writes the bytes of a vector.
- `encodeSampleBlock` is the whole message behind its lead text.
-/

namespace ScpiScript.Block

/-- The order of the four bytes of a sample. -/
inductive ByteOrder
  | little
  | big
  deriving DecidableEq, Repr, Inhabited

/-- A text with its ASCII capitals made small. -/
def lowerAscii (cs : List Char) : List Char :=
  cs.map fun c => if 'A' ≤ c && c ≤ 'Z' then Char.ofNat (c.toNat + 32) else c

/-- The byte order that a setting names, in any case. -/
def ByteOrder.ofText? (text : String) : Option ByteOrder :=
  match String.ofList (lowerAscii text.toList) with
  | "little" | "le" => some .little
  | "big" | "be" => some .big
  | _ => none

/-- The bytes of a sample, least significant first. -/
def littleBytes (x : Binary32) : Bytes :=
  let n := x.bits.toNat
  [UInt8.ofNat n, UInt8.ofNat (n / 0x100), UInt8.ofNat (n / 0x10000), UInt8.ofNat (n / 0x1000000)]

/-- The bytes of a sample in an order. -/
def sampleBytes (order : ByteOrder) (x : Binary32) : Bytes :=
  match order with
  | .little => littleBytes x
  | .big => (littleBytes x).reverse

/-- The bytes of a vector. -/
def samplePayload (order : ByteOrder) (samples : List Binary32) : Bytes :=
  samples.flatMap (sampleBytes order)

/-- The header of a block of so many bytes. -/
def blockHeader (byteCount : Nat) : Except BlockError (List Char) :=
  (lengthPrefix byteCount).map (lengthSign :: ·)

/-- The message that sends a vector: the lead text, a space, the header and the
bytes of the samples. -/
def encodeSampleBlock (lead : String) (samples : List Binary32) (order : ByteOrder) :
    Except BlockError Bytes :=
  let payload := samplePayload order samples
  (blockHeader payload.length).map fun header =>
    Utf8.encode lead ++ Utf8.encode (String.ofList (' ' :: header)) ++ payload

end ScpiScript.Block
