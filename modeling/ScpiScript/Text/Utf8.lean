/-!
# UTF-8 over lists of bytes

A byte string is a list of bytes. Reading one as UTF-8 cuts it into well-formed
characters and maximal ill-formed parts; the strict reading refuses the second
kind and the lenient one shows each of them as a replacement character.

- `scan` runs a byte-step machine: its result is a list of characters and gaps.
- `decode?` is the strict reading, `decodeLossy` the lenient one.
- `encode` is the inverse direction, by core's encoding of a character.
-/

namespace ScpiScript

/-- A byte string. -/
abbrev Bytes := List UInt8

namespace Utf8

/-- What stands at a place of a byte string: a well-formed character, or a
maximal part of an ill-formed one. -/
inductive Piece
  | char (c : Char)
  | gap
  deriving DecidableEq, Repr

/-- A longer sequence in progress: how many bytes are still to come, the bounds
of the next of them, and the bits read so far. -/
structure Pending where
  missing : Nat
  lo : Nat
  hi : Nat
  value : Nat
  deriving DecidableEq, Repr

/-- The sequence that a lead byte begins. The narrowed bounds keep out overlong
forms, surrogates and code points past the last one; `none` is a byte that leads
no sequence of two or more. -/
def Pending.ofLead? (lead : UInt8) : Option Pending :=
  let n := lead.toNat
  if 0xC2 ≤ n && n ≤ 0xDF then some ⟨1, 0x80, 0xBF, n % 0x20⟩
  else if n = 0xE0 then some ⟨2, 0xA0, 0xBF, n % 0x10⟩
  else if n = 0xED then some ⟨2, 0x80, 0x9F, n % 0x10⟩
  else if 0xE1 ≤ n && n ≤ 0xEF then some ⟨2, 0x80, 0xBF, n % 0x10⟩
  else if n = 0xF0 then some ⟨3, 0x90, 0xBF, n % 0x08⟩
  else if 0xF1 ≤ n && n ≤ 0xF3 then some ⟨3, 0x80, 0xBF, n % 0x08⟩
  else if n = 0xF4 then some ⟨3, 0x80, 0x8F, n % 0x08⟩
  else none

/-- Read a byte between two sequences. -/
def begin (b : UInt8) : List Piece × Option Pending :=
  if b.toNat < 0x80 then ([.char (Char.ofNat b.toNat)], none)
  else match Pending.ofLead? b with
    | some p => ([], some p)
    | none => ([.gap], none)

/-- Read a byte. One that does not continue the sequence in progress ends it as a
gap, and is then read as the beginning of the next. -/
def step : Option Pending → UInt8 → List Piece × Option Pending
  | none, b => begin b
  | some p, b =>
    if p.lo ≤ b.toNat && b.toNat ≤ p.hi then
      let value := p.value * 0x40 + b.toNat % 0x40
      if p.missing ≤ 1 then ([.char (Char.ofNat value)], none)
      else ([], some ⟨p.missing - 1, 0x80, 0xBF, value⟩)
    else
      let (pieces, next) := begin b
      (.gap :: pieces, next)

/-- The pieces of a byte string, given the sequence in progress before it. A
sequence that the end cuts off is a gap. -/
def scanFrom : Option Pending → Bytes → List Piece
  | none, [] => []
  | some _, [] => [.gap]
  | state, b :: rest => (step state b).1 ++ scanFrom (step state b).2 rest

/-- Cut a byte string into characters and maximal ill-formed parts. -/
def scan (bytes : Bytes) : List Piece := scanFrom none bytes

/-- The character of a piece, if it is one. -/
def Piece.toChar? : Piece → Option Char
  | .char c => some c
  | .gap => none

/-- The character shown for an ill-formed part. -/
def replacement : Char := '\uFFFD'

/-- The text of a byte string, or nothing when some part is ill-formed. -/
def decode? (bytes : Bytes) : Option String :=
  ((scan bytes).mapM Piece.toChar?).map String.ofList

/-- The text of a byte string, each ill-formed part shown as one replacement
character. -/
def decodeLossy (bytes : Bytes) : String :=
  String.ofList ((scan bytes).map fun p => p.toChar?.getD replacement)

/-- The bytes of a text. -/
def encode (text : String) : Bytes :=
  text.toList.flatMap String.utf8EncodeChar

@[simp] theorem encode_empty : encode "" = [] := rfl

@[simp] theorem encode_append (s t : String) : encode (s ++ t) = encode s ++ encode t := by
  simp [encode]

end Utf8

end ScpiScript
