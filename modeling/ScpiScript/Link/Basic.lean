import ScpiScript.Source.Failure
import ScpiScript.Text.Utf8
/-!
# Links to an instrument

A link carries messages to an instrument and replies back. What is written goes
out in frames; the last frame of a message is followed by the terminator.

- `Link` is any type of links: each operation gives its outcome and the link
  afterwards, so that a link may fail as it likes.
- `wire` is the byte stream that a list of frames makes.
-/

namespace ScpiScript

/-- One write to a link: its bytes, and whether they complete a message. -/
structure Frame where
  data : Bytes
  final : Bool
  deriving DecidableEq, Repr

/-- The byte that ends a message. -/
def terminator : UInt8 := 10

/-- The bytes that a frame puts on the wire. -/
def Frame.wire (f : Frame) : Bytes :=
  if f.final then f.data ++ [terminator] else f.data

/-- The bytes of a frame as text. -/
def Frame.text (f : Frame) : String := Utf8.decodeLossy f.data

/-- The byte stream of a list of frames. -/
def wire (frames : List Frame) : Bytes := frames.flatMap Frame.wire

@[simp] theorem wire_nil : wire [] = [] := rfl

@[simp] theorem wire_append (xs ys : List Frame) : wire (xs ++ ys) = wire xs ++ wire ys := by
  simp [wire]

/-- A type of links. -/
class Link (τ : Type) where
  /-- Write a frame. -/
  write : τ → Frame → Except IoError Unit × τ
  /-- Read one reply line, its end included. -/
  readLine : τ → Except IoError String × τ
  /-- Close the link. -/
  close : τ → Except IoError Unit × τ

end ScpiScript
