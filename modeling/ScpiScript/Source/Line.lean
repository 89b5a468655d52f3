import ScpiScript.Source.FileTree
/-!
# Physical lines

A source is read line by line. A physical line ends after a line feed, or at the
end of the source; a carriage return before the line feed belongs to the ending.

- `physicalLines` cuts bytes into physical lines, endings included; nothing is
  lost: the lines concatenate to the bytes.
- `lineText?` is the text of a physical line, unless it is not UTF-8.
-/

namespace ScpiScript.Source

/-- The byte that ends a line. -/
def lineFeed : UInt8 := 10

/-- Put a byte before the lines of what follows it. -/
def consByte (b : UInt8) (lines : List Bytes) : List Bytes :=
  if b = lineFeed then [b] :: lines
  else match lines with
    | [] => [[b]]
    | line :: rest => (b :: line) :: rest

/-- The physical lines of a byte string, each with its ending. -/
def physicalLines (bytes : Bytes) : List Bytes :=
  bytes.foldr consByte []

@[simp] theorem flatten_consByte (b : UInt8) (lines : List Bytes) :
    (consByte b lines).flatten = b :: lines.flatten := by
  unfold consByte
  split
  · simp
  · cases lines <;> simp

/-- The physical lines of a byte string concatenate to it. -/
@[simp] theorem flatten_physicalLines (bytes : Bytes) : (physicalLines bytes).flatten = bytes := by
  induction bytes with
  | nil => rfl
  | cons b rest ih => simpa [physicalLines] using ih

/-- Characters without the line ending after them. -/
def stripEnding (cs : List Char) : List Char :=
  match cs.reverse with
  | '\n' :: '\r' :: back => back.reverse
  | '\n' :: back => back.reverse
  | _ => cs

/-- The text of a physical line without its ending. -/
def lineText? (raw : Bytes) : Option String :=
  (Utf8.decode? raw).map fun text => String.ofList (stripEnding text.toList)

end ScpiScript.Source
