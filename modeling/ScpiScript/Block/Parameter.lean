import ScpiScript.Block.LengthPrefix
/-!
# Parameter blocks

A parameter block is a command whose text after the first hash sign is counted:
the length prefix of that payload, in characters, stands between the sign and it.

- `encodeParameterBlock` inserts the prefix.
-/

namespace ScpiScript.Block

/-- The sign behind which a length prefix stands. -/
def lengthSign : Char := '#'

/-- A command with the length of its payload written behind its first hash sign;
nothing when it has no such sign. -/
def encodeParameterBlock (text : String) : Except BlockError (Option String) :=
  let cs := text.toList
  let lead := cs.takeWhile (· ≠ lengthSign)
  match cs.dropWhile (· ≠ lengthSign) with
  | [] => .ok none
  | sign :: payload =>
    (lengthPrefix payload.length).map fun written =>
      some (String.ofList (lead ++ sign :: written ++ payload))

end ScpiScript.Block
