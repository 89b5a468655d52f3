import ScpiScript.Directive
import ScpiScript.Source.Basic
/-!
# Items of a script

What the interpreter acts on is a logical line, and for an evaluation line without
code the physical lines that follow it, up to one that closes the block.

- `Source.readBlock` reads the lines of a block; nothing in them is a directive, a
  continuation or a reference.
- `Source.readItem` reads one item. `length_readItem` says that reading goes on.
-/

namespace ScpiScript

/-- What a script asks for at one place: a directive, unless the line is empty,
and the number of the line that holds it. An evaluation carries its whole code. -/
structure Item where
  directive : Option Directive
  line : Nat
  deriving DecidableEq, Repr

namespace Source

/-- The first character of the line that closes a block of code. -/
def blockEnd : Char := '_'

/-- A line closes a block of code. -/
def closesBlock (text : String) : Bool := text.toList.head? == some blockEnd

/-- The lines of a block: those before one that closes it, or before the end. The
result is the lines, the physical lines left over and the count of lines read. -/
def takeBlock (lineNo : Nat) : List Bytes → Except IoError (List String) × List Bytes × Nat
  | [] => (.ok [], [], lineNo)
  | raw :: rest =>
    match lineText? raw with
    | none => (.error .invalidUtf8, rest, lineNo)
    | some text =>
      if closesBlock text then (.ok [], rest, lineNo + 1)
      else
        let (lines, left, count) := takeBlock (lineNo + 1) rest
        (lines.map (text :: ·), left, count)

/-- Read the lines of a block, joined by line feeds. -/
def readBlock (s : Source) : Except IoError String × Source :=
  match s.pending with
  | .error e => (.error e, s)
  | .ok lines =>
    let (block, rest, lineNo) := takeBlock s.lineNo lines
    (block.map (String.intercalate "\n"), { s with pending := .ok rest, lineNo := lineNo })

/-- Read one item, or nothing at the end. -/
def readItem (s : Source) : Except IoError (Option Item) × Source :=
  match s.readLogical with
  | (.error e, s) => (.error e, s)
  | (.ok none, s) => (.ok none, s)
  | (.ok (some line), s) =>
    match Directive.ofLine? line.text with
    | some (.evaluate "") =>
      let (code, s) := s.readBlock
      (code.map fun c => some ⟨some (.evaluate c), line.line⟩, s)
    | directive => (.ok (some ⟨directive, line.line⟩), s)

theorem length_takeBlock (lineNo : Nat) (lines : List Bytes) :
    (takeBlock lineNo lines).2.1.length ≤ lines.length := by
  fun_induction takeBlock lineNo lines with
  | case1 => simp
  | case2 => simp
  | case3 => simp
  | case4 _ raw rest text _ _ _ left _ _ ih => simp_all; omega

theorem length_readBlock (s : Source) : s.readBlock.2.remaining.length ≤ s.remaining.length := by
  unfold readBlock
  split
  · exact Nat.le_refl _
  · rename_i lines h
    simpa [remaining, h] using length_takeBlock s.lineNo lines

/-- Reading an item leaves fewer physical lines to read. -/
theorem length_readItem {s s' : Source} {item : Item}
    (h : s.readItem = (.ok (some item), s')) :
    s'.remaining.length < s.remaining.length := by
  unfold readItem at h
  split at h
  · simp at h
  · simp at h
  · rename_i line s₁ hline
    have hlt := length_readLogical hline
    split at h
    · have hle := length_readBlock s₁
      rcases hb : s₁.readBlock with ⟨code, s₂⟩
      rw [hb] at h hle
      simp only [Prod.mk.injEq] at h
      obtain ⟨-, rfl⟩ := h
      exact Nat.lt_of_le_of_lt hle hlt
    · simp only [Prod.mk.injEq] at h
      obtain ⟨-, rfl⟩ := h
      exact hlt

end Source

end ScpiScript
