import ScpiScript.Source.Line
/-!
# Script sources

A source is what is still to be read of a script, the name it is reported under,
and how many lines were read. A logical line is a physical line together with the
lines that continue it.

- `Source.readPhysical` reads one physical line. One that is not UTF-8 is consumed
  and not counted.
- `Source.readLogical` reads one logical line: as long as the text read so far
  ends in the continuation mark, the mark is dropped and the next physical line
  joined.
- `Source.next` is the same as a step of an iteration over the logical lines.
- Reading leaves fewer physical lines to read, or none: `length_readLogical`.
-/

namespace ScpiScript

/-- A script being read. -/
structure Source where
  /-- The name under which the source is reported. -/
  tag : String
  /-- The physical lines still to be read, or why none can be. -/
  pending : Except IoError (List Bytes)
  /-- How many physical lines have been read. -/
  lineNo : Nat

/-- A physical line and the lines that continue it. -/
structure LogicalLine where
  text : String
  /-- The number of the last physical line in it, from one. -/
  line : Nat
  deriving DecidableEq, Repr

namespace Source

/-- The mark at the end of a line that goes on in the next. -/
def continuationMark : Char := '\\'

/-- The name under which standard input is reported. -/
def stdinTag : String := "<StdInput>"

/-- A source over bytes. -/
def ofBytes (tag : String) (bytes : Bytes) : Source := ⟨tag, .ok (physicalLines bytes), 0⟩

/-- A source over a text. -/
def ofText (tag text : String) : Source := ofBytes tag (Utf8.encode text)

/-- A source over what stands at a place of a file tree. A directory can be opened
and not read. -/
def ofNode (tag : String) : Node → Source
  | .file content => ofBytes tag content
  | .directory => ⟨tag, .error .isDirectory, 0⟩

/-- The source at a path, reported under that path. -/
def openPath (tree : FileTree) (path : String) : Except IoError Source :=
  (tree.find path).map (ofNode path)

/-- The physical lines still to be read. -/
def remaining (s : Source) : List Bytes :=
  match s.pending with
  | .ok lines => lines
  | .error _ => []

/-- Read one physical line, or nothing at the end. -/
def readPhysical (s : Source) : Except IoError (Option String) × Source :=
  match s.pending with
  | .error e => (.error e, s)
  | .ok [] => (.ok none, s)
  | .ok (raw :: rest) =>
    match lineText? raw with
    | none => (.error .invalidUtf8, { s with pending := .ok rest })
    | some text => (.ok (some text), { s with pending := .ok rest, lineNo := s.lineNo + 1 })

/-- A text without the continuation mark at its end. -/
def dropMark? (text : String) : Option String :=
  match text.toList.reverse with
  | c :: back => if c = continuationMark then some (String.ofList back.reverse) else none
  | [] => none

/-- Join physical lines to a text for as long as it ends in the continuation mark.
The result is the joined text, the lines left over and the count of lines read. -/
def joinLines (text : String) (lineNo : Nat) :
    List Bytes → Except IoError String × List Bytes × Nat
  | [] =>
    match dropMark? text with
    | some kept => (.ok kept, [], lineNo)
    | none => (.ok text, [], lineNo)
  | raw :: rest =>
    match dropMark? text with
    | none => (.ok text, raw :: rest, lineNo)
    | some kept =>
      match lineText? raw with
      | none => (.error .invalidUtf8, rest, lineNo)
      | some next => joinLines (kept ++ next) (lineNo + 1) rest

/-- Read one logical line, or nothing at the end. -/
def readLogical (s : Source) : Except IoError (Option LogicalLine) × Source :=
  match s.readPhysical with
  | (.error e, s) => (.error e, s)
  | (.ok none, s) => (.ok none, s)
  | (.ok (some text), s) =>
    let (result, rest, lineNo) := joinLines text s.lineNo s.remaining
    (result.map fun t => some ⟨t, lineNo⟩, { s with pending := .ok rest, lineNo := lineNo })

/-- The next logical line; nothing when there is none. -/
def next (s : Source) : Option (Except IoError LogicalLine) × Source :=
  match s.readLogical with
  | (.error e, s) => (some (.error e), s)
  | (.ok none, s) => (none, s)
  | (.ok (some line), s) => (some (.ok line), s)

theorem length_joinLines (text : String) (lineNo : Nat) (lines : List Bytes) :
    (joinLines text lineNo lines).2.1.length ≤ lines.length := by
  fun_induction joinLines text lineNo lines with
  | case1 => exact Nat.le_refl _
  | case2 => exact Nat.le_refl _
  | case3 => exact Nat.le_refl _
  | case4 => exact Nat.le_succ _
  | case5 _ _ _ _ _ _ _ _ ih => exact Nat.le_succ_of_le ih

/-- Reading a logical line leaves fewer physical lines to read. -/
theorem length_readLogical {s s' : Source} {line : LogicalLine}
    (h : s.readLogical = (.ok (some line), s')) :
    s'.remaining.length < s.remaining.length := by
  unfold readLogical at h
  split at h
  · simp at h
  · simp at h
  · rename_i text s₁ hphys
    have hlt : s₁.remaining.length < s.remaining.length := by
      unfold readPhysical at hphys
      split at hphys <;> simp_all [remaining]
      split at hphys <;> simp_all
      obtain ⟨-, rfl⟩ := hphys
      simp
    have hle := length_joinLines text s₁.lineNo s₁.remaining
    rcases hj : joinLines text s₁.lineNo s₁.remaining with ⟨result, rest, lineNo⟩
    rw [hj] at h hle
    simp only [Prod.mk.injEq] at h
    obtain ⟨-, rfl⟩ := h
    exact Nat.lt_of_le_of_lt hle hlt

end Source

end ScpiScript
