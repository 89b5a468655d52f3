import ScpiScript.Link.Basic
/-!
# Links in memory

- `MemoryLink` records what is written and answers with replies queued before.
- `FaultyLink` is a memory link some of whose writes fail, and whose closing may
  fail; a write that fails records nothing.
-/

namespace ScpiScript

/-- A link that records frames and gives queued replies. -/
structure MemoryLink where
  frames : List Frame
  replies : List String
  closed : Bool
  deriving DecidableEq, Repr, Inhabited

namespace MemoryLink

/-- A link on which nothing has happened yet. -/
def fresh : MemoryLink := ⟨[], [], false⟩

/-- Queue a reply for a later read. -/
def pushReply (l : MemoryLink) (reply : String) : MemoryLink :=
  { l with replies := l.replies ++ [reply] }

/-- Record a frame. -/
def record (l : MemoryLink) (f : Frame) : MemoryLink := { l with frames := l.frames ++ [f] }

/-- The byte stream written so far. -/
def wire (l : MemoryLink) : Bytes := ScpiScript.wire l.frames

/-- Take the next reply; without one the wait for it runs out. -/
def readLine (l : MemoryLink) : Except IoError String × MemoryLink :=
  match l.replies with
  | reply :: rest => (.ok reply, { l with replies := rest })
  | [] => (.error (.timedOut "read"), l)

instance : Link MemoryLink where
  write l f := (.ok (), l.record f)
  readLine := readLine
  close l := (.ok (), { l with closed := true })

end MemoryLink

/-- A memory link with faults: which of its writes, counted from zero, fail, and
whether closing it does. -/
structure FaultyLink where
  memory : MemoryLink
  writeFails : Nat → Bool
  writes : Nat
  closeFails : Bool

namespace FaultyLink

/-- A link without faults on which nothing has happened yet. -/
def fresh : FaultyLink := ⟨.fresh, fun _ => false, 0, false⟩

/-- From now on, so many writes succeed and every later one fails; without a
number, all succeed. -/
def failAfter (l : FaultyLink) (count : Option Nat) : FaultyLink :=
  { l with writeFails := fun k => count.any fun n => l.writes + n ≤ k }

/-- A fresh link under the faults of this one. -/
def successor (l : FaultyLink) : FaultyLink := { l with memory := .fresh }

instance : Link FaultyLink where
  write l f :=
    if l.writeFails l.writes then (.error .linkDown, { l with writes := l.writes + 1 })
    else (.ok (), { l with memory := l.memory.record f, writes := l.writes + 1 })
  readLine l :=
    let (result, memory) := l.memory.readLine
    (result, { l with memory })
  close l :=
    (if l.closeFails then .error .linkDown else .ok (),
      { l with memory := { l.memory with closed := true } })

end FaultyLink

end ScpiScript
