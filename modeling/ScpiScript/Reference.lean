import ScpiScript.Scope.Basic
import ScpiScript.Text.Word
/-!
# References to scope values

A reference is a pair of braces around a run of one or more word characters.
Anything else in braces is ordinary text.

- `segments` cuts a text into ordinary characters and references; `render` is
  its inverse.
- `substitute` puts each referenced value's text in place of its reference. The
  leftmost reference that cannot be read is the error of the whole text, and a
  text that was put in is not looked at again.
- `splitTail` takes a reference off the end of a text.
-/

namespace ScpiScript.Reference

open Text

/-- A part of a text: a character of its own, or a reference to a name. -/
inductive Segment
  | char (c : Char)
  | reference (name : List Char)
  deriving DecidableEq, Repr

/-- The characters of a segment. -/
def Segment.render : Segment → List Char
  | char c => [c]
  | reference name => '{' :: name ++ ['}']

/-- The characters of a list of segments. -/
def render (parts : List Segment) : List Char := parts.flatMap Segment.render

/-- The name of a reference that begins just before these characters, and what
follows its closing brace. -/
def name? (cs : List Char) : Option (List Char × List Char) :=
  match cs.dropWhile isWord with
  | '}' :: rest => if cs.takeWhile isWord = [] then none else some (cs.takeWhile isWord, rest)
  | _ => none

theorem length_dropWhile_le (p : Char → Bool) (cs : List Char) :
    (cs.dropWhile p).length ≤ cs.length :=
  (List.dropWhile_suffix p).length_le

theorem name?_length {cs name rest : List Char} (h : name? cs = some (name, rest)) :
    rest.length < cs.length := by
  have hle := length_dropWhile_le isWord cs
  unfold name? at h
  split at h
  · rename_i tail hdrop
    split at h
    · cases h
    · obtain ⟨-, rfl⟩ := Prod.mk.inj (Option.some.inj h)
      rw [hdrop, List.length_cons] at hle
      exact hle
  · cases h

/-- The segments of a text. At an opening brace either a reference begins or the
brace is a character of its own. -/
def segments : List Char → List Segment
  | [] => []
  | c :: cs =>
    if c = '{' then
      match _h : name? cs with
      | some (name, rest) => .reference name :: segments rest
      | none => .char c :: segments cs
    else .char c :: segments cs
termination_by cs => cs.length
decreasing_by
  all_goals simp only [List.length_cons]
  all_goals first | omega | (have h := name?_length _h; omega)

/-- The characters that take a segment's place. -/
def Segment.fill (textOf : String → Except ScopeError String) :
    Segment → Except ScopeError (List Char)
  | char c => .ok [c]
  | reference name => (textOf (String.ofList name)).map String.toList

/-- The characters that take the place of a list of segments, or the first error. -/
def fill (textOf : String → Except ScopeError String) :
    List Segment → Except ScopeError (List Char)
  | [] => .ok []
  | part :: parts =>
    match part.fill textOf with
    | .error e => .error e
    | .ok cs => (fill textOf parts).map (cs ++ ·)

/-- A text with every reference replaced by its value's text form. -/
def substitute (textOf : String → Except ScopeError String) (text : String) :
    Except ScopeError String :=
  (fill textOf (segments text.toList)).map String.ofList

/-- A text before a reference at its very end, and the name of that reference. -/
def tail? (cs : List Char) : Option (List Char × List Char) :=
  match cs.reverse with
  | '}' :: back =>
    match back.dropWhile isWord with
    | '{' :: front =>
      if back.takeWhile isWord = [] then none
      else some (front.reverse, (back.takeWhile isWord).reverse)
    | _ => none
  | _ => none

/-- A text without the reference at its very end, and the name of that reference;
the whole text and a default name if it does not end in one. -/
def splitTail (text default : String) : String × String :=
  match tail? text.toList with
  | some (rest, name) => (String.ofList rest, String.ofList name)
  | none => (text, default)

end ScpiScript.Reference
