import ScpiScript.Text.Blank
/-!
# Words of a settings line

The words of a line are separated by ASCII blanks. Double quotes keep the blanks
between them in a word, and a backslash between quotes keeps the character after
it, a quote or a backslash included. Quotes around nothing make no word.

- `splitWords` is the list of words.
-/

namespace ScpiScript.Settings

open Text

/-- A word, unless it is empty. -/
def wordOf (current : List Char) : List (List Char) :=
  if current.isEmpty then [] else [current]

/-- The words of the rest of a line, behind the part of a word already read; the
flag says whether a quote is open. A quote that is never closed ends with the line. -/
def wordsFrom : (quoted : Bool) → (current : List Char) → List Char → List (List Char)
  | _, current, [] => wordOf current
  | true, current, '\\' :: c :: rest => wordsFrom true (current ++ [c]) rest
  | true, current, ['\\'] => wordOf current
  | true, current, c :: rest =>
    if c = '"' then wordsFrom false current rest else wordsFrom true (current ++ [c]) rest
  | false, current, c :: rest =>
    if c = '"' then wordsFrom true current rest
    else if isAsciiBlank c then wordOf current ++ wordsFrom false [] rest
    else wordsFrom false (current ++ [c]) rest

/-- The words of a line. -/
def splitWords (line : List Char) : List (List Char) := wordsFrom false [] line

end ScpiScript.Settings
