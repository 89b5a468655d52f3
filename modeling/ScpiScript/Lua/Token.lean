import ScpiScript.Lua.Number
import ScpiScript.Text.Utf8
/-!
# Tokens

Code is read byte by byte, each byte standing for the character of the same number.
Blanks and comments separate tokens and are not kept.

- `Lexeme` is a token as it stands in the code.
- `lexemes` cuts code into tokens. The last one is the end of the code, or the place
  where no token could be read.
- `Lexeme.near` is how a message names the place of a token.
-/

namespace ScpiScript.Lua

/-- A token. -/
inductive Token
  | name (text : String)
  /-- A reserved word, an operator or a mark of punctuation. -/
  | symbol (text : String)
  | str (bytes : Bytes)
  | number (n : Number)
  | ending
  /-- No token could be read here. -/
  | malformed (reason : String)
  /-- The code ended inside a token. -/
  | unfinished (reason : String)
  deriving DecidableEq, Repr

/-- A token where it stands in the code. -/
structure Lexeme where
  token : Token
  /-- The line that the token ends in. -/
  line : Nat
  /-- The characters of the token, escape sequences replaced by what they stand for. -/
  text : List Char
  deriving DecidableEq, Repr

namespace Token

/-! ## Characters -/

/-- The byte of the same number. -/
def byte (c : Char) : UInt8 := UInt8.ofNat c.toNat

/-- The bytes of characters that stand for bytes. -/
def bytes (cs : List Char) : Bytes := cs.map byte

/-- A character that ends a line. -/
def isLineEnd (c : Char) : Bool := c = '\n' || c = '\r'

/-- A character that a name may begin with. -/
def isNameStart (c : Char) : Bool := c = '_' || ('a' ≤ c && c ≤ 'z') || ('A' ≤ c && c ≤ 'Z')

/-- A character of a name. -/
def isNamePart (c : Char) : Bool := isNameStart c || c.isDigit

/-- The code behind a line end, which is one character or the two in either order. -/
def afterLineEnd : List Char → List Char
  | '\n' :: '\r' :: rest => rest
  | '\r' :: '\n' :: rest => rest
  | rest => rest.drop 1

/-- How many lines end in some code. -/
def lineEnds : List Char → Nat
  | '\n' :: '\r' :: rest => lineEnds rest + 1
  | '\r' :: '\n' :: rest => lineEnds rest + 1
  | c :: rest => lineEnds rest + if isLineEnd c then 1 else 0
  | [] => 0

/-! ## Texts in long brackets -/

/-- The level of a long bracket, and the code behind it, given the code behind its
first character. -/
def longBracket? (bracket : Char) (cs : List Char) : Option (Nat × List Char) :=
  match cs.dropWhile (· = '=') with
  | c :: rest => if c = bracket then some ((cs.takeWhile (· = '=')).length, rest) else none
  | [] => none

/-- The code begins with the rest of a closing bracket of a level. -/
def closes (level : Nat) (cs : List Char) : Bool :=
  match longBracket? ']' cs with
  | some (n, _) => n = level
  | none => false

/-- The text up to the closing bracket, line ends made equal, and the code behind
the bracket. -/
def longText? (level : Nat) : List Char → Option (List Char × List Char)
  | [] => none
  | '\n' :: '\r' :: rest => (longText? level rest).map fun r => ('\n' :: r.1, r.2)
  | '\r' :: '\n' :: rest => (longText? level rest).map fun r => ('\n' :: r.1, r.2)
  | c :: rest =>
    if c = ']' && closes level rest then some ([], rest.drop (level + 1))
    else (longText? level rest).map fun r => ((if isLineEnd c then '\n' else c) :: r.1, r.2)

/-- The text after an opening bracket, the number of lines that end in the brackets,
and the code behind them. A line end right behind the opening one is no part of the
text. -/
def longString? (level : Nat) (cs : List Char) : Option (List Char × Nat × List Char) :=
  let broken := (cs.head?.map isLineEnd).getD false
  (longText? level (if broken then afterLineEnd cs else cs)).map fun (text, rest) =>
    (text, text.count '\n' + (if broken then 1 else 0), rest)

/-! ## Texts in quotes -/

/-- The bytes of a code point below 2^31, by the pattern of UTF-8 in up to six
bytes. -/
def codePointBytes (n : Nat) : List Char :=
  if n < 0x80 then [Char.ofNat n] else go 5 n 0x3F []
where
  /-- Split off six bits at a time while more remain than fit the first byte. -/
  go : (tries : Nat) → (n top : Nat) → List Char → List Char
    | 0, n, top, tail => lead n top :: tail
    | tries + 1, n, top, tail =>
      if n ≤ top then lead n top :: tail
      else go tries (n / 0x40) (top / 2) (Char.ofNat (0x80 + n % 0x40) :: tail)
  /-- The first byte, `top` being the largest number that it holds. -/
  lead (n top : Nat) : Char := Char.ofNat (0xFF - (2 * top + 1) + n)

/-- What some characters at the beginning of code stand for. -/
structure Escaped where
  text : List Char
  /-- How many lines end in the characters. -/
  lines : Nat
  /-- The code behind them. -/
  rest : List Char

/-- Why an escape sequence stands for nothing, and its characters up to the one that
shows it. -/
structure BadEscape where
  reason : String
  shown : List Char

/-- The first code point that no escape sequence stands for. -/
def codePointLimit : Nat := 0x80000000

/-- The longest beginning of some digits whose number is below the limit of code
points. -/
def smallDigits (digits : List Char) : Nat :=
  ((List.range (digits.length + 1)).reverse.find? fun k =>
    Number.hexNat (digits.take k) < codePointLimit).getD 0

/-- What an escape sequence stands for, given the code behind its backslash. -/
def escape (cs : List Char) : Except BadEscape Escaped :=
  match cs with
  | 'a' :: rest => one '\x07' rest
  | 'b' :: rest => one '\x08' rest
  | 'f' :: rest => one '\x0c' rest
  | 'n' :: rest => one '\n' rest
  | 'r' :: rest => one '\r' rest
  | 't' :: rest => one '\t' rest
  | 'v' :: rest => one '\x0b' rest
  | 'z' :: rest =>
    .ok ⟨[], lineEnds (rest.takeWhile Number.isSpace), rest.dropWhile Number.isSpace⟩
  | 'x' :: rest =>
    let digits := (rest.take 2).takeWhile Number.isHexDigit
    if digits.length = 2 then one (Char.ofNat (Number.hexNat digits)) (rest.drop 2)
    else refuse "hexadecimal digit expected" (1 + digits.length)
  | 'u' :: '{' :: rest => codePoint (rest.takeWhile Number.isHexDigit)
      (rest.dropWhile Number.isHexDigit)
  | 'u' :: _ => refuse "missing '\x7b'" 1
  | c :: rest =>
    if isLineEnd c then .ok ⟨['\n'], 1, afterLineEnd cs⟩
    else if c = '\\' || c = '"' || c = '\'' then one c rest
    else if c.isDigit then
      let digits := (cs.take 3).takeWhile Char.isDigit
      let n := Nat.ofDigitChars 10 digits 0
      if n < 256 then one (Char.ofNat n) (cs.drop digits.length)
      else refuse "decimal escape too large" digits.length
    else refuse "invalid escape sequence" 0
  | [] => .ok ⟨[], 0, []⟩
where
  /-- A sequence that stands for one character. -/
  one (c : Char) (rest : List Char) : Except BadEscape Escaped := .ok ⟨[c], 0, rest⟩
  /-- Fail at the character behind so many good ones. -/
  refuse (reason : String) (good : Nat) : Except BadEscape Escaped :=
    .error ⟨reason, cs.take (good + 1)⟩
  /-- The bytes of a code point, given its digits and the code behind them. -/
  codePoint (digits rest : List Char) : Except BadEscape Escaped :=
    if digits.isEmpty then refuse "hexadecimal digit expected" 2
    else if codePointLimit ≤ Number.hexNat digits then
      refuse "UTF-8 value too large" (2 + smallDigits digits)
    else match rest with
      | '}' :: rest => .ok ⟨codePointBytes (Number.hexNat digits), 0, rest⟩
      | _ => refuse "missing '\x7d'" (2 + digits.length)

/-- A token at the beginning of some code. -/
structure Reading where
  token : Token
  /-- Its characters, escape sequences replaced by what they stand for. -/
  text : List Char
  /-- How many lines end in it. -/
  lines : Nat
  /-- The code behind it. -/
  rest : List Char

/-- The token that a text in quotes is, given the code behind the opening quote, and
the lines and, in reverse, the characters that were read before. `fuel` is more than
the length of the code. -/
def quoted (quote : Char) : (fuel lines : Nat) → (read cs : List Char) → Reading
  | 0, lines, read, cs => ⟨.unfinished "unfinished string", read.reverse, lines, cs⟩
  | fuel + 1, lines, read, cs =>
    match cs with
    | [] => ⟨.unfinished "unfinished string", read.reverse, lines, []⟩
    | '\\' :: rest =>
      match escape rest with
      | .error bad => ⟨.malformed bad.reason, read.reverse ++ '\\' :: bad.shown, lines, rest⟩
      | .ok e => quoted quote fuel (lines + e.lines) (e.text.reverse ++ read) e.rest
    | c :: rest =>
      if c = quote then
        let text := read.reverse
        ⟨.str (bytes (text.drop 1)), text ++ [quote], lines, rest⟩
      else if isLineEnd c then ⟨.malformed "unfinished string", read.reverse, lines, cs⟩
      else quoted quote fuel lines (c :: read) rest

/-! ## Numerals -/

/-- The characters of a numeral and the code behind it. A sign belongs to it right
behind one of the marks of an exponent. -/
def splitNumeral (marks : List Char) (behindMark : Bool) : List Char → List Char × List Char
  | [] => ([], [])
  | c :: rest =>
    if marks.contains c || Number.isHexDigit c || c = '.' ||
        (behindMark && (c = '+' || c = '-')) then
      let (numeral, rest) := splitNumeral marks (marks.contains c) rest
      (c :: numeral, rest)
    else ([], c :: rest)

/-- The numeral that begins some code, with a letter that touches it, and the code
behind it. -/
def numeral (cs : List Char) : List Char × List Char :=
  let (body, rest) := match cs with
    | '0' :: x :: rest =>
      if x = 'x' || x = 'X' then
        let (body, rest) := splitNumeral ['p', 'P'] false rest
        ('0' :: x :: body, rest)
      else splitNumeral ['e', 'E'] false cs
    | _ => splitNumeral ['e', 'E'] false cs
  match rest with
  | c :: behind => if isNameStart c then (body ++ [c], behind) else (body, rest)
  | [] => (body, rest)

/-! ## Words and marks -/

/-- The words that are not names. -/
def reserved : List String :=
  ["and", "break", "do", "else", "elseif", "end", "false", "for", "function", "goto", "if", "in",
    "local", "nil", "not", "or", "repeat", "return", "then", "true", "until", "while"]

/-- The operators and marks of more than one character, the longest first. -/
def longSymbols : List String :=
  ["...", "..", "==", "~=", "<=", ">=", "//", "<<", ">>", "::"]

/-- The operator or mark that begins some code. -/
def symbolText (cs : List Char) : List Char :=
  ((longSymbols.map String.toList).find? fun s => s.isPrefixOf cs).getD (cs.take 1)

/-- The token that a word is. -/
def ofWord (word : List Char) : Token :=
  let text := String.ofList word
  if reserved.contains text then symbol text else name text

/-! ## Reading code -/

/-- An opening or closing bracket of a level. -/
def longBracket (bracket : Char) (level : Nat) : List Char :=
  bracket :: List.replicate level '=' ++ [bracket]

/-- The message for a text in long brackets without an end. -/
def unfinishedLong (what : String) (line : Nat) : Token :=
  .unfinished (s!"unfinished long {what} (starting at line " ++ toString line ++ ")")

/-- The token that begins some code, given code that begins with an opening square
bracket. -/
def bracketed (line : Nat) (cs : List Char) : Reading :=
  match longBracket? '[' (cs.drop 1) with
  | some (level, rest) =>
    match longString? level rest with
    | some (text, lines, rest) =>
      let shown := longBracket '[' level ++ text ++ longBracket ']' level
      ⟨.str (bytes text), shown, lines, rest⟩
    | none => ⟨unfinishedLong "string" line, [], lineEnds rest, []⟩
  | none =>
    let marks := (cs.drop 1).takeWhile (· = '=')
    if marks.isEmpty then ⟨.symbol "[", ['['], 0, cs.drop 1⟩
    else ⟨.malformed "invalid long string delimiter", '[' :: marks, 0, cs.drop 1⟩

/-- The token that begins some code, which does not begin with a blank, a line end or
a comment. `fuel` is more than the length of the code. -/
def next (fuel line : Nat) (cs : List Char) : Reading :=
  match cs with
  | [] => ⟨.ending, [], 0, []⟩
  | c :: rest =>
    if isNameStart c then
      let word := cs.takeWhile isNamePart
      ⟨ofWord word, word, 0, cs.dropWhile isNamePart⟩
    else if c.isDigit || (c = '.' && (rest.head?.map Char.isDigit).getD false) then
      let (text, rest) := numeral cs
      match Number.ofNumeral? false text with
      | some n => ⟨.number n, text, 0, rest⟩
      | none => ⟨.malformed "malformed number", text, 0, rest⟩
    else if c = '"' || c = '\'' then quoted c fuel 0 [c] rest
    else if c = '[' then bracketed line cs
    else
      let text := symbolText cs
      ⟨.symbol (String.ofList text), text, 0, cs.drop text.length⟩

/-- How many lines end in a comment and the code behind it, given the code behind its
two dashes; nothing when its long bracket is never closed. -/
def comment? (cs : List Char) : Option (Nat × List Char) :=
  match cs with
  | '[' :: rest =>
    match longBracket? '[' rest with
    | some (level, rest) => (longString? level rest).map Prod.snd
    | none => some (0, cs.dropWhile fun c => !isLineEnd c)
  | _ => some (0, cs.dropWhile fun c => !isLineEnd c)

/-- The lexemes of some code, given its first line. `fuel` is more than the length
of the code. -/
def lexFrom : (fuel line : Nat) → List Char → List Lexeme
  | 0, line, _ => [⟨.ending, line, []⟩]
  | fuel + 1, line, cs =>
    match cs with
    | [] => [⟨.ending, line, []⟩]
    | '-' :: '-' :: rest =>
      match comment? rest with
      | some (lines, behind) => lexFrom fuel (line + lines) behind
      | none => [⟨unfinishedLong "comment" line, line + lineEnds rest, []⟩]
    | c :: rest =>
      if isLineEnd c then lexFrom fuel (line + 1) (afterLineEnd cs)
      else if Number.isSpace c then lexFrom fuel line rest
      else
        let r := next fuel line cs
        let first : Lexeme := ⟨r.token, line + r.lines, r.text⟩
        match r.token with
        | .malformed _ | .unfinished _ => [first]
        | _ => first :: lexFrom fuel first.line r.rest

/-- The lexemes of some code. -/
def lexemes (code : Bytes) : List Lexeme :=
  lexFrom code.length.succ 1 (code.map fun b => Char.ofNat b.toNat)

end Token

/-- A character that a message can show. -/
def isPrintable (c : Char) : Bool := ' ' ≤ c && c ≤ '~'

/-- How a message names the place of a token: its characters in quotes, up to the
first zero byte. A lone character that cannot be shown is named by its number, and a
zero byte not at all. -/
def Lexeme.near (lexeme : Lexeme) : Bytes :=
  match lexeme.token, lexeme.text with
  | .ending, _ => Utf8.encode " near <eof>"
  | .unfinished _, _ => Utf8.encode " near <eof>"
  | .symbol _, [c] =>
    if c.toNat = 0 then []
    else if isPrintable c then Utf8.encode s!" near '{c}'"
    else Utf8.encode (" near '<\\" ++ toString c.toNat ++ ">'")
  | _, text =>
    Utf8.encode " near '" ++ Token.bytes (text.takeWhile (· ≠ '\x00')) ++ Utf8.encode "'"

end ScpiScript.Lua
