import ScpiScript.Text.Blank
/-!
# Directives

The first character of a logical line says what the line asks for; the rest,
without blanks at its ends, is what it asks it of.

- `Directive.ofLine?` classifies a line.
-/

namespace ScpiScript

/-- What a logical line asks for. -/
inductive Directive
  /-- Send a command with its end of message. -/
  | immediate (tail : String)
  /-- Send a command and leave its message open. -/
  | buffered (tail : String)
  /-- Send a command with a counted parameter. -/
  | parameterBlock (tail : String)
  /-- Send a vector of samples behind a lead text. -/
  | sampleBlock (tail : String)
  /-- Send a query and print the reply. -/
  | query (tail : String)
  /-- Print a text. -/
  | echo (tail : String)
  /-- Run code; with an empty tail, the lines that follow. -/
  | evaluate (tail : String)
  | comment
  /-- Interpret another file. -/
  | includeFile (path : String)
  /-- Stop the source. -/
  | terminate
  | unknown (lead : Char)
  deriving DecidableEq, Repr

/-- What a line asks for; nothing for an empty line. -/
def Directive.ofLine? (line : String) : Option Directive :=
  match line.toList with
  | [] => none
  | lead :: rest =>
    let tail := String.ofList (Text.trimChars rest)
    some (match lead with
      | '!' => .immediate tail
      | '&' => .buffered tail
      | '*' => .parameterBlock tail
      | '@' => .sampleBlock tail
      | '?' => .query tail
      | '>' => .echo tail
      | '=' => .evaluate tail
      | '%' => .comment
      | '<' => .includeFile tail
      | '.' => .terminate
      | other => .unknown other)

end ScpiScript
