import ScpiScript.Block.Sample
import ScpiScript.Scope.Store
import ScpiScript.Settings.Words
/-!
# Settings

A settings file has one command to a line. A `/set` command gives a name a value;
known names configure the program and every other name becomes a text variable of
the scope. Comments, other commands and other lines are skipped.

- `Settings.load` reads a text. A line that fails is reported by its number and
  leaves every setting as it was.
-/

namespace ScpiScript

open Block

/-- What a settings file can set. -/
structure Settings where
  /-- How long to wait for an instrument, in milliseconds. -/
  timeout : Nat
  /-- The instrument to open before anything else. -/
  address : Option String
  /-- Directories with modules of the script engine. -/
  modulePath : List String
  /-- The vector to send when a line names none. -/
  vector : Option String
  byteOrder : ByteOrder
  /-- Variables of the script scope. -/
  vars : Store

/-- Why a line of a settings file failed. -/
inductive SettingError
  | noArgument
  | noValue (name : String)
  | noName
  | badTimeout (value : String)
  | badByteOrder (value : String)
  deriving DecidableEq, Repr

/-- A failed line of a settings file, by its number from one. -/
structure SettingFailure where
  line : Nat
  cause : SettingError
  deriving DecidableEq, Repr

/-- The message for the cause of a failed line. -/
def SettingError.message : SettingError → String
  | noArgument => "/set: requires an argument"
  | noValue name => s!"/set: missing value for '{name}'"
  | noName => "/set: variable name cannot be empty"
  | badTimeout value => s!"timeout_ms: not a number of milliseconds: '{value}'"
  | badByteOrder value => s!"byte_order: expected 'little' or 'big', got '{value}'"

/-- The message for a failed line. -/
def SettingFailure.message (f : SettingFailure) : String := s!"line {f.line}: " ++ f.cause.message

namespace Settings

open Text

/-- The settings before any file is read. -/
def default : Settings := ⟨5000, none, [], none, .little, .empty⟩

/-- The largest waiting time that can be set. -/
def maxTimeout : Nat := UInt64.size - 1

/-- A text, unless it is empty. -/
def nonEmpty? (value : String) : Option String := if value = "" then none else some value

/-- The settings after a name is given a value. -/
def apply (s : Settings) (name value : String) : Except SettingError Settings :=
  match name with
  | "timeout_ms" =>
    match Decimal.readUpTo? maxTimeout value.toList with
    | some ms => .ok { s with timeout := ms }
    | none => .error (.badTimeout value)
  | "address" => .ok { s with address := nonEmpty? value }
  | "lua_path" =>
    .ok { s with
      modulePath := ((value.toList.splitOn ';').filter (!·.isEmpty)).map String.ofList }
  | "vector" => .ok { s with vector := nonEmpty? value }
  | "byte_order" =>
    match ByteOrder.ofText? value with
    | some order => .ok { s with byteOrder := order }
    | none => .error (.badByteOrder value)
  | _ => .ok { s with vars := s.vars.set name (.text value) }

/-- The name and value that the words of a command give: `name=value`, the words
after the first continuing the value, or `name value`. -/
def nameAndValue (words : List (List Char)) : Except SettingError (String × String) :=
  match words with
  | [] => .error .noArgument
  | first :: more =>
    let name := first.takeWhile (· ≠ '=')
    let parts :=
      match first.dropWhile (· ≠ '='), more with
      | _ :: value, _ => some (name, value :: more)
      | [], [] => none
      | [], _ => some (first, more)
    match parts with
    | none => .error (.noValue (String.ofList first))
    | some (name, value) =>
      if name.isEmpty then .error .noName
      else .ok (String.ofList name, String.intercalate " " (value.map String.ofList))

/-- The argument of a `/set` command; nothing for any other line. -/
def argument? (line : List Char) : Option (List Char) :=
  match trimChars line with
  | '/' :: rest =>
    if rest.takeWhile (!isAsciiBlank ·) = "set".toList then
      some (trimChars (rest.dropWhile (!isAsciiBlank ·)))
    else none
  | _ => none

/-- The settings after a line of a file. -/
def applyLine (s : Settings) (line : List Char) : Except SettingError Settings :=
  match argument? line with
  | none => .ok s
  | some argument =>
    match nameAndValue (splitWords argument) with
    | .ok (name, value) => s.apply name value
    | .error e => .error e

/-- The settings after numbered lines, and the lines that failed. -/
def loadLines (s : Settings) (number : Nat) : List (List Char) → Settings × List SettingFailure
  | [] => (s, [])
  | line :: rest =>
    match s.applyLine line with
    | .ok s => loadLines s (number + 1) rest
    | .error cause =>
      let (final, failures) := loadLines s (number + 1) rest
      (final, ⟨number, cause⟩ :: failures)

/-- The settings that a text makes, and the lines of it that failed. -/
def load (text : String) : Settings × List SettingFailure :=
  loadLines default 1 (text.toList.splitOn '\n')

end Settings

end ScpiScript
