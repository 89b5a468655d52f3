/-!
# Failures of input and output

- `IoError` names what can go wrong with a file, a text read from it, or the link
  to the instrument; `IoError.message` is its wording.
-/

namespace ScpiScript

/-- Why an input or output operation failed. -/
inductive IoError
  | notFound
  | isDirectory
  | notDirectory
  | nameTooLong
  /-- A path holds the character that ends a name. -/
  | nulInPath
  /-- No further file can be opened while so many are in use. -/
  | tooManyOpen
  | invalidUtf8
  /-- No connection can be made to a host. -/
  | unreachable
  | timedOut (operation : String)
  /-- The other side of a link is gone. -/
  | linkDown
  deriving DecidableEq, Repr

/-- The wording of a failure. Those of the operating system carry its number. -/
def IoError.message : IoError → String
  | notFound => "No such file or directory (os error 2)"
  | isDirectory => "Is a directory (os error 21)"
  | notDirectory => "Not a directory (os error 20)"
  | nameTooLong => "File name too long (os error 36)"
  | nulInPath => "file name contained an unexpected NUL byte"
  | tooManyOpen => "Too many open files (os error 24)"
  | invalidUtf8 => "stream did not contain valid UTF-8"
  | timedOut operation => s!"{operation} timed out"
  | linkDown => "link down"
  | unreachable => "Connection refused (os error 111)"

end ScpiScript
