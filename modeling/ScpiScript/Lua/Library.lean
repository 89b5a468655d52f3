import ScpiScript.Lua.Module
import ScpiScript.Lua.Operation
/-!
# Functions and global variables at the start

- `Builtin.call` is what the functions do that neither run code nor look at the calls
  that led to them.
- `Memory.initial` is the memory before any code has run: the functions and the
  instrument under their names, an empty vector as `samples`, and the names of the
  standard library.

What the functions of the standard library do is outside of this development, but for
`tostring`, `error` and `require`. Their names are there, as code may look them up and hand
them on, but a call is refused where the language would run the function.
-/

namespace ScpiScript.Lua

/-! ## Arguments -/

/-- An argument of a call, nil where there is none. -/
def argument (arguments : List Value) (i : Nat) : Value := arguments[i]?.getD .nil

/-- An argument that has to be a text. -/
def textArgument (arguments : List Value) (i : Nat) : LuaM String :=
  match (argument arguments i).toText? with
  | some text => return text
  | none =>
    throw (.refused s!"bad argument #{i + 1}: string expected, got {(argument arguments i).kind}")

/-- A text argument that may be left out. -/
def optionalText (arguments : List Value) (i : Nat) : LuaM (Option String) :=
  match argument arguments i with
  | .nil => return none
  | _ => do return some (← textArgument arguments i)

/-- The argument that a function of the instrument takes as a vector; the first
argument of such a function is the instrument. -/
def vectorArgument (f : String) (arguments : List Value) : LuaM (List Binary32) := do
  let v := argument arguments 2
  let samples := (← get).samples? v
  modify fun m => m.sampled v
  match samples with
  | some samples => return samples
  | none =>
    throw (.refused s!"bad argument #2 to '{f}' (float vector expected, got {v.kind})")

/-- The vector that a function was called on. -/
def receiver (arguments : List Value) : LuaM Nat :=
  match argument arguments 0 with
  | .vector i => return i
  | v => throw (.refused s!"bad argument #1: FloatList expected, got {v.kind}")

/-! ## Functions -/

/-- The text that a value prints as. -/
def displayText (m : Memory) : Value → Bytes
  | .nil => Utf8.encode "nil"
  | .bool b => Utf8.encode (if b then "true" else "false")
  | .number n => Utf8.encode n.text
  | .str bytes => bytes
  | .vector i => Utf8.encode (vectorText (m.vector i).toList)
  | v => Utf8.encode (v.shownType ++ ": 0x0")

/-- The flag that an argument is: true where it is left out. -/
def flagArgument (v : Value) : Bool :=
  match v with
  | .nil => true
  | v => v.isTrue

/-- Put a sample at the end of a vector. -/
def addSample (arguments : List Value) : LuaM (List Value) := do
  let i ← receiver arguments
  match (argument arguments 1).toSample? with
  | some x =>
    modify fun m => m.modifyVector i (·.push x)
    return []
  | none =>
    throw (.refused s!"bad argument #2: number expected, got {(argument arguments 1).kind}")

/-- Take all samples from a vector. -/
def clearVector (arguments : List Value) : LuaM (List Value) := do
  let i ← receiver arguments
  modify fun m => m.modifyVector i fun _ => #[]
  return []

/-- The results of a call of a function that runs no code. -/
def Builtin.call (f : Builtin) (arguments : List Value) : LuaM (List Value) := do
  match f with
  | .tostring => return [.str (displayText (← get) (argument arguments 0))]
  | .exit => throw (.exit ((← optionalText arguments 0).getD ""))
  | .newVector => return [← LuaM.add fun m => m.addVector #[]]
  | .add => addSample arguments
  | .clear => clearVector arguments
  | .command =>
    let text ← textArgument arguments 1
    LuaM.demand (LuaM.inquire (.command text (flagArgument (argument arguments 2))))
    return []
  | .query =>
    let text ← textArgument arguments 1
    return [.ofText (← LuaM.demand (LuaM.inquire (.query text)))]
  | .sendBlock =>
    let lead ← textArgument arguments 1
    let samples ← vectorArgument "send_block" arguments
    LuaM.demand (LuaM.inquire (.sendBlock lead samples))
    return []
  | .sendFloats =>
    let lead ← textArgument arguments 1
    let samples ← vectorArgument "send_floats" arguments
    return [.bool (← LuaM.demand (LuaM.inquire (.sendFloats lead samples)))]
  | .sendParameter =>
    let text ← textArgument arguments 1
    return [.bool (← LuaM.demand (LuaM.inquire (.sendParameter text)))]
  | .error => throw (.raised (argument arguments 0))
  | .require => throw (.refused "require is not available here")
  | .searcher _ => throw (.refused "the places of modules are not available here")
  | .library name => throw (.refused (name ++ " is not available"))

/-! ## Global variables -/

namespace Memory

/-- The functions of the standard library's parts, by the name of the part. -/
def libraries : List (String × List String) :=
  [("string", ["byte", "char", "dump", "find", "format", "gmatch", "gsub", "len", "lower",
      "match", "pack", "packsize", "rep", "reverse", "sub", "unpack", "upper"]),
    ("coroutine", ["close", "create", "isyieldable", "resume", "running", "status", "wrap",
      "yield"]),
    ("io", ["close", "flush", "input", "lines", "open", "output", "popen", "read", "tmpfile",
      "type", "write"]),
    ("math", ["abs", "acos", "asin", "atan", "atan2", "ceil", "cos", "cosh", "deg", "exp",
      "floor", "fmod", "frexp", "ldexp", "log", "log10", "max", "min", "modf", "pow", "rad",
      "random", "randomseed", "sin", "sinh", "sqrt", "tan", "tanh", "tointeger", "type", "ult"]),
    ("os", ["clock", "date", "difftime", "execute", "getenv", "remove", "rename", "setlocale",
      "time", "tmpname"]),
    ("table", ["concat", "insert", "move", "pack", "remove", "sort", "unpack"]),
    ("utf8", ["char", "codepoint", "codes", "len", "offset"]),
    ("package", ["loadlib", "searchpath"])]

/-- The functions that have a name of their own and cannot be called here. -/
def plainFunctions : List String :=
  ["assert", "collectgarbage", "dofile", "getmetatable", "ipairs", "load", "loadfile", "next",
    "pairs", "pcall", "print", "rawequal", "rawget", "rawlen", "rawset", "select",
    "setmetatable", "tonumber", "type", "warn", "xpcall"]

/-- An entry under a name. -/
def entry (name : String) (value : Value) : Value × Value := (.ofText name, value)

/-- A function that can be named but not called, as an entry. -/
def functionEntry (part name : String) : Value × Value :=
  entry name (.builtin (.library (part ++ name)))

/-- The pattern of one character in a text. -/
def characterPattern : Bytes :=
  Utf8.encode "[" ++ [0x00, 0x2D, 0x7F, 0xC2, 0x2D, 0xFD] ++ Utf8.encode "][" ++
    [0x80, 0x2D, 0xBF] ++ Utf8.encode "]*"

/-- The entries of a part of the standard library that are no such functions. -/
def otherEntries (path : String) : (part : String) → List (Value × Value)
  | "math" =>
    [entry "pi" (.number (.float ⟨0x400921FB54442D18⟩)),
      entry "huge" (.number (.float (.infinite false))),
      entry "maxinteger" (.number (.int Int64.maxValue)),
      entry "mininteger" (.number (.int Int64.minValue))]
  | "os" => [entry "exit" (.builtin .exit)]
  | "io" => ["stdin", "stdout", "stderr"].map fun name => entry name (.stream name)
  | "utf8" => [entry "charpattern" (.str characterPattern)]
  | "package" =>
    [entry "path" (.ofText path), entry "cpath" (.ofText ""),
      entry "config" (.ofText "/\n;\n?\n!\n-\n"), entry "loaded" (.table Module.loaded),
      entry "preload" (.table Module.preloaded), entry "searchers" (.table Module.searchers)]
  | _ => []

/-- The table of a part of the standard library. -/
def libraryTable (path : String) (part : String) : Table :=
  let functions := ((libraries.lookup part).getD []).map (functionEntry (part ++ "."))
  .ofEntries (functions ++ otherEntries path part)

/-- The parts of the standard library that stand behind the tables of modules. -/
def laterParts : List String := ["coroutine", "io", "math", "os", "table", "utf8"]

/-- The parts of the standard library under their names. -/
def partEntries : List (Value × Value) :=
  [entry "string" (.table Operation.textFunctions), entry "package" (.table Module.settings)] ++
    (laterParts.zipIdx (Module.searchers + 1)).map fun part => entry part.1 (.table part.2)

/-- The global variables at the start. -/
def initialGlobals : List (Value × Value) :=
  plainFunctions.map (functionEntry "") ++
  [entry "error" (.builtin .error), entry "tostring" (.builtin .tostring),
    entry "require" (.builtin .require), entry "_VERSION" (.ofText "Lua 5.4"),
    entry "_G" (.table globalTable), entry "arb" .instrument,
    entry "FloatList" (.builtin .newVector), entry "exit" (.builtin .exit),
    entry "samples" (.vector 0)] ++
  partEntries

/-- The table of the modules that are loaded at the start. -/
def loadedModules : Table := .ofEntries (entry "_G" (.table globalTable) :: partEntries)

/-- The table of the places where modules are looked for. -/
def moduleSearchers : Table :=
  Table.empty.fill 0 ([.preloaded, .files, .compiled].map fun s => .builtin (.searcher s))

/-- The memory at the start, for modules in these files under these templates. -/
def initial (files : FileTree) (path : String) : Memory where
  tables :=
    ([.ofEntries initialGlobals, libraryTable path "string", libraryTable path "package",
      loadedModules, .empty, moduleSearchers] ++ laterParts.map (libraryTable path)).toArray
  vectors := #[#[]]
  cells := #[]
  closures := #[]
  files := files

end Memory

end ScpiScript.Lua
