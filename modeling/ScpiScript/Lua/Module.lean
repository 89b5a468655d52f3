import ScpiScript.Lua.Chunk
import ScpiScript.Lua.Memory
/-!
# Modules

A module is code in a file that is run once, under a name. It is looked for in three
places: among functions that were put aside, among files of code, and among compiled
files, of which none is ever loaded. Each place that has no such module says so.

- `Module.search` looks for a module in one place.
- `Module.missing` is the message for one that is in none.
-/

namespace ScpiScript.Lua.Module

/-! ## Tables -/

/-- The table of the settings of modules. -/
def settings : Nat := 2

/-- The table of the results of modules that were loaded. -/
def loaded : Nat := 3

/-- The table of the functions that were put aside as modules. -/
def preloaded : Nat := 4

/-- The table of the places where modules are looked for. -/
def searchers : Nat := 5

/-! ## Files -/

/-- A template with each question mark replaced by a name. -/
def fill (template name : List Char) : List Char :=
  template.flatMap fun c => if c = '?' then name else [c]

/-- The paths at which a module is looked for, in order: the parts between semicolons
of the templates filled with the name, in which a point separates directories. -/
def candidates (templates name : String) : List String :=
  let path := name.toList.map fun c => if c = '.' then '/' else c
  ((fill templates.toList path).splitOn ';').map String.ofList

/-- The first of some paths at which something is. -/
def find? (files : FileTree) (paths : List String) : Option (String × Node) :=
  paths.findSome? fun path =>
    match files.find path with
    | .ok node => some (path, node)
    | .error _ => none

/-- The templates of the standard library's own places. -/
def standardPath : String :=
  ";".intercalate ["/usr/local/share/lua/5.4/?.lua", "/usr/local/share/lua/5.4/?/init.lua",
    "/usr/local/lib/lua/5.4/?.lua", "/usr/local/lib/lua/5.4/?/init.lua", "./?.lua",
    "./?/init.lua"]

/-- The code of a module file: a first line that begins with a number sign is left
out, as is a byte order mark before it. -/
def code (content : Bytes) : Bytes :=
  let content := if [0xEF, 0xBB, 0xBF].isPrefixOf content then content.drop 3 else content
  if content.head? = some 35 then content.dropWhile (· ≠ 10) else content

/-- The longest name of a chunk in messages, in bytes. -/
def longestName : Nat := 59

/-- The name of a module file in messages; of a long one, its end. -/
def shownPath (path : String) : Bytes :=
  let bytes := Utf8.encode path
  if bytes.length ≤ longestName then bytes
  else Utf8.encode "..." ++ bytes.drop (bytes.length - (longestName - 3))

/-- The function that a module file is, or the message for why it is none. `depth` is
how many calls are running on the engine's own stack. -/
def load (path : String) (node : Node) (depth : Nat) : Except Bytes Prototype :=
  match node with
  | .directory => .error (Utf8.encode s!"cannot read {path}: Is a directory")
  | .file content =>
    match Chunk.read (shownPath path) (code content) depth with
    | .ok prototype => .ok prototype
    | .error e => .error (e.message (shownPath path))

/-! ## Searching -/

/-- What a place has for the name of a module. -/
inductive Found
  /-- The function of a file, with its path. -/
  | file (prototype : Prototype) (path : String)
  /-- A function of code that was put aside. -/
  | closure (i : Nat)
  /-- A function of the engine that was put aside. -/
  | builtin (f : Builtin)
  /-- Nothing, and perhaps a message that says so. -/
  | missing (message : Bytes)
  /-- An error, which ends the search. -/
  | bad (message : Bytes)

/-- The message of a value that is found instead of a function. -/
def messageOf (v : Value) : Bytes := (v.toBytes?.map (Utf8.encode "\n\t" ++ ·)).getD []

/-- The file of a module under the templates in the settings. -/
def searchFiles (m : Memory) (name : String) (depth : Nat) : Found :=
  match ((m.table settings).get (.ofText "path")).toText? with
  | none => .bad (Utf8.encode "'package.path' must be a string")
  | some templates =>
    let paths := candidates templates name
    match find? m.files paths with
    | none => .missing (Utf8.encode (String.join (paths.map fun path => s!"\n\tno file '{path}'")))
    | some (path, node) =>
      match load path node depth with
      | .ok prototype => .file prototype path
      | .error message => .bad (Utf8.encode
          s!"error loading module '{name}' from file '{path}':\n\t" ++ message)

/-- A module in one place. -/
def search (m : Memory) (name : String) (depth : Nat) : Searcher → Found
  | .preloaded =>
    match (m.table preloaded).get (.ofText name) with
    | .nil => .missing (Utf8.encode s!"\n\tno field package.preload['{name}']")
    | .closure i => .closure i
    | .builtin f => .builtin f
    | v => .missing (messageOf v)
  | .files => searchFiles m name depth
  | .compiled => .missing (Utf8.encode "\n\t\n\tcan't load C modules in safe mode")

/-- The places where modules are looked for: those under the first integer keys of a
table, up to the first key without one. -/
def places (t : Table) : List Searcher :=
  t.sequence.filterMap fun
    | .builtin (.searcher place) => some place
    | _ => none

/-- A module in the first of some places that has it, or the messages of all. -/
def searchAll (m : Memory) (name : String) (depth : Nat) : List Searcher → Found
  | [] => .missing []
  | place :: rest =>
    match search m name depth place with
    | .missing message =>
      match searchAll m name depth rest with
      | .missing more => .missing (message ++ more)
      | found => found
    | found => found

/-- The message for a module that is in none of the places. -/
def missing (name : String) (messages : Bytes) : Bytes :=
  Utf8.encode s!"module '{name}' not found:" ++ messages

/-- The name of a module as it is looked for: it ends at the first zero byte. -/
def shortName (name : String) : String :=
  String.ofList (name.toList.takeWhile (· ≠ '\x00'))

end ScpiScript.Lua.Module
