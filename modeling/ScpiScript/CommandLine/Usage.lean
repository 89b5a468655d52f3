/-!
# The usage text

- `usage` is what the program prints when it is asked for help, or is called in a
  way that it does not understand.
-/

namespace ScpiScript

/-- The lines of the usage text. -/
def usageLines : List String :=
  ["Usage: arbscript [-d] [-n] <action>...",
   "where <action> is 0 or more of:",
   " -i <instrument address>   open a session (fake, TCPIP0::host::port::SOCKET, host:port)",
   " -e <lua code>             evaluate code",
   " -f <script file | ->      interpret a script file, or standard input",
   " -h, -?, --help            print this help and stop",
   "and",
   " -d                        debug logging",
   " -n                        do not load the rc file",
   "",
   "Script files are line oriented.  A '\\' at line end continues the line.",
   "",
   "The leading character selects the action for a logical line:",
   " '!'  send the text immediately as an instrument command. [a]",
   " '&'  send the text as a buffered instrument command. [a]",
   " '*'  send the text with a length-prefixed parameter block. [a,b]",
   " '?'  send the text as a query and print the reply.",
   " '='  evaluate the text, or a block of lines up to one starting with '_', as Lua.",
   " '@'  send the text followed by a float vector as a binary block. [a,c]",
   " '>'  print the text with brace-enclosed variables replaced.",
   " '<'  interpret the file named by the text.",
   " '%'  comment.",
   " '.'  stop the script.",
   "",
   "[a] \x7bname\x7d is replaced by the value of Lua global 'name'.  An undefined",
   "    name abandons the line.",
   "[b] The text after '#' is prefixed by its length as <digits><length>.",
   "[c] A trailing \x7bname\x7d selects the vector to send; the default is 'samples'."]

/-- The usage text. -/
def usage : String := String.join (usageLines.map (· ++ "\n"))

end ScpiScript
