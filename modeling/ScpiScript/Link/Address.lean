import ScpiScript.Decimal.Numeral
import ScpiScript.Text.Blank
/-!
# Instrument addresses

An address names the dry run, or a host and a port, in one of two notations: the
resource form `TCPIP0::host::port::SOCKET` and the short form `host:port`. The
port may be left out of either.

- `Address.ofText?` reads an address.
-/

namespace ScpiScript

/-- Where an instrument is. -/
inductive Address
  /-- Nowhere: a dry run. -/
  | fake
  | socket (host : String) (port : Nat)
  deriving DecidableEq, Repr

namespace Address

open Text

/-- The port of an address that names none. -/
def defaultPort : Nat := 5025

/-- The largest port. -/
def maxPort : Nat := 65535

/-- An ASCII letter made small; any other character as it is. -/
def lowerAscii (c : Char) : Char :=
  if 'A' ≤ c && c ≤ 'Z' then Char.ofNat (c.toNat + 32) else c

/-- Two texts differ at most in the case of ASCII letters. -/
def sameIgnoringCase (xs ys : List Char) : Bool :=
  xs.map lowerAscii == ys.map lowerAscii

/-- The parts of a text between double colons, taken from the left. -/
def splitDoubleColon : List Char → List (List Char)
  | [] => [[]]
  | ':' :: ':' :: rest => [] :: splitDoubleColon rest
  | c :: rest =>
    match splitDoubleColon rest with
    | [] => [[c]]
    | part :: parts => (c :: part) :: parts

/-- A board name: `TCPIP` in any case and a run of digits, possibly empty. -/
def isBoard (cs : List Char) : Bool :=
  sameIgnoringCase (cs.take 5) "tcpip".toList && (cs.drop 5).all Char.isDigit

/-- The host and port of a resource, given its parts. -/
def ofParts? (parts : List (List Char)) : Option Address :=
  match parts with
  | [board, host, last] => resource? board host last (some defaultPort)
  | [board, host, port, last] => resource? board host last (Decimal.readUpTo? maxPort port)
  | _ => none
where
  /-- The resource with these parts, if they have the form of one. -/
  resource? (board host last : List Char) (port? : Option Nat) : Option Address :=
    if isBoard board && sameIgnoringCase last "socket".toList && !host.isEmpty then
      port?.map fun port => .socket (String.ofList host) port
    else none

/-- The host and port of a short form, cut at its last colon. -/
def ofShort? (cs : List Char) : Option Address :=
  if cs.isEmpty || cs.any isBlank then none
  else
    let portBack := cs.reverse.takeWhile (· ≠ ':')
    match cs.reverse.dropWhile (· ≠ ':') with
    | [] => some (.socket (String.ofList cs) defaultPort)
    | _ :: hostBack =>
      if hostBack.isEmpty then none
      else (Decimal.readUpTo? maxPort portBack.reverse).map fun port =>
        .socket (String.ofList hostBack.reverse) port

/-- The address that a text denotes, blanks at its ends aside. -/
def ofText? (text : String) : Option Address :=
  let cs := trimChars text.toList
  if sameIgnoringCase cs "fake".toList then some .fake
  else
    let parts := splitDoubleColon cs
    if 1 < parts.length then ofParts? parts else ofShort? cs

end Address

end ScpiScript
