import ClusterRing.Address.Basic
import ClusterRing.Text.Blank
import ClusterRing.Text.Decimal

/-!
# Reading addresses

An address is written as `host:port`, with blank characters around it ignored.
The last colon ends the host, so a host may hold colons itself. A list of
addresses is separated by commas and blank characters.
-/

namespace ClusterRing.Address

open Text

/-- Why a text is no address. -/
inductive Fault where
  /-- The text holds no colon. -/
  | missingPort (text : String)
  /-- What follows the last colon is no port number. -/
  | badPort (text : String) (cause : Decimal.Fault)
  /-- Nothing precedes the last colon. -/
  | emptyHost (port : UInt16)
deriving DecidableEq

/-- The fault in words. -/
def Fault.message : Fault → String
  | .missingPort text => s!"missing port in '{text}'"
  | .badPort text cause => s!"bad port in '{text}': {cause.message}"
  | .emptyHost port => s!"empty host in ':{port.toNat}'"

/-- The address of a host and port; an empty host is a fault. -/
def ofParts (host : String) (port : UInt16) : Except Fault Address :=
  if nonempty : host ≠ "" then .ok ⟨host, port, nonempty⟩ else .error (.emptyHost port)

/-- The largest port. -/
def maxPort : Nat := 65535

/-- Reads an address, ignoring blank characters around it. -/
def parse (input : String) : Except Fault Address :=
  let trimmed := trim input.toList
  match splitAtLast? ':' trimmed with
  | none => .error (.missingPort (String.ofList trimmed))
  | some (host, digits) =>
    match Decimal.read maxPort digits with
    | .error cause => .error (.badPort (String.ofList trimmed) cause)
    | .ok port => ofParts (String.ofList host) (UInt16.ofNat port)

/-- Whether a character stands between the addresses of a list. -/
def separates (char : Char) : Bool :=
  char = ',' || isBlank char

/-- Reads each text as an address; the first fault decides. -/
def parseAll (inputs : List String) : Except Fault (List Address) :=
  inputs.mapM parse

/-- Reads a list of addresses; the first fault decides. -/
def parseList (input : String) : Except Fault (List Address) :=
  parseAll ((pieces separates input.toList).map String.ofList)

end ClusterRing.Address
