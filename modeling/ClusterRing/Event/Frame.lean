import ClusterRing.Bytes.LittleEndian
import ClusterRing.Event.Basic

/-!
# Binary frames

The binary form of an event. Numbers are little-endian with a fixed width, a list
or a text is preceded by its length in eight bytes, and an event or a kind of
migration begins with its number in four bytes. Reading stops at the first
problem and ignores bytes after the event.
-/

namespace ClusterRing.Frame

open Bytes

/-- Why a frame is no event. -/
inductive Fault where
  /-- The bytes end early, or hold an unknown number or no text. -/
  | malformed
  /-- A text is no address. -/
  | invalidAddress (cause : Address.Fault)
deriving DecidableEq

/-- The fault in words, where the cause is an address. -/
def Fault.message? : Fault → Option String
  | .malformed => none
  | .invalidAddress cause =>
    some s!"control frame codec error: {(ClusterRing.Fault.invalidAddress cause).message}"

/-! ### Writing -/

/-- A length in eight bytes. -/
def ofLength (length : Nat) : List UInt8 :=
  LittleEndian.ofNat 8 length

/-- A number in four bytes. -/
def ofNumber (number : Nat) : List UInt8 :=
  LittleEndian.ofNat 4 number

/-- An address: the length of its text in bytes, and the text. -/
def ofAddress (node : Address) : List UInt8 :=
  let bytes := node.text.toUTF8.data.toList
  ofLength bytes.length ++ bytes

/-- A list of addresses. -/
def ofAddresses (nodes : List Address) : List UInt8 :=
  ofLength nodes.length ++ nodes.flatMap ofAddress

/-- The number of a kind of migration. -/
def ofKind : Migration.Kind → List UInt8
  | .join => ofNumber 0
  | .leave => ofNumber 1

/-- The frame of an event. -/
def encode : Event → List UInt8
  | .topology attached detached => ofNumber 0 ++ ofAddresses attached ++ ofAddresses detached
  | .prepareMigration kind nodes => ofNumber 1 ++ ofKind kind ++ ofAddresses nodes
  | .rangeApplied start stop => ofNumber 2 ++ ofNumber start.toNat ++ ofNumber stop.toNat
  | .alterChange attached detached => ofNumber 3 ++ ofAddresses attached ++ ofAddresses detached

/-! ### Reading -/

/-- Reads a value from the front of some bytes and leaves the bytes after it. -/
abbrev Reader := StateT (List UInt8) (Except Fault)

/-- Takes a number of bytes. -/
def takeBytes (count : Nat) : Reader (List UInt8) := fun bytes =>
  if count ≤ bytes.length then .ok (bytes.take count, bytes.drop count) else .error .malformed

/-- Reads a number of a given width. -/
def readNat (width : Nat) : Reader Nat := do
  let digits ← takeBytes width
  return LittleEndian.toNat digits

/-- Reads a length. -/
def readLength : Reader Nat := readNat 8

/-- Reads a number in four bytes. -/
def readNumber : Reader Nat := readNat 4

/-- The text that bytes spell. -/
def textOf (content : List UInt8) : Reader String :=
  match String.fromUTF8? ⟨content.toArray⟩ with
  | some text => pure text
  | none => throw .malformed

/-- Reads a text. -/
def readText : Reader String := do
  let length ← readLength
  let content ← takeBytes length
  textOf content

/-- The address that a text spells, in any form that the parser of addresses accepts. -/
def addressOf (text : String) : Reader Address :=
  match Address.parse text with
  | .ok node => pure node
  | .error cause => throw (.invalidAddress cause)

/-- Reads an address. -/
def readAddress : Reader Address := do
  let text ← readText
  addressOf text

/-- Reads a number of addresses. -/
def readMany : (count : Nat) → Reader (List Address)
  | 0 => pure []
  | count + 1 => do
    let node ← readAddress
    let nodes ← readMany count
    return node :: nodes

/-- Reads a list of addresses. -/
def readAddresses : Reader (List Address) := do
  let count ← readLength
  readMany count

/-- Reads a point. -/
def readPoint : Reader Point := do
  let number ← readNumber
  return UInt32.ofNat number

/-- The kind of migration with a number. -/
def kindOf : (number : Nat) → Reader Migration.Kind
  | 0 => pure .join
  | 1 => pure .leave
  | _ => throw .malformed

/-- Reads a kind of migration. -/
def readKind : Reader Migration.Kind := do
  let number ← readNumber
  kindOf number

/-- Reads what follows the number of an event. -/
def readParts : (number : Nat) → Reader Event
  | 0 => do
    let attached ← readAddresses
    let detached ← readAddresses
    return .topology attached detached
  | 1 => do
    let kind ← readKind
    let nodes ← readAddresses
    return .prepareMigration kind nodes
  | 2 => do
    let start ← readPoint
    let stop ← readPoint
    return .rangeApplied start stop
  | 3 => do
    let attached ← readAddresses
    let detached ← readAddresses
    return .alterChange attached detached
  | _ => throw .malformed

/-- Reads an event. -/
def readEvent : Reader Event := do
  let number ← readNumber
  readParts number

/-- The event at the front of a frame. -/
def decode (frame : List UInt8) : Except Fault Event :=
  (readEvent frame).map (·.1)

end ClusterRing.Frame
