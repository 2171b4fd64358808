import ClusterRing.Event.Basic
import ClusterRing.Json.Parser

/-!
# Events as JSON

The text form of an event: an object with one member, named for the kind of
instruction, whose value is a record of the instruction's parts. Lists of nodes
to attach and detach may be left out when they are empty.
-/

namespace ClusterRing

namespace Address

/-- An address as JSON: its text. -/
def toJson (node : Address) : Json :=
  .ofString node.text

/-- Reads an address from a JSON string. -/
def ofJson? (value : Json) : Option Address := do
  let text ← value.text?
  (parse text).toOption

end Address

namespace Migration.Kind

/-- A kind of migration as JSON: its word. -/
def toJson (kind : Kind) : Json :=
  .ofString kind.text

/-- The kind of migration that is spelled exactly so. -/
def ofText? : String → Option Kind
  | "join" => some .join
  | "leave" => some .leave
  | _ => none

/-- Reads a kind of migration from its word, or from an object that gives the word the value null. -/
def ofJson? : Json → Option Kind
  | .string (some word) => ofText? word
  | .object [(some word, .null)] => ofText? word
  | _ => none

end Migration.Kind

namespace Event

/-- A list of addresses as JSON. -/
def addressesToJson (nodes : List Address) : Json :=
  .array (nodes.map Address.toJson)

/-- An event as JSON. -/
def toJson (event : Event) : Json :=
  let parts := match event with
    | .topology attached detached =>
      [("attach", addressesToJson attached), ("detach", addressesToJson detached)]
    | .prepareMigration kind nodes => [("kind", kind.toJson), ("nodes", addressesToJson nodes)]
    | .rangeApplied start stop =>
      [("spoint", .ofNat start.toNat), ("epoint", .ofNat stop.toNat)]
    | .alterChange attached detached =>
      [("attach", addressesToJson attached), ("detach", addressesToJson detached)]
  .ofMembers [(event.name, .ofMembers parts)]

/-- Reads a list of addresses. -/
def addressesOfJson? (value : Json) : Option (List Address) := do
  let items ← value.items?
  items.mapM Address.ofJson?

/-- Reads a list of addresses that may be left out. -/
def addressesOrNone? : Option Json → Option (List Address)
  | none => some []
  | some value => addressesOfJson? value

/-- Reads a point. -/
def pointOfJson? (value : Json) : Option Point := do
  let number ← value.natural? Point.last.toNat
  return UInt32.ofNat number

/-- Reads the two lists of a change of membership. -/
def changeOfJson? (value : Json) : Option (List Address × List Address) := do
  match ← value.record? ["attach", "detach"] with
  | [attached, detached] => return (← addressesOrNone? attached, ← addressesOrNone? detached)
  | _ => none

/-- Reads an event. -/
def ofJson? : Json → Option Event
  | .object [(some name, value)] =>
    match name with
    | "topology" => do
      let (attached, detached) ← changeOfJson? value
      return .topology attached detached
    | "prepare_migration" => do
      match ← value.record? ["kind", "nodes"] with
      | [some kind, some nodes] =>
        return .prepareMigration (← Migration.Kind.ofJson? kind) (← addressesOfJson? nodes)
      | _ => none
    | "range_applied" => do
      match ← value.record? ["spoint", "epoint"] with
      | [some start, some stop] => return .rangeApplied (← pointOfJson? start) (← pointOfJson? stop)
      | _ => none
    | "alter_change" => do
      let (attached, detached) ← changeOfJson? value
      return .alterChange attached detached
    | _ => none
  | _ => none

/-- The event that a JSON text spells. -/
def parse? (text : List Char) : Option Event := do
  let value ← Json.parse? text
  ofJson? value

end Event

end ClusterRing
