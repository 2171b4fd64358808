import ClusterRing.Config
import ClusterRing.Fault
import ClusterRing.Json.Parser

/-!
# Configurations as JSON

The text form of a configuration: a record with the number of repetitions, which
may be left out.
-/

namespace ClusterRing.Config

/-- Why a text is no configuration. -/
inductive LoadFault where
  /-- The text is no JSON record of settings. -/
  | unreadable
  /-- The settings are not valid. -/
  | invalid (fault : Fault)
deriving DecidableEq

/-- The configuration with a number of repetitions. -/
def ofRepetitions (count : Nat) : Except Fault Config :=
  match ofRepetitions? count with
  | some config => .ok config
  | none => .error (.invalidRepetitions count)

/-- The largest number of repetitions that can be written. -/
def maxRepetitions : Nat := UInt64.size - 1

/-- Reads the number of repetitions. -/
def repetitionsOfJson? (value : Json) : Option Nat := do
  match ← value.record? ["node_repetitions"] with
  | [none] => return (default : Config).repetitions
  | [some number] => number.natural? maxRepetitions
  | _ => none

/-- Reads a configuration. -/
def load (text : String) : Except LoadFault Config :=
  match Json.parse? text.toList >>= repetitionsOfJson? with
  | none => .error .unreadable
  | some count => (ofRepetitions count).mapError .invalid

/-- A configuration as JSON. -/
def toJson (config : Config) : Json :=
  .ofMembers [("node_repetitions", .ofNat config.repetitions)]

end ClusterRing.Config
