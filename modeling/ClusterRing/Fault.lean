import ClusterRing.Address.Parser

/-!
# Faults

What can go wrong with a locator, by cause, and the text of each. Only a breach is
fatal: it says that the ring no longer holds what the cluster believes it holds.
-/

namespace ClusterRing

/-- A ring that lacks points which the operation had to find there. -/
inductive Breach where
  /-- Some points of an active node were not in the ring. -/
  | notInRing (missing total : Nat) (node : Address)
  /-- Some points of a moving node were neither in the ring nor staged. -/
  | inNeitherRing (missing total : Nat) (node : Address)
deriving DecidableEq

/-- The breach in words. -/
def Breach.message : Breach → String
  | .notInRing missing total node => s!"{missing} of {total} points of {node.text} were not in the ring"
  | .inNeitherRing missing total node =>
    s!"{missing} of {total} points of alter node {node.text} found in neither ring"

/-- Why an operation was refused or stopped. -/
inductive Fault where
  /-- A text is no node address. -/
  | invalidAddress (cause : Address.Fault)
  /-- The number of repetitions is no positive multiple of four. -/
  | invalidRepetitions (count : Nat)
  /-- A word names no kind of migration. -/
  | unknownMigration (word : String)
  /-- The ring lacks points that it had to hold. -/
  | breach (cause : Breach)
deriving DecidableEq

namespace Fault

/-- The fault in words. -/
def message : Fault → String
  | .invalidAddress cause => s!"invalid node address: {cause.message}"
  | .invalidRepetitions count =>
    s!"invalid configuration: node_repetitions must be a positive multiple of 4, got {count}"
  | .unknownMigration word => s!"invalid configuration: unknown migration type '{word}'"
  | .breach cause => s!"ring invariant violated: {cause.message}"

/-- Whether the locator can no longer be trusted. -/
def isFatal : Fault → Bool
  | .breach _ => true
  | _ => false

end Fault

end ClusterRing
