import ClusterRing.Locator.Operations

/-!
# Coordinator events

The instructions that the coordinator of a cluster sends to its clients, and what
each does to a locator.
-/

namespace ClusterRing

/-- One instruction. -/
inductive Event where
  /-- Nodes become active or inactive. -/
  | topology (attached detached : List Address)
  /-- A migration begins. -/
  | prepareMigration (kind : Migration.Kind) (nodes : List Address)
  /-- The transfer of a range has been committed. -/
  | rangeApplied (start stop : Point)
  /-- Moving nodes are announced, which is ignored, or called back. -/
  | alterChange (attached detached : List Address)
deriving DecidableEq

/-- The name of the kind of instruction. -/
def Event.name : Event → String
  | .topology .. => "topology"
  | .prepareMigration .. => "prepare_migration"
  | .rangeApplied .. => "range_applied"
  | .alterChange .. => "alter_change"

/-- Carries out an instruction. -/
def Locator.receive (locator : Locator) : Event → Locator.Outcome
  | .topology attached detached => locator.update attached detached
  | .prepareMigration kind nodes => ⟨locator.prepare kind nodes, .applied⟩
  | .rangeApplied start stop => locator.advance start stop
  | .alterChange _ detached => locator.withdraw detached

end ClusterRing
