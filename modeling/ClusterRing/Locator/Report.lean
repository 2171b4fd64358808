import ClusterRing.Locator.Basic
import ClusterRing.Ring.Ownership

/-!
# Balance reports

One row for each node that is active or moving: its points in the live ring, its
staged points, and how much of the circle it answers for.
-/

namespace ClusterRing

/-- What a locator knows about one node. -/
structure NodeReport where
  node : Address
  /-- How many points the node owns in the live ring. -/
  points : Nat
  /-- How many points of the node are staged. -/
  staged : Nat
  /-- How many points of the circle the node answers for. -/
  span : Nat
deriving DecidableEq

/-- The share of the circle in percent. -/
def NodeReport.share (report : NodeReport) : Float :=
  Float.ofNat report.span / 4294967296.0 * 100.0

/-- The rows of all nodes that are active or moving, by address. -/
def Locator.inspect (locator : Locator) : List NodeReport :=
  (locator.nodes ∪ locator.moving).toList.map fun node =>
    { node := node
      points := (locator.ring.pointsOf node).length
      staged := (locator.staging.pointsOf node).length
      span := locator.ring.span node }

end ClusterRing
