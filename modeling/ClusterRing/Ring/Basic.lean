import ClusterRing.Address.Basic
import ClusterRing.Interval

/-!
# The hash ring

A ring is the set of its placements: which node owns which point. A point may
have several owners; the first in text order answers for it. Placements are
ordered by point and then by address, so the owners of a point stand together,
the first owner first.
-/

namespace ClusterRing

open Std

/-- A node at a point of the ring. -/
structure Placement where
  point : Point
  node : Address
deriving DecidableEq

namespace Placement

/-- Placements are ordered by point, and at one point by address. -/
instance : Ord Placement where
  compare := compareLex (compareOn point) (compareOn node)

instance : TransOrd Placement :=
  inferInstanceAs (TransCmp (compareLex (compareOn point) (compareOn node)))

theorem compare_eq (left right : Placement) :
    compare left right =
      (compare left.point right.point).then (compare left.node right.node) := rfl

instance : LawfulEqOrd Placement where
  compare_self := by simp
  eq_of_compare {left right} same := by
    rw [compare_eq, Ordering.then_eq_eq] at same
    obtain ⟨point, node⟩ := left
    obtain ⟨point', node'⟩ := right
    obtain ⟨rfl, rfl⟩ : point = point' ∧ node = node' :=
      ⟨Std.compare_eq_iff_eq.mp same.1, Std.compare_eq_iff_eq.mp same.2⟩
    rfl

theorem lt_cases {placement other : Placement} (lower : compare placement other = .lt) :
    placement.point < other.point ∨
      placement.point = other.point ∧ compare placement.node other.node = .lt := by
  rw [compare_eq, Ordering.then_eq_lt, Std.compare_eq_lt, Std.compare_eq_iff_eq] at lower
  exact lower

end Placement

/-- The placements of nodes on the circle. -/
abbrev Ring := OrderedSet Placement

namespace Ring

/-- The placement that a lookup of a point finds: the first at or after it, or else the first of all. -/
def locate? (ring : Ring) (point : Point) : Option Placement :=
  (ring.toList.find? fun placement => decide (point ≤ placement.point)).or ring.toList.head?

/-- The node that answers for a point; `none` only if the ring is empty. -/
def owner? (ring : Ring) (point : Point) : Option Address :=
  (ring.locate? point).map (·.node)

/-- The points at which a node is placed, in order. -/
def pointsOf (ring : Ring) (node : Address) : List Point :=
  (ring.toList.filter fun placement => placement.node = node).map (·.point)

theorem mem_pointsOf {ring : Ring} {node : Address} {point : Point} :
    point ∈ ring.pointsOf node ↔ ⟨point, node⟩ ∈ ring := by
  simp only [pointsOf, List.mem_map, List.mem_filter, decide_eq_true_eq]
  constructor
  · rintro ⟨placement, ⟨member, rfl⟩, rfl⟩
    exact member
  · intro member
    exact ⟨⟨point, node⟩, ⟨member, rfl⟩, rfl⟩

theorem ascending_pointsOf (ring : Ring) (node : Address) : Ascending (ring.pointsOf node) := by
  refine List.pairwise_map.mpr (List.pairwise_filter.mpr (ring.ascending.imp ?_))
  intro first second below here there
  rcases Placement.lt_cases below with lower | ⟨-, before⟩
  · exact Std.compare_eq_lt.mpr lower
  · simp_all

/-- All nodes that own a point. -/
def owners (ring : Ring) : AddressSet :=
  .ofList (ring.toList.map (·.node))

/-! ### One point at a time -/

/-- Adds an owner to a point, and says whether it is new there. -/
def place (ring : Ring) (placement : Placement) : Bool × Ring :=
  (decide (placement ∉ ring), ring.insert placement)

/-- Removes an owner from a point, and says whether it was there. -/
def displace (ring : Ring) (placement : Placement) : Bool × Ring :=
  (decide (placement ∈ ring), ring.erase placement)

/-- Adds several owners to a point. -/
def merge (ring : Ring) (point : Point) (nodes : AddressSet) : Ring :=
  ring ∪ .ofList (nodes.toList.map fun node => ⟨point, node⟩)

/-! ### Ranges -/

/-- Whether a point lies in one of several intervals. -/
def inRange (intervals : List Interval) (point : Point) : Bool :=
  intervals.any (·.contains point)

/-- The placements at points of the intervals, and the ring without them. -/
def takeRange (ring : Ring) (intervals : List Interval) : Ring × Ring :=
  (ring.filter fun placement => inRange intervals placement.point,
    ring.filter fun placement => !inRange intervals placement.point)

/--
The placements at points of the intervals whose nodes are not to be kept, and the
ring without them.
-/
def takeOwners (ring : Ring) (intervals : List Interval) (keep : Address → Bool) : Ring × Ring :=
  (ring.filter fun placement => inRange intervals placement.point && !keep placement.node,
    ring.filter fun placement => !(inRange intervals placement.point && !keep placement.node))

/-! ### Owners by point -/

/-- Adds a placement in front of points with their owners. -/
def addToGroups (placement : Placement) :
    List (Point × List Address) → List (Point × List Address)
  | [] => [(placement.point, [placement.node])]
  | (point, nodes) :: rest =>
    if placement.point = point then
      (point, placement.node :: nodes) :: rest
    else
      (placement.point, [placement.node]) :: (point, nodes) :: rest

/-- The occupied points in order, each with its owners in text order. -/
def byPoint (ring : Ring) : List (Point × List Address) :=
  ring.toList.foldr addToGroups []

/-- How many points are occupied. -/
def pointCount (ring : Ring) : Nat :=
  ring.byPoint.length

end Ring

end ClusterRing
