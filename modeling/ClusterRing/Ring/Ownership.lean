import ClusterRing.Ring.Basic

/-!
# Ownership

How much of the circle each node answers for. A point answers for the arc from
the point before it up to itself, where the point before the first is the last.
The arcs between neighbours make up the whole circle.
-/

namespace ClusterRing.Ring

/-- The occupied points in order, each with its first owner. -/
def firstOwners (ring : Ring) : List (Point × Address) :=
  ring.byPoint.filterMap fun (point, nodes) => nodes.head?.map fun node => (point, node)

/-- The arc that each point answers for, given the point before the first of them. -/
def arcLengths (previous : Point) : List (Point × Address) → List (Address × Nat)
  | [] => []
  | (point, node) :: rest =>
    (node, Point.clockwise previous point) :: arcLengths point rest

/-- The length of the arc that each occupied point answers for, with its first owner. -/
def arcs (ring : Ring) : List (Address × Nat) :=
  match ring.firstOwners.getLast? with
  | none => []
  | some (last, _) => arcLengths last ring.firstOwners

/-- How many points of the circle a node answers for. -/
def span (ring : Ring) (node : Address) : Nat :=
  ring.arcs.foldr (fun arc total => if arc.1 = node then arc.2 + total else total) 0

/-- The nodes that answer for some point, by address, with how many they answer for. -/
def ownership (ring : Ring) : List (Address × Nat) :=
  let nodes : AddressSet := .ofList (ring.arcs.map (·.1))
  nodes.toList.map fun node => (node, ring.span node)

end ClusterRing.Ring
