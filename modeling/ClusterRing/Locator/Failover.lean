import ClusterRing.Locator.Basic

/-!
# Failover

The nodes to try for a key, the primary first. Each further try hashes the
number of the try with the key and moves on by the result, so the tries of one
key spread over the ring. There are as many tries as active nodes.
-/

namespace ClusterRing

/-- A sequence of nodes to try for a key, and how far it has been used. -/
structure Failover where
  ring : Ring
  hasher : Hasher
  key : String
  /-- The point that the next node is looked up at. -/
  point : Point
  /-- The number of nodes tried so far. -/
  attempt : Nat
  /-- The number of nodes that are left at most. -/
  remaining : Nat

namespace Failover

/-- The sequence for a key before the first try. -/
def start (ring : Ring) (hasher : Hasher) (key : String) (tries : Nat) : Failover where
  ring := ring
  hasher := hasher
  key := key
  point := hasher.point key
  attempt := 0
  remaining := tries

/-- How many nodes are left, at least and at most. -/
def sizeHint (sequence : Failover) : Nat × Option Nat :=
  (0, some sequence.remaining)

/-- The point after a try. -/
def nextPoint (hasher : Hasher) (key : String) (attempt : Nat) (point : Point) : Point :=
  point + fold64 (hasher.point (toString attempt ++ key)).toUInt64

/-- The next node to try, and the sequence after it. An empty ring ends the sequence. -/
def next (sequence : Failover) : Option Address × Failover :=
  if sequence.remaining = 0 then
    (none, sequence)
  else
    match sequence.ring.owner? sequence.point with
    | none => (none, { sequence with remaining := 0 })
    | some node =>
      (some node, { sequence with
        point := nextPoint sequence.hasher sequence.key sequence.attempt sequence.point
        attempt := sequence.attempt + 1
        remaining := sequence.remaining - 1 })

/-- At most `count` nodes to try, and the sequence after them. -/
def take : (count : Nat) → Failover → List Address × Failover
  | 0, sequence => ([], sequence)
  | count + 1, sequence =>
    match sequence.next with
    | (none, after) => ([], after)
    | (some node, after) =>
      let (nodes, after) := take count after
      (node :: nodes, after)

/-- All nodes to try, and the sequence at its end. -/
def takeAll (sequence : Failover) : List Address × Failover :=
  sequence.take (sequence.remaining + 1)

end Failover

namespace Locator

/-- The nodes to try for a key. -/
def failover (locator : Locator) (key : String) : Failover where
  ring := locator.ring
  hasher := locator.layout.hasher
  key := key
  point := locator.layout.hasher.point key
  attempt := 0
  remaining := locator.nodes.size

theorem failover_eq_start (locator : Locator) (key : String) :
    locator.failover key = .start locator.ring locator.layout.hasher key locator.nodes.size := rfl

end Locator

end ClusterRing
