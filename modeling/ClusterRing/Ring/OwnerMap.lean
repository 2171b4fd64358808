import ClusterRing.OrderedMap
import ClusterRing.Ring.Basic

/-!
# Rings as maps of owner sets

A ring can be kept as a map from its occupied points to their owners. A point is
in the map as long as it has an owner: what removes the last one removes the point
with it.
-/

namespace ClusterRing

/-- The occupied points, each with the set of its owners. -/
abbrev OwnerMap := OrderedMap Point AddressSet

namespace OwnerMap

/-- The owners of a point, none if it is not occupied. -/
def ownersAt (map : OwnerMap) (point : Point) : AddressSet :=
  (map.get? point).getD ∅

/-- The occupied points in order, each with its owners in text order. -/
def groups (map : OwnerMap) : List (Point × List Address) :=
  map.entries.map fun (point, owners) => (point, owners.toList)

/-- Whether a node owns a point. -/
def contains (map : OwnerMap) (placement : Placement) : Bool :=
  (map.get? placement.point).any fun owners => decide (placement.node ∈ owners)

/-- The first owner of the first occupied point at or after a point, or else of the first of all. -/
def owner? (map : OwnerMap) (point : Point) : Option Address := do
  let (_, owners) ← (map.entries.find? fun entry => decide (point ≤ entry.1)).or map.entries.head?
  owners.toList.head?

/-- The points of a node, in order. -/
def pointsOf (map : OwnerMap) (node : Address) : List Point :=
  (map.entries.filter fun (_, owners) => decide (node ∈ owners)).map Prod.fst

/-! ### One point at a time -/

/-- Adds an owner to a point, and says whether it is new there. -/
def place (map : OwnerMap) (placement : Placement) : Bool × OwnerMap :=
  let owners := map.ownersAt placement.point
  (decide (placement.node ∉ owners), map.set placement.point (owners.insert placement.node))

/-- Removes an owner from a point, and the point with its last owner. Says whether it was there. -/
def displace (map : OwnerMap) (placement : Placement) : Bool × OwnerMap :=
  match map.get? placement.point with
  | none => (false, map)
  | some owners =>
    let others := owners.erase placement.node
    (decide (placement.node ∈ owners),
      if others.isEmpty then map.erase placement.point else map.set placement.point others)

/-- Adds several owners to a point; none leave it as it is. -/
def merge (map : OwnerMap) (point : Point) (nodes : AddressSet) : OwnerMap :=
  if nodes.isEmpty then map else map.set point (map.ownersAt point ∪ nodes)

/-! ### Ranges -/

/-- The occupied points of an interval with their owners, in order. -/
def within (map : OwnerMap) (interval : Interval) : List (Point × AddressSet) :=
  map.entries.filter fun entry => interval.contains entry.1

/-- Removes points one after the other, with their owners. -/
def takePoints (map : OwnerMap) : List Point → List (Point × AddressSet) × OwnerMap
  | [] => ([], map)
  | point :: rest =>
    match map.get? point with
    | none => takePoints map rest
    | some owners =>
      let (taken, left) := takePoints (map.erase point) rest
      ((point, owners) :: taken, left)

/-- Removes the points of an interval with their owners. -/
def takeRange (map : OwnerMap) (interval : Interval) : List (Point × AddressSet) × OwnerMap :=
  map.takePoints ((map.within interval).map Prod.fst)

/-- What visiting points to take owners from them has done so far. -/
structure Visit where
  /-- The map, where visited points may be without owners. -/
  map : OwnerMap
  /-- What has been taken. -/
  taken : List Placement
  /-- The points that are without owners. -/
  emptied : List Point

/-- Takes the owners of one point that are not to be kept. -/
def Visit.step (keep : Address → Bool) (visit : Visit) (entry : Point × AddressSet) : Visit :=
  let (point, owners) := entry
  let leaving := owners.toList.filter fun node => !keep node
  let others := leaving.foldl OrderedSet.erase owners
  { map := visit.map.set point others
    taken := visit.taken ++ leaving.map fun node => ⟨point, node⟩
    emptied := if others.isEmpty then visit.emptied ++ [point] else visit.emptied }

/--
Takes the owners in an interval that are not to be kept. The points that are left
without owners are removed when all points have been visited.
-/
def takeOwners (map : OwnerMap) (interval : Interval) (keep : Address → Bool) :
    List Placement × OwnerMap :=
  let visited := (map.within interval).foldl (Visit.step keep) ⟨map, [], []⟩
  (visited.taken, visited.emptied.foldl OrderedMap.erase visited.map)

/-! ### Shares of the circle -/

/-- Subtracts one point from another, if the result is not below zero. -/
def sub? (left right : Point) : Option Point :=
  if right ≤ left then some (left - right) else none

/-- Adds two counts, if the result is within their 64 bits. -/
def add? (left right : UInt64) : Option UInt64 :=
  if left.toNat + right.toNat < UInt64.size then some (left + right) else none

/--
How many points an occupied point answers for: those after the previous one, or for the
first point those after the last one and those up to itself.
-/
def span? (first last : Point) : Option Point → Point → Option UInt64
  | some previous, point => (sub? point previous).map UInt32.toUInt64
  | none, _ => do
    let passed ← sub? Point.last last
    let wrapped ← add? passed.toUInt64 first.toUInt64
    add? wrapped 1

/-- What going through the points has added up so far. -/
structure Tally where
  /-- The point before the next one, none before the first. -/
  previous : Option Point
  /-- How many points each node answers for. -/
  shares : OrderedMap Address UInt64

/-- Adds what one point answers for to the share of its first owner. -/
def Tally.step? (first last : Point) (tally : Tally) (entry : Point × AddressSet) :
    Option Tally := do
  let (point, owners) := entry
  let span ← span? first last tally.previous point
  match owners.toList.head? with
  | none => some ⟨some point, tally.shares⟩
  | some owner =>
    let share ← add? ((tally.shares.get? owner).getD 0) span
    some ⟨some point, tally.shares.set owner share⟩

/-- How many points each node answers for; `none` only if a number leaves the range of its type. -/
def ownership? (map : OwnerMap) : Option (OrderedMap Address UInt64) :=
  match map.entries.head?, map.entries.getLast? with
  | some (first, _), some (last, _) =>
    (map.entries.foldlM (Tally.step? first last) ⟨none, ∅⟩).map Tally.shares
  | _, _ => some ∅

end OwnerMap

end ClusterRing
