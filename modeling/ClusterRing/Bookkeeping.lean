import ClusterRing.Migration
import ClusterRing.Ring.OwnerMap

/-!
# The books of a migration

What there is to know of a migration can be kept in six fields that are always there.
Between migrations they are at rest. Operations change them one by one and take the
points of a node, and the pieces of an arc, one after the other; the rings are maps
of owner sets.
-/

namespace ClusterRing

/-- What is kept of the migration in progress, if there is one. -/
@[ext]
structure Bookkeeping where
  /-- The kind of the migration in progress. -/
  kind : Option Migration.Kind
  /-- Where the sweep began. -/
  base : Option Point
  /-- The boundary that the sweep reached last. -/
  last : Option Point
  /-- The nodes that join or leave. -/
  moving : AddressSet
  /-- The active nodes that stay for the whole migration. -/
  staying : AddressSet
  /-- The points that the live ring does not serve, with their owners. -/
  staging : OwnerMap

namespace Bookkeeping

/-- The books when no migration is in progress. -/
def atRest : Bookkeeping where
  kind := none
  base := none
  last := none
  moving := ∅
  staying := ∅
  staging := ∅

/-- Whether a migration is in progress. -/
def inProgress (books : Bookkeeping) : Bool :=
  books.kind.isSome

/-- Resets one field after the other. -/
def clear (books : Bookkeeping) : Bookkeeping :=
  let books := { books with kind := none }
  let books := { books with base := none }
  let books := { books with last := none }
  let books := { books with moving := ∅ }
  let books := { books with staying := ∅ }
  { books with staging := ∅ }

/-- Opens the books of a migration; what they held before is dropped. -/
def start (books : Bookkeeping) (kind : Migration.Kind) : Bookkeeping :=
  { books.clear with kind := some kind }

/-! ### Ranges -/

/--
Whether a range from `start` to `stop` carries the sweep forward. The range from 0 to 0
never does. Any other that begins where it ends is the whole circle, and it is taken
once for each point.
-/
def needsRange (books : Bookkeeping) (start stop : Point) : Bool :=
  if start = 0 ∧ stop = 0 then
    false
  else
    match books.last with
    | none => true
    | some last =>
      if start = stop then
        decide (start ≠ last)
      else if start < stop then
        decide (start < last) && decide (last < stop)
      else
        decide (start < last) || decide (last < stop)

/-- The staged points of an interval go live. -/
def enter (interval : Interval) (state : Bookkeeping × OwnerMap) : Bookkeeping × OwnerMap :=
  let (books, live) := state
  let (taken, staged) := books.staging.takeRange interval
  ({ books with staging := staged },
    taken.foldl (fun live (point, owners) => live.merge point owners) live)

/-- The live points of an interval are staged, but for their staying owners. -/
def retire (interval : Interval) (state : Bookkeeping × OwnerMap) : Bookkeeping × OwnerMap :=
  let (books, live) := state
  let (taken, served) := live.takeOwners interval fun node => decide (node ∈ books.staying)
  ({ books with
      staging := taken.foldl (fun staging placement => (staging.place placement).2) books.staging },
    served)

/-- Sweeps clockwise to the end of a range; the first range sets the base. -/
def sweepJoining (books : Bookkeeping) (live : OwnerMap) (start stop : Point) :
    Bookkeeping × OwnerMap :=
  let (books, origin) := match books.last with
    | none => ({ books with base := some start }, start)
    | some last => (books, last)
  let (books, live) :=
    (Interval.arc origin stop).foldl (fun state interval => enter interval state) (books, live)
  ({ books with last := some stop }, live)

/-- Sweeps counter-clockwise to the beginning of a range; the first range sets the base. -/
def sweepLeaving (books : Bookkeeping) (live : OwnerMap) (start stop : Point) :
    Bookkeeping × OwnerMap :=
  let (books, limit) := match books.last with
    | none => ({ books with base := some stop }, stop)
    | some last => (books, last)
  let (books, live) := (Interval.arc start limit).reverse.foldl
    (fun state interval => retire interval state) (books, live)
  ({ books with last := some start }, live)

/-- Applies a range, and says whether it carried a migration forward. -/
def applyRange (books : Bookkeeping) (live : OwnerMap) (start stop : Point) :
    Bool × Bookkeeping × OwnerMap :=
  match books.kind with
  | none => (false, books, live)
  | some kind =>
    if books.needsRange start stop then
      match kind with
      | .join => (true, books.sweepJoining live start stop)
      | .leave => (true, books.sweepLeaving live start stop)
    else
      (false, books, live)

/-! ### The points of one node -/

/-- A node at each of several points. -/
def placementsAt (node : Address) (points : List Point) : List Placement :=
  points.map fun point => ⟨point, node⟩

/-- Stages points of a node. -/
def stage (books : Bookkeeping) (node : Address) (points : List Point) : Bookkeeping :=
  { books with
    staging := (placementsAt node points).foldl
      (fun staging placement => (staging.place placement).2) books.staging }

/-- Makes a placement live if it is staged. -/
def promoteOne (rings : OwnerMap × OwnerMap) (placement : Placement) : OwnerMap × OwnerMap :=
  let (staging, live) := rings
  let (staged, staging) := staging.displace placement
  (staging, if staged then (live.place placement).2 else live)

/-- Makes live what is still staged of the points of a node. -/
def promote (books : Bookkeeping) (live : OwnerMap) (node : Address) (points : List Point) :
    Bookkeeping × OwnerMap :=
  let (staging, live) := (placementsAt node points).foldl promoteOne (books.staging, live)
  ({ books with staging := staging }, live)

/-- Removes a placement from staging, or else from the live ring; counts it if it is in neither. -/
def purgeOne (state : OwnerMap × OwnerMap × Nat) (placement : Placement) :
    OwnerMap × OwnerMap × Nat :=
  let (staging, live, missing) := state
  let (staged, staging) := staging.displace placement
  if staged then
    (staging, live, missing)
  else
    let (served, live) := live.displace placement
    (staging, live, if served then missing else missing + 1)

/-- Removes the points of a node; it is a breach if some are nowhere. -/
def purge (books : Bookkeeping) (live : OwnerMap) (node : Address) (points : List Point) :
    Option Breach × Bookkeeping × OwnerMap :=
  let (staging, live, missing) :=
    (placementsAt node points).foldl purgeOne (books.staging, live, 0)
  (if missing = 0 then none else some (.inNeitherRing missing points.length node),
    { books with staging := staging }, live)

end Bookkeeping

end ClusterRing
