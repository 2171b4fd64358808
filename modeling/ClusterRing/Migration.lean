import ClusterRing.Fault
import ClusterRing.Ring.Basic

/-!
# Migrations

A migration moves nodes into the ring or out of it while the cluster transfers
their keys. The points of the moving nodes are split between the live ring and a
staging ring, and range notifications shift points from one to the other.

A joining sweep runs clockwise: staged points on the arc behind the cursor go
live. A leaving sweep runs counter-clockwise: the points of leaving nodes on the
arc before the cursor are staged. Notifications count from a common base, so one
that does not carry the cursor forward is ignored.
-/

namespace ClusterRing

namespace Migration

/-- Whether nodes are added to the cluster or removed from it. -/
inductive Kind where
  | join
  | leave
deriving DecidableEq

/-- The word for a kind of migration. -/
def Kind.text : Kind → String
  | .join => "join"
  | .leave => "leave"

/-- Reads the word for a kind of migration, in upper or lower case. -/
def Kind.parse (input : String) : Except Fault Kind :=
  match input.toLower with
  | "join" => .ok .join
  | "leave" => .ok .leave
  | word => .error (.unknownMigration word)

/-- How far a sweep has come. -/
structure Sweep where
  /-- Where the sweep began. -/
  base : Point
  /-- The boundary that was reached last. -/
  last : Point
deriving DecidableEq

/--
Whether a range from `start` to `stop` carries a sweep forward. The range from 0
to 0 never does, any range begins a sweep, and later ones must hold the last
boundary strictly inside.
-/
def needsRange (sweep : Option Sweep) (start stop : Point) : Bool :=
  if start = 0 ∧ stop = 0 then
    false
  else
    match sweep with
    | none => true
    | some sweep => Point.onArc start stop sweep.last && decide (sweep.last ≠ stop)

end Migration

/-- A migration in progress. -/
structure Migration where
  kind : Migration.Kind
  /-- How far the sweep has come; `none` before the first range. -/
  sweep : Option Migration.Sweep
  /-- The nodes that join or leave. -/
  moving : AddressSet
  /-- The active nodes that stay for the whole migration. -/
  staying : AddressSet
  /-- The placements of moving nodes that the live ring does not serve. -/
  staging : Ring

namespace Migration

/-- The migration after a range, and the live ring after it; `none` if the range is ignored. -/
def advance? (migration : Migration) (live : Ring) (start stop : Point) :
    Option (Migration × Ring) :=
  if needsRange migration.sweep start stop then
    match migration.kind with
    | .join =>
      let sweep := migration.sweep.getD ⟨start, start⟩
      let (taken, staged) := migration.staging.takeRange (Interval.arc sweep.last stop)
      some ({ migration with sweep := some ⟨sweep.base, stop⟩, staging := staged }, live ∪ taken)
    | .leave =>
      let sweep := migration.sweep.getD ⟨stop, stop⟩
      let (taken, served) :=
        live.takeOwners (Interval.arc start sweep.last) fun node => decide (node ∈ migration.staying)
      some ({ migration with
        sweep := some ⟨sweep.base, start⟩, staging := migration.staging ∪ taken }, served)
  else
    none

/-- The migration without one of its moving nodes. -/
def release (migration : Migration) (node : Address) : Migration :=
  { migration with moving := migration.moving.erase node }

/-- Moves what is still staged of a node's placements into the live ring. -/
def promote (migration : Migration) (live placements : Ring) : Migration × Ring :=
  ({ migration with staging := migration.staging \ placements },
    live ∪ (placements ∩ migration.staging))

/-- What is left of a node's placements once they are removed, and how many were nowhere. -/
structure Purged where
  migration : Migration
  live : Ring
  missing : Nat

/-- Removes each of a node's placements from staging, or else from the live ring. -/
def purge (migration : Migration) (live placements : Ring) : Purged :=
  let unstaged := placements \ migration.staging
  { migration := { migration with staging := migration.staging \ placements }
    live := live \ unstaged
    missing := (unstaged \ live).size }

end Migration

end ClusterRing
