import ClusterRing.Bookkeeping
import ClusterRing.Event.Basic

/-!
# Ledgers

A ledger keeps what a locator knows in the way of a program that changes it in place:
the live ring is a map of owner sets, and the books of the migration are always there.
It carries out the same events and answers as the locator does
(`Ledger.Represents.receive`, in the theory).
-/

namespace ClusterRing

/-- What a client keeps of its cluster. -/
structure Ledger where
  layout : Layout
  /-- The active nodes. -/
  nodes : AddressSet
  /-- The points that answer lookups, with their owners. -/
  ring : OwnerMap
  books : Bookkeeping

namespace Ledger

open Bookkeeping (placementsAt)

/-- The points of a node, in order. -/
def points (ledger : Ledger) (node : Address) : List Point :=
  (ledger.layout.points node).toList

/-- The node that holds a key; `none` only if the ring is empty. -/
def primary? (ledger : Ledger) (key : String) : Option Address :=
  ledger.ring.owner? (ledger.layout.hasher.point key)

/-- Whether a node moves in the migration in progress. -/
def moves (ledger : Ledger) (node : Address) : Bool :=
  ledger.books.inProgress && decide (node ∈ ledger.books.moving)

/-- The ledger in which a node moves no longer. -/
def release (ledger : Ledger) (node : Address) : Ledger :=
  { ledger with books := { ledger.books with moving := ledger.books.moving.erase node } }

/-! ### Active nodes -/

/-- Makes the points of a node live; of a moving node only what is still staged. -/
def insertPoints (ledger : Ledger) (node : Address) : Ledger :=
  let points := ledger.points node
  if ledger.moves node then
    let released := ledger.release node
    let (books, ring) := released.books.promote released.ring node points
    { released with books := books, ring := ring }
  else
    { ledger with
      ring := (placementsAt node points).foldl
        (fun ring placement => (ring.place placement).2) ledger.ring }

/-- Removes a placement from the live ring; counts it if it is not there. -/
def removeOne (state : OwnerMap × Nat) (placement : Placement) : OwnerMap × Nat :=
  let (ring, missing) := state
  let (served, ring) := ring.displace placement
  (ring, if served then missing else missing + 1)

/-- Removes the points of a moving node, which moves no longer, from both rings. -/
def purge (ledger : Ledger) (node : Address) : Option Breach × Ledger :=
  let released := ledger.release node
  let (breach, books, ring) := released.books.purge released.ring node (ledger.points node)
  (breach, { released with books := books, ring := ring })

/-- Removes the points of a node; it is a breach if some are not where they should be. -/
def removePoints (ledger : Ledger) (node : Address) : Option Breach × Ledger :=
  if ledger.moves node then
    ledger.purge node
  else
    let points := ledger.points node
    let (ring, missing) := (placementsAt node points).foldl removeOne (ledger.ring, 0)
    (if missing = 0 then none else some (.notInRing missing points.length node),
      { ledger with ring := ring })

/-- The ledger of a list of active nodes. -/
def build (layout : Layout) (nodes : List Address) : Ledger :=
  nodes.foldl
    (fun ledger node =>
      let placed := ledger.insertPoints node
      { placed with nodes := placed.nodes.insert node })
    ⟨layout, ∅, ∅, .atRest⟩

/-- Makes a node active. -/
def attach (ledger : Ledger) (node : Address) : Ledger :=
  { ledger with nodes := ledger.nodes.insert node }.insertPoints node

/-- The ledger in which a node is not active. -/
def deactivate (ledger : Ledger) (node : Address) : Ledger :=
  { ledger with nodes := ledger.nodes.erase node }

/-- Makes a node inactive and removes its points, unless it is neither active nor moving. -/
def detach (ledger : Ledger) (node : Address) : Option Breach × Ledger :=
  if decide (node ∉ ledger.nodes) && !ledger.moves node then
    (none, ledger.deactivate node)
  else
    (ledger.deactivate node).removePoints node

/-- Takes a moving node out of the migration and out of both rings; a leaving node also stops being active. -/
def withdrawNode (ledger : Ledger) (node : Address) : Option Breach × Ledger :=
  if node ∈ ledger.books.moving then
    match ledger.purge node with
    | (some breach, stopped) => (some breach, stopped)
    | (none, purged) =>
      (none, if purged.books.kind = some .leave then purged.deactivate node else purged)
  else
    (none, ledger)

/-- Closes the books once no node moves any longer. -/
def finish (ledger : Ledger) : Ledger :=
  match ledger.books.kind with
  | none => ledger
  | some _ =>
    if ledger.books.moving.isEmpty then { ledger with books := ledger.books.clear } else ledger

/-- The ledger that an operation leaves, and how it ended. -/
structure Outcome where
  ledger : Ledger
  verdict : Locator.Verdict

/-- Does one thing to each node in turn until there is a breach; if there is none, an empty migration ends. -/
def forEach (step : Ledger → Address → Option Breach × Ledger) (ledger : Ledger) :
    List Address → Outcome
  | [] => ⟨ledger.finish, .applied⟩
  | node :: rest =>
    match step ledger node with
    | (some breach, stopped) => ⟨stopped, .failed breach⟩
    | (none, next) => forEach step next rest

/-- Attaches nodes, then detaches nodes. -/
def update (ledger : Ledger) (attached detached : List Address) : Outcome :=
  (attached.foldl attach ledger).forEach detach detached

/-- Withdraws moving nodes that failed or were called back. -/
def withdraw (ledger : Ledger) (nodes : List Address) : Outcome :=
  ledger.forEach withdrawNode nodes

/-! ### Migrations -/

/-- Stages the points of a node that is to join, unless it is active already. -/
def stageJoining (ledger : Ledger) (node : Address) : Ledger :=
  if node ∈ ledger.nodes then
    ledger
  else
    let books := ledger.books.stage node (ledger.points node)
    { ledger with books := { books with moving := books.moving.insert node } }

/-- Begins a migration in place of any other. -/
def prepare (ledger : Ledger) (kind : Migration.Kind) (nodes : List Address) : Ledger :=
  let started := { ledger with books := ledger.books.start kind }
  match kind with
  | .join =>
    let staged := nodes.foldl stageJoining started
    { staged with books := { staged.books with staying := staged.books.staying ∪ staged.nodes } }
  | .leave =>
    let moving := started.books.moving ∪ .ofList nodes
    let remaining := started.nodes.filter fun node => decide (node ∉ moving)
    { started with
      books := { started.books with moving := moving, staying := started.books.staying ∪ remaining } }

/-- Applies a range notification; it is ignored without a migration that it carries forward. -/
def advance (ledger : Ledger) (start stop : Point) : Outcome :=
  let (moved, books, ring) := ledger.books.applyRange ledger.ring start stop
  ⟨{ ledger with books := books, ring := ring }, if moved then .applied else .ignored⟩

/-! ### Events -/

/-- Carries out an instruction. -/
def receive (ledger : Ledger) : Event → Outcome
  | .topology attached detached => ledger.update attached detached
  | .prepareMigration kind nodes => ⟨ledger.prepare kind nodes, .applied⟩
  | .rangeApplied start stop => ledger.advance start stop
  | .alterChange _ detached => ledger.withdraw detached

/-- The ledger that a list of events leaves, whether or not they succeed. -/
def after (ledger : Ledger) (events : List Event) : Ledger :=
  events.foldl (fun ledger event => (ledger.receive event).ledger) ledger

end Ledger

end ClusterRing
