import ClusterRing.Locator.Basic

/-!
# Changing a locator

Nodes are attached and detached, migrations are prepared, ranges advance them,
and moving nodes are withdrawn. A migration ends when no moving node is left.

An operation on several nodes takes them in turn. If points of a node are missing
it stops there, and the locator keeps what was done so far.
-/

namespace ClusterRing.Locator

/-- How an operation ended. -/
inductive Verdict where
  /-- The operation was carried out. -/
  | applied
  /-- There was nothing to do. -/
  | ignored
  /-- The operation broke off. -/
  | failed (breach : Breach)
deriving DecidableEq

/-- The locator that an operation leaves, and how it ended. -/
structure Outcome where
  locator : Locator
  verdict : Verdict

/-- Ends the migration once no moving node is left. -/
def settle (locator : Locator) : Locator :=
  { locator with migration := locator.migration.filter fun migration => !migration.moving.isEmpty }

/-- The migration in which a node is moving. -/
def migrationOf? (locator : Locator) (node : Address) : Option Migration :=
  locator.migration.filter fun migration => decide (node ∈ migration.moving)

/-! ### Active nodes -/

/--
Makes a node active. A moving node stops moving and its staged points go live;
any other node takes all its points.
-/
def attach (locator : Locator) (node : Address) : Locator :=
  let placements := locator.layout.placements node
  let nodes := locator.nodes.insert node
  match locator.migrationOf? node with
  | some migration =>
    let (migration, ring) := (migration.release node).promote locator.ring placements
    { locator with nodes := nodes, ring := ring, migration := some migration }
  | none => { locator with nodes := nodes, ring := locator.ring ∪ placements }

/-- Removes all points of a moving node, which stops moving. -/
def purge (locator : Locator) (migration : Migration) (node : Address) : Outcome :=
  let placements := locator.layout.placements node
  let purged := (migration.release node).purge locator.ring placements
  { locator := { locator with ring := purged.live, migration := some purged.migration }
    verdict :=
      if purged.missing = 0 then .applied
      else .failed (.inNeitherRing purged.missing placements.size node) }

/-- Makes a node inactive and removes its points. A node that is neither active nor moving is ignored. -/
def detach (locator : Locator) (node : Address) : Outcome :=
  let remaining := { locator with nodes := locator.nodes.erase node }
  match locator.migrationOf? node with
  | some migration => remaining.purge migration node
  | none =>
    if node ∈ locator.nodes then
      let placements := locator.layout.placements node
      let missing := (placements \ locator.ring).size
      { locator := { remaining with ring := locator.ring \ placements }
        verdict := if missing = 0 then .applied else .failed (.notInRing missing placements.size node) }
    else
      ⟨locator, .ignored⟩

/-- Takes a moving node out of the migration and out of both rings; a leaving node also stops being active. -/
def withdrawNode (locator : Locator) (node : Address) : Outcome :=
  match locator.migrationOf? node with
  | none => ⟨locator, .ignored⟩
  | some migration =>
    match locator.purge migration node, migration.kind with
    | ⟨purged, .applied⟩, .leave => ⟨{ purged with nodes := purged.nodes.erase node }, .applied⟩
    | outcome, _ => outcome

/-- Does one thing to each node in turn until one fails; if none does, an empty migration ends. -/
def forEach (step : Locator → Address → Outcome) (locator : Locator) : List Address → Outcome
  | [] => ⟨locator.settle, .applied⟩
  | node :: rest =>
    match step locator node with
    | ⟨stopped, .failed breach⟩ => ⟨stopped, .failed breach⟩
    | ⟨next, _⟩ => forEach step next rest

/-- Attaches nodes, then detaches nodes. -/
def update (locator : Locator) (attached detached : List Address) : Outcome :=
  (attached.foldl attach locator).forEach detach detached

/-- Withdraws moving nodes that failed or were called back. -/
def withdraw (locator : Locator) (nodes : List Address) : Outcome :=
  locator.forEach withdrawNode nodes

/-! ### Migrations -/

/--
Begins a migration in place of any other. Joining nodes are staged, unless they
are active already; leaving nodes go on serving until their ranges are handed
over.
-/
def prepare (locator : Locator) (kind : Migration.Kind) (nodes : List Address) : Locator :=
  let named : AddressSet := .ofList nodes
  let migration : Migration := match kind with
    | .join =>
      let joining := named \ locator.nodes
      { kind := .join
        sweep := none
        moving := joining
        staying := locator.nodes
        staging := locator.layout.ring joining.toList }
    | .leave =>
      { kind := .leave
        sweep := none
        moving := named
        staying := locator.nodes \ named
        staging := ∅ }
  { locator with migration := some migration }

/-- Applies a range notification; it is ignored without a migration that it carries forward. -/
def advance (locator : Locator) (start stop : Point) : Outcome :=
  match locator.migration.bind fun migration => migration.advance? locator.ring start stop with
  | some (migration, ring) =>
    ⟨{ locator with ring := ring, migration := some migration }, .applied⟩
  | none => ⟨locator, .ignored⟩

end ClusterRing.Locator
