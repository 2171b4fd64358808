import ClusterRing.Layout
import ClusterRing.Migration

/-!
# Locators

A locator answers which node holds a key. It keeps the active nodes, the live
ring, and the migration in progress. Its snapshot is the locator that the active
nodes alone would give.
-/

namespace ClusterRing

/-- What a client knows about its cluster. -/
structure Locator where
  layout : Layout
  /-- The active nodes. -/
  nodes : AddressSet
  /-- The placements that answer lookups. -/
  ring : Ring
  /-- The migration in progress. -/
  migration : Option Migration

namespace Locator

/-- The locator of a list of active nodes. -/
def build (layout : Layout) (nodes : List Address) : Locator where
  layout := layout
  nodes := .ofList nodes
  ring := layout.ring nodes
  migration := none

/-- The node that holds a key; `none` only if the ring is empty. -/
def primary? (locator : Locator) (key : String) : Option Address :=
  locator.ring.owner? (locator.layout.hasher.point key)

/-- The locator that is built afresh from the active nodes. -/
def snapshot (locator : Locator) : Locator :=
  build locator.layout locator.nodes.toList

/-! ### The migration in progress -/

/-- The kind of the migration in progress. -/
def kind? (locator : Locator) : Option Migration.Kind :=
  locator.migration.map (·.kind)

/-- How far the sweep of the migration has come. -/
def sweep? (locator : Locator) : Option Migration.Sweep :=
  locator.migration.bind (·.sweep)

/-- Where the sweep began. -/
def base? (locator : Locator) : Option Point :=
  locator.sweep?.map (·.base)

/-- The boundary that the sweep reached last. -/
def last? (locator : Locator) : Option Point :=
  locator.sweep?.map (·.last)

/-- The nodes that join or leave. -/
def moving (locator : Locator) : AddressSet :=
  (locator.migration.map (·.moving)).getD ∅

/-- The active nodes that stay for the whole migration. -/
def staying (locator : Locator) : AddressSet :=
  (locator.migration.map (·.staying)).getD ∅

/-- The placements that the live ring does not serve. -/
def staging (locator : Locator) : Ring :=
  (locator.migration.map (·.staging)).getD ∅

/-- The node with an address, if it is moving. -/
def moving? (locator : Locator) (node : Address) : Option Address :=
  if node ∈ locator.moving then some node else none

/-- The node that a text names, if it joins in a joining migration or stays in a leaving one. -/
def participant (locator : Locator) (text : String) (kind : Migration.Kind) :
    Except Address.Fault (Option Address) := do
  let node ← Address.parse text
  let candidates := match kind with
    | .join => locator.moving
    | .leave => locator.staying
  return if node ∈ candidates then some node else none

end Locator

end ClusterRing
