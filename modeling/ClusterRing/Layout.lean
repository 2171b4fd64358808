import ClusterRing.Config
import ClusterRing.Hash.Hasher
import ClusterRing.Ring.Basic

/-!
# Layouts

A layout says where nodes belong on the ring: at the words of the digests of the
labels `host:port-0`, `host:port-1`, and so on, as many as the configuration
asks for. A ring that is laid out afresh holds each node at exactly its points.
-/

namespace ClusterRing

/-- The rule that places nodes on the ring. -/
structure Layout where
  hasher : Hasher
  config : Config

namespace Layout

/-- The text whose digest yields the `index`-th group of a node's points. -/
def label (node : Address) (index : Nat) : String :=
  node.text ++ "-" ++ toString index

/-- The points of a node. -/
def points (layout : Layout) (node : Address) : OrderedSet Point :=
  .ofList ((List.range layout.config.digestsPerNode).flatMap fun index =>
    (layout.hasher.digest (label node index)).words)

/-- The placements of a node: at each of its points. -/
def placements (layout : Layout) (node : Address) : Ring :=
  .ofList ((layout.points node).toList.map fun point => ⟨point, node⟩)

/-- The ring of a list of nodes, laid out afresh. -/
def ring (layout : Layout) (nodes : List Address) : Ring :=
  nodes.foldl (fun ring node => ring ∪ layout.placements node) ∅

/-- A node is placed at exactly its points. -/
@[simp]
theorem mem_placements {layout : Layout} {node : Address} {placement : Placement} :
    placement ∈ layout.placements node ↔
      placement.node = node ∧ placement.point ∈ layout.points node := by
  simp only [placements, OrderedSet.mem_ofList, List.mem_map, OrderedSet.mem_toList]
  constructor
  · rintro ⟨point, member, rfl⟩
    exact ⟨rfl, member⟩
  · rintro ⟨rfl, member⟩
    exact ⟨placement.point, member, rfl⟩

theorem mem_foldl_union {layout : Layout} {nodes : List Address} {start : Ring}
    {placement : Placement} :
    placement ∈ nodes.foldl (fun ring node => ring ∪ layout.placements node) start ↔
      placement ∈ start ∨ placement.node ∈ nodes ∧ placement.point ∈ layout.points placement.node := by
  induction nodes generalizing start with
  | nil => simp
  | cons node rest ih =>
      rw [List.foldl_cons, ih]
      simp only [OrderedSet.mem_union, mem_placements, List.mem_cons]
      grind

/-- A ring laid out afresh holds the listed nodes at their points and nothing else. -/
@[simp]
theorem mem_ring {layout : Layout} {nodes : List Address} {placement : Placement} :
    placement ∈ layout.ring nodes ↔
      placement.node ∈ nodes ∧ placement.point ∈ layout.points placement.node := by
  simp [ring, mem_foldl_union]

end Layout

end ClusterRing
