import ClusterRing.Proofs.Locator.Departure
import ClusterRing.Proofs.Ring.Operations

/-!
# Built from a set of nodes

A locator is built node by node, and a node is placed point by point, at points that
other nodes may own too. What comes of it depends on the set of nodes alone
(`build_eq_of_same_set`). Updates alone lead from one built locator to another
(`afterUpdates_eq_build`), and a snapshot is built by definition. So the active nodes
determine the ring of each (`build_depends_on_set`).
-/

namespace ClusterRing

open ClusterRing.Ring (Operation)

/-! ### Point by point -/

namespace Layout

variable {layout : Layout} {nodes : List Address}

/-- The insertions that lay out a ring: of each node in turn, one point after the other. -/
def insertions (layout : Layout) (nodes : List Address) : List Operation :=
  nodes.flatMap fun node => (layout.points node).toList.map fun point => .place ⟨point, node⟩

theorem mem_insertions_iff {operation : Operation} :
    operation ∈ layout.insertions nodes ↔
      ∃ placement ∈ layout.ring nodes, operation = .place placement := by
  simp only [insertions, List.mem_flatMap, List.mem_map, OrderedSet.mem_toList, mem_ring]
  constructor
  · rintro ⟨node, listed, point, placed, rfl⟩
    exact ⟨⟨point, node⟩, ⟨listed, placed⟩, rfl⟩
  · rintro ⟨placement, ⟨listed, placed⟩, rfl⟩
    exact ⟨placement.node, listed, placement.point, placed, rfl⟩

end Layout

namespace Ring.Operation

/-- Insertions alone add up, in whatever order and however often they are made. -/
theorem mem_foldl_effect_of_place {owned : Set Placement} {past : List Operation}
    (insertions : ∀ operation ∈ past, ∃ placement, operation = place placement)
    (placement : Placement) :
    placement ∈ past.foldl effect owned ↔ placement ∈ owned ∨ place placement ∈ past := by
  induction past generalizing owned with
  | nil => simp
  | cons first rest ih =>
      rcases List.forall_mem_cons.mp insertions with ⟨⟨inserted, rfl⟩, others⟩
      rw [List.foldl_cons, ih others, effect, Set.mem_insert_iff, List.mem_cons, place.injEq]
      tauto

theorem ringAfter_insertions (layout : Layout) (nodes : List Address) :
    ringAfter (layout.insertions nodes) = layout.ring nodes := by
  ext placement
  have insertions : ∀ operation ∈ layout.insertions nodes, ∃ placement,
      operation = place placement := by
    intro operation listed
    rcases Layout.mem_insertions_iff.mp listed with ⟨inserted, -, same⟩
    exact ⟨inserted, same⟩
  change placement ∈ members (ringAfter (layout.insertions nodes)) ↔ _
  rw [members_ringAfter, outcome, mem_foldl_effect_of_place insertions]
  simp [Layout.mem_insertions_iff]

end Ring.Operation

namespace Locator

variable {locator : Locator} {layout : Layout} {node : Address}
variable {nodes others attached detached : List Address}

/-! ### Node by node -/

/-- Two lists with the same elements build the same locator. -/
theorem build_eq_of_same_set (same : ∀ node, node ∈ others ↔ node ∈ nodes) :
    build layout others = build layout nodes := by
  apply (Coherent.build layout others).eq_build rfl
  intro node
  exact OrderedSet.mem_ofList.trans (same node)

namespace AtRest

theorem of_coherent (coherent : locator.Coherent) (idle : locator.migration = none) :
    locator.AtRest :=
  ⟨idle, coherent.ring_eq idle⟩

theorem attach (atRest : locator.AtRest) : (locator.attach node).AtRest := by
  apply of_coherent (atRest.inOrder.toCoherent.attach node)
  rw [← kind?_eq_none_iff, attach_kind?, kind?_eq_none_iff]
  exact atRest.idle

theorem detach (atRest : locator.AtRest) : (locator.detach node).locator.AtRest := by
  apply of_coherent (atRest.inOrder.toCoherent.detach node)
  rw [← kind?_eq_none_iff, detach_kind?, kind?_eq_none_iff]
  exact atRest.idle

theorem settle (atRest : locator.AtRest) : locator.settle.AtRest := by
  apply of_coherent atRest.inOrder.toCoherent.settle
  simp [Locator.settle, atRest.idle]

theorem foldl_attach (nodes : List Address) (atRest : locator.AtRest) :
    (nodes.foldl Locator.attach locator).AtRest :=
  foldl_attach_induction atRest fun _ _ _ => attach

theorem update (atRest : locator.AtRest) : (locator.update attached detached).locator.AtRest :=
  update_induction atRest (fun _ _ _ => attach) (fun _ _ _ => detach) fun _ => settle

theorem eq_build (atRest : locator.AtRest) (listed : ∀ node, node ∈ locator.nodes ↔ node ∈ nodes) :
    locator = Locator.build locator.layout nodes :=
  atRest.inOrder.toCoherent.eq_build atRest.idle listed

end AtRest

/-- Building a locator is attaching its nodes to one without nodes. -/
theorem foldl_attach_build (layout : Layout) (nodes : List Address) :
    nodes.foldl attach (build layout []) = build layout nodes := by
  have atRest := (AtRest.build layout []).foldl_attach nodes
  have listed : ∀ node, node ∈ (nodes.foldl attach (build layout [])).nodes ↔ node ∈ nodes := by
    intro node
    rw [mem_nodes_foldl_attach]
    simp [build]
  rw [atRest.eq_build listed, foldl_attach_layout]
  rfl

/-! ### Update by update -/

/-- The locator that updates leave, each of which attaches some nodes and detaches some. -/
def afterUpdates (locator : Locator) (updates : List (List Address × List Address)) : Locator :=
  locator.after (updates.map fun (attached, detached) => .topology attached detached)

theorem AtRest.afterUpdates (updates : List (List Address × List Address))
    (atRest : locator.AtRest) : (locator.afterUpdates updates).AtRest := by
  induction updates generalizing locator with
  | nil => exact atRest
  | cons update rest ih => exact ih atRest.update

/-- Updates alone lead from a built locator to the one that is built from the nodes then active. -/
theorem afterUpdates_eq_build (layout : Layout) (nodes : List Address)
    (updates : List (List Address × List Address)) :
    let changed := (build layout nodes).afterUpdates updates
    changed = build layout changed.nodes.toList := by
  intro changed
  have atRest : changed.AtRest := .afterUpdates updates (.build layout nodes)
  have layout_eq : changed.layout = layout := after_layout
  rw [← layout_eq]
  exact atRest.eq_build fun node => OrderedSet.mem_toList.symm

/--
A built locator holds each listed node at its points and nothing else, which is what inserting
point after point into a map of owner sets gives, and attaching node after node to an empty
locator. Lists with the same elements build the same ring and the same active set. Whatever has
happened to a locator, a snapshot has its active set, no migration and the ring that is built
from this set, and the snapshot of a snapshot is no other. Locators of the same layout that
only updates have changed have the same ring if they have the same active set.
-/
theorem build_depends_on_set (layout : Layout) (nodes : List Address) :
    let built := build layout nodes
    ((∀ point node, ⟨point, node⟩ ∈ built.ring ↔ node ∈ nodes ∧ point ∈ layout.points node) ∧
      built.ring.byPoint = (Operation.mapAfter (layout.insertions nodes)).groups ∧
      built = nodes.foldl attach (build layout [])) ∧
    (∀ others, (∀ node, node ∈ others ↔ node ∈ nodes) →
      (build layout others).ring = built.ring ∧ (build layout others).nodes = built.nodes) ∧
    (∀ events,
      let reached := built.after events
      reached.snapshot.nodes = reached.nodes ∧ reached.snapshot.migration = none ∧
        (∀ others, (∀ node, node ∈ others ↔ node ∈ reached.nodes) →
          reached.snapshot.ring = (build layout others).ring) ∧
        reached.snapshot.snapshot = reached.snapshot) ∧
    ∀ updates others otherUpdates,
      let left := built.afterUpdates updates
      let right := (build layout others).afterUpdates otherUpdates
      left.nodes = right.nodes → left.ring = right.ring := by
  intro built
  refine ⟨⟨?_, ?_, (foldl_attach_build layout nodes).symm⟩, ?_, ?_, ?_⟩
  · intro point node
    exact Layout.mem_ring
  · have byPoint := Operation.byPoint_ringAfter (layout.insertions nodes)
    rwa [Operation.ringAfter_insertions] at byPoint
  · intro others same
    rw [build_eq_of_same_set same]
    exact ⟨rfl, rfl⟩
  · intro events reached
    have layout_eq : reached.layout = layout := after_layout
    have active : reached.snapshot.nodes = reached.nodes := by
      ext node
      exact OrderedSet.mem_ofList
    refine ⟨active, rfl, ?_, ?_⟩
    · intro others same
      rw [snapshot, layout_eq]
      exact congrArg Locator.ring (build_eq_of_same_set fun node => (same node).symm)
    · rw [snapshot, active]
      rfl
  · intro updates others otherUpdates left right same
    have leftBuilt : left = _ := afterUpdates_eq_build layout nodes updates
    have rightBuilt : right = _ := afterUpdates_eq_build layout others otherUpdates
    rw [leftBuilt, rightBuilt, same]

/-- Nodes own points in common, are listed twice, and join and leave in two different orders. -/
theorem rebuilt_despite_shared_points :
    let digest (text : String) : Digest :=
      .ofNat (if text.toList.head? = some 'a' then 7 else 38654705671)
    let layout : Layout := ⟨⟨"crowded", fun _ => 0, digest⟩, smallLayout.config⟩
    let left := (build layout [alpha, beta, alpha]).afterUpdates [([gamma], [alpha]), ([], [beta])]
    let right := (build layout [gamma]).afterUpdates [([beta, gamma], []), ([alpha], [alpha, beta])]
    (build layout [beta, alpha]).ring.byPoint =
        [(0, [alpha, beta]), (7, [alpha, beta]), (9, [beta])] ∧
      (build layout [beta, alpha]).ring = (build layout [alpha, beta, alpha]).ring ∧
      left.nodes = right.nodes ∧ left.ring = right.ring := by
  intro digest layout left right
  rcases build_depends_on_set layout [alpha, beta, alpha] with ⟨-, sameSet, -, sameActive⟩
  have same : ∀ node, node ∈ [beta, alpha] ↔ node ∈ [alpha, beta, alpha] := by
    simp
  have active : left.nodes = right.nodes := by decide +kernel
  exact ⟨by decide +kernel, (sameSet [beta, alpha] same).1, active, sameActive _ _ _ active⟩

end Locator

end ClusterRing
