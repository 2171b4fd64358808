import ClusterRing.Proofs.Locator.Convergence

/-!
# What a leaving sweep spares

A leaving sweep stages the live points of nodes that are not among the staying
ones. The staying nodes are settled when the migration is prepared, so a node
that is attached later is active and neither leaves nor stays: it is exposed. A
range spares all nodes that are not leaving exactly when it passes no live point
of an exposed node (`spares_iff`). In an orderly run there is no exposed node.
-/

namespace ClusterRing

namespace Ring

variable {left right : Ring} {node : Address}

/-- The points of a node are listed in order, so they are a matter of membership. -/
theorem pointsOf_eq_iff :
    left.pointsOf node = right.pointsOf node ↔
      ∀ point, (⟨point, node⟩ ∈ left ↔ ⟨point, node⟩ ∈ right) := by
  constructor
  · intro same point
    rw [← mem_pointsOf, same, mem_pointsOf]
  · intro same
    have filtered : left.filter (fun placement => placement.node = node) =
        right.filter (fun placement => placement.node = node) := by
      ext placement
      simp only [OrderedSet.mem_filter, decide_eq_true_eq]
      constructor
      · rintro ⟨member, rfl⟩
        exact ⟨(same placement.point).mp member, rfl⟩
      · rintro ⟨member, rfl⟩
        exact ⟨(same placement.point).mpr member, rfl⟩
    exact congrArg (fun ring : Ring => ring.toList.map (·.point)) filtered

end Ring

namespace Locator

variable {locator : Locator} {layout : Layout} {start stop : Point}

/-- A range leaves the live points of all nodes as they are that are not moving. -/
def Spares (locator : Locator) (start stop : Point) : Prop :=
  ∀ node, node ∉ locator.moving →
    (locator.advance start stop).locator.ring.pointsOf node = locator.ring.pointsOf node

/-- An active node that neither moves nor stays for the whole migration. -/
structure Exposed (locator : Locator) (node : Address) : Prop where
  active : node ∈ locator.nodes
  not_moving : node ∉ locator.moving
  not_staying : node ∉ locator.staying

theorem Reachable.guarded_of_preparesIdle (reachable : Reachable PreparesIdle layout locator) :
    locator.Guarded := by
  apply Guarded.kept.reachable reachable (Guarded.build layout)
  intro locator kind named admitted guarded
  exact guarded.prepare kind named (guarded.knows_owners.clean admitted.1)

theorem spares_iff_not_retires (leaving : locator.kind? = some .leave) :
    locator.Spares start stop ↔
      ∀ placement, placement.node ∉ locator.moving → ¬locator.Retires start stop placement := by
  have not_enters : ∀ placement, ¬locator.Enters start stop placement := by
    intro placement enters
    have joining := enters.joining
    rw [leaving] at joining
    exact nomatch joining
  unfold Spares
  simp only [Ring.pointsOf_eq_iff, mem_ring_advance, not_enters, or_false, and_iff_left_iff_imp]
  constructor
  · intro spares placement not_moving retires
    exact spares placement.node not_moving placement.point retires.live retires
  · intro spares node not_moving point _
    exact spares ⟨point, node⟩ not_moving

theorem InOrder.not_exposed (inOrder : locator.InOrder) (leaving : locator.kind? = some .leave)
    (node : Address) : ¬locator.Exposed node := by
  intro exposed
  rcases inOrder.covered leaving node exposed.active with moving | staying
  · exact exposed.not_moving moving
  · exact exposed.not_staying staying

theorem Guarded.exposed_of_retires (guarded : locator.Guarded) {placement : Placement}
    (retires : locator.Retires start stop placement) (not_moving : placement.node ∉ locator.moving) :
    locator.Exposed placement.node where
  active := (guarded.knows_owners placement retires.live).resolve_right
    fun joining => not_moving joining.2
  not_moving := not_moving
  not_staying := retires.not_staying

theorem InOrder.spares (inOrder : locator.InOrder) (leaving : locator.kind? = some .leave) :
    locator.Spares start stop := by
  rw [spares_iff_not_retires leaving]
  intro placement not_moving retires
  exact inOrder.not_exposed leaving placement.node
    (inOrder.toGuarded.exposed_of_retires retires not_moving)

/--
A range spares the nodes that are not leaving exactly when it is ignored or
passes no live point of an exposed node. In an orderly run it always does, and
the active nodes that are not leaving keep all their points live.
-/
theorem spares_iff (reachable : Reachable PreparesIdle layout locator)
    (leaving : locator.kind? = some .leave) (start stop : Point) :
    (locator.Spares start stop ↔
      (locator.Accepts start stop → ∀ node, locator.Exposed node →
        ∀ point ∈ locator.ring.pointsOf node,
          ¬Point.onArc start (locator.last?.getD stop) point = true)) ∧
    (Reachable Orderly layout locator →
      locator.Spares start stop ∧
      ∀ node ∈ locator.nodes, node ∉ locator.moving → ∀ point ∈ layout.points node,
        point ∈ (locator.advance start stop).locator.ring.pointsOf node) := by
  have guarded := reachable.guarded_of_preparesIdle
  constructor
  · rw [spares_iff_not_retires leaving]
    constructor
    · intro spares accepted node exposed point live swept
      rw [Ring.mem_pointsOf] at live
      exact spares ⟨point, node⟩ exposed.not_moving
        ⟨leaving, accepted, live, exposed.not_staying, swept⟩
    · intro passes placement not_moving retires
      have exposed := guarded.exposed_of_retires retires not_moving
      exact passes retires.accepted placement.node exposed placement.point
        (Ring.mem_pointsOf.mpr retires.live) retires.swept
  · intro orderly
    have inOrder := orderly.inOrder
    have spares : locator.Spares start stop := inOrder.spares leaving
    refine ⟨spares, ?_⟩
    intro node active not_moving point placed
    rw [spares node not_moving, Ring.mem_pointsOf]
    rw [← reachable.layout_eq] at placed
    exact inOrder.complete ⟨point, node⟩ placed active not_moving

/--
A node is attached while another leaves. A range that passes points of the leaving node, but
none of the new one, takes its points from the leaving node alone.
-/
theorem spares_after_attaching :
    let locator := (build smallLayout [alpha, beta]).after
      [.prepareMigration .leave [beta], .topology [gamma] []]
    Reachable PreparesIdle smallLayout locator ∧ locator.kind? = some .leave ∧
      locator.ring.pointsOf beta = [1745397900, 2369157494, 2959484410, 4017229437] ∧
      (locator.advance 1700000000 3000000000).locator.ring.pointsOf beta = [4017229437] ∧
      locator.Spares 1700000000 3000000000 := by
  intro locator
  have reachable : Reachable PreparesIdle smallLayout locator := ⟨_, _, by decide +kernel, rfl⟩
  have leaving : locator.kind? = some .leave := by decide +kernel
  have passed : locator.ring.pointsOf beta = [1745397900, 2369157494, 2959484410, 4017229437] ∧
      (locator.advance 1700000000 3000000000).locator.ring.pointsOf beta = [4017229437] := by
    decide +kernel
  have missed : ∀ placement ∈ locator.ring, placement.node ∉ locator.staying →
      placement.node ∉ locator.moving →
        ¬Point.onArc 1700000000 (locator.last?.getD 3000000000) placement.point = true := by
    decide +kernel
  refine ⟨reachable, leaving, passed.1, passed.2,
    (spares_iff reachable leaving 1700000000 3000000000).1.mpr ?_⟩
  intro accepted node exposed point live
  exact missed ⟨point, node⟩ (Ring.mem_pointsOf.mp live) exposed.not_staying exposed.not_moving

/-- The node that was attached loses all its live points to the next range. -/
theorem exposed_node_swept :
    let locator := (build smallLayout [alpha, beta]).after
      [.prepareMigration .leave [beta], .topology [gamma] []]
    gamma ∈ locator.nodes ∧ gamma ∉ locator.moving ∧
      locator.ring.pointsOf gamma = [163656008, 1658246976, 3318553560, 4256401414] ∧
      (locator.advance 5 5).locator.ring.pointsOf gamma = [] := by
  decide +kernel

end Locator

end ClusterRing
