import ClusterRing.Proofs.Locator.Membership
import ClusterRing.Proofs.Locator.Movement

/-!
# The end of a leaving migration

The nodes that a leaving migration names are in the end detached, or withdrawn. If
all of them were active, either event ends the migration, however far its ranges have
swept, and leaves the locator that is built afresh from the remaining nodes. But the
preparation also takes in nodes that are not active. Such a node moves without owning
a point in either ring, no range and no change to other nodes gives it one, and it
cannot be purged; so both events fail (`leave_ends_iff_active`).
-/

namespace ClusterRing

/-- Every node has a point. -/
theorem Layout.exists_mem_points (layout : Layout) (node : Address) :
    ∃ point, point ∈ layout.points node := by
  refine ⟨(layout.hasher.digest (label node 0)).word 0, ?_⟩
  simp only [points, OrderedSet.mem_ofList, List.mem_flatMap, List.mem_range]
  exact ⟨0, layout.config.digestsPerNode_pos, List.mem_ofFn.mpr ⟨0, rfl⟩⟩

namespace Locator

variable {locator before after : Locator} {node other : Address} {named : List Address}
variable {start stop : Point}

/-! ### Nodes that own nothing -/

/-- A node moves and owns no point in either ring. -/
structure Lost (locator : Locator) (node : Address) : Prop where
  moving : node ∈ locator.moving
  not_live : ∀ placement ∈ locator.ring, placement.node ≠ node
  unstaged : locator.Unstaged node

namespace Lost

theorem of_touches (touches : Touches other before after) (different : node ≠ other)
    (lost : before.Lost node) : after.Lost node where
  moving := (touches.moving node).mpr ⟨lost.moving, different⟩
  not_live := by
    rintro placement live rfl
    rw [touches.ring_of_ne placement different] at live
    exact lost.not_live placement live rfl
  unstaged := by
    intro placement staged
    exact lost.unstaged placement ((touches.staging placement).mp staged).1

theorem advance (lost : locator.Lost node) : (locator.advance start stop).locator.Lost node where
  moving := by
    rw [advance_moving]
    exact lost.moving
  not_live := by
    intro placement live
    rcases mem_ring_advance.mp live with ⟨live, -⟩ | enters
    · exact lost.not_live placement live
    · exact lost.unstaged placement enters.staged
  unstaged := by
    intro placement staged
    rcases mem_staging_advance.mp staged with ⟨staged, -⟩ | retires
    · exact lost.unstaged placement staged
    · exact lost.not_live placement retires.live

theorem afterRanges (lost : locator.Lost node) (ranges : List (Point × Point)) :
    (locator.afterRanges ranges).Lost node := by
  induction ranges generalizing locator with
  | nil => exact lost
  | cons range rest ih => exact ih lost.advance

theorem exists_missing (lost : locator.Lost node) :
    ∃ placement ∈ locator.layout.placements node,
      placement ∉ locator.staging ∧ placement ∉ locator.ring := by
  rcases locator.layout.exists_mem_points node with ⟨point, placed⟩
  refine ⟨⟨point, node⟩, Layout.mem_placements.mpr ⟨rfl, placed⟩, ?_, ?_⟩
  · exact fun staged => lost.unstaged _ staged rfl
  · exact fun live => lost.not_live _ live rfl

theorem failed_detach (lost : locator.Lost node) : (locator.detach node).Failed := by
  rcases lost.exists_missing with ⟨placement, placed, not_staged, not_live⟩
  exact failed_detach_iff.mpr ⟨placement, placed, not_live, .inl ⟨lost.moving, not_staged⟩⟩

theorem failed_withdrawNode (lost : locator.Lost node) : (locator.withdrawNode node).Failed :=
  failed_withdrawNode_iff.mpr ⟨lost.moving, lost.exists_missing⟩

/-- An operation that takes in a lost node breaks off there or before. -/
theorem failed_forEach {step : Locator → Address → Outcome} (lost : locator.Lost node)
    (member : node ∈ named) (fails : ∀ locator, locator.Lost node → (step locator node).Failed)
    (touches : ∀ locator other, Touches other locator (step locator other).locator) :
    (locator.forEach step named).Failed := by
  induction named generalizing locator with
  | nil => exact nomatch member
  | cons first rest ih =>
      by_cases failed : (step locator first).Failed
      · rwa [forEach_cons_of_failed failed]
      · rw [forEach_cons_of_not_failed failed]
        have different : node ≠ first := by
          rintro rfl
          exact failed (fails locator lost)
        exact ih (lost.of_touches (touches locator first) different)
          ((List.mem_cons.mp member).resolve_left different)

end Lost

/-- A preparation between migrations loses the leaving nodes that are not active. -/
theorem AtRest.lost (atRest : locator.AtRest) (member : node ∈ named)
    (inactive : node ∉ locator.nodes) : (locator.prepare .leave named).Lost node where
  moving := mem_moving_prepare.mpr ⟨member, nofun⟩
  not_live := by
    rintro placement live rfl
    exact inactive (atRest.mem_ring_iff.mp live).1
  unstaged := by
    intro placement staged
    exact nomatch (mem_staging_prepare.mp staged).1

/-! ### Nodes that are active -/

namespace Coherent

/-- Between migrations a coherent locator is the one that is built of its active nodes. -/
theorem eq_build (coherent : locator.Coherent) (idle : locator.migration = none)
    (nodes : ∀ node, node ∈ locator.nodes ↔ node ∈ named) :
    locator = Locator.build locator.layout named := by
  have same : locator.nodes = (Locator.build locator.layout named).nodes := by
    ext node
    rw [nodes]
    exact OrderedSet.mem_ofList.symm
  exact coherent.eq_of_agrees_idle (.build locator.layout named) (.of_idle rfl same idle rfl) rfl

theorem mem_nodes_foldl_withdrawNode (coherent : locator.Coherent)
    (leaving : locator.kind? = some .leave) :
    node ∈ (named.foldl (fun locator node => (locator.withdrawNode node).locator) locator).nodes ↔
      node ∈ locator.nodes ∧ ¬(node ∈ named ∧ node ∈ locator.moving) := by
  induction named generalizing locator with
  | nil => simp
  | cons first rest ih =>
      rw [List.foldl_cons, ih (coherent.withdrawNode first) (withdrawNode_kind?.trans leaving),
        mem_nodes_withdrawNode, mem_moving_withdrawNode, List.mem_cons]
      have succeeds := coherent.not_failed_withdrawNode first
      grind

end Coherent

theorem AtRest.leaving (atRest : locator.AtRest) (active : ∀ node ∈ named, node ∈ locator.nodes)
    (ranges : List (Point × Point)) :
    let swept := (locator.prepare .leave named).afterRanges ranges
    swept.Coherent ∧ swept.layout = locator.layout ∧ swept.nodes = locator.nodes ∧
      swept.kind? = some .leave ∧ ∀ node, node ∈ swept.moving ↔ node ∈ named := by
  intro swept
  rcases atRest.swept_inOrder .leave named (fun _ => active) ranges with ⟨inOrder, agrees⟩
  refine ⟨inOrder.toCoherent, agrees.layout, agrees.nodes, agrees.kind?.trans prepare_kind?, ?_⟩
  intro node
  rw [agrees.moving, mem_moving_prepare]
  exact and_iff_left nofun

theorem Releases.settle_eq_build {remaining : List Address}
    (releases : Releases named locator after) (coherent : after.Coherent)
    (moving : ∀ node ∈ locator.moving, node ∈ named)
    (nodes : ∀ node, node ∈ after.nodes ↔ node ∈ remaining) :
    after.settle = build locator.layout remaining := by
  have none_moving : ∀ node, node ∉ after.moving := by
    intro node moves
    rcases (releases.moving node).mp moves with ⟨moved, kept⟩
    exact kept (moving node moved)
  rw [coherent.settle.eq_build (settle_idle_of_none_moving none_moving) nodes, settle_layout,
    releases.layout]

namespace AtRest

theorem update_leaving (atRest : locator.AtRest) (active : ∀ node ∈ named, node ∈ locator.nodes)
    (ranges : List (Point × Point)) :
    ((locator.prepare .leave named).afterRanges ranges).update [] named =
      ⟨Locator.build locator.layout (locator.nodes.toList.filter fun node => node ∉ named),
        .applied⟩ := by
  rcases atRest.leaving active ranges with ⟨coherent, layout, nodes, -, moving⟩
  rcases coherent.update_eq [] named with ⟨changed, next, releases, changedNodes, same⟩
  rw [same, releases.settle_eq_build next (fun node => (moving node).mp), layout]
  intro node
  rw [changedNodes, nodes]
  simp [OrderedSet.mem_toList]

theorem withdraw_leaving (atRest : locator.AtRest) (active : ∀ node ∈ named, node ∈ locator.nodes)
    (ranges : List (Point × Point)) :
    ((locator.prepare .leave named).afterRanges ranges).withdraw named =
      ⟨Locator.build locator.layout (locator.nodes.toList.filter fun node => node ∉ named),
        .applied⟩ := by
  rcases atRest.leaving active ranges with ⟨coherent, layout, nodes, leaving, moving⟩
  rcases coherent.withdraw_eq_foldl named with ⟨next, releases, same⟩
  rw [same, releases.settle_eq_build next (fun node => (moving node).mp), layout]
  intro node
  rw [coherent.mem_nodes_foldl_withdrawNode leaving, moving, nodes]
  simp [OrderedSet.mem_toList]

theorem failed_leaving (atRest : locator.AtRest) (member : node ∈ named)
    (inactive : node ∉ locator.nodes) (ranges : List (Point × Point)) :
    (((locator.prepare .leave named).afterRanges ranges).update [] named).Failed ∧
      (((locator.prepare .leave named).afterRanges ranges).withdraw named).Failed := by
  have lost := (atRest.lost member inactive).afterRanges ranges
  constructor
  · exact lost.failed_forEach member (fun _ => Lost.failed_detach) fun _ _ => touches_detach
  · exact lost.failed_forEach member (fun _ => Lost.failed_withdrawNode)
      fun _ _ => touches_withdrawNode

end AtRest

theorem Outcome.Failed.verdict_ne_applied {outcome : Outcome} (failed : outcome.Failed) :
    outcome.verdict ≠ .applied := by
  rcases failed with ⟨breach, failed⟩
  rw [failed]
  exact nofun

/--
After a preparation between migrations that names nodes to leave, and after any ranges,
detaching these nodes succeeds exactly if all of them were active, and so does withdrawing
them. Either then ends the migration and leaves the locator that is built from the other nodes.
-/
theorem leave_ends_iff_active (atRest : locator.AtRest) (named : List Address)
    (ranges : List (Point × Point)) :
    let swept := (locator.prepare .leave named).afterRanges ranges
    let remaining := build locator.layout (locator.nodes.toList.filter fun node => node ∉ named)
    ((swept.update [] named).verdict = .applied ↔ ∀ node ∈ named, node ∈ locator.nodes) ∧
    ((swept.withdraw named).verdict = .applied ↔ ∀ node ∈ named, node ∈ locator.nodes) ∧
    ((∀ node ∈ named, node ∈ locator.nodes) →
      (swept.update [] named).locator = remaining ∧
      (swept.withdraw named).locator = remaining) := by
  intro swept remaining
  refine ⟨⟨?_, ?_⟩, ⟨?_, ?_⟩, ?_⟩
  · intro applied node member
    by_contra inactive
    exact (atRest.failed_leaving member inactive ranges).1.verdict_ne_applied applied
  · intro active
    exact congrArg Outcome.verdict (atRest.update_leaving active ranges)
  · intro applied node member
    by_contra inactive
    exact (atRest.failed_leaving member inactive ranges).2.verdict_ne_applied applied
  · intro active
    exact congrArg Outcome.verdict (atRest.withdraw_leaving active ranges)
  · intro active
    exact ⟨congrArg Outcome.locator (atRest.update_leaving active ranges),
      congrArg Outcome.locator (atRest.withdraw_leaving active ranges)⟩

/-- Two nodes leave, one of them named twice, and a range across zero has swept some of their points. -/
theorem leave_ends_after_half_a_sweep :
    let locator := build smallLayout [alpha, beta, gamma]
    let swept := (locator.prepare .leave [gamma, beta, gamma]).afterRanges [(3000000000, 1700000000)]
    locator.AtRest ∧ ⟨1745397900, beta⟩ ∈ swept.ring ∧ ⟨1658246976, gamma⟩ ∈ swept.staging ∧
      (swept.update [] [gamma, beta, gamma]).verdict = .applied ∧
      (swept.withdraw [gamma, beta, gamma]).verdict = .applied ∧
      (swept.update [] [gamma, beta, gamma]).locator = build smallLayout [alpha] ∧
      (swept.withdraw [gamma, beta, gamma]).locator = build smallLayout [alpha] := by
  intro locator swept
  have atRest : locator.AtRest := .build smallLayout [alpha, beta, gamma]
  have active : ∀ node ∈ [gamma, beta, gamma], node ∈ locator.nodes := by decide +kernel
  have others : locator.nodes.toList.filter (fun node => node ∉ [gamma, beta, gamma]) = [alpha] := by
    decide +kernel
  rcases leave_ends_iff_active atRest [gamma, beta, gamma] [(3000000000, 1700000000)] with
    ⟨update_iff, withdraw_iff, remaining⟩
  rw [others] at remaining
  exact ⟨atRest, by decide +kernel, by decide +kernel, update_iff.mpr active,
    withdraw_iff.mpr active, remaining active⟩

/-- A node that was never active is taken into a leaving migration, which neither event can end. -/
theorem leave_of_stranger_fails :
    let locator := build smallLayout [alpha]
    let prepared := locator.prepare .leave [beta]
    locator.AtRest ∧ (prepared.update [] [beta]).verdict = .failed (.inNeitherRing 4 4 beta) ∧
      (prepared.withdraw [beta]).verdict = .failed (.inNeitherRing 4 4 beta) :=
  ⟨.build smallLayout [alpha], by decide +kernel, by decide +kernel⟩

end Locator

end ClusterRing
