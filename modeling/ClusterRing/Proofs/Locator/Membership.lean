import ClusterRing.Proofs.Locator.Release

/-!
# Attached and detached nodes

A node that is attached should own all its points live and none staged, and one that
is detached or withdrawn should be gone from both rings. In an orderly run it is so.
In any other run it depends on where earlier preparations and ranges have left the
points. A moving node is attached by what is staged of it, so it lacks the points
that are in neither ring, unless it is attached a second time
(`attached_placed_iff`). It is purged from staging or else from the live ring, so it
keeps the points that are in both (`detached_gone_iff`). A node that does not move
is attached and detached without regard to staging.
-/

namespace ClusterRing.Locator

/-- Every point of a node is live or staged. -/
def Whole (locator : Locator) (node : Address) : Prop :=
  ∀ point ∈ locator.layout.points node,
    ⟨point, node⟩ ∈ locator.ring ∨ ⟨point, node⟩ ∈ locator.staging

/-- No point of a node is live and staged. -/
def Single (locator : Locator) (node : Address) : Prop :=
  ∀ placement ∈ locator.ring, placement.node = node → placement ∉ locator.staging

/-- No point of a node is staged. -/
def Unstaged (locator : Locator) (node : Address) : Prop :=
  ∀ placement ∈ locator.staging, placement.node ≠ node

instance (locator : Locator) (node : Address) : Decidable (locator.Whole node) :=
  inferInstanceAs (Decidable (∀ point ∈ locator.layout.points node,
    ⟨point, node⟩ ∈ locator.ring ∨ ⟨point, node⟩ ∈ locator.staging))

instance (locator : Locator) (node : Address) : Decidable (locator.Single node) :=
  inferInstanceAs (Decidable (∀ placement ∈ locator.ring,
    placement.node = node → placement ∉ locator.staging))

instance (locator : Locator) (node : Address) : Decidable (locator.Unstaged node) :=
  inferInstanceAs (Decidable (∀ placement ∈ locator.staging, placement.node ≠ node))

/-- A node is active, owns all its points in the live ring and none in staging. -/
structure Placed (locator : Locator) (node : Address) : Prop where
  active : node ∈ locator.nodes
  live : ∀ point ∈ locator.layout.points node, ⟨point, node⟩ ∈ locator.ring
  unstaged : locator.Unstaged node

/-- A node does not move and owns no points, neither live nor staged. -/
structure Gone (locator : Locator) (node : Address) : Prop where
  not_moving : node ∉ locator.moving
  not_live : ∀ placement ∈ locator.ring, placement.node ≠ node
  unstaged : locator.Unstaged node

variable {locator before after : Locator} {node : Address} {placement : Placement}
variable {attached : List Address}

theorem mem_staging_settle :
    placement ∈ locator.settle.staging ↔
      placement ∈ locator.staging ∧ ∃ node, node ∈ locator.moving := by
  rcases settle_cases locator with ⟨same, idle | moves⟩ | ⟨idle, none_moving⟩
  · rw [same]
    simp [not_mem_staging_of_idle idle]
  · rw [same]
    exact (and_iff_left moves).symm
  · refine iff_of_false (not_mem_staging_of_idle idle) ?_
    rintro ⟨-, node, moves⟩
    exact none_moving node moves

namespace Coherent

theorem whole (coherent : locator.Coherent) (moving : node ∈ locator.moving) :
    locator.Whole node :=
  fun _ placed => coherent.live_or_staged placed moving

theorem single (coherent : locator.Coherent) (moving : node ∈ locator.moving) :
    locator.Single node := by
  rintro placement live rfl staged
  exact coherent.not_live placement staged moving live

theorem unstaged (coherent : locator.Coherent) (not_moving : node ∉ locator.moving) :
    locator.Unstaged node := by
  rintro placement staged rfl
  exact not_moving (coherent.staged_moving placement staged)

end Coherent

/-! ### Attaching -/

theorem foldl_attach_layout : (attached.foldl attach locator).layout = locator.layout := by
  induction attached generalizing locator with
  | nil => rfl
  | cons first rest ih => rw [List.foldl_cons, ih, attach_layout]

theorem mem_moving_foldl_attach :
    node ∈ (attached.foldl attach locator).moving ↔ node ∈ locator.moving ∧ node ∉ attached := by
  induction attached generalizing locator with
  | nil => simp
  | cons first rest ih =>
      rw [List.foldl_cons, ih, mem_moving_attach, List.mem_cons]
      grind

theorem mem_staging_foldl_attach :
    placement ∈ (attached.foldl attach locator).staging ↔
      placement ∈ locator.staging ∧
        ¬(placement.node ∈ attached ∧ placement.node ∈ locator.moving ∧
          locator.layout.Places placement) := by
  induction attached generalizing locator with
  | nil => simp
  | cons first rest ih =>
      rw [List.foldl_cons, ih, mem_staging_attach, mem_moving_attach, attach_layout,
        Layout.mem_placements_iff, List.mem_cons]
      grind

/-- A moving node that is named twice no longer moves the second time, and takes all its points. -/
theorem mem_ring_foldl_attach :
    placement ∈ (attached.foldl attach locator).ring ↔
      placement ∈ locator.ring ∨
        placement.node ∈ attached ∧ locator.layout.Places placement ∧
          (placement.node ∈ locator.moving →
            2 ≤ attached.count placement.node ∨ placement ∈ locator.staging) := by
  induction attached generalizing locator with
  | nil => simp
  | cons first rest ih =>
      rw [List.foldl_cons, ih, mem_ring_attach, mem_staging_attach, mem_moving_attach,
        attach_layout, Layout.mem_placements_iff, List.mem_cons, List.count_cons]
      by_cases same : placement.node = first
      · subst first
        have named : 1 ≤ rest.count placement.node ↔ placement.node ∈ rest := List.one_le_count_iff
        grind
      · grind

/-- Of an attached node all points are live if it did not move, was whole or is named twice. -/
theorem live_foldl_attach_iff (member : node ∈ attached) :
    (∀ point ∈ locator.layout.points node, ⟨point, node⟩ ∈ (attached.foldl attach locator).ring) ↔
      (node ∈ locator.moving → 2 ≤ attached.count node ∨ locator.Whole node) := by
  constructor
  · intro live moving
    refine or_iff_not_imp_left.mpr fun once point placed => ?_
    rcases mem_ring_foldl_attach.mp (live point placed) with already | ⟨-, -, taken⟩
    · exact .inl already
    · exact .inr ((taken moving).resolve_left once)
  · intro complete point placed
    rw [mem_ring_foldl_attach]
    by_cases moving : node ∈ locator.moving
    · rcases complete moving with twice | whole
      · exact .inr ⟨member, placed, fun _ => .inl twice⟩
      · rcases whole point placed with live | staged
        · exact .inl live
        · exact .inr ⟨member, placed, fun _ => .inr staged⟩
    · exact .inr ⟨member, placed, fun moves => absurd moves moving⟩

namespace WellFormed

/-- Of an attached node no point is staged if it moved, if the migration ends, or if none was before. -/
theorem unstaged_foldl_attach_iff (wellFormed : locator.WellFormed) (member : node ∈ attached) :
    (attached.foldl attach locator).settle.Unstaged node ↔
      (node ∉ locator.moving →
        (∀ other ∈ locator.moving, other ∈ attached) ∨ locator.Unstaged node) := by
  unfold Unstaged
  simp only [mem_staging_settle, mem_staging_foldl_attach, mem_moving_foldl_attach]
  constructor
  · intro unstaged not_moving
    refine or_iff_not_imp_right.mpr fun some_staged other moves => ?_
    by_contra goes_on
    apply some_staged
    rintro placement staged rfl
    exact unstaged placement ⟨⟨staged, fun moved => not_moving moved.2.1⟩, other, moves, goes_on⟩ rfl
  · rintro unstaged placement ⟨⟨staged, kept⟩, other, moves, goes_on⟩ rfl
    by_cases moving : placement.node ∈ locator.moving
    · exact kept ⟨member, moving, wellFormed.places placement (.inr staged)⟩
    · rcases unstaged moving with ends | unstaged
      · exact goes_on (ends other moves)
      · exact unstaged placement staged rfl

theorem placed_update_iff (wellFormed : locator.WellFormed) (member : node ∈ attached) :
    (locator.update attached []).locator.Placed node ↔
      (node ∈ locator.moving → 2 ≤ attached.count node ∨ locator.Whole node) ∧
      (node ∉ locator.moving →
        (∀ other ∈ locator.moving, other ∈ attached) ∨ locator.Unstaged node) := by
  rw [← live_foldl_attach_iff member, ← wellFormed.unstaged_foldl_attach_iff member]
  have layout : (attached.foldl attach locator).layout = locator.layout := foldl_attach_layout
  constructor
  · intro placed
    have live := placed.live
    change ∀ point ∈ (attached.foldl attach locator).layout.points node, _ at live
    rw [layout] at live
    exact ⟨live, placed.unstaged⟩
  · rintro ⟨live, unstaged⟩
    refine ⟨mem_nodes_foldl_attach.mpr (.inr member), ?_, unstaged⟩
    change ∀ point ∈ (attached.foldl attach locator).layout.points node, _
    rwa [layout]

end WellFormed

/--
Attaching succeeds and makes the nodes active. A node is placed with it exactly if it was
whole before or is named twice, in case it moved, and in case it did not, if no point of it was
staged or the migration ends. After an orderly run every attached node is placed.
-/
theorem attached_placed_iff (layout : Layout) (nodes : List Address) (events : List Event)
    (attached : List Address) :
    let locator := (build layout nodes).after events
    let outcome := locator.update attached []
    outcome.verdict = .applied ∧
    (∀ node ∈ attached, node ∈ outcome.locator.nodes ∧
      (outcome.locator.Placed node ↔
        (node ∈ locator.moving → 2 ≤ attached.count node ∨ locator.Whole node) ∧
        (node ∉ locator.moving →
          (∀ other ∈ locator.moving, other ∈ attached) ∨ locator.Unstaged node))) ∧
    (Reachable Orderly layout locator → ∀ node ∈ attached, outcome.locator.Placed node) := by
  intro locator outcome
  have wellFormed : locator.WellFormed := (WellFormed.build layout nodes).after
  refine ⟨rfl, ?_, ?_⟩
  · intro node member
    exact ⟨mem_nodes_foldl_attach.mpr (.inr member), wellFormed.placed_update_iff member⟩
  · intro reachable node member
    have coherent := reachable.inOrder.toCoherent
    exact (wellFormed.placed_update_iff member).mpr
      ⟨fun moving => .inr (coherent.whole moving),
        fun not_moving => .inr (coherent.unstaged not_moving)⟩

/-- A joining node that is live and staged after a second preparation is placed all the same. -/
theorem placed_after_second_preparation :
    let locator := (build smallLayout [alpha]).after
      [.prepareMigration .join [beta], .rangeApplied 5 5, .prepareMigration .join [beta]]
    beta ∈ locator.moving ∧ ¬locator.Single beta ∧
      (locator.update [gamma, beta] []).locator.Placed beta := by
  intro locator
  have moving : beta ∈ locator.moving := by decide +kernel
  have whole : locator.Whole beta := by decide +kernel
  have placed_iff := ((attached_placed_iff smallLayout [alpha]
    [.prepareMigration .join [beta], .rangeApplied 5 5, .prepareMigration .join [beta]]
    [gamma, beta]).2.1 beta (by simp)).2
  refine ⟨moving, by decide +kernel, placed_iff.mpr ⟨fun _ => .inr whole, ?_⟩⟩
  exact fun not_moving => absurd moving not_moving

/-- A leaving migration also takes nodes that own nothing; attached, such a node is active without points. -/
theorem no_points_after_leave_of_stranger :
    let outcome := ((build smallLayout [alpha]).after [.prepareMigration .leave [beta]]).update
      [beta] []
    outcome.verdict = .applied ∧ beta ∈ outcome.locator.nodes ∧
      outcome.locator.ring.pointsOf beta = [] ∧ ¬outcome.locator.Placed beta := by
  intro outcome
  have bare : outcome.locator.ring.pointsOf beta = [] := by decide +kernel
  refine ⟨rfl, by decide +kernel, bare, ?_⟩
  intro placed
  have live := placed.live 1745397900 (by decide +kernel)
  rw [← Ring.mem_pointsOf, bare] at live
  exact nomatch live

/-! ### Detaching and withdrawing -/

theorem forEach_singleton_of_applied {step : Locator → Address → Outcome}
    (applied : (locator.forEach step [node]).verdict = .applied) :
    ¬(step locator node).Failed ∧
      (locator.forEach step [node]).locator = (step locator node).locator.settle := by
  by_cases failed : (step locator node).Failed
  · rcases failed with ⟨breach, broken⟩
    rw [forEach_cons_of_failed ⟨breach, broken⟩, broken] at applied
    exact nomatch applied
  · rw [forEach_cons_of_not_failed failed]
    exact ⟨failed, rfl⟩

/-- A node that stops moving leaves nothing in staging; of any other node staging is not looked at. -/
theorem Touches.gone_settle_iff (touches : Touches node before after)
    (wellFormed : before.WellFormed) :
    after.settle.Gone node ↔
      (∀ placement ∈ after.ring, placement.node ≠ node) ∧
      (node ∉ before.moving → (∃ other, other ∈ before.moving) → before.Unstaged node) := by
  have unstaged_iff : after.settle.Unstaged node ↔
      (node ∉ before.moving → (∃ other, other ∈ before.moving) → before.Unstaged node) := by
    simp only [Unstaged, mem_staging_settle, touches.staging, touches.moving,
      Layout.mem_placements_iff]
    constructor
    · rintro unstaged not_moving ⟨other, moves⟩ placement staged
      refine unstaged placement ⟨⟨staged, fun moved => not_moving moved.1⟩, other, moves, ?_⟩
      rintro rfl
      exact not_moving moves
    · rintro unstaged placement ⟨⟨staged, kept⟩, other, moves, -⟩ rfl
      by_cases moving : placement.node ∈ before.moving
      · exact kept ⟨moving, rfl, wellFormed.places placement (.inr staged)⟩
      · exact unstaged moving ⟨other, moves⟩ placement staged rfl
  rw [← unstaged_iff]
  constructor
  · intro gone
    exact ⟨gone.not_live, gone.unstaged⟩
  · rintro ⟨not_live, unstaged⟩
    refine ⟨?_, not_live, unstaged⟩
    rw [mem_moving_settle, touches.moving]
    exact fun moved => moved.2 rfl

namespace WellFormed

theorem not_live_detach_iff (wellFormed : locator.WellFormed)
    (present : node ∈ locator.nodes ∨ node ∈ locator.moving) :
    (∀ placement ∈ (locator.detach node).locator.ring, placement.node ≠ node) ↔
      (node ∈ locator.moving → locator.Single node) := by
  simp only [mem_ring_detach, Layout.mem_placements_iff]
  constructor
  · rintro not_live moving placement live rfl staged
    refine not_live placement ⟨live, ?_⟩ rfl
    rintro ⟨-, ⟨-, not_staged⟩ | ⟨not_moving, -⟩⟩
    · exact not_staged staged
    · exact not_moving moving
  · rintro single placement ⟨live, kept⟩ rfl
    have places := wellFormed.places placement (.inl live)
    by_cases moving : placement.node ∈ locator.moving
    · exact kept ⟨⟨rfl, places⟩, .inl ⟨moving, single moving placement live rfl⟩⟩
    · exact kept ⟨⟨rfl, places⟩, .inr ⟨moving, present.resolve_right moving⟩⟩

theorem not_live_withdrawNode_iff (wellFormed : locator.WellFormed)
    (moving : node ∈ locator.moving) :
    (∀ placement ∈ (locator.withdrawNode node).locator.ring, placement.node ≠ node) ↔
      locator.Single node := by
  simp only [mem_ring_withdrawNode, Layout.mem_placements_iff]
  constructor
  · rintro not_live placement live rfl staged
    exact not_live placement ⟨live, fun purged => purged.2.2 staged⟩ rfl
  · rintro single placement ⟨live, kept⟩ rfl
    have places := wellFormed.places placement (.inl live)
    exact kept ⟨⟨rfl, places⟩, moving, single placement live rfl⟩

theorem detached (wellFormed : locator.WellFormed)
    (present : node ∈ locator.nodes ∨ node ∈ locator.moving)
    (applied : (locator.update [] [node]).verdict = .applied) :
    node ∉ (locator.update [] [node]).locator.nodes ∧
      ((locator.update [] [node]).locator.Gone node ↔
        (node ∈ locator.moving → locator.Single node) ∧
        (node ∉ locator.moving → (∃ other, other ∈ locator.moving) → locator.Unstaged node)) := by
  have same : (locator.update [] [node]).locator = (locator.detach node).locator.settle :=
    (forEach_singleton_of_applied applied).2
  rw [same, touches_detach.gone_settle_iff wellFormed, wellFormed.not_live_detach_iff present]
  exact ⟨fun active => (mem_nodes_detach.mp active).2 rfl, Iff.rfl⟩

theorem withdrawn (wellFormed : locator.WellFormed) (moving : node ∈ locator.moving)
    (applied : (locator.withdraw [node]).verdict = .applied) :
    (locator.kind? = some .leave → node ∉ (locator.withdraw [node]).locator.nodes) ∧
      ((locator.withdraw [node]).locator.Gone node ↔ locator.Single node) := by
  rcases forEach_singleton_of_applied applied with ⟨succeeded, same⟩
  change (locator.withdraw [node]).locator = _ at same
  rw [same, touches_withdrawNode.gone_settle_iff wellFormed,
    wellFormed.not_live_withdrawNode_iff moving]
  constructor
  · intro leaving active
    exact (mem_nodes_withdrawNode.mp active).2 ⟨rfl, moving, leaving, succeeded⟩
  · exact and_iff_left fun not_moving => absurd moving not_moving

end WellFormed

/--
A node that is active or moves is inactive once it is detached, if that succeeds. It is gone
exactly if no point of it was live and staged, in case it moved, and in case it did not, if no
point of it was staged or no node moved. The same goes for a moving node that is withdrawn. In
an orderly run both succeed, and the node is gone.
-/
theorem detached_gone_iff (layout : Layout) (nodes : List Address) (events : List Event)
    (node : Address) :
    let locator := (build layout nodes).after events
    let detached := locator.update [] [node]
    let withdrawn := locator.withdraw [node]
    (node ∈ locator.nodes ∨ node ∈ locator.moving → detached.verdict = .applied →
      node ∉ detached.locator.nodes ∧
      (detached.locator.Gone node ↔
        (node ∈ locator.moving → locator.Single node) ∧
        (node ∉ locator.moving → (∃ other, other ∈ locator.moving) → locator.Unstaged node))) ∧
    (node ∈ locator.moving → withdrawn.verdict = .applied →
      (locator.kind? = some .leave → node ∉ withdrawn.locator.nodes) ∧
      (withdrawn.locator.Gone node ↔ locator.Single node)) ∧
    (Reachable Orderly layout locator →
      (node ∈ locator.nodes ∨ node ∈ locator.moving →
        detached.verdict = .applied ∧ detached.locator.Gone node) ∧
      (node ∈ locator.moving → withdrawn.verdict = .applied ∧ withdrawn.locator.Gone node)) := by
  intro locator detached withdrawn
  have wellFormed : locator.WellFormed := (WellFormed.build layout nodes).after
  refine ⟨wellFormed.detached, wellFormed.withdrawn, ?_⟩
  intro reachable
  have coherent := reachable.inOrder.toCoherent
  constructor
  · intro present
    rcases coherent.update_eq [] [node] with ⟨_, -, -, -, once⟩
    have applied : detached.verdict = .applied := congrArg Outcome.verdict once
    exact ⟨applied, (wellFormed.detached present applied).2.mpr
      ⟨coherent.single, fun not_moving _ => coherent.unstaged not_moving⟩⟩
  · intro moving
    rcases coherent.withdraw_eq [node] with ⟨_, -, -, once⟩
    have applied : withdrawn.verdict = .applied := congrArg Outcome.verdict once
    exact ⟨applied, (wellFormed.withdrawn moving applied).2.mpr (coherent.single moving)⟩

/-- One of two joining nodes goes halfway, in a run that is not orderly: an inactive node was to leave. -/
theorem gone_halfway_through_joining :
    let locator := (build smallLayout [alpha]).after
      [.prepareMigration .leave [gamma], .prepareMigration .join [beta, gamma],
        .rangeApplied 2000000000 3000000000]
    beta ∈ locator.moving ∧
      ⟨2369157494, beta⟩ ∈ locator.ring ∧ ⟨1745397900, beta⟩ ∈ locator.staging ∧
      (locator.update [] [beta]).locator.Gone beta ∧
      (locator.withdraw [beta]).locator.Gone beta := by
  intro locator
  have moving : beta ∈ locator.moving := by decide +kernel
  have single : locator.Single beta := by decide +kernel
  have detached : (locator.update [] [beta]).verdict = .applied := by decide +kernel
  have withdrawn : (locator.withdraw [beta]).verdict = .applied := by decide +kernel
  rcases detached_gone_iff smallLayout [alpha] [.prepareMigration .leave [gamma],
    .prepareMigration .join [beta, gamma], .rangeApplied 2000000000 3000000000] beta with
    ⟨detaches, withdraws, -⟩
  have gone := (detaches (.inr moving) detached).2.mpr
    ⟨fun _ => single, fun not_moving => absurd moving not_moving⟩
  exact ⟨moving, by decide +kernel, by decide +kernel, gone, (withdraws moving withdrawn).2.mpr single⟩

/-- After a second preparation only the staged copy of each point is purged, and the live one stays. -/
theorem live_points_outlast_detach :
    let locator := (build smallLayout [alpha]).after
      [.prepareMigration .join [beta], .rangeApplied 5 5, .prepareMigration .join [beta]]
    let detached := locator.update [] [beta]
    beta ∈ locator.moving ∧ detached.verdict = .applied ∧
      detached.locator.ring.pointsOf beta = [1745397900, 2369157494, 2959484410, 4017229437] ∧
      ¬detached.locator.Gone beta := by
  intro locator detached
  refine ⟨by decide +kernel, by decide +kernel, by decide +kernel, ?_⟩
  intro gone
  exact gone.not_live ⟨1745397900, beta⟩ (by decide +kernel) rfl

end ClusterRing.Locator
