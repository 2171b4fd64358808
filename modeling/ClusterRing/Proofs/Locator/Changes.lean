import ClusterRing.Event.Basic

/-!
# What the operations change

Each operation on a locator, part by part: the active nodes, the live ring, the
moving and the staying nodes, and staging afterwards, by membership. Attaching,
detaching and withdrawing a node touch the placements of that node alone, and a
range shifts placements between the live ring and staging without touching any
set of nodes. Later files use these lemmas in place of the definitions.
-/

namespace ClusterRing

/-- The layout puts the node of a placement at its point. -/
def Layout.Places (layout : Layout) (placement : Placement) : Prop :=
  placement.point ∈ layout.points placement.node

theorem Layout.mem_placements_iff {layout : Layout} {node : Address} {placement : Placement} :
    placement ∈ layout.placements node ↔ placement.node = node ∧ layout.Places placement := by
  rw [mem_placements]
  constructor
  · rintro ⟨rfl, member⟩
    exact ⟨rfl, member⟩
  · rintro ⟨rfl, places⟩
    exact ⟨rfl, places⟩

theorem Layout.mem_ring_iff {layout : Layout} {nodes : List Address} {placement : Placement} :
    placement ∈ layout.ring nodes ↔ placement.node ∈ nodes ∧ layout.Places placement :=
  mem_ring

namespace Locator

variable {locator : Locator} {node other : Address} {placement : Placement}

/-- An operation broke off. -/
def Outcome.Failed (outcome : Outcome) : Prop :=
  ∃ breach, outcome.verdict = .failed breach

/-! ### The migration in which a node is moving -/

theorem migrationOf?_eq_some_iff {migration : Migration} :
    locator.migrationOf? node = some migration ↔
      locator.migration = some migration ∧ node ∈ migration.moving := by
  simp [migrationOf?, Option.filter_eq_some_iff]

theorem migrationOf?_eq_none_iff : locator.migrationOf? node = none ↔ node ∉ locator.moving := by
  unfold migrationOf? moving
  cases locator.migration with
  | none => simp
  | some migration => simp [Option.filter_eq_none_iff]

theorem moving_cases (locator : Locator) (node : Address) :
    (∃ migration, locator.migrationOf? node = some migration ∧
      locator.migration = some migration ∧ node ∈ locator.moving) ∨
      (locator.migrationOf? node = none ∧ node ∉ locator.moving) := by
  cases found : locator.migrationOf? node with
  | none => exact .inr ⟨rfl, migrationOf?_eq_none_iff.mp found⟩
  | some migration =>
      rcases migrationOf?_eq_some_iff.mp found with ⟨running, member⟩
      exact .inl ⟨migration, rfl, running, by simpa [moving, running] using member⟩

theorem kind?_eq_none_iff : locator.kind? = none ↔ locator.migration = none := by
  simp [kind?]

theorem not_mem_moving_of_idle (idle : locator.migration = none) : node ∉ locator.moving := by
  simp [moving, idle]

theorem not_mem_staging_of_idle (idle : locator.migration = none) :
    placement ∉ locator.staging := by
  simp [staging, idle]

/-- A locator is determined by its parts. -/
theorem eq_of_parts {left right : Locator} (layout : left.layout = right.layout)
    (nodes : left.nodes = right.nodes) (ring : left.ring = right.ring)
    (kind? : left.kind? = right.kind?) (sweep? : left.sweep? = right.sweep?)
    (moving : left.moving = right.moving) (staying : left.staying = right.staying)
    (staging : left.staging = right.staging) : left = right := by
  rcases left with ⟨_, _, _, _ | ⟨_, _, _, _, _⟩⟩ <;>
    rcases right with ⟨_, _, _, _ | ⟨_, _, _, _, _⟩⟩ <;>
      simp_all [Locator.kind?, Locator.sweep?, Locator.moving, Locator.staying, Locator.staging]

/-! ### Ending an empty migration -/

@[simp]
theorem settle_layout : locator.settle.layout = locator.layout := rfl

@[simp]
theorem settle_nodes : locator.settle.nodes = locator.nodes := rfl

@[simp]
theorem settle_ring : locator.settle.ring = locator.ring := rfl

/-- A migration with a moving node goes on; one without has ended. -/
theorem settle_cases (locator : Locator) :
    (locator.settle = locator ∧
      (locator.migration = none ∨ ∃ node, node ∈ locator.moving)) ∨
    (locator.settle.migration = none ∧ ∀ node, node ∉ locator.moving) := by
  rcases locator with ⟨layout, nodes, ring, _ | migration⟩
  · exact .inl ⟨rfl, .inl rfl⟩
  · cases empty : migration.moving.isEmpty with
    | true =>
        right
        exact ⟨by simp [settle, empty], OrderedSet.isEmpty_iff_forall_not_mem.mp empty⟩
    | false =>
        have nonempty : ¬∀ node, node ∉ migration.moving := by
          rw [← OrderedSet.isEmpty_iff_forall_not_mem, empty]
          exact Bool.false_ne_true
        left
        exact ⟨by simp [settle, empty], .inr (by simpa [moving] using nonempty)⟩

/-- Ending a migration keeps what holds of every locator that is idle then. -/
theorem settle_induction {invariant : Locator → Prop} (holds : invariant locator)
    (ends : locator.settle.migration = none → invariant locator.settle) :
    invariant locator.settle := by
  rcases settle_cases locator with ⟨same, -⟩ | ⟨idle, -⟩
  · rwa [same]
  · exact ends idle

theorem settle_eq_of_moving (moves : node ∈ locator.moving) : locator.settle = locator := by
  rcases settle_cases locator with ⟨same, -⟩ | ⟨-, none_moving⟩
  · exact same
  · exact absurd moves (none_moving node)

theorem settle_idle_of_none_moving (none_moving : ∀ node, node ∉ locator.moving) :
    locator.settle.migration = none := by
  rcases settle_cases locator with ⟨same, idle | ⟨node, moves⟩⟩ | ⟨idle, -⟩
  · rwa [same]
  · exact absurd moves (none_moving node)
  · exact idle

theorem settle_eq_of_goes_on (goes_on : locator.settle.migration ≠ none) :
    locator.settle = locator := by
  rcases settle_cases locator with ⟨same, -⟩ | ⟨idle, -⟩
  · exact same
  · exact absurd idle goes_on

theorem settle_of_idle (idle : locator.migration = none) : locator.settle = locator := by
  rcases locator with ⟨layout, nodes, ring, migration⟩
  obtain rfl : migration = none := idle
  rfl

@[simp]
theorem settle_settle : locator.settle.settle = locator.settle := by
  rcases settle_cases locator with ⟨same, -⟩ | ⟨idle, -⟩
  · rw [same, same]
  · exact settle_of_idle idle

@[simp]
theorem mem_moving_settle : node ∈ locator.settle.moving ↔ node ∈ locator.moving := by
  rcases settle_cases locator with ⟨same, -⟩ | ⟨idle, none_moving⟩
  · rw [same]
  · simp [not_mem_moving_of_idle idle, none_moving node]

/-! ### Attaching a node -/

@[simp]
theorem attach_layout : (locator.attach node).layout = locator.layout := by
  unfold attach
  split <;> rfl

@[simp]
theorem attach_nodes : (locator.attach node).nodes = locator.nodes.insert node := by
  unfold attach
  split <;> rfl

@[simp]
theorem attach_kind? : (locator.attach node).kind? = locator.kind? := by
  rcases moving_cases locator node with ⟨migration, found, running, -⟩ | ⟨absent, -⟩
  · simp [attach, found, kind?, running, Migration.promote, Migration.release]
  · simp [attach, absent, kind?]

@[simp]
theorem attach_staying : (locator.attach node).staying = locator.staying := by
  rcases moving_cases locator node with ⟨migration, found, running, -⟩ | ⟨absent, -⟩
  · simp [attach, found, staying, running, Migration.promote, Migration.release]
  · simp [attach, absent, staying]

@[simp]
theorem attach_sweep? : (locator.attach node).sweep? = locator.sweep? := by
  rcases moving_cases locator node with ⟨migration, found, running, -⟩ | ⟨absent, -⟩
  · simp [attach, found, sweep?, running, Migration.promote, Migration.release]
  · simp [attach, absent, sweep?]

@[simp]
theorem mem_moving_attach :
    other ∈ (locator.attach node).moving ↔ other ∈ locator.moving ∧ other ≠ node := by
  rcases moving_cases locator node with ⟨migration, found, running, -⟩ | ⟨absent, not_moving⟩
  · simp [attach, found, moving, running, Migration.promote, Migration.release]
  · have same : (locator.attach node).moving = locator.moving := by simp [attach, absent, moving]
    rw [same]
    constructor
    · intro member
      refine ⟨member, ?_⟩
      rintro rfl
      exact not_moving member
    · exact And.left

/-- A moving node's staged placements go live; any other node takes all its placements. -/
theorem mem_ring_attach :
    placement ∈ (locator.attach node).ring ↔
      placement ∈ locator.ring ∨
        placement ∈ locator.layout.placements node ∧
          (node ∈ locator.moving → placement ∈ locator.staging) := by
  rcases moving_cases locator node with ⟨migration, found, running, member⟩ | ⟨absent, not_moving⟩
  · simp [attach, found, member, staging, running, Migration.promote, Migration.release]
  · simp [attach, absent, not_moving]

theorem mem_staging_attach :
    placement ∈ (locator.attach node).staging ↔
      placement ∈ locator.staging ∧
        ¬(node ∈ locator.moving ∧ placement ∈ locator.layout.placements node) := by
  rcases moving_cases locator node with ⟨migration, found, running, member⟩ | ⟨absent, not_moving⟩
  · simp [attach, found, member, staging, running, Migration.promote, Migration.release]
  · simp [attach, absent, not_moving, staging]

/-! ### Removing the points of a moving node -/

section Purge

variable {migration : Migration}

@[simp]
theorem purge_layout : (locator.purge migration node).locator.layout = locator.layout := rfl

@[simp]
theorem purge_nodes : (locator.purge migration node).locator.nodes = locator.nodes := rfl

theorem purge_kind? (running : locator.migration = some migration) :
    (locator.purge migration node).locator.kind? = locator.kind? := by
  simp [purge, kind?, running, Migration.purge, Migration.release]

theorem purge_staying (running : locator.migration = some migration) :
    (locator.purge migration node).locator.staying = locator.staying := by
  simp [purge, staying, running, Migration.purge, Migration.release]

theorem purge_sweep? (running : locator.migration = some migration) :
    (locator.purge migration node).locator.sweep? = locator.sweep? := by
  simp [purge, sweep?, running, Migration.purge, Migration.release]

theorem mem_moving_purge (running : locator.migration = some migration) :
    other ∈ (locator.purge migration node).locator.moving ↔
      other ∈ locator.moving ∧ other ≠ node := by
  simp [purge, moving, running, Migration.purge, Migration.release]

/-- A placement that is staged is taken from staging, and the live ring keeps it. -/
theorem mem_ring_purge (running : locator.migration = some migration) :
    placement ∈ (locator.purge migration node).locator.ring ↔
      placement ∈ locator.ring ∧
        ¬(placement ∈ locator.layout.placements node ∧ placement ∉ locator.staging) := by
  simp [purge, staging, running, Migration.purge, Migration.release]

theorem mem_staging_purge (running : locator.migration = some migration) :
    placement ∈ (locator.purge migration node).locator.staging ↔
      placement ∈ locator.staging ∧ placement ∉ locator.layout.placements node := by
  simp [purge, staging, running, Migration.purge, Migration.release]

theorem failed_purge_iff (running : locator.migration = some migration) :
    (locator.purge migration node).Failed ↔
      ∃ placement ∈ locator.layout.placements node,
        placement ∉ locator.staging ∧ placement ∉ locator.ring := by
  have missing : (locator.purge migration node).Failed ↔
      ((locator.layout.placements node \ locator.staging) \ locator.ring).size ≠ 0 := by
    simp only [purge, Outcome.Failed, Migration.purge, Migration.release, staging, running,
      Option.map_some, Option.getD_some]
    by_cases found : ((locator.layout.placements node \ migration.staging) \ locator.ring).size = 0 <;>
      simp [found]
  rw [missing, OrderedSet.size_ne_zero_iff]
  simp only [OrderedSet.mem_sdiff, and_assoc]

end Purge

/-! ### Detaching a node -/

/-- The locator without a node among the active ones. -/
def deactivate (locator : Locator) (node : Address) : Locator :=
  { locator with nodes := locator.nodes.erase node }

/-- What detaching does: purge a moving node, remove an active one, ignore any other. -/
theorem detach_cases (locator : Locator) (node : Address) :
    (∃ migration, (locator.deactivate node).migration = some migration ∧ node ∈ locator.moving ∧
      locator.detach node = (locator.deactivate node).purge migration node) ∨
    (node ∉ locator.moving ∧ node ∈ locator.nodes ∧
      (locator.detach node).locator =
        { locator.deactivate node with ring := locator.ring \ locator.layout.placements node } ∧
      ((locator.detach node).Failed ↔
        (locator.layout.placements node \ locator.ring).size ≠ 0)) ∨
    (node ∉ locator.moving ∧ node ∉ locator.nodes ∧ locator.detach node = ⟨locator, .ignored⟩) := by
  rcases moving_cases locator node with ⟨migration, found, running, member⟩ | ⟨absent, not_moving⟩
  · exact .inl ⟨migration, running, member, by simp [detach, found, deactivate]⟩
  · by_cases active : node ∈ locator.nodes
    · refine .inr (.inl ⟨not_moving, active, by simp [detach, absent, active, deactivate], ?_⟩)
      by_cases missing : (locator.layout.placements node \ locator.ring).size = 0 <;>
        simp [detach, absent, active, missing, Outcome.Failed]
    · exact .inr (.inr ⟨not_moving, active, by simp [detach, absent, active]⟩)

@[simp]
theorem detach_layout : (locator.detach node).locator.layout = locator.layout := by
  rcases detach_cases locator node with ⟨_, _, _, same⟩ | ⟨_, _, same, _⟩ | ⟨_, _, same⟩ <;>
    rw [same] <;> rfl

@[simp]
theorem detach_kind? : (locator.detach node).locator.kind? = locator.kind? := by
  rcases detach_cases locator node with ⟨_, running, _, same⟩ | ⟨_, _, same, _⟩ | ⟨_, _, same⟩
  · rw [same, purge_kind? running]
    rfl
  · rw [same]
    rfl
  · rw [same]

@[simp]
theorem detach_staying : (locator.detach node).locator.staying = locator.staying := by
  rcases detach_cases locator node with ⟨_, running, _, same⟩ | ⟨_, _, same, _⟩ | ⟨_, _, same⟩
  · rw [same, purge_staying running]
    rfl
  · rw [same]
    rfl
  · rw [same]

@[simp]
theorem detach_sweep? : (locator.detach node).locator.sweep? = locator.sweep? := by
  rcases detach_cases locator node with ⟨_, running, _, same⟩ | ⟨_, _, same, _⟩ | ⟨_, _, same⟩
  · rw [same, purge_sweep? running]
    rfl
  · rw [same]
    rfl
  · rw [same]

@[simp]
theorem mem_nodes_detach :
    other ∈ (locator.detach node).locator.nodes ↔ other ∈ locator.nodes ∧ other ≠ node := by
  rcases detach_cases locator node with ⟨_, _, _, same⟩ | ⟨_, _, same, _⟩ | ⟨_, inactive, same⟩
  · simp [same, deactivate]
  · simp [same, deactivate]
  · rw [same]
    grind

@[simp]
theorem mem_moving_detach :
    other ∈ (locator.detach node).locator.moving ↔ other ∈ locator.moving ∧ other ≠ node := by
  rcases detach_cases locator node with ⟨_, running, _, same⟩ | ⟨not_moving, _, same, _⟩ |
    ⟨not_moving, _, same⟩
  · rw [same, mem_moving_purge running]
    rfl
  · have kept : (locator.detach node).locator.moving = locator.moving := by
      rw [same]
      rfl
    rw [kept]
    grind
  · rw [same]
    grind

theorem mem_ring_detach :
    placement ∈ (locator.detach node).locator.ring ↔
      placement ∈ locator.ring ∧
        ¬(placement ∈ locator.layout.placements node ∧
          (node ∈ locator.moving ∧ placement ∉ locator.staging ∨
            node ∉ locator.moving ∧ node ∈ locator.nodes)) := by
  rcases detach_cases locator node with ⟨_, running, member, same⟩ |
    ⟨not_moving, active, same, _⟩ | ⟨not_moving, inactive, same⟩
  · rw [same, mem_ring_purge running]
    simp [member, staging, deactivate]
  · simp [same, not_moving, active]
  · simp [same, not_moving, inactive]

theorem mem_staging_detach :
    placement ∈ (locator.detach node).locator.staging ↔
      placement ∈ locator.staging ∧
        ¬(node ∈ locator.moving ∧ placement ∈ locator.layout.placements node) := by
  rcases detach_cases locator node with ⟨_, running, member, same⟩ | ⟨not_moving, _, same, _⟩ |
    ⟨not_moving, _, same⟩
  · rw [same, mem_staging_purge running]
    simp [member, staging, deactivate]
  · simp [same, not_moving, staging, deactivate]
  · simp [same, not_moving]

/--
Detaching fails exactly when a placement of a moving node is in neither ring, or
one of an active node is not live.
-/
theorem failed_detach_iff :
    (locator.detach node).Failed ↔
      ∃ placement ∈ locator.layout.placements node, placement ∉ locator.ring ∧
        (node ∈ locator.moving ∧ placement ∉ locator.staging ∨
          node ∉ locator.moving ∧ node ∈ locator.nodes) := by
  rcases detach_cases locator node with ⟨_, running, member, same⟩ |
    ⟨not_moving, active, _, missing⟩ | ⟨not_moving, inactive, same⟩
  · rw [same, failed_purge_iff running]
    simp only [member, true_and, not_true, false_and, or_false]
    constructor <;> rintro ⟨placement, placed, one, two⟩ <;> exact ⟨placement, placed, two, one⟩
  · rw [missing, OrderedSet.size_ne_zero_iff]
    simp only [not_moving, active, false_and, not_false_eq_true, false_or, and_true,
      OrderedSet.mem_sdiff]
  · simp [same, inactive, not_moving, Outcome.Failed]

/-! ### Withdrawing a node -/

/-- What withdrawing does: ignore a node that is not moving, or purge one that is. -/
theorem withdrawNode_cases (locator : Locator) (node : Address) :
    (node ∉ locator.moving ∧ locator.withdrawNode node = ⟨locator, .ignored⟩) ∨
    (∃ migration, locator.migration = some migration ∧ node ∈ locator.moving ∧
      ((locator.withdrawNode node).Failed ↔ (locator.purge migration node).Failed) ∧
      (locator.withdrawNode node).locator =
        { (locator.purge migration node).locator with
          nodes := (locator.withdrawNode node).locator.nodes } ∧
      ∀ other, other ∈ (locator.withdrawNode node).locator.nodes ↔
        other ∈ locator.nodes ∧
          ¬(other = node ∧ locator.kind? = some .leave ∧ ¬(locator.withdrawNode node).Failed)) := by
  rcases moving_cases locator node with ⟨migration, found, running, member⟩ | ⟨absent, not_moving⟩
  · refine .inr ⟨migration, running, member, ?_⟩
    simp only [withdrawNode, found, kind?, running, Option.map_some, Option.some.injEq]
    by_cases missing : ((migration.release node).purge locator.ring
      (locator.layout.placements node)).missing = 0 <;>
      cases kind : migration.kind <;> simp [purge, missing, Outcome.Failed]
  · exact .inl ⟨not_moving, by simp [withdrawNode, absent]⟩

@[simp]
theorem withdrawNode_layout : (locator.withdrawNode node).locator.layout = locator.layout := by
  rcases withdrawNode_cases locator node with ⟨_, same⟩ | ⟨_, _, _, _, same, _⟩ <;> rw [same]
  rfl

@[simp]
theorem withdrawNode_kind? : (locator.withdrawNode node).locator.kind? = locator.kind? := by
  rcases withdrawNode_cases locator node with ⟨_, same⟩ | ⟨_, running, _, _, same, _⟩ <;> rw [same]
  exact purge_kind? running

@[simp]
theorem withdrawNode_staying : (locator.withdrawNode node).locator.staying = locator.staying := by
  rcases withdrawNode_cases locator node with ⟨_, same⟩ | ⟨_, running, _, _, same, _⟩ <;> rw [same]
  exact purge_staying running

@[simp]
theorem withdrawNode_sweep? : (locator.withdrawNode node).locator.sweep? = locator.sweep? := by
  rcases withdrawNode_cases locator node with ⟨_, same⟩ | ⟨_, running, _, _, same, _⟩ <;> rw [same]
  exact purge_sweep? running

theorem withdrawNode_of_not_moving (not_moving : node ∉ locator.moving) :
    locator.withdrawNode node = ⟨locator, .ignored⟩ := by
  rcases withdrawNode_cases locator node with ⟨-, same⟩ | ⟨_, _, member, -⟩
  · exact same
  · exact absurd member not_moving

theorem mem_nodes_withdrawNode :
    other ∈ (locator.withdrawNode node).locator.nodes ↔
      other ∈ locator.nodes ∧
        ¬(other = node ∧ node ∈ locator.moving ∧ locator.kind? = some .leave ∧
          ¬(locator.withdrawNode node).Failed) := by
  rcases withdrawNode_cases locator node with ⟨not_moving, same⟩ | ⟨_, _, member, _, _, nodes⟩
  · simp [same, not_moving]
  · simp [nodes, member]

@[simp]
theorem mem_moving_withdrawNode :
    other ∈ (locator.withdrawNode node).locator.moving ↔ other ∈ locator.moving ∧ other ≠ node := by
  rcases withdrawNode_cases locator node with ⟨not_moving, same⟩ | ⟨_, running, _, _, same, _⟩
  · rw [same]
    grind
  · rw [same]
    exact mem_moving_purge running

theorem mem_ring_withdrawNode :
    placement ∈ (locator.withdrawNode node).locator.ring ↔
      placement ∈ locator.ring ∧
        ¬(placement ∈ locator.layout.placements node ∧
          node ∈ locator.moving ∧ placement ∉ locator.staging) := by
  rcases withdrawNode_cases locator node with ⟨not_moving, same⟩ | ⟨_, running, member, _, same, _⟩
  · simp [same, not_moving]
  · rw [same]
    simpa [member] using mem_ring_purge running

theorem mem_staging_withdrawNode :
    placement ∈ (locator.withdrawNode node).locator.staging ↔
      placement ∈ locator.staging ∧
        ¬(node ∈ locator.moving ∧ placement ∈ locator.layout.placements node) := by
  rcases withdrawNode_cases locator node with ⟨not_moving, same⟩ | ⟨_, running, member, _, same, _⟩
  · simp [same, not_moving]
  · rw [same]
    change placement ∈ (locator.purge _ node).locator.staging ↔ _
    rw [mem_staging_purge running]
    simp [member]

theorem failed_withdrawNode_iff :
    (locator.withdrawNode node).Failed ↔
      node ∈ locator.moving ∧ ∃ placement ∈ locator.layout.placements node,
        placement ∉ locator.staging ∧ placement ∉ locator.ring := by
  rcases withdrawNode_cases locator node with
    ⟨not_moving, same⟩ | ⟨_, running, member, failed, _, _⟩
  · simp [same, not_moving, Outcome.Failed]
  · rw [failed, failed_purge_iff running]
    simp [member]

/-! ### Changes that concern one node -/

/--
A change that concerns one node. The node stops moving, and what was staged of it
while it moved is gone from staging; nothing changes for the other nodes.
-/
structure Touches (node : Address) (before after : Locator) : Prop where
  layout : after.layout = before.layout
  kind? : after.kind? = before.kind?
  staying : after.staying = before.staying
  nodes : ∀ other, other ≠ node → (other ∈ after.nodes ↔ other ∈ before.nodes)
  moving : ∀ other, other ∈ after.moving ↔ other ∈ before.moving ∧ other ≠ node
  ring : ∀ placement, placement ∉ before.layout.placements node →
    (placement ∈ after.ring ↔ placement ∈ before.ring)
  staging : ∀ placement, placement ∈ after.staging ↔
    placement ∈ before.staging ∧
      ¬(node ∈ before.moving ∧ placement ∈ before.layout.placements node)

theorem Touches.ring_of_ne {before after : Locator} (touches : Touches node before after)
    (placement : Placement) (different : placement.node ≠ node) :
    placement ∈ after.ring ↔ placement ∈ before.ring :=
  touches.ring placement fun placed => different (Layout.mem_placements_iff.mp placed).1

/-- What is still staged of a moving node belongs to a node that goes on moving. -/
theorem Touches.moving_of_staged {before after : Locator} (touches : Touches node before after)
    (places : before.layout.Places placement) (moved : placement.node ∈ before.moving)
    (staged : placement ∈ after.staging) : placement.node ∈ after.moving := by
  rw [touches.moving]
  refine ⟨moved, ?_⟩
  rintro rfl
  exact ((touches.staging placement).mp staged).2
    ⟨moved, Layout.mem_placements_iff.mpr ⟨rfl, places⟩⟩

theorem touches_attach : Touches node locator (locator.attach node) where
  layout := attach_layout
  kind? := attach_kind?
  staying := attach_staying
  nodes := by
    intro other different
    rw [attach_nodes, OrderedSet.mem_insert]
    exact or_iff_right different
  moving _ := mem_moving_attach
  ring := by
    intro placement elsewhere
    rw [mem_ring_attach]
    grind
  staging _ := mem_staging_attach

theorem touches_detach : Touches node locator (locator.detach node).locator where
  layout := detach_layout
  kind? := detach_kind?
  staying := detach_staying
  nodes := by
    intro other different
    rw [mem_nodes_detach]
    exact and_iff_left different
  moving _ := mem_moving_detach
  ring := by
    intro placement elsewhere
    rw [mem_ring_detach]
    grind
  staging _ := mem_staging_detach

theorem touches_withdrawNode : Touches node locator (locator.withdrawNode node).locator where
  layout := withdrawNode_layout
  kind? := withdrawNode_kind?
  staying := withdrawNode_staying
  nodes := by
    intro other different
    rw [mem_nodes_withdrawNode]
    grind
  moving _ := mem_moving_withdrawNode
  ring := by
    intro placement elsewhere
    rw [mem_ring_withdrawNode]
    grind
  staging _ := mem_staging_withdrawNode

/-! ### Preparing a migration -/

section Prepare

variable {kind : Migration.Kind} {named : List Address}

@[simp]
theorem prepare_layout : (locator.prepare kind named).layout = locator.layout := rfl

@[simp]
theorem prepare_nodes : (locator.prepare kind named).nodes = locator.nodes := rfl

@[simp]
theorem prepare_ring : (locator.prepare kind named).ring = locator.ring := rfl

@[simp]
theorem prepare_kind? : (locator.prepare kind named).kind? = some kind := by
  cases kind <;> rfl

theorem mem_moving_prepare :
    node ∈ (locator.prepare kind named).moving ↔
      node ∈ named ∧ (kind = .join → node ∉ locator.nodes) := by
  cases kind <;> simp [prepare, moving]

theorem mem_staying_prepare :
    node ∈ (locator.prepare kind named).staying ↔
      node ∈ locator.nodes ∧ (kind = .leave → node ∉ named) := by
  cases kind <;> simp [prepare, staying]

@[simp]
theorem prepare_sweep? : (locator.prepare kind named).sweep? = none := by
  cases kind <;> rfl

/-- After two preparations the first has been for nothing. -/
@[simp]
theorem prepare_prepare {earlier : Migration.Kind} {others : List Address} :
    (locator.prepare earlier others).prepare kind named = locator.prepare kind named := by
  cases kind <;> rfl

theorem mem_staging_prepare :
    placement ∈ (locator.prepare kind named).staging ↔
      kind = .join ∧ placement.node ∈ (locator.prepare kind named).moving ∧
        locator.layout.Places placement := by
  cases kind with
  | join => simp [prepare, staging, moving, OrderedSet.mem_toList, Layout.Places]
  | leave => simp [prepare, staging]

end Prepare

/-! ### Applying a range -/

section Advance

variable {start stop : Point}

/-- A range carries the migration in progress forward. -/
def Accepts (locator : Locator) (start stop : Point) : Prop :=
  ∃ migration, locator.migration = some migration ∧
    Migration.needsRange migration.sweep start stop = true

/-- A staged placement that a range makes live. -/
structure Enters (locator : Locator) (start stop : Point) (placement : Placement) : Prop where
  joining : locator.kind? = some .join
  accepted : locator.Accepts start stop
  staged : placement ∈ locator.staging
  swept : Point.onArc (locator.last?.getD start) stop placement.point = true

/-- A live placement that a range moves to staging. -/
structure Retires (locator : Locator) (start stop : Point) (placement : Placement) : Prop where
  leaving : locator.kind? = some .leave
  accepted : locator.Accepts start stop
  live : placement ∈ locator.ring
  not_staying : placement.node ∉ locator.staying
  swept : Point.onArc start (locator.last?.getD stop) placement.point = true

theorem inRange_arc (point : Point) :
    Ring.inRange (Interval.arc start stop) point = Point.onArc start stop point :=
  Interval.any_contains_arc start stop point

theorem advance_of_not_accepts (ignored : ¬locator.Accepts start stop) :
    locator.advance start stop = ⟨locator, .ignored⟩ := by
  rcases locator with ⟨layout, nodes, ring, _ | migration⟩
  · rfl
  · simp only [Accepts, Option.some.injEq, exists_eq_left'] at ignored
    simp [advance, Migration.advance?, ignored]

theorem advance_verdict_of_accepts (accepted : locator.Accepts start stop) :
    (locator.advance start stop).verdict = .applied := by
  rcases accepted with ⟨migration, running, needed⟩
  cases kind : migration.kind <;> simp [advance, running, Migration.advance?, needed, kind]

theorem advance_verdict_eq_applied_iff :
    (locator.advance start stop).verdict = .applied ↔ locator.Accepts start stop := by
  by_cases accepted : locator.Accepts start stop
  · simp [advance_verdict_of_accepts accepted, accepted]
  · simp [advance_of_not_accepts accepted, accepted]

theorem not_failed_advance : ¬(locator.advance start stop).Failed := by
  by_cases accepted : locator.Accepts start stop
  · simp [Outcome.Failed, advance_verdict_of_accepts accepted]
  · simp [Outcome.Failed, advance_of_not_accepts accepted]

@[simp]
theorem advance_layout : (locator.advance start stop).locator.layout = locator.layout := by
  unfold advance
  split <;> rfl

@[simp]
theorem advance_nodes : (locator.advance start stop).locator.nodes = locator.nodes := by
  unfold advance
  split <;> rfl

theorem advance_parts :
    (locator.advance start stop).locator.kind? = locator.kind? ∧
      (locator.advance start stop).locator.moving = locator.moving ∧
      (locator.advance start stop).locator.staying = locator.staying := by
  by_cases accepted : locator.Accepts start stop
  · rcases accepted with ⟨migration, running, needed⟩
    cases kind : migration.kind <;>
      simp [advance, running, Migration.advance?, needed, kind, kind?, moving, staying]
  · simp [advance_of_not_accepts accepted]

@[simp]
theorem advance_kind? : (locator.advance start stop).locator.kind? = locator.kind? :=
  advance_parts.1

@[simp]
theorem advance_moving : (locator.advance start stop).locator.moving = locator.moving :=
  advance_parts.2.1

@[simp]
theorem advance_staying : (locator.advance start stop).locator.staying = locator.staying :=
  advance_parts.2.2

theorem last_getD {migration : Migration} (running : locator.migration = some migration)
    (point : Point) :
    (migration.sweep.getD ⟨point, point⟩).last = locator.last?.getD point := by
  cases sweep : migration.sweep <;> simp [last?, sweep?, running, sweep]

theorem base_getD {migration : Migration} (running : locator.migration = some migration)
    (point : Point) :
    (migration.sweep.getD ⟨point, point⟩).base = locator.base?.getD point := by
  cases sweep : migration.sweep <;> simp [base?, sweep?, running, sweep]

theorem needsRange_none_iff :
    Migration.needsRange none start stop = true ↔ start ≠ 0 ∨ stop ≠ 0 := by
  simp [Migration.needsRange]

theorem needsRange_some_iff {sweep : Migration.Sweep} :
    Migration.needsRange (some sweep) start stop = true ↔
      (start ≠ 0 ∨ stop ≠ 0) ∧ Point.onArc start stop sweep.last = true ∧ sweep.last ≠ stop := by
  simp [Migration.needsRange]

theorem accepts_iff_of_kind? {kind : Migration.Kind} (running : locator.kind? = some kind) :
    locator.Accepts start stop ↔ Migration.needsRange locator.sweep? start stop = true := by
  rcases Option.map_eq_some_iff.mp running with ⟨migration, running, -⟩
  simp [Accepts, sweep?, running]

theorem accepts_iff :
    locator.Accepts start stop ↔
      locator.kind? ≠ none ∧ Migration.needsRange locator.sweep? start stop = true := by
  cases kind : locator.kind? with
  | none =>
      have idle := kind?_eq_none_iff.mp kind
      simp [Accepts, idle]
  | some kind' => simp [accepts_iff_of_kind? kind]

theorem accepts_congr {left right : Locator} (kind? : left.kind? = right.kind?)
    (sweep? : left.sweep? = right.sweep?) :
    left.Accepts start stop ↔ right.Accepts start stop := by
  rw [accepts_iff, accepts_iff, kind?, sweep?]

theorem sweep?_advance_of_joining (joining : locator.kind? = some .join)
    (accepted : locator.Accepts start stop) :
    (locator.advance start stop).locator.sweep? = some ⟨locator.base?.getD start, stop⟩ := by
  rcases accepted with ⟨migration, running, needed⟩
  have kind : migration.kind = .join := by simpa [kind?, running] using joining
  simp [advance, running, Migration.advance?, needed, kind, sweep?, base_getD running]

theorem sweep?_advance_of_leaving (leaving : locator.kind? = some .leave)
    (accepted : locator.Accepts start stop) :
    (locator.advance start stop).locator.sweep? = some ⟨locator.base?.getD stop, start⟩ := by
  rcases accepted with ⟨migration, running, needed⟩
  have kind : migration.kind = .leave := by simpa [kind?, running] using leaving
  simp [advance, running, Migration.advance?, needed, kind, sweep?, base_getD running]

theorem mem_advance_of_joining (joining : locator.kind? = some .join)
    (accepted : locator.Accepts start stop) :
    (placement ∈ (locator.advance start stop).locator.ring ↔
      placement ∈ locator.ring ∨ placement ∈ locator.staging ∧
        Point.onArc (locator.last?.getD start) stop placement.point = true) ∧
    (placement ∈ (locator.advance start stop).locator.staging ↔
      placement ∈ locator.staging ∧
        ¬Point.onArc (locator.last?.getD start) stop placement.point = true) := by
  rcases accepted with ⟨migration, running, needed⟩
  have kind : migration.kind = .join := by simpa [kind?, running] using joining
  simp [advance, running, Migration.advance?, needed, kind, Ring.takeRange, staging, inRange_arc,
    last_getD running]

theorem mem_advance_of_leaving (leaving : locator.kind? = some .leave)
    (accepted : locator.Accepts start stop) :
    (placement ∈ (locator.advance start stop).locator.ring ↔
      placement ∈ locator.ring ∧
        ¬(placement.node ∉ locator.staying ∧
          Point.onArc start (locator.last?.getD stop) placement.point = true)) ∧
    (placement ∈ (locator.advance start stop).locator.staging ↔
      placement ∈ locator.staging ∨ placement ∈ locator.ring ∧ placement.node ∉ locator.staying ∧
          Point.onArc start (locator.last?.getD stop) placement.point = true) := by
  rcases accepted with ⟨migration, running, needed⟩
  have kind : migration.kind = .leave := by simpa [kind?, running] using leaving
  simp [advance, running, Migration.advance?, needed, kind, Ring.takeOwners, staging, staying,
    inRange_arc, last_getD running]
  grind

theorem Accepts.kind?_cases (accepted : locator.Accepts start stop) :
    locator.kind? = some .join ∨ locator.kind? = some .leave := by
  rcases accepted with ⟨migration, running, -⟩
  cases kind : migration.kind <;> simp [kind?, running, kind]

theorem mem_ring_advance :
    placement ∈ (locator.advance start stop).locator.ring ↔
      placement ∈ locator.ring ∧ ¬locator.Retires start stop placement ∨
        locator.Enters start stop placement := by
  by_cases accepted : locator.Accepts start stop
  · rcases accepted.kind?_cases with joining | leaving
    · rw [(mem_advance_of_joining joining accepted).1]
      grind [Enters, Retires]
    · rw [(mem_advance_of_leaving leaving accepted).1]
      grind [Enters, Retires]
  · rw [advance_of_not_accepts accepted]
    grind [Enters, Retires]

theorem mem_staging_advance :
    placement ∈ (locator.advance start stop).locator.staging ↔
      placement ∈ locator.staging ∧ ¬locator.Enters start stop placement ∨
        locator.Retires start stop placement := by
  by_cases accepted : locator.Accepts start stop
  · rcases accepted.kind?_cases with joining | leaving
    · rw [(mem_advance_of_joining joining accepted).2]
      grind [Enters, Retires]
    · rw [(mem_advance_of_leaving leaving accepted).2]
      grind [Enters, Retires]
  · rw [advance_of_not_accepts accepted]
    grind [Enters, Retires]

end Advance

end Locator

end ClusterRing
