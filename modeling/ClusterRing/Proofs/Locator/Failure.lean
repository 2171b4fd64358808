import ClusterRing.Proofs.Locator.Run

/-!
# Events that fail

An event that fails stops at one of its nodes and keeps what it has done so far. The migration
stays in progress with its sweep where it was, so ranges are accepted as before
(`accepts_iff_of_failed`). But the node at which it fails was active or moving and is displaced
by then (`exists_displaced_of_failed`), and no event that does not name this node puts it back,
the preparation of another migration apart (`alikeAt_receive`).
-/

namespace ClusterRing

/-- The nodes that an event names. -/
def Event.named : Event → List Address
  | .topology attached detached => attached ++ detached
  | .prepareMigration _ nodes => nodes
  | .rangeApplied .. => []
  | .alterChange attached detached => attached ++ detached

/-- An event begins a migration. -/
def Event.IsPreparation : Event → Prop
  | .prepareMigration .. => True
  | _ => False

namespace Locator

variable {locator left middle right : Locator} {event : Event} {node : Address}
variable {nodes attached detached : List Address}

/-! ### Where an operation on several nodes fails -/

/-- An operation on several nodes fails at one of them, and nothing is done after that. -/
theorem exists_failed_step {step : Locator → Address → Outcome} {invariant : Locator → Prop}
    (initial : invariant locator)
    (each : ∀ current node, invariant current → invariant (step current node).locator)
    (failed : (locator.forEach step nodes).Failed) :
    ∃ current, ∃ node ∈ nodes, invariant current ∧ (step current node).Failed ∧
      locator.forEach step nodes = step current node := by
  induction nodes generalizing locator with
  | nil =>
      rcases failed with ⟨breach, failed⟩
      cases failed
  | cons first rest ih =>
      by_cases broken : (step locator first).Failed
      · exact ⟨locator, first, by simp, initial, broken, forEach_cons_of_failed broken⟩
      · rw [forEach_cons_of_not_failed broken] at failed ⊢
        rcases ih (each locator first initial) failed with
          ⟨current, node, member, holds, broken, same⟩
        exact ⟨current, node, by simp [member], holds, broken, same⟩

/-- Only updates and withdrawals fail. -/
theorem failed_cases (failed : (locator.receive event).Failed) :
    (∃ attached detached, event = .topology attached detached ∧
      (locator.update attached detached).Failed) ∨
    ∃ announced withdrawn, event = .alterChange announced withdrawn ∧
      (locator.withdraw withdrawn).Failed := by
  cases event with
  | topology attached detached => exact .inl ⟨attached, detached, rfl, failed⟩
  | prepareMigration kind named =>
      rcases failed with ⟨breach, failed⟩
      cases failed
  | rangeApplied start stop => exact absurd failed not_failed_advance
  | alterChange announced withdrawn => exact .inr ⟨announced, withdrawn, rfl, failed⟩

/-! ### What a failed event leaves as it was -/

/-- A failed event has attached, detached or withdrawn nodes one by one, and no more. -/
theorem failed_induction {invariant : Locator → Prop} (initial : invariant locator)
    (attach : ∀ current node, invariant current → invariant (current.attach node))
    (detach : ∀ current node, invariant current → invariant (current.detach node).locator)
    (withdrawNode : ∀ current node, invariant current →
      invariant (current.withdrawNode node).locator)
    (failed : (locator.receive event).Failed) : invariant (locator.receive event).locator := by
  rcases failed_cases failed with ⟨attached, detached, rfl, failed⟩ | ⟨_, withdrawn, rfl, failed⟩
  · have attaching : invariant (attached.foldl Locator.attach locator) :=
      foldl_attach_induction initial fun current node _ => attach current node
    rcases exists_failed_step attaching detach failed with ⟨current, node, -, kept, -, same⟩
    rw [receive, update, same]
    exact detach current node kept
  · rcases exists_failed_step initial withdrawNode failed with ⟨current, node, -, kept, -, same⟩
    rw [receive, withdraw, same]
    exact withdrawNode current node kept

/-- A failed event does not end the migration, and neither its kind nor its sweep changes. -/
theorem migration_kept_of_failed (failed : (locator.receive event).Failed) :
    (locator.receive event).locator.kind? = locator.kind? ∧
      (locator.receive event).locator.sweep? = locator.sweep? := by
  let invariant (current : Locator) :=
    current.kind? = locator.kind? ∧ current.sweep? = locator.sweep?
  have initial : invariant locator := ⟨rfl, rfl⟩
  apply failed_induction initial _ _ _ failed
  · rintro current node ⟨kind?, sweep?⟩
    exact ⟨attach_kind?.trans kind?, attach_sweep?.trans sweep?⟩
  · rintro current node ⟨kind?, sweep?⟩
    exact ⟨detach_kind?.trans kind?, detach_sweep?.trans sweep?⟩
  · rintro current node ⟨kind?, sweep?⟩
    exact ⟨withdrawNode_kind?.trans kind?, withdrawNode_sweep?.trans sweep?⟩

/-- A range is accepted after a failed event exactly if it was before. -/
theorem accepts_iff_of_failed (failed : (locator.receive event).Failed) (start stop : Point) :
    (locator.receive event).locator.Accepts start stop ↔ locator.Accepts start stop :=
  accepts_congr (migration_kept_of_failed failed).1 (migration_kept_of_failed failed).2

/-! ### What a failed event displaces -/

/-- A node is active in both of two locators or in none, and likewise it moves in both or none. -/
def AlikeAt (node : Address) (left right : Locator) : Prop :=
  (node ∈ left.nodes ↔ node ∈ right.nodes) ∧ (node ∈ left.moving ↔ node ∈ right.moving)

theorem AlikeAt.trans (first : AlikeAt node left middle) (second : AlikeAt node middle right) :
    AlikeAt node left right :=
  ⟨first.1.trans second.1, first.2.trans second.2⟩

theorem AlikeAt.symm (alike : AlikeAt node left right) : AlikeAt node right left :=
  ⟨alike.1.symm, alike.2.symm⟩

theorem Touches.alikeAt {other : Address} (touches : Touches other left right)
    (different : node ≠ other) : AlikeAt node right left :=
  ⟨touches.nodes node different, (touches.moving node).trans (and_iff_left different)⟩

/-- An event other than a preparation leaves alone the nodes that it does not name. -/
theorem alikeAt_receive (no_preparation : ¬event.IsPreparation) (unnamed : node ∉ event.named) :
    AlikeAt node (locator.receive event).locator locator := by
  let invariant (current : Locator) := AlikeAt node current locator
  have initial : invariant locator := ⟨Iff.rfl, Iff.rfl⟩
  have settle : ∀ current, invariant current → invariant current.settle :=
    fun _ alike => ⟨alike.1, mem_moving_settle.trans alike.2⟩
  cases event with
  | topology attached detached =>
      rw [Event.named, List.mem_append, not_or] at unnamed
      apply update_induction initial _ _ settle
      · intro current other member alike
        exact (touches_attach.alikeAt (ne_of_mem_of_not_mem member unnamed.1).symm).trans alike
      · intro current other member alike
        exact (touches_detach.alikeAt (ne_of_mem_of_not_mem member unnamed.2).symm).trans alike
  | prepareMigration kind named => exact absurd trivial no_preparation
  | rangeApplied start stop => exact ⟨by rw [receive, advance_nodes], by rw [receive, advance_moving]⟩
  | alterChange attached detached =>
      rw [Event.named, List.mem_append, not_or] at unnamed
      apply forEach_induction initial _ settle
      intro current other member alike
      exact (touches_withdrawNode.alikeAt (ne_of_mem_of_not_mem member unnamed.2).symm).trans alike

/-- A node that does not move, and owns all its points in the live ring if it is active. -/
def Steady (locator : Locator) (node : Address) : Prop :=
  node ∉ locator.moving ∧
    (node ∈ locator.nodes → ∀ placement ∈ locator.layout.placements node, placement ∈ locator.ring)

namespace Steady

theorem attach (steady : locator.Steady node) (other : Address) :
    (locator.attach other).Steady node := by
  refine ⟨fun moves => steady.1 (mem_moving_attach.mp moves).1, ?_⟩
  intro active placement placed
  rw [attach_layout] at placed
  rw [mem_ring_attach]
  rw [attach_nodes, OrderedSet.mem_insert] at active
  rcases active with rfl | active
  · exact .inr ⟨placed, fun moves => absurd moves steady.1⟩
  · exact .inl (steady.2 active placement placed)

theorem detach (steady : locator.Steady node) (other : Address) :
    (locator.detach other).locator.Steady node := by
  refine ⟨fun moves => steady.1 (mem_moving_detach.mp moves).1, ?_⟩
  intro active placement placed
  rw [detach_layout] at placed
  rcases mem_nodes_detach.mp active with ⟨active, different⟩
  refine (touches_detach.ring_of_ne placement ?_).mpr (steady.2 active placement placed)
  rwa [(Layout.mem_placements_iff.mp placed).1]

theorem not_failed_detach (steady : locator.Steady node) : ¬(locator.detach node).Failed := by
  rw [failed_detach_iff]
  rintro ⟨placement, placed, missing, ⟨moves, -⟩ | ⟨-, active⟩⟩
  · exact steady.1 moves
  · exact missing (steady.2 active placement placed)

end Steady

/--
An update fails at a node that was active or moving before it. A node that was neither owns all
its points by the time it is detached.
-/
theorem exists_displaced_of_failed_update (failed : (locator.update attached detached).Failed) :
    ∃ node ∈ detached, (node ∈ locator.nodes ∨ node ∈ locator.moving) ∧
      node ∉ (locator.update attached detached).locator.nodes ∧
      node ∉ (locator.update attached detached).locator.moving := by
  let invariant (current : Locator) :=
    ∀ node, ¬(node ∈ locator.nodes ∨ node ∈ locator.moving) → current.Steady node
  have initial : invariant locator := by
    intro node absent
    rw [not_or] at absent
    exact ⟨absent.2, fun active => absurd active absent.1⟩
  have attaching : invariant (attached.foldl attach locator) :=
    foldl_attach_induction initial fun current other _ steady node absent =>
      (steady node absent).attach other
  have detaching : ∀ current other, invariant current → invariant (current.detach other).locator :=
    fun current other steady node absent => (steady node absent).detach other
  rcases exists_failed_step attaching detaching failed with
    ⟨current, node, member, steady, broken, same⟩
  rw [update, same]
  have present : node ∈ locator.nodes ∨ node ∈ locator.moving :=
    Classical.byContradiction fun absent => (steady node absent).not_failed_detach broken
  exact ⟨node, member, present, fun active => (mem_nodes_detach.mp active).2 rfl,
    fun moves => (mem_moving_detach.mp moves).2 rfl⟩

theorem exists_displaced_of_failed_withdraw (failed : (locator.withdraw nodes).Failed) :
    ∃ node ∈ nodes, node ∈ locator.moving ∧ node ∉ (locator.withdraw nodes).locator.moving := by
  let invariant (current : Locator) := ∀ node ∈ current.moving, node ∈ locator.moving
  have initial : invariant locator := fun _ moves => moves
  have each : ∀ current other, invariant current →
      invariant (current.withdrawNode other).locator :=
    fun current other kept node moves => kept node (mem_moving_withdrawNode.mp moves).1
  rcases exists_failed_step initial each failed with ⟨current, node, member, kept, broken, same⟩
  rw [withdraw, same]
  exact ⟨node, member, kept node (failed_withdrawNode_iff.mp broken).1,
    fun moves => (mem_moving_withdrawNode.mp moves).2 rfl⟩

/-- A failed event has displaced a node already. -/
theorem exists_displaced_of_failed (failed : (locator.receive event).Failed) :
    ∃ node ∈ event.named, ¬AlikeAt node (locator.receive event).locator locator := by
  rcases failed_cases failed with
    ⟨attached, detached, rfl, failed⟩ | ⟨announced, withdrawn, rfl, failed⟩
  · rcases exists_displaced_of_failed_update failed with
      ⟨node, member, present, inactive, not_moving⟩
    refine ⟨node, List.mem_append_right attached member, fun alike => ?_⟩
    rcases present with active | moves
    · exact inactive (alike.1.mpr active)
    · exact not_moving (alike.2.mpr moves)
  · rcases exists_displaced_of_failed_withdraw failed with ⟨node, member, moved, not_moving⟩
    exact ⟨node, List.mem_append_right announced member,
      fun alike => not_moving (alike.2.mpr moved)⟩

end Locator

end ClusterRing
