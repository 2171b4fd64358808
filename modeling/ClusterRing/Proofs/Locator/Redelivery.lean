import ClusterRing.Proofs.Arc
import ClusterRing.Proofs.Locator.Release

/-!
# Repeated delivery

An event that is delivered twice in a row leaves what it leaves when it is
delivered once. The boundary that a range sets is not strictly inside the range, so
the second notification is ignored wherever the first one arrived
(`not_accepts_advance`). A preparation replaces the one before it. The membership
events need an orderly run: there the first delivery succeeds and releases all
nodes that the event names, and the second finds none of them moving.
-/

namespace ClusterRing.Locator

variable {locator before after : Locator} {event : Event}
variable {named attached detached : List Address} {start stop : Point}

/-! ### Range notifications -/

/-- A boundary reached is not strictly inside the range that reached it. -/
theorem not_accepts_advance : ¬(locator.advance start stop).locator.Accepts start stop := by
  by_cases accepted : locator.Accepts start stop
  · rcases accepted.kind?_cases with joining | leaving
    · rw [accepts_iff_of_kind? (advance_kind?.trans joining),
        sweep?_advance_of_joining joining accepted, needsRange_some_iff]
      rintro ⟨-, -, inside⟩
      exact inside rfl
    · rw [accepts_iff_of_kind? (advance_kind?.trans leaving),
        sweep?_advance_of_leaving leaving accepted, needsRange_some_iff]
      rintro ⟨-, swept, inside⟩
      exact inside (Point.onArc_start_iff.mp swept)
  · rwa [advance_of_not_accepts accepted]

theorem advance_advance :
    (locator.advance start stop).locator.advance start stop =
      ⟨(locator.advance start stop).locator, .ignored⟩ :=
  advance_of_not_accepts not_accepts_advance

/-! ### Membership events -/

/-- The release of nodes that do not move changes at most which nodes are active. -/
theorem Releases.eq_of_none_moving (releases : Releases named before after)
    (beforeCoherent : before.Coherent) (afterCoherent : after.Coherent)
    (none_moving : ∀ node ∈ named, node ∉ before.moving) (nodes : after.nodes = before.nodes) :
    after = before := by
  have moving : after.moving = before.moving := by
    ext node
    rw [releases.moving]
    exact and_iff_left_of_imp fun moves member => none_moving node member moves
  apply afterCoherent.eq_of_agrees beforeCoherent
  · exact ⟨releases.layout, nodes, releases.kind?, moving, releases.staying⟩
  · exact releases.sweep?
  · intro placement
    rw [releases.staging]
    apply and_iff_left_of_imp
    intro staged member
    exact none_moving placement.node member (beforeCoherent.staged_moving placement staged)

/-- None of the nodes that were released moves any more. -/
theorem Releases.none_moving (releases : Releases named before after) :
    ∀ node ∈ named, node ∉ after.settle.moving := by
  intro node member moving
  exact ((releases.moving node).mp (mem_moving_settle.mp moving)).2 member

theorem withdraw_of_none_moving (none_moving : ∀ node ∈ named, node ∉ locator.moving) :
    locator.withdraw named = ⟨locator.settle, .applied⟩ := by
  induction named with
  | nil => rfl
  | cons node rest ih =>
      have ignored := withdrawNode_of_not_moving (none_moving node (by simp))
      have succeeded : ¬(locator.withdrawNode node).Failed := by
        simp [ignored, Outcome.Failed]
      rw [withdraw, forEach_cons_of_not_failed succeeded, ignored]
      exact ih fun other member => none_moving other (by simp [member])

namespace Coherent

/-- The second delivery attaches what is active and detaches what it has just attached itself. -/
theorem update_update (coherent : locator.Coherent) (attached detached : List Address) :
    (locator.update attached detached).locator.update attached detached =
      ⟨(locator.update attached detached).locator, .applied⟩ := by
  rcases coherent.update_eq attached detached with ⟨changed, next, releases, nodes, once⟩
  rcases next.settle.update_eq attached detached with
    ⟨again, last, releasesAgain, nodesAgain, twice⟩
  have sameNodes : again.nodes = changed.settle.nodes := by
    ext node
    rw [nodesAgain, settle_nodes, nodes]
    grind
  have same : again = changed.settle :=
    releasesAgain.eq_of_none_moving next.settle last releases.none_moving sameNodes
  rw [once, twice, same, settle_settle]

theorem withdraw_withdraw (coherent : locator.Coherent) (named : List Address) :
    (locator.withdraw named).locator.withdraw named =
      ⟨(locator.withdraw named).locator, .applied⟩ := by
  rcases coherent.withdraw_eq named with ⟨changed, -, releases, once⟩
  rw [once, withdraw_of_none_moving releases.none_moving, settle_settle]

end Coherent

/--
Wherever it arrives, a range notification is ignored when it is delivered again. At any
state of an orderly run the other events succeed both times, and the second time they
change nothing.
-/
theorem delivered_again_changes_nothing (layout : Layout) (locator : Locator) :
    (∀ start stop,
      (locator.advance start stop).locator.advance start stop =
        ⟨(locator.advance start stop).locator, .ignored⟩) ∧
    (Reachable Orderly layout locator →
      ∀ event, event.isRange = false →
        (locator.receive event).verdict = .applied ∧
        (locator.receive event).locator.receive event =
          ⟨(locator.receive event).locator, .applied⟩) := by
  refine ⟨fun _ _ => advance_advance, ?_⟩
  intro reachable event other
  have coherent := reachable.inOrder.toCoherent
  cases event with
  | topology attached detached =>
      rcases coherent.update_eq attached detached with ⟨changed, -, -, -, once⟩
      exact ⟨congrArg Outcome.verdict once, coherent.update_update attached detached⟩
  | prepareMigration kind nodes => exact ⟨rfl, by simp [receive]⟩
  | rangeApplied start stop => simp [Event.isRange] at other
  | alterChange attached detached =>
      rcases coherent.withdraw_eq detached with ⟨changed, -, -, once⟩
      exact ⟨congrArg Outcome.verdict once, coherent.withdraw_withdraw detached⟩

/--
After half a leaving sweep one of the two leaving nodes is detached, and so is a node that
stays and is attached in the same event.
-/
theorem delivered_again_while_leaving :
    let prepared := (build smallLayout [alpha, beta, gamma]).prepare .leave [alpha, beta]
    let locator := (prepared.advance 1000000000 3000000000).locator
    let event : Event := .topology [gamma] [alpha, gamma]
    let once := (locator.receive event).locator
    locator.advance 1000000000 3000000000 = ⟨locator, .ignored⟩ ∧
      Reachable Orderly smallLayout locator ∧ once.receive event = ⟨once, .applied⟩ ∧
      once.nodes.toList = [beta] ∧ once.kind? = some .leave := by
  intro prepared locator event once
  have reachable : Reachable Orderly smallLayout locator :=
    ⟨[alpha, beta, gamma], [.prepareMigration .leave [alpha, beta],
      .rangeApplied 1000000000 3000000000], by decide +kernel, rfl⟩
  have ignored := (delivered_again_changes_nothing smallLayout prepared).1 1000000000 3000000000
  have again := (delivered_again_changes_nothing smallLayout locator).2 reachable event rfl
  exact ⟨ignored, reachable, again.2, by decide +kernel, by decide +kernel⟩

end ClusterRing.Locator
