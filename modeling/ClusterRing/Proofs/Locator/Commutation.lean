import ClusterRing.Proofs.Locator.Release

/-!
# Ranges and membership events in either order

In an orderly run a range notification and a membership event that arrive one
after the other may as well arrive in the other order. The range is accepted in
both orders or in neither, because the event keeps the kind and the sweep of a
migration that goes on. The range shifts placements of moving nodes only, and the
event takes those of its own nodes out of both rings, wherever the range has put
them. If the event ends the migration, nothing of the range is left.
-/

namespace ClusterRing.Locator

variable {locator changed swept left right : Locator} {event : Event} {named : List Address}
variable {start stop : Point} {placement : Placement}

/-! ### When a range is accepted, and what it shifts -/

/-- The sweep after a range depends on nothing but the kind of migration and the sweep before. -/
theorem sweep?_advance_congr (kind? : left.kind? = right.kind?)
    (sweep? : left.sweep? = right.sweep?) :
    (left.advance start stop).locator.sweep? = (right.advance start stop).locator.sweep? := by
  have base? : left.base? = right.base? := by rw [Locator.base?, Locator.base?, sweep?]
  by_cases accepted : left.Accepts start stop
  · have rightAccepted := (accepts_congr kind? sweep?).mp accepted
    rcases accepted.kind?_cases with joining | leaving
    · rw [sweep?_advance_of_joining joining accepted,
        sweep?_advance_of_joining (kind? ▸ joining) rightAccepted, base?]
    · rw [sweep?_advance_of_leaving leaving accepted,
        sweep?_advance_of_leaving (kind? ▸ leaving) rightAccepted, base?]
  · have rightIgnored := (accepts_congr kind? sweep?).not.mp accepted
    rw [advance_of_not_accepts accepted, advance_of_not_accepts rightIgnored, sweep?]

theorem enters_iff :
    locator.Enters start stop placement ↔
      locator.kind? = some .join ∧ locator.Accepts start stop ∧ placement ∈ locator.staging ∧
        Point.onArc (locator.last?.getD start) stop placement.point = true :=
  ⟨fun enters => ⟨enters.joining, enters.accepted, enters.staged, enters.swept⟩,
    fun ⟨joining, accepted, staged, swept⟩ => ⟨joining, accepted, staged, swept⟩⟩

/-- In an orderly run a leaving sweep stages the points of leaving nodes, and no others. -/
theorem InOrder.retires_iff (inOrder : locator.InOrder) :
    locator.Retires start stop placement ↔
      locator.kind? = some .leave ∧ locator.Accepts start stop ∧
        placement.node ∈ locator.moving ∧ locator.layout.Places placement ∧
        placement ∉ locator.staging ∧
        Point.onArc start (locator.last?.getD stop) placement.point = true := by
  constructor
  · intro retires
    have leaving := retires.leaving
    rcases inOrder.mem_ring_iff.mp retires.live with ⟨places, owned⟩
    rcases owned with ⟨moving, not_staged⟩ | ⟨not_moving, active⟩
    · exact ⟨leaving, retires.accepted, moving, places, not_staged, retires.swept⟩
    · have covered := inOrder.covered leaving placement.node active
      exact absurd (covered.resolve_left not_moving) retires.not_staying
  · rintro ⟨leaving, accepted, moving, places, not_staged, swept⟩
    exact {
      leaving := leaving
      accepted := accepted
      live := inOrder.mem_ring_iff.mpr ⟨places, .inl ⟨moving, not_staged⟩⟩
      not_staying := inOrder.not_staying placement.node moving
      swept := swept }

/-! ### Either order -/

namespace Releases

theorem accepts_iff (releases : Releases named locator changed) :
    changed.Accepts start stop ↔ locator.Accepts start stop :=
  accepts_congr releases.kind? releases.sweep?

theorem last? (releases : Releases named locator changed) : changed.last? = locator.last? := by
  rw [Locator.last?, Locator.last?, releases.sweep?]

theorem enters_iff (releases : Releases named locator changed) :
    changed.Enters start stop placement ↔
      locator.Enters start stop placement ∧ placement.node ∉ named := by
  rw [Locator.enters_iff, Locator.enters_iff, releases.kind?, releases.accepts_iff,
    releases.staging, releases.last?]
  grind

theorem retires_iff (releases : Releases named locator changed) (inOrder : locator.InOrder)
    (changedInOrder : changed.InOrder) :
    changed.Retires start stop placement ↔
      locator.Retires start stop placement ∧ placement.node ∉ named := by
  rw [inOrder.retires_iff, changedInOrder.retires_iff, releases.layout, releases.kind?,
    releases.accepts_iff, releases.moving, releases.staging, releases.last?]
  grind

/-- While the migration goes on, the same is staged in either order. -/
theorem mem_staging_advance (releases : Releases named locator changed)
    (sweptReleases : Releases named (locator.advance start stop).locator swept)
    (inOrder : locator.InOrder) (changedInOrder : changed.InOrder) :
    placement ∈ swept.staging ↔ placement ∈ (changed.advance start stop).locator.staging := by
  rw [sweptReleases.staging, Locator.mem_staging_advance, Locator.mem_staging_advance,
    releases.staging, releases.enters_iff, releases.retires_iff inOrder changedInOrder]
  grind

end Releases

/--
In an orderly run a range notification and a membership event leave the same locator in
either order.
-/
theorem advance_comm_membership {layout : Layout} (reachable : Reachable Orderly layout locator)
    (membership : event.isMembership = true) (orderly : Orderly locator event)
    (start stop : Point) :
    ((locator.advance start stop).locator.receive event).locator =
      ((locator.receive event).locator.advance start stop).locator := by
  have inOrder := reachable.inOrder
  have sweptInOrder : (locator.advance start stop).locator.InOrder :=
    inOrder.receive (.rangeApplied start stop) trivial
  have once := inOrder.receive event orderly
  have agrees := ((Agrees.refl locator).advance_left start stop).receive
    sweptInOrder.toCoherent inOrder.toCoherent event
  rcases inOrder.toCoherent.receive_eq_of_membership membership with
    ⟨changed, -, releases, same⟩
  rcases sweptInOrder.toCoherent.receive_eq_of_membership membership with
    ⟨swept, sweptCoherent, sweptReleases, sweptSame⟩
  rw [same, sweptSame] at agrees ⊢
  rw [same] at once
  have last : (changed.settle.advance start stop).locator.InOrder :=
    once.receive (.rangeApplied start stop) trivial
  have agreesLast := (agrees.symm.advance_left start stop).symm
  by_cases idle : changed.settle.migration = none
  · apply sweptCoherent.settle.eq_of_agrees_idle last.toCoherent agreesLast
    exact agreesLast.idle_iff.mp (agrees.idle_iff.mpr idle)
  · have sweptGoesOn : swept.settle.migration ≠ none := agrees.idle_iff.not.mpr idle
    rw [settle_eq_of_goes_on idle] at once last agreesLast ⊢
    rw [settle_eq_of_goes_on sweptGoesOn] at agreesLast ⊢
    apply sweptCoherent.eq_of_agrees last.toCoherent agreesLast
    · rw [sweptReleases.sweep?]
      exact sweep?_advance_congr releases.kind?.symm releases.sweep?.symm
    · intro placement
      exact releases.mem_staging_advance sweptReleases inOrder once

/--
A range stages points of both leaving nodes, before or after the first of them is detached,
and before or after an event that ends the migration.
-/
theorem advance_comm_while_leaving :
    let locator := (build smallLayout [alpha, beta, gamma]).prepare .leave [alpha, beta]
    let detaching : Event := .topology [] [alpha]
    let ending : Event := .topology [alpha] [beta]
    let swept := (locator.advance 2000000000 3000000000).locator
    Reachable Orderly smallLayout locator ∧ Orderly locator detaching ∧ Orderly locator ending ∧
      (swept.receive detaching).locator =
        ((locator.receive detaching).locator.advance 2000000000 3000000000).locator ∧
      (swept.receive ending).locator =
        ((locator.receive ending).locator.advance 2000000000 3000000000).locator ∧
      swept.staging.owners.toList = [alpha, beta] ∧
      (swept.receive detaching).locator.staging.owners.toList = [beta] ∧
      (swept.receive ending).locator.migration = none := by
  intro locator detaching ending swept
  have reachable : Reachable Orderly smallLayout locator :=
    ⟨[alpha, beta, gamma], [.prepareMigration .leave [alpha, beta]], by decide +kernel, rfl⟩
  have detachingOrderly : Orderly locator detaching := by decide +kernel
  have endingOrderly : Orderly locator ending := by decide +kernel
  exact ⟨reachable, detachingOrderly, endingOrderly,
    advance_comm_membership reachable rfl detachingOrderly 2000000000 3000000000,
    advance_comm_membership reachable rfl endingOrderly 2000000000 3000000000,
    by decide +kernel, by decide +kernel, by decide +kernel⟩

end ClusterRing.Locator
