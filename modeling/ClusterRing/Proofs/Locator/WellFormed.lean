import ClusterRing.Proofs.Locator.Run
import ClusterRing.Proofs.Ring.Groups

/-!
# Well-formed locators

What no event can break, not even one that fails: nodes own only points that the
layout gives them, no node moves and stays at once, a joining node is not active
yet, and staging holds no node that it has no business with.
-/

namespace ClusterRing.Locator

/-- What holds of every locator that events can lead to. -/
structure WellFormed (locator : Locator) : Prop where
  /-- Nodes are placed, live or staged, where the layout puts them. -/
  places : ∀ placement, placement ∈ locator.ring ∨ placement ∈ locator.staging →
    locator.layout.Places placement
  not_staying : ∀ node ∈ locator.moving, node ∉ locator.staying
  joining_inactive : locator.kind? = some .join → ∀ node ∈ locator.moving, node ∉ locator.nodes
  joining_staged : locator.kind? = some .join →
    ∀ placement ∈ locator.staging, placement.node ∈ locator.moving
  leaving_staged : locator.kind? = some .leave →
    ∀ placement ∈ locator.staging, placement.node ∉ locator.staying

namespace WellFormed

variable {locator : Locator}

theorem of_idle (idle : locator.migration = none)
    (places : ∀ placement ∈ locator.ring, locator.layout.Places placement) :
    locator.WellFormed where
  places := by
    intro placement owned
    rcases owned with live | staged
    · exact places placement live
    · exact absurd staged (not_mem_staging_of_idle idle)
  not_staying := fun node member => absurd member (not_mem_moving_of_idle idle)
  joining_inactive := by simp [kind?, idle]
  joining_staged := by simp [kind?, idle]
  leaving_staged := by simp [kind?, idle]

theorem build (layout : Layout) (nodes : List Address) : (build layout nodes).WellFormed :=
  of_idle rfl fun _ live => (Layout.mem_ring_iff.mp live).2

theorem of_touches {node : Address} {before after : Locator} (touches : Touches node before after)
    (wellFormed : before.WellFormed) : after.WellFormed where
  places := by
    intro placement owned
    rw [touches.layout]
    by_cases placed : placement ∈ before.layout.placements node
    · exact (Layout.mem_placements_iff.mp placed).2
    · rw [touches.ring placement placed, touches.staging placement] at owned
      exact wellFormed.places placement (owned.imp_right And.left)
  not_staying := by
    intro other member
    rw [touches.staying]
    exact wellFormed.not_staying other ((touches.moving other).mp member).1
  joining_inactive := by
    intro joining other member
    rw [touches.kind?] at joining
    rcases (touches.moving other).mp member with ⟨moved, different⟩
    rw [touches.nodes other different]
    exact wellFormed.joining_inactive joining other moved
  joining_staged := by
    intro joining placement staged
    rw [touches.kind?] at joining
    have was_staged := ((touches.staging placement).mp staged).1
    exact touches.moving_of_staged (wellFormed.places placement (.inr was_staged))
      (wellFormed.joining_staged joining placement was_staged) staged
  leaving_staged := by
    intro leaving placement staged
    rw [touches.kind?] at leaving
    rw [touches.staying]
    exact wellFormed.leaving_staged leaving placement ((touches.staging placement).mp staged).1

theorem settle (wellFormed : locator.WellFormed) : locator.settle.WellFormed := by
  apply settle_induction wellFormed
  intro idle
  exact of_idle idle fun placement live => wellFormed.places placement (.inl live)

theorem advance (start stop : Point) (wellFormed : locator.WellFormed) :
    (locator.advance start stop).locator.WellFormed where
  places := by
    intro placement owned
    rw [mem_ring_advance, mem_staging_advance] at owned
    rw [advance_layout]
    rcases owned with (⟨live, -⟩ | enters) | (⟨staged, -⟩ | retires)
    · exact wellFormed.places placement (.inl live)
    · exact wellFormed.places placement (.inr enters.staged)
    · exact wellFormed.places placement (.inr staged)
    · exact wellFormed.places placement (.inl retires.live)
  not_staying := by
    rw [advance_moving, advance_staying]
    exact wellFormed.not_staying
  joining_inactive := by
    rw [advance_kind?, advance_moving, advance_nodes]
    exact wellFormed.joining_inactive
  joining_staged := by
    intro joining placement staged
    rw [advance_kind?] at joining
    rw [advance_moving]
    rcases mem_staging_advance.mp staged with ⟨was_staged, -⟩ | retires
    · exact wellFormed.joining_staged joining placement was_staged
    · exact absurd retires.leaving (by simp [joining])
  leaving_staged := by
    intro leaving placement staged
    rw [advance_kind?] at leaving
    rw [advance_staying]
    rcases mem_staging_advance.mp staged with ⟨was_staged, -⟩ | retires
    · exact wellFormed.leaving_staged leaving placement was_staged
    · exact retires.not_staying

theorem prepare (kind : Migration.Kind) (named : List Address) (wellFormed : locator.WellFormed) :
    (locator.prepare kind named).WellFormed where
  places := by
    intro placement owned
    rw [prepare_ring] at owned
    rw [prepare_layout]
    rcases owned with live | staged
    · exact wellFormed.places placement (.inl live)
    · exact (mem_staging_prepare.mp staged).2.2
  not_staying := by
    intro node member staying
    rcases mem_moving_prepare.mp member with ⟨is_named, joins⟩
    rcases mem_staying_prepare.mp staying with ⟨active, leaves⟩
    cases kind with
    | join => exact joins rfl active
    | leave => exact leaves rfl is_named
  joining_inactive := by
    intro joining node member
    rw [prepare_kind?, Option.some.injEq] at joining
    rw [mem_moving_prepare] at member
    exact member.2 joining
  joining_staged := by
    intro joining placement staged
    exact (mem_staging_prepare.mp staged).2.1
  leaving_staged := by
    intro leaving placement staged
    rw [prepare_kind?, Option.some.injEq] at leaving
    have joining := (mem_staging_prepare.mp staged).1
    rw [leaving] at joining
    exact nomatch joining

theorem kept : Kept WellFormed :=
  .of_touches (fun _ _ _ => of_touches) (fun _ => settle) fun _ => advance

theorem receive (event : Event) (wellFormed : locator.WellFormed) :
    (locator.receive event).locator.WellFormed :=
  kept.receive wellFormed fun kind named _ => prepare kind named wellFormed

theorem after {events : List Event} (wellFormed : locator.WellFormed) :
    (locator.after events).WellFormed := by
  induction events generalizing locator with
  | nil => exact wellFormed
  | cons event rest ih => exact ih (wellFormed.receive event)

end WellFormed

/--
After any events, failed ones among them: every occupied point has an owner, nodes own
none but their own points, no node moves and stays at once, the sweep has a base exactly if
it has a boundary, a joining node is not active and only joining nodes are staged, no
staying node is staged by a leaving migration, and nothing is left of a migration that has
ended.
-/
theorem invariant_after (layout : Layout) (nodes : List Address) (events : List Event) :
    let locator := (build layout nodes).after events
    (∀ ring ∈ [locator.ring, locator.staging],
      (∀ point owners, (point, owners) ∈ ring.byPoint →
        owners ≠ [] ∧ ∀ node ∈ owners, ⟨point, node⟩ ∈ ring) ∧
      ∀ point node, ⟨point, node⟩ ∈ ring → point ∈ locator.layout.points node ∧
        ∃ owners, (point, owners) ∈ ring.byPoint ∧ node ∈ owners) ∧
    (∀ node ∈ locator.moving, node ∉ locator.staying) ∧
    (locator.base? = none ↔ locator.last? = none) ∧
    (locator.kind? = some .join →
      (∀ node ∈ locator.moving, node ∉ locator.nodes) ∧
      ∀ placement ∈ locator.staging, placement.node ∈ locator.moving) ∧
    (locator.kind? = some .leave →
      ∀ placement ∈ locator.staging, placement.node ∉ locator.staying) ∧
    (locator.kind? = none →
      locator.moving = ∅ ∧ locator.staying = ∅ ∧ locator.staging = ∅ ∧
      locator.base? = none ∧ locator.last? = none) := by
  intro locator
  have wellFormed : locator.WellFormed := (WellFormed.build layout nodes).after
  refine ⟨?_, wellFormed.not_staying, ?_, ?_, wellFormed.leaving_staged, ?_⟩
  · intro ring member
    refine ⟨fun point owners => Ring.owners_of_mem_byPoint, ?_⟩
    intro point node owned
    refine ⟨wellFormed.places ⟨point, node⟩ ?_, Ring.exists_mem_byPoint owned⟩
    simp only [List.mem_cons, List.not_mem_nil, or_false] at member
    rcases member with rfl | rfl
    · exact .inl owned
    · exact .inr owned
  · rw [base?, last?, Option.map_eq_none_iff, Option.map_eq_none_iff]
  · intro joining
    exact ⟨wellFormed.joining_inactive joining, wellFormed.joining_staged joining⟩
  · intro ended
    have idle := kind?_eq_none_iff.mp ended
    simp [moving, staying, staging, base?, last?, sweep?, idle]

/--
An event fails because the points of the node that it detaches are forgotten, and the
sweep of the joining migration goes on after it.
-/
theorem invariant_after_failure :
    let earlier : List Event := [.prepareMigration .leave [beta], .rangeApplied 7 7,
      .prepareMigration .join [gamma]]
    let detaching : Event := .topology [] [beta]
    let events := earlier ++ [detaching, .rangeApplied 1000000000 2000000000]
    let locator := (build smallLayout [alpha, beta]).after events
    (((build smallLayout [alpha, beta]).after earlier).receive detaching).verdict =
        .failed (.notInRing 4 4 beta) ∧
      locator.kind? = some .join ∧
      ⟨3318553560, gamma⟩ ∈ locator.staging ∧ gamma ∈ locator.moving ∧ gamma ∉ locator.nodes ∧
      (3318553560 : Point) ∈ locator.layout.points gamma ∧
      ⟨1658246976, gamma⟩ ∈ locator.ring ∧ (1658246976 : Point) ∈ locator.layout.points gamma := by
  intro earlier detaching events locator
  have joining : locator.kind? = some .join := by decide +kernel
  have staged : ⟨3318553560, gamma⟩ ∈ locator.staging := by decide +kernel
  have live : ⟨1658246976, gamma⟩ ∈ locator.ring := by decide +kernel
  rcases invariant_after smallLayout [alpha, beta] events with ⟨owned, -, -, whileJoining, -⟩
  rcases whileJoining joining with ⟨inactive, moving⟩
  have moves := moving ⟨3318553560, gamma⟩ staged
  have stagedOwned := (owned locator.staging (List.mem_cons_of_mem _ List.mem_cons_self)).2
  have liveOwned := (owned locator.ring List.mem_cons_self).2
  exact ⟨by decide +kernel, joining, staged, moves, inactive gamma moves,
    (stagedOwned 3318553560 gamma staged).1, live, (liveOwned 1658246976 gamma live).1⟩

end ClusterRing.Locator
