import ClusterRing.Proofs.Locator.Run

/-!
# Points of moving nodes

While a migration is in progress, each point of a moving node should be either
live or staged. Every change keeps a division of this kind, the preparation of a
migration apart: that one replaces staging whatever the live ring holds. So a run
keeps the points divided from beginning to end exactly when each preparation
finds the points of the nodes that it names where it expects them
(`divided_throughout_iff`).
-/

namespace ClusterRing.Locator

/-- Each point of a moving node is owned in exactly one of the live ring and staging. -/
def Divided (locator : Locator) : Prop :=
  ∀ node ∈ locator.moving, ∀ point ∈ locator.layout.points node,
    (⟨point, node⟩ ∈ locator.ring ↔ ⟨point, node⟩ ∉ locator.staging)

instance (locator : Locator) : Decidable locator.Divided :=
  inferInstanceAs (Decidable (∀ node ∈ locator.moving, ∀ point ∈ locator.layout.points node,
    (⟨point, node⟩ ∈ locator.ring ↔ ⟨point, node⟩ ∉ locator.staging)))

/--
A preparation finds the points of the nodes that it names where it expects them:
those of joining nodes are not live, and those of leaving nodes are.
-/
def Divisible (locator : Locator) (kind : Migration.Kind) (named : List Address) : Prop :=
  ∀ node ∈ named, ∀ point ∈ locator.layout.points node,
    match kind with
    | .join => node ∉ locator.nodes → ⟨point, node⟩ ∉ locator.ring
    | .leave => ⟨point, node⟩ ∈ locator.ring

namespace Divided

variable {locator : Locator}

theorem of_idle (idle : locator.migration = none) : locator.Divided :=
  fun _ member => absurd member (not_mem_moving_of_idle idle)

theorem of_touches {node : Address} {before after : Locator} (touches : Touches node before after)
    (divided : before.Divided) : after.Divided := by
  intro other member point placed
  rw [touches.layout] at placed
  rcases (touches.moving other).mp member with ⟨moved, different⟩
  rw [touches.ring_of_ne ⟨point, other⟩ different, touches.staging, and_iff_left]
  · exact divided other moved point placed
  · rintro ⟨-, gone⟩
    exact different (Layout.mem_placements_iff.mp gone).1

theorem settle (divided : locator.Divided) : locator.settle.Divided :=
  settle_induction divided of_idle

/-- A range that lets staged points enter is joining, and one that retires live points is leaving. -/
theorem advance (start stop : Point) (divided : locator.Divided) :
    (locator.advance start stop).locator.Divided := by
  intro node member point placed
  rw [advance_moving] at member
  rw [advance_layout] at placed
  rw [mem_ring_advance, mem_staging_advance]
  have owned := divided node member point placed
  constructor
  · rintro (⟨live, goes_on⟩ | enters) (⟨staged, stays_staged⟩ | retires)
    · exact owned.mp live staged
    · exact goes_on retires
    · exact stays_staged enters
    · exact absurd retires.leaving (by simp [enters.joining])
  · intro unstaged
    by_cases live : ⟨point, node⟩ ∈ locator.ring
    · exact .inl ⟨live, fun retires => unstaged (.inr retires)⟩
    · have staged : ⟨point, node⟩ ∈ locator.staging :=
        Decidable.byContradiction fun absent => live (owned.mpr absent)
      by_cases enters : locator.Enters start stop ⟨point, node⟩
      · exact .inr enters
      · exact absurd (.inl ⟨staged, enters⟩) unstaged

theorem kept : Kept Divided :=
  .of_touches (fun _ _ _ => of_touches) (fun _ => settle) fun _ => advance

theorem prepare_iff {kind : Migration.Kind} {named : List Address} :
    (locator.prepare kind named).Divided ↔ locator.Divisible kind named := by
  cases kind with
  | join =>
      have staged {node : Address} (joins : node ∈ (locator.prepare .join named).moving)
          {point : Point} (placed : point ∈ locator.layout.points node) :
          ⟨point, node⟩ ∈ (locator.prepare .join named).staging :=
        mem_staging_prepare.mpr ⟨rfl, joins, placed⟩
      constructor
      · intro divided node member point placed inactive live
        have joins : node ∈ (locator.prepare .join named).moving :=
          mem_moving_prepare.mpr ⟨member, fun _ => inactive⟩
        exact (divided node joins point placed).mp live (staged joins placed)
      · intro divisible node joins point placed
        rcases mem_moving_prepare.mp joins with ⟨member, inactive⟩
        exact iff_of_false (divisible node member point placed (inactive rfl))
          fun unstaged => unstaged (staged joins placed)
  | leave =>
      have unstaged (placement : Placement) :
          placement ∉ (locator.prepare .leave named).staging := by
        intro staged
        simpa using (mem_staging_prepare.mp staged).1
      constructor
      · intro divided node member point placed
        have leaves : node ∈ (locator.prepare .leave named).moving :=
          mem_moving_prepare.mpr ⟨member, by simp⟩
        exact (divided node leaves point placed).mpr (unstaged ⟨point, node⟩)
      · intro divisible node leaves point placed
        have member := (mem_moving_prepare.mp leaves).1
        exact iff_of_true (divisible node member point placed) (unstaged ⟨point, node⟩)

theorem receive_iff {event : Event} (divided : locator.Divided) :
    (locator.receive event).locator.Divided ↔ Prepares Divisible locator event := by
  cases event with
  | prepareMigration kind named => exact prepare_iff
  | topology attached detached =>
      exact iff_of_true (kept.receive divided (by simp)) trivial
  | rangeApplied start stop => exact iff_of_true (kept.receive divided (by simp)) trivial
  | alterChange attached detached =>
      exact iff_of_true (kept.receive divided (by simp)) trivial

theorem throughout_iff {events : List Event} (divided : locator.Divided) :
    Throughout Divided locator events ↔ Obeys (Prepares Divisible) locator events :=
  @throughout_iff_obeys _ (fun _ => True) _ _ _ trivial divided (fun _ _ _ => trivial)
    fun _ _ _ => receive_iff

end Divided

/--
The points of moving nodes are divided throughout a run exactly when each
migration is prepared where they can be divided.
-/
theorem divided_throughout_iff (layout : Layout) (nodes : List Address) (events : List Event) :
    Throughout Divided (build layout nodes) events ↔
      Obeys (Prepares Divisible) (build layout nodes) events :=
  Divided.throughout_iff (.of_idle rfl)

/-- A swept node that is prepared to join again owns its points in both rings. -/
theorem not_divided_after_second_preparation :
    ¬((build smallLayout [alpha]).after
      [.prepareMigration .join [beta], .rangeApplied 5 5, .prepareMigration .join [beta]]).Divided := by
  decide +kernel

end ClusterRing.Locator
