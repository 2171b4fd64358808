import ClusterRing.Proofs.Arc
import ClusterRing.Proofs.Locator.Run

/-!
# What one range does

A range that is accepted moves the placements on one arc, and no others: staged
ones go live while nodes join, live ones of nodes that do not stay are staged
while nodes leave. The arc begins or ends at the boundary reached last. It is
looked up between linear bounds, twice where it passes the largest point, and the
pieces are moved one after the other; the bounds of a piece never cross, and
together the pieces hold the arc (`advance_moves_arc`).
-/

namespace ClusterRing

namespace Interval

variable {interval : Interval}

/-- The lower and the upper bound. -/
def bounds (interval : Interval) : Bound × Bound :=
  (interval.lower, interval.upper)

theorem ofBounds?_bounds (interval : Interval) :
    ofBounds? interval.bounds.1 interval.bounds.2 = some interval := by
  simp [ofBounds?, bounds, interval.ordered]

end Interval

namespace Migration

/-- The bounds between which an arc is looked up, in clockwise order. -/
def lookups (start stop : Point) : List (Bound × Bound) :=
  if start < stop then
    [(.excluded start, .included stop)]
  else
    [(.excluded start, .included Point.last), (.included 0, .included stop)]

/-- Moves what is staged in intervals into the live ring. -/
def enter (intervals : List Interval) (rings : Ring × Ring) : Ring × Ring :=
  let (taken, staged) := rings.2.takeRange intervals
  (rings.1 ∪ taken, staged)

/-- Moves what is live in intervals into staging, except for staying nodes. -/
def retire (staying : AddressSet) (intervals : List Interval) (rings : Ring × Ring) : Ring × Ring :=
  let (taken, served) := rings.1.takeOwners intervals fun node => decide (node ∈ staying)
  (served, rings.2 ∪ taken)

/-- Moves what lies between bounds, one pair after the other; `none` if those of a pair cross. -/
def moveBetween? (move : List Interval → Ring × Ring → Ring × Ring)
    (pieces : List (Bound × Bound)) (rings : Ring × Ring) : Option (Ring × Ring) :=
  pieces.foldlM (fun rings piece => do
    let interval ← Interval.ofBounds? piece.1 piece.2
    return move [interval] rings) rings

/--
The live ring and staging after a range whose pieces are moved one after the other,
clockwise while nodes join and counter-clockwise while they leave.
-/
def sweepByPieces? (migration : Migration) (live : Ring) (start stop : Point) :
    Option (Ring × Ring) :=
  let last? := migration.sweep.map (·.last)
  match migration.kind with
  | .join => moveBetween? enter (lookups (last?.getD start) stop) (live, migration.staging)
  | .leave =>
    moveBetween? (retire migration.staying) (lookups start (last?.getD stop)).reverse
      (live, migration.staging)

theorem lookups_eq (start stop : Point) :
    lookups start stop = (Interval.arc start stop).map Interval.bounds := by
  unfold lookups Interval.arc
  split <;> rfl

variable {staying : AddressSet} {interval : Interval} {intervals : List Interval}
variable {rings : Ring × Ring}

theorem enter_nil : enter [] rings = rings := by
  refine Prod.ext ?_ ?_
  all_goals
    ext placement
    simp [enter, Ring.takeRange, Ring.inRange]

theorem enter_cons : enter (interval :: intervals) rings = enter intervals (enter [interval] rings) := by
  refine Prod.ext ?_ ?_
  all_goals
    ext placement
    simp only [enter, Ring.takeRange, Ring.inRange, OrderedSet.mem_union, OrderedSet.mem_filter,
      List.any_cons, List.any_nil]
    grind

theorem retire_nil : retire staying [] rings = rings := by
  refine Prod.ext ?_ ?_
  all_goals
    ext placement
    simp [retire, Ring.takeOwners, Ring.inRange]

theorem retire_cons :
    retire staying (interval :: intervals) rings =
      retire staying intervals (retire staying [interval] rings) := by
  refine Prod.ext ?_ ?_
  all_goals
    ext placement
    simp only [retire, Ring.takeOwners, Ring.inRange, OrderedSet.mem_union, OrderedSet.mem_filter,
      List.any_cons, List.any_nil]
    grind

theorem retire_reverse : retire staying intervals.reverse rings = retire staying intervals rings := by
  simp [retire, Ring.takeOwners, Ring.inRange]

/-- The bounds of intervals do not cross, and pieces moved in turn are moved as all at once. -/
theorem moveBetween?_bounds {move : List Interval → Ring × Ring → Ring × Ring}
    (nil : ∀ {rings}, move [] rings = rings)
    (cons : ∀ {interval rest rings},
      move (interval :: rest) rings = move rest (move [interval] rings)) :
    moveBetween? move (intervals.map Interval.bounds) rings = some (move intervals rings) := by
  unfold moveBetween?
  induction intervals generalizing rings with
  | nil => rw [List.map_nil, List.foldlM_nil, nil]; rfl
  | cons interval rest ih =>
      rw [List.map_cons, List.foldlM_cons, Interval.ofBounds?_bounds, cons]
      exact ih

end Migration

namespace Locator

variable {locator : Locator} {migration : Migration} {start stop : Point}

/-- Piece by piece an accepted range leaves the same rings. -/
theorem sweepByPieces?_eq (running : locator.migration = some migration)
    (accepted : locator.Accepts start stop) :
    migration.sweepByPieces? locator.ring start stop =
      some ((locator.advance start stop).locator.ring,
        (locator.advance start stop).locator.staging) := by
  have needed : Migration.needsRange migration.sweep start stop = true := by
    rcases accepted with ⟨other, same, needed⟩
    rw [running, Option.some.injEq] at same
    rwa [same]
  have reached : ∀ point, (migration.sweep.map (·.last)).getD point =
      (migration.sweep.getD ⟨point, point⟩).last := by
    intro point
    cases migration.sweep <;> rfl
  unfold Migration.sweepByPieces?
  cases kind : migration.kind with
  | join =>
      simp only [Migration.lookups_eq, reached]
      rw [Migration.moveBetween?_bounds Migration.enter_nil Migration.enter_cons]
      simp [advance, running, Migration.advance?, needed, kind, staging, Migration.enter]
  | leave =>
      simp only [Migration.lookups_eq, reached, ← List.map_reverse]
      rw [Migration.moveBetween?_bounds Migration.retire_nil Migration.retire_cons,
        Migration.retire_reverse]
      simp [advance, running, Migration.advance?, needed, kind, staging, Migration.retire]

theorem accepts_iff_inside :
    locator.Accepts start stop ↔
      locator.kind? ≠ none ∧ (start ≠ 0 ∨ stop ≠ 0) ∧
        ∀ last, locator.last? = some last →
          Point.clockwise start last < Point.clockwise start stop := by
  rw [accepts_iff]
  refine and_congr_right fun _ => ?_
  cases sweep : locator.sweep? with
  | none =>
      rw [needsRange_none_iff]
      simp [last?, sweep]
  | some sweep' =>
      rw [needsRange_some_iff, ← Point.clockwise_from_lt_iff]
      simp [last?, sweep]

/--
A range is applied exactly if a migration is in progress, the range is not the one from 0 to
0, and the boundary reached last, if there is one, lies strictly inside it; otherwise nothing
changes. While nodes join, the staged placements on the arc from the last boundary to the
stop go live; while nodes leave, the live placements on the arc from the start to the last
boundary go to staging, those of staying nodes apart. The first range that is applied sets
the base. The pieces of the arc can be looked up one after the other.
-/
theorem advance_moves_arc (locator : Locator) (start stop : Point) :
    let outcome := locator.advance start stop
    let next := outcome.locator
    (outcome.verdict = .applied ↔
      locator.kind? ≠ none ∧ (start ≠ 0 ∨ stop ≠ 0) ∧
        ∀ last, locator.last? = some last →
          Point.clockwise start last < Point.clockwise start stop) ∧
    (outcome.verdict ≠ .applied → outcome = ⟨locator, .ignored⟩) ∧
    (outcome.verdict = .applied → locator.kind? = some .join →
      let origin := locator.last?.getD start
      (∀ placement,
        let swept := Point.clockwise origin placement.point ≤ Point.clockwise origin stop
        (placement ∈ next.ring ↔
          placement ∈ locator.ring ∨ placement ∈ locator.staging ∧ swept) ∧
        (placement ∈ next.staging ↔ placement ∈ locator.staging ∧ ¬swept)) ∧
      next.base? = some (locator.base?.getD start) ∧ next.last? = some stop) ∧
    (outcome.verdict = .applied → locator.kind? = some .leave →
      let limit := locator.last?.getD stop
      (∀ placement,
        let swept := placement.node ∉ locator.staying ∧
          Point.clockwise start placement.point ≤ Point.clockwise start limit
        (placement ∈ next.ring ↔ placement ∈ locator.ring ∧ ¬swept) ∧
        (placement ∈ next.staging ↔
          placement ∈ locator.staging ∨ placement ∈ locator.ring ∧ swept)) ∧
      next.base? = some (locator.base?.getD stop) ∧ next.last? = some start) ∧
    (next.layout = locator.layout ∧ next.nodes = locator.nodes ∧ next.kind? = locator.kind? ∧
      next.moving = locator.moving ∧ next.staying = locator.staying) ∧
    (outcome.verdict = .applied → ∀ migration, locator.migration = some migration →
      migration.sweepByPieces? locator.ring start stop = some (next.ring, next.staging)) := by
  intro outcome next
  have applied_iff : outcome.verdict = .applied ↔ locator.Accepts start stop :=
    advance_verdict_eq_applied_iff
  refine ⟨applied_iff.trans accepts_iff_inside, ?_, ?_, ?_, ?_, ?_⟩
  · intro ignored
    exact advance_of_not_accepts fun accepted => ignored (applied_iff.mpr accepted)
  · intro applied joining origin
    have accepted := applied_iff.mp applied
    have sweep? := sweep?_advance_of_joining joining accepted
    refine ⟨?_, by rw [base?, sweep?]; rfl, by rw [last?, sweep?]; rfl⟩
    intro placement swept
    simp only [swept, ← Point.onArc_iff_clockwise_le]
    exact mem_advance_of_joining joining accepted
  · intro applied leaving limit
    have accepted := applied_iff.mp applied
    have sweep? := sweep?_advance_of_leaving leaving accepted
    refine ⟨?_, by rw [base?, sweep?]; rfl, by rw [last?, sweep?]; rfl⟩
    intro placement swept
    simp only [swept, ← Point.onArc_iff_clockwise_le]
    exact mem_advance_of_leaving leaving accepted
  · exact ⟨advance_layout, advance_nodes, advance_kind?, advance_moving, advance_staying⟩
  · intro applied migration running
    exact sweepByPieces?_eq running (applied_iff.mp applied)

/-- A joining sweep goes on from the largest point, where the first of two lookups is empty. -/
theorem advance_from_largest_point :
    let locator := (build smallLayout [alpha]).after
      [.prepareMigration .join [beta], .rangeApplied 2000000000 Point.last]
    let next := (locator.advance 2000000000 1800000000).locator
    locator.last? = some Point.last ∧
      (locator.advance 2000000000 1800000000).verdict = .applied ∧
      ⟨1745397900, beta⟩ ∈ locator.staging ∧ ⟨1745397900, beta⟩ ∈ next.ring ∧
      next.base? = some 2000000000 ∧ next.last? = some 1800000000 ∧
      ∀ migration, locator.migration = some migration →
        migration.sweepByPieces? locator.ring 2000000000 1800000000 =
          some (next.ring, next.staging) := by
  intro locator next
  have last : locator.last? = some Point.last := by decide +kernel
  have joining : locator.kind? = some .join := by decide +kernel
  have staged : ⟨1745397900, beta⟩ ∈ locator.staging := by decide +kernel
  rcases advance_moves_arc locator 2000000000 1800000000 with
    ⟨applied_iff, -, whileJoining, -, -, pieces⟩
  have applied : (locator.advance 2000000000 1800000000).verdict = .applied := by
    refine applied_iff.mpr ⟨by simp [joining], by decide, ?_⟩
    rintro reached same
    rw [last, Option.some.injEq] at same
    rw [← same]
    decide
  rcases whileJoining applied joining with ⟨moved, base?, last?⟩
  rw [last] at moved
  have live := (moved ⟨1745397900, beta⟩).1.mpr (.inr ⟨staged, by decide⟩)
  exact ⟨last, applied, staged, live, base?, last?, pieces applied⟩

end Locator

end ClusterRing
