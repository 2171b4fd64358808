import ClusterRing.Proofs.Arc
import ClusterRing.Proofs.Locator.Convergence

/-!
# Repeated and unordered notifications

The notifications of one sweep are cumulative. They share a base, and each says
how far the sweep has come from there: clockwise while nodes join,
counter-clockwise while they leave. They may be delivered in any order and more
than once. A notification that is not farther from the base than the boundary
reached is ignored. A farther one leaves what it would have left as the first,
because the arc up to it is cut at the boundary reached (`Sweeping.overtake`). So
the furthest notification alone decides which points are live and which staged.

The notification from 0 to 0 is never a range, so a sweep with base 0 cannot
report that it has come around the circle.
-/

namespace ClusterRing

namespace Migration.Kind

/-- The notification that a sweep has come from its base to a boundary. -/
def progress (kind : Kind) (base boundary : Point) : Event :=
  match kind with
  | .join => .rangeApplied base boundary
  | .leave => .rangeApplied boundary base

/-- How far a sweep has come from its base at a boundary. -/
def distance (kind : Kind) (base boundary : Point) : Nat :=
  match kind with
  | .join => Point.clockwise base boundary
  | .leave => Point.clockwise boundary base

/-- A boundary of a list that is as far from the base as any other. -/
structure Furthest (kind : Kind) (base : Point) (boundaries : List Point) (last : Point) : Prop where
  mem : last ∈ boundaries
  le : ∀ boundary ∈ boundaries, kind.distance base boundary ≤ kind.distance base last

variable {kind : Kind} {base last first next boundary : Point} {boundaries : List Point}

theorem distance_self : kind.distance base base = circleSize := by
  cases kind <;> exact Point.clockwise_self

theorem distance_le_circleSize : kind.distance base boundary ≤ circleSize := by
  cases kind <;> exact Point.clockwise_le_circleSize

theorem Furthest.singleton : kind.Furthest base [last] last where
  mem := by simp
  le := by simp

theorem Furthest.cons_overtaken (furthest : kind.Furthest base (next :: boundaries) last)
    (overtaken : kind.distance base first ≤ kind.distance base next) :
    kind.Furthest base (first :: next :: boundaries) last where
  mem := List.mem_cons_of_mem first furthest.mem
  le := by
    intro boundary member
    rcases List.mem_cons.mp member with rfl | member
    · exact Nat.le_trans overtaken (furthest.le next (by simp))
    · exact furthest.le boundary member

theorem Furthest.cons_ignored (furthest : kind.Furthest base (first :: boundaries) last)
    (ignored : kind.distance base next ≤ kind.distance base first) :
    kind.Furthest base (first :: next :: boundaries) last where
  mem := by
    rcases List.mem_cons.mp furthest.mem with rfl | member
    · simp
    · simp [member]
  le := by
    intro boundary member
    simp only [List.mem_cons] at member
    rcases member with rfl | rfl | member
    · exact furthest.le boundary (by simp)
    · exact Nat.le_trans ignored (furthest.le first (by simp))
    · exact furthest.le boundary (by simp [member])

theorem Furthest.lt_iff (furthest : kind.Furthest base boundaries last) :
    kind.distance base last < kind.distance base boundary ↔
      ∀ other ∈ boundaries, kind.distance base other < kind.distance base boundary := by
  constructor
  · intro farther other member
    exact Nat.lt_of_le_of_lt (furthest.le other member) farther
  · intro farther
    exact farther last furthest.mem

theorem Furthest.distance_eq_of_mem_base (furthest : kind.Furthest base boundaries last)
    (around : base ∈ boundaries) : kind.distance base last = circleSize := by
  apply Nat.le_antisymm distance_le_circleSize
  have whole : kind.distance base base = circleSize := distance_self
  rw [← whole]
  exact furthest.le base around

end Migration.Kind

namespace Locator

variable {locator : Locator} {kind : Migration.Kind} {base last boundary : Point}
variable {named : List Address} {placement : Placement}

@[simp]
theorem receive_progress_join :
    locator.receive (Migration.Kind.join.progress base boundary) = locator.advance base boundary := rfl

@[simp]
theorem receive_progress_leave :
    locator.receive (Migration.Kind.leave.progress base boundary) = locator.advance boundary base := rfl

/-- A migration of a kind is in progress, and its sweep has come so far. -/
structure Sweeping (locator : Locator) (kind : Migration.Kind) (sweep : Option Migration.Sweep) :
    Prop where
  kind? : locator.kind? = some kind
  sweep? : locator.sweep? = sweep

theorem counted_of_mem {boundaries : List Point} (counted : base ≠ 0 ∨ 0 ∉ boundaries) :
    ∀ boundary ∈ boundaries, base ≠ 0 ∨ boundary ≠ 0 := by
  intro boundary member
  apply counted.imp_right
  rintro absent rfl
  exact absent member

namespace Sweeping

theorem prepare : (locator.prepare kind named).Sweeping kind none where
  kind? := prepare_kind?
  sweep? := prepare_sweep?

theorem accepts_iff {sweep : Option Migration.Sweep} {start stop : Point}
    (sweeping : locator.Sweeping kind sweep) :
    locator.Accepts start stop ↔ Migration.needsRange sweep start stop = true := by
  rw [accepts_iff_of_kind? sweeping.kind?, sweeping.sweep?]

theorem base?_eq {sweep : Option Migration.Sweep} (sweeping : locator.Sweeping kind sweep) :
    locator.base? = sweep.map (·.base) := by
  rw [base?, sweeping.sweep?]

theorem last?_eq {sweep : Option Migration.Sweep} (sweeping : locator.Sweeping kind sweep) :
    locator.last? = sweep.map (·.last) := by
  rw [last?, sweeping.sweep?]

theorem begins_join (sweeping : locator.Sweeping .join none) (counted : base ≠ 0 ∨ boundary ≠ 0) :
    locator.Accepts base boundary ∧
      (locator.advance base boundary).locator.Sweeping .join (some ⟨base, boundary⟩) := by
  have accepted : locator.Accepts base boundary := by
    rw [sweeping.accepts_iff, needsRange_none_iff]
    exact counted
  refine ⟨accepted, advance_kind?.trans sweeping.kind?, ?_⟩
  rw [sweep?_advance_of_joining sweeping.kind? accepted, sweeping.base?_eq]
  rfl

theorem begins_leave (sweeping : locator.Sweeping .leave none)
    (counted : base ≠ 0 ∨ boundary ≠ 0) :
    locator.Accepts boundary base ∧
      (locator.advance boundary base).locator.Sweeping .leave (some ⟨base, boundary⟩) := by
  have accepted : locator.Accepts boundary base := by
    rw [sweeping.accepts_iff, needsRange_none_iff]
    exact counted.symm
  refine ⟨accepted, advance_kind?.trans sweeping.kind?, ?_⟩
  rw [sweep?_advance_of_leaving sweeping.kind? accepted, sweeping.base?_eq]
  rfl

theorem accepts_join_iff (sweeping : locator.Sweeping .join (some ⟨base, last⟩)) :
    locator.Accepts base boundary ↔
      (base ≠ 0 ∨ boundary ≠ 0) ∧ Point.clockwise base last < Point.clockwise base boundary := by
  rw [sweeping.accepts_iff, needsRange_some_iff, Point.clockwise_from_lt_iff]

theorem accepts_leave_iff (sweeping : locator.Sweeping .leave (some ⟨base, last⟩)) :
    locator.Accepts boundary base ↔
      (base ≠ 0 ∨ boundary ≠ 0) ∧ Point.clockwise last base < Point.clockwise boundary base := by
  rw [sweeping.accepts_iff, needsRange_some_iff, Point.clockwise_to_lt_iff, or_comm]

theorem mem_advance_join {sweep : Option Migration.Sweep} {start stop : Point}
    (sweeping : locator.Sweeping .join sweep) (accepted : locator.Accepts start stop)
    (placement : Placement) :
    (placement ∈ (locator.advance start stop).locator.ring ↔
      placement ∈ locator.ring ∨ placement ∈ locator.staging ∧
        Point.onArc ((sweep.map (·.last)).getD start) stop placement.point = true) ∧
    (placement ∈ (locator.advance start stop).locator.staging ↔
      placement ∈ locator.staging ∧
        ¬Point.onArc ((sweep.map (·.last)).getD start) stop placement.point = true) := by
  rw [← sweeping.last?_eq]
  exact mem_advance_of_joining sweeping.kind? accepted

theorem mem_advance_leave {sweep : Option Migration.Sweep} {start stop : Point}
    (sweeping : locator.Sweeping .leave sweep) (accepted : locator.Accepts start stop)
    (placement : Placement) :
    (placement ∈ (locator.advance start stop).locator.ring ↔
      placement ∈ locator.ring ∧
        ¬(placement.node ∉ locator.staying ∧
          Point.onArc start ((sweep.map (·.last)).getD stop) placement.point = true)) ∧
    (placement ∈ (locator.advance start stop).locator.staging ↔
      placement ∈ locator.staging ∨ placement ∈ locator.ring ∧ placement.node ∉ locator.staying ∧
        Point.onArc start ((sweep.map (·.last)).getD stop) placement.point = true) := by
  rw [← sweeping.last?_eq]
  exact mem_advance_of_leaving sweeping.kind? accepted

theorem mem_joined (sweeping : locator.Sweeping .join none) (counted : base ≠ 0 ∨ boundary ≠ 0)
    (placement : Placement) :
    (placement ∈ (locator.advance base boundary).locator.ring ↔
      placement ∈ locator.ring ∨
        placement ∈ locator.staging ∧ Point.onArc base boundary placement.point = true) ∧
    (placement ∈ (locator.advance base boundary).locator.staging ↔
      placement ∈ locator.staging ∧ ¬Point.onArc base boundary placement.point = true) :=
  sweeping.mem_advance_join (sweeping.begins_join counted).1 placement

theorem mem_left (sweeping : locator.Sweeping .leave none) (counted : base ≠ 0 ∨ boundary ≠ 0)
    (placement : Placement) :
    (placement ∈ (locator.advance boundary base).locator.ring ↔
      placement ∈ locator.ring ∧
        ¬(placement.node ∉ locator.staying ∧ Point.onArc boundary base placement.point = true)) ∧
    (placement ∈ (locator.advance boundary base).locator.staging ↔
      placement ∈ locator.staging ∨
        placement ∈ locator.ring ∧ placement.node ∉ locator.staying ∧
          Point.onArc boundary base placement.point = true) :=
  sweeping.mem_advance_leave (sweeping.begins_leave counted).1 placement

/-- The boundary reached lies inside the arc of the farther notification and cuts it in two. -/
theorem overtake_join (sweeping : locator.Sweeping .join none) (reachedCounted : base ≠ 0 ∨ last ≠ 0)
    (counted : base ≠ 0 ∨ boundary ≠ 0)
    (farther : Point.clockwise base last < Point.clockwise base boundary) :
    ((locator.advance base last).locator.advance base boundary).locator =
      (locator.advance base boundary).locator := by
  have reached := (sweeping.begins_join reachedCounted).2
  have resumed := reached.accepts_join_iff.mpr ⟨counted, farther⟩
  have first := sweeping.mem_joined reachedCounted
  have second := reached.mem_advance_join resumed
  have direct := sweeping.mem_joined counted
  have inside := Point.clockwise_from_lt_iff.mp farther
  apply eq_of_parts
  case ring =>
    ext placement
    rw [(second placement).1, (first placement).1, (first placement).2, (direct placement).1,
      Point.onArc_cut inside.1 inside.2, Option.map_some, Option.getD_some]
    grind
  case staging =>
    ext placement
    rw [(second placement).2, (first placement).2, (direct placement).2,
      Point.onArc_cut inside.1 inside.2, Option.map_some, Option.getD_some]
    grind
  case sweep? =>
    rw [sweep?_advance_of_joining reached.kind? resumed, reached.base?_eq,
      (sweeping.begins_join counted).2.sweep?]
    rfl
  all_goals simp

theorem overtake_leave (sweeping : locator.Sweeping .leave none)
    (reachedCounted : base ≠ 0 ∨ last ≠ 0) (counted : base ≠ 0 ∨ boundary ≠ 0)
    (farther : Point.clockwise last base < Point.clockwise boundary base) :
    ((locator.advance last base).locator.advance boundary base).locator =
      (locator.advance boundary base).locator := by
  have reached := (sweeping.begins_leave reachedCounted).2
  have resumed := reached.accepts_leave_iff.mpr ⟨counted, farther⟩
  have first := sweeping.mem_left reachedCounted
  have second := reached.mem_advance_leave resumed
  have direct := sweeping.mem_left counted
  have inside := Point.clockwise_to_lt_iff.mp farther
  rw [advance_staying] at second
  apply eq_of_parts
  case ring =>
    ext placement
    rw [(second placement).1, (first placement).1, (direct placement).1,
      Point.onArc_cut inside.1 inside.2, Option.map_some, Option.getD_some]
    grind
  case staging =>
    ext placement
    rw [(second placement).2, (first placement).1, (first placement).2, (direct placement).2,
      Point.onArc_cut inside.1 inside.2, Option.map_some, Option.getD_some]
    grind
  case sweep? =>
    rw [sweep?_advance_of_leaving reached.kind? resumed, reached.base?_eq,
      (sweeping.begins_leave counted).2.sweep?]
    rfl
  all_goals simp

theorem begins (sweeping : locator.Sweeping kind none) (counted : base ≠ 0 ∨ boundary ≠ 0) :
    (locator.receive (kind.progress base boundary)).verdict = .applied ∧
      (locator.receive (kind.progress base boundary)).locator.Sweeping kind
        (some ⟨base, boundary⟩) := by
  cases kind with
  | join =>
      have begins := sweeping.begins_join counted
      exact ⟨advance_verdict_of_accepts begins.1, begins.2⟩
  | leave =>
      have begins := sweeping.begins_leave counted
      exact ⟨advance_verdict_of_accepts begins.1, begins.2⟩

theorem applied_iff (sweeping : locator.Sweeping kind (some ⟨base, last⟩))
    (counted : base ≠ 0 ∨ boundary ≠ 0) :
    (locator.receive (kind.progress base boundary)).verdict = .applied ↔
      kind.distance base last < kind.distance base boundary := by
  cases kind with
  | join =>
      rw [receive_progress_join, advance_verdict_eq_applied_iff, sweeping.accepts_join_iff]
      exact and_iff_right counted
  | leave =>
      rw [receive_progress_leave, advance_verdict_eq_applied_iff, sweeping.accepts_leave_iff]
      exact and_iff_right counted

theorem ignores (sweeping : locator.Sweeping kind (some ⟨base, last⟩))
    (nearer : kind.distance base boundary ≤ kind.distance base last) :
    locator.receive (kind.progress base boundary) = ⟨locator, .ignored⟩ := by
  cases kind with
  | join =>
      apply advance_of_not_accepts
      rw [sweeping.accepts_join_iff]
      exact fun needed => Nat.not_lt.mpr nearer needed.2
  | leave =>
      apply advance_of_not_accepts
      rw [sweeping.accepts_leave_iff]
      exact fun needed => Nat.not_lt.mpr nearer needed.2

/-- A farther notification leaves what it would have left as the first. -/
theorem overtake (sweeping : locator.Sweeping kind none) (reachedCounted : base ≠ 0 ∨ last ≠ 0)
    (counted : base ≠ 0 ∨ boundary ≠ 0)
    (farther : kind.distance base last < kind.distance base boundary) :
    ((locator.receive (kind.progress base last)).locator.receive
        (kind.progress base boundary)).locator =
      (locator.receive (kind.progress base boundary)).locator := by
  cases kind with
  | join => exact sweeping.overtake_join reachedCounted counted farther
  | leave => exact sweeping.overtake_leave reachedCounted counted farther

/--
Of any notifications, the furthest alone decides what the sweep leaves. Of the first two one
decides for both, so the other can be dropped.
-/
theorem after_progress (sweeping : locator.Sweeping kind none) {first : Point}
    {boundaries : List Point}
    (counted : ∀ boundary ∈ first :: boundaries, base ≠ 0 ∨ boundary ≠ 0) :
    ∃ last, kind.Furthest base (first :: boundaries) last ∧
      locator.after ((first :: boundaries).map (kind.progress base)) =
        (locator.receive (kind.progress base last)).locator := by
  induction boundaries generalizing first with
  | nil => exact ⟨first, .singleton, rfl⟩
  | cons next rest ih =>
      have firstCounted := counted first (by simp)
      have nextCounted := counted next (by simp)
      have reached := (sweeping.begins firstCounted).2
      simp only [List.map_cons, after_cons] at ih ⊢
      by_cases farther : kind.distance base first < kind.distance base next
      · rw [sweeping.overtake firstCounted nextCounted farther]
        rcases ih fun boundary member => counted boundary (List.mem_cons_of_mem first member) with
          ⟨last, furthest, same⟩
        exact ⟨last, furthest.cons_overtaken (Nat.le_of_lt farther), same⟩
      · have ignored := Nat.not_lt.mp farther
        rw [reached.ignores ignored]
        have restCounted : ∀ boundary ∈ first :: rest, base ≠ 0 ∨ boundary ≠ 0 := by
          intro boundary member
          apply counted boundary
          rcases List.mem_cons.mp member with rfl | later <;> simp [*]
        rcases ih restCounted with ⟨last, furthest, same⟩
        exact ⟨last, furthest.cons_ignored ignored, same⟩

theorem after_cases (sweeping : locator.Sweeping kind none) {boundaries : List Point}
    (counted : ∀ boundary ∈ boundaries, base ≠ 0 ∨ boundary ≠ 0) :
    (boundaries = [] ∧ locator.after (boundaries.map (kind.progress base)) = locator) ∨
      ∃ last, kind.Furthest base boundaries last ∧ (base ≠ 0 ∨ last ≠ 0) ∧
        locator.after (boundaries.map (kind.progress base)) =
          (locator.receive (kind.progress base last)).locator := by
  cases boundaries with
  | nil => exact .inl ⟨rfl, rfl⟩
  | cons first rest =>
      rcases sweeping.after_progress counted with ⟨last, furthest, same⟩
      exact .inr ⟨last, furthest, counted last furthest.mem, same⟩

theorem applied_after_iff (sweeping : locator.Sweeping kind none) {earlier : List Point}
    (earlierCounted : ∀ other ∈ earlier, base ≠ 0 ∨ other ≠ 0) (counted : base ≠ 0 ∨ boundary ≠ 0) :
    ((locator.after (earlier.map (kind.progress base))).receive
        (kind.progress base boundary)).verdict = .applied ↔
      ∀ other ∈ earlier, kind.distance base other < kind.distance base boundary := by
  rcases sweeping.after_cases earlierCounted with ⟨rfl, same⟩ | ⟨last, furthest, lastCounted, same⟩
  · rw [same]
    exact iff_of_true (sweeping.begins counted).1 (by simp)
  · rw [same, ← furthest.lt_iff]
    exact (sweeping.begins lastCounted).2.applied_iff counted

/-- Once a sweep has come around, it ignores all further notifications. -/
theorem ignores_after_base (sweeping : locator.Sweeping kind none) {boundaries : List Point}
    (counted : ∀ boundary ∈ boundaries, base ≠ 0 ∨ boundary ≠ 0) (around : base ∈ boundaries)
    (boundary : Point) :
    (locator.after (boundaries.map (kind.progress base))).receive (kind.progress base boundary) =
      ⟨locator.after (boundaries.map (kind.progress base)), .ignored⟩ := by
  rcases sweeping.after_cases counted with ⟨rfl, -⟩ | ⟨last, furthest, lastCounted, same⟩
  · simp at around
  · rw [same]
    apply (sweeping.begins lastCounted).2.ignores
    rw [furthest.distance_eq_of_mem_base around]
    exact Migration.Kind.distance_le_circleSize

end Sweeping

/-! ### Joining -/

theorem not_mem_staging_prepare_of_not_joining
    (not_joining : placement.node ∈ named → placement.node ∈ locator.nodes) :
    placement ∉ (locator.prepare .join named).staging := by
  intro staged
  have joining := mem_moving_prepare.mp (mem_staging_prepare.mp staged).2.1
  exact joining.2 rfl (not_joining joining.1)

theorem AtRest.mem_joined (atRest : locator.AtRest) (counted : base ≠ 0 ∨ last ≠ 0)
    {node : Address} {point : Point} (member : node ∈ named) (inactive : node ∉ locator.nodes)
    (placed : point ∈ locator.layout.points node) :
    (⟨point, node⟩ ∈ ((locator.prepare .join named).advance base last).locator.ring ↔
      Point.clockwise base point ≤ Point.clockwise base last) ∧
    (⟨point, node⟩ ∈ ((locator.prepare .join named).advance base last).locator.staging ↔
      ¬Point.clockwise base point ≤ Point.clockwise base last) := by
  have joining : node ∈ (locator.prepare .join named).moving :=
    mem_moving_prepare.mpr ⟨member, fun _ => inactive⟩
  have staged : ⟨point, node⟩ ∈ (locator.prepare .join named).staging :=
    mem_staging_prepare.mpr ⟨rfl, joining, placed⟩
  have not_live : ⟨point, node⟩ ∉ locator.ring := by
    intro live
    exact inactive (atRest.mem_ring_iff.mp live).1
  have sweeping : (locator.prepare .join named).Sweeping .join none := .prepare
  have swept := sweeping.mem_joined counted ⟨point, node⟩
  rw [Point.onArc_iff_clockwise_le] at swept
  simpa [staged, not_live] using swept

theorem mem_joined_of_not_joining (counted : base ≠ 0 ∨ last ≠ 0)
    (not_joining : placement.node ∈ named → placement.node ∈ locator.nodes) :
    (placement ∈ ((locator.prepare .join named).advance base last).locator.ring ↔
      placement ∈ locator.ring) ∧
    placement ∉ ((locator.prepare .join named).advance base last).locator.staging := by
  have not_staged := not_mem_staging_prepare_of_not_joining not_joining
  have sweeping : (locator.prepare .join named).Sweeping .join none := .prepare
  have swept := sweeping.mem_joined counted placement
  simpa [not_staged] using swept

/--
Notifications of joining nodes that count from one base are applied when they are
farther than all earlier ones, and the furthest alone decides the outcome: the
joining nodes own their points live up to its distance and staged beyond it.
-/
theorem joining_sweep_follows_furthest (atRest : locator.AtRest) (named : List Address)
    (base : Point) (stops : List Point) (counted : base ≠ 0 ∨ 0 ∉ stops) :
    let distance := Point.clockwise base
    let prepared := locator.prepare .join named
    let swept := prepared.after (stops.map (.rangeApplied base))
    (∀ earlier stop later, stops = earlier ++ stop :: later →
      (((prepared.after (earlier.map (.rangeApplied base))).advance base stop).verdict = .applied ↔
        ∀ other ∈ earlier, distance other < distance stop)) ∧
    (stops ≠ [] → ∃ last ∈ stops, (∀ stop ∈ stops, distance stop ≤ distance last) ∧
      swept = (prepared.advance base last).locator ∧
      swept.base? = some base ∧ swept.last? = some last ∧
      ∀ node ∈ named, node ∉ locator.nodes → ∀ point ∈ locator.layout.points node,
        (⟨point, node⟩ ∈ swept.ring ↔ distance point ≤ distance last) ∧
        (⟨point, node⟩ ∈ swept.staging ↔ ¬distance point ≤ distance last)) ∧
    (∀ placement, (placement.node ∈ named → placement.node ∈ locator.nodes) →
      (placement ∈ swept.ring ↔ placement ∈ locator.ring) ∧ placement ∉ swept.staging) ∧
    (base ∈ stops → swept.staging = ∅ ∧ ∀ stop, swept.advance base stop = ⟨swept, .ignored⟩) := by
  intro distance prepared swept
  have counted := counted_of_mem counted
  have sweeping : prepared.Sweeping .join none := .prepare
  have outcome := sweeping.after_cases counted
  refine ⟨?_, ?_, ?_, ?_⟩
  · rintro earlier stop later rfl
    apply sweeping.applied_after_iff
    · intro other member
      exact counted other (by simp [member])
    · exact counted stop (by simp)
  · intro delivered
    rcases outcome with ⟨none_delivered, -⟩ | ⟨last, furthest, lastCounted, same⟩
    · exact absurd none_delivered delivered
    change swept = (prepared.advance base last).locator at same
    have reached := (sweeping.begins_join lastCounted).2
    rw [same]
    refine ⟨last, furthest.mem, furthest.le, rfl, reached.base?_eq, reached.last?_eq, ?_⟩
    intro node member inactive point placed
    exact atRest.mem_joined lastCounted member inactive placed
  · intro placement not_joining
    rcases outcome with ⟨-, same⟩ | ⟨last, -, lastCounted, same⟩
    · change swept = prepared at same
      rw [same]
      exact ⟨Iff.rfl, not_mem_staging_prepare_of_not_joining not_joining⟩
    · change swept = (prepared.advance base last).locator at same
      rw [same]
      exact mem_joined_of_not_joining lastCounted not_joining
  · intro around
    refine ⟨?_, sweeping.ignores_after_base counted around⟩
    rcases outcome with ⟨rfl, -⟩ | ⟨last, furthest, lastCounted, same⟩
    · simp at around
    change swept = (prepared.advance base last).locator at same
    have whole : Point.clockwise base last = circleSize := furthest.distance_eq_of_mem_base around
    rw [same]
    ext placement
    rw [(sweeping.mem_joined lastCounted placement).2, Point.onArc_iff_clockwise_le, whole]
    simp [Point.clockwise_le_circleSize]

/-- Five notifications across zero, of which the fourth is the furthest, and then the whole circle. -/
theorem joining_sweep_across_zero :
    let locator := build smallLayout [alpha, beta]
    let prepared := locator.prepare .join [gamma, alpha]
    let stops : List Point := [5, 3500000000, 5, 1000000000, 700]
    let swept := prepared.after (stops.map (.rangeApplied 3000000000))
    let around := prepared.after ((stops ++ [3000000000]).map (.rangeApplied 3000000000))
    locator.AtRest ∧ ((3000000000 : Point) ≠ 0 ∨ 0 ∉ stops) ∧ swept.last? = some 1000000000 ∧
      ⟨163656008, gamma⟩ ∈ swept.ring ∧ ⟨1658246976, gamma⟩ ∈ swept.staging ∧
      around.staging = ∅ ∧ around.advance 3000000000 7 = ⟨around, .ignored⟩ := by
  intro locator prepared stops swept around
  have atRest : locator.AtRest := .build smallLayout [alpha, beta]
  have counted : (3000000000 : Point) ≠ 0 ∨ 0 ∉ stops := .inl (by decide)
  have reached : swept.last? = some 1000000000 := by decide +kernel
  rcases joining_sweep_follows_furthest atRest [gamma, alpha] 3000000000 stops counted with
    ⟨-, delivered, -⟩
  rcases delivered (by decide) with ⟨last, -, -, -, -, furthest, points⟩
  obtain rfl : last = 1000000000 := Option.some.inj (furthest.symm.trans reached)
  have points := points gamma (by decide) (by decide +kernel)
  rcases joining_sweep_follows_furthest atRest [gamma, alpha] 3000000000 (stops ++ [3000000000])
    (.inl (by decide)) with ⟨-, -, -, whole⟩
  have whole := whole (by decide)
  refine ⟨atRest, counted, reached, ?_, ?_, whole.1, whole.2 7⟩
  · exact (points 163656008 (by decide +kernel)).1.mpr (by decide)
  · exact (points 1658246976 (by decide +kernel)).2.mpr (by decide)

/-! ### Leaving -/

theorem AtRest.mem_left (atRest : locator.AtRest) (counted : base ≠ 0 ∨ last ≠ 0)
    {node : Address} {point : Point} (member : node ∈ named) (active : node ∈ locator.nodes)
    (placed : point ∈ locator.layout.points node) :
    (⟨point, node⟩ ∈ ((locator.prepare .leave named).advance last base).locator.staging ↔
      (base - point).toNat < Point.clockwise last base) ∧
    (⟨point, node⟩ ∈ ((locator.prepare .leave named).advance last base).locator.ring ↔
      ¬(base - point).toNat < Point.clockwise last base) := by
  have not_staying : node ∉ (locator.prepare .leave named).staying := by
    intro staying
    exact (mem_staying_prepare.mp staying).2 rfl member
  have live : ⟨point, node⟩ ∈ locator.ring := atRest.mem_ring_iff.mpr ⟨active, placed⟩
  have not_staged : ⟨point, node⟩ ∉ (locator.prepare .leave named).staging := by
    simp [mem_staging_prepare]
  have sweeping : (locator.prepare .leave named).Sweeping .leave none := .prepare
  have swept := sweeping.mem_left counted ⟨point, node⟩
  rw [Point.onArc_iff_sub_lt] at swept
  simp only [prepare_ring, live, not_staged, not_staying, not_false_eq_true, true_and,
    false_or] at swept
  exact ⟨swept.2, swept.1⟩

theorem mem_left_of_staying {node : Address} {point : Point} (counted : base ≠ 0 ∨ last ≠ 0)
    (active : node ∈ locator.nodes) (stays : node ∉ named) (live : ⟨point, node⟩ ∈ locator.ring) :
    ⟨point, node⟩ ∈ ((locator.prepare .leave named).advance last base).locator.ring := by
  have staying : node ∈ (locator.prepare .leave named).staying :=
    mem_staying_prepare.mpr ⟨active, fun _ => stays⟩
  rw [(Sweeping.prepare.mem_left counted _).1]
  exact ⟨live, fun swept => swept.1 staying⟩

/--
Notifications of leaving nodes that count back from one base are applied when they
are farther than all earlier ones, and the furthest alone decides the outcome: the
leaving nodes own their points staged within its distance and live beyond it.
-/
theorem leaving_sweep_follows_furthest (atRest : locator.AtRest) (named : List Address)
    (active : ∀ node ∈ named, node ∈ locator.nodes) (base : Point) (starts : List Point)
    (counted : base ≠ 0 ∨ 0 ∉ starts) :
    let distance := fun start => Point.clockwise start base
    let prepared := locator.prepare .leave named
    let swept := prepared.after (starts.map fun start => .rangeApplied start base)
    (∀ earlier start later, starts = earlier ++ start :: later →
      (((prepared.after (earlier.map fun start => .rangeApplied start base)).advance
          start base).verdict = .applied ↔
        ∀ other ∈ earlier, distance other < distance start)) ∧
    (starts ≠ [] → ∃ last ∈ starts, (∀ start ∈ starts, distance start ≤ distance last) ∧
      swept = (prepared.advance last base).locator ∧
      swept.base? = some base ∧ swept.last? = some last ∧
      ∀ node ∈ named, ∀ point ∈ locator.layout.points node,
        (⟨point, node⟩ ∈ swept.staging ↔ (base - point).toNat < distance last) ∧
        (⟨point, node⟩ ∈ swept.ring ↔ ¬(base - point).toNat < distance last)) ∧
    (∀ node ∈ locator.nodes, node ∉ named → ∀ point ∈ locator.layout.points node,
      ⟨point, node⟩ ∈ swept.ring) ∧
    (base ∈ starts → (∀ placement ∈ swept.ring, placement.node ∉ named) ∧
      ∀ start, swept.advance start base = ⟨swept, .ignored⟩) := by
  intro distance prepared swept
  have counted := counted_of_mem counted
  have sweeping : prepared.Sweeping .leave none := .prepare
  have outcome := sweeping.after_cases counted
  refine ⟨?_, ?_, ?_, ?_⟩
  · rintro earlier start later rfl
    apply sweeping.applied_after_iff
    · intro other member
      exact counted other (by simp [member])
    · exact counted start (by simp)
  · intro delivered
    rcases outcome with ⟨none_delivered, -⟩ | ⟨last, furthest, lastCounted, same⟩
    · exact absurd none_delivered delivered
    change swept = (prepared.advance last base).locator at same
    have reached := (sweeping.begins_leave lastCounted).2
    rw [same]
    refine ⟨last, furthest.mem, furthest.le, rfl, reached.base?_eq, reached.last?_eq, ?_⟩
    intro node member point placed
    exact atRest.mem_left lastCounted member (active node member) placed
  · intro node remains stays point placed
    have live : ⟨point, node⟩ ∈ locator.ring := atRest.mem_ring_iff.mpr ⟨remains, placed⟩
    rcases outcome with ⟨-, same⟩ | ⟨last, -, lastCounted, same⟩
    · change swept = prepared at same
      rw [same]
      exact live
    · change swept = (prepared.advance last base).locator at same
      rw [same]
      exact mem_left_of_staying lastCounted remains stays live
  · intro around
    refine ⟨?_, sweeping.ignores_after_base counted around⟩
    rcases outcome with ⟨rfl, -⟩ | ⟨last, furthest, lastCounted, same⟩
    · simp at around
    change swept = (prepared.advance last base).locator at same
    have whole : Point.clockwise last base = circleSize := furthest.distance_eq_of_mem_base around
    rw [same]
    intro placement remains leaving
    rw [(sweeping.mem_left lastCounted placement).1, Point.onArc_iff_sub_lt, whole] at remains
    have not_staying : placement.node ∉ prepared.staying := by
      intro staying
      exact (mem_staying_prepare.mp staying).2 rfl leaving
    exact remains.2 ⟨not_staying, (base - placement.point).toNat_lt⟩

/-- Four notifications back across zero, of which the first is the furthest, and then the whole circle. -/
theorem leaving_sweep_across_zero :
    let locator := build smallLayout [alpha, beta]
    let prepared := locator.prepare .leave [beta]
    let starts : List Point := [2500000000, 4000000000, 2500000000, 3000000000]
    let swept := prepared.after (starts.map fun start => .rangeApplied start 100)
    let around := prepared.after ((starts ++ [100]).map fun start => .rangeApplied start 100)
    locator.AtRest ∧ (∀ node ∈ [beta], node ∈ locator.nodes) ∧
      ((100 : Point) ≠ 0 ∨ 0 ∉ starts) ∧ swept.last? = some 2500000000 ∧
      ⟨2959484410, beta⟩ ∈ swept.staging ∧ ⟨2369157494, beta⟩ ∈ swept.ring ∧
      (∀ placement ∈ around.ring, placement.node ∉ [beta]) ∧
      around.advance 7 100 = ⟨around, .ignored⟩ := by
  intro locator prepared starts swept around
  have atRest : locator.AtRest := .build smallLayout [alpha, beta]
  have active : ∀ node ∈ [beta], node ∈ locator.nodes := by decide +kernel
  have counted : (100 : Point) ≠ 0 ∨ 0 ∉ starts := .inl (by decide)
  have reached : swept.last? = some 2500000000 := by decide +kernel
  rcases leaving_sweep_follows_furthest atRest [beta] active 100 starts counted with
    ⟨-, delivered, -⟩
  rcases delivered (by decide) with ⟨last, -, -, -, -, furthest, points⟩
  obtain rfl : last = 2500000000 := Option.some.inj (furthest.symm.trans reached)
  have points := points beta (by decide)
  rcases leaving_sweep_follows_furthest atRest [beta] active 100 (starts ++ [100])
    (.inl (by decide)) with ⟨-, -, -, whole⟩
  have whole := whole (by decide)
  refine ⟨atRest, active, counted, reached, ?_, ?_, whole.1, whole.2 7⟩
  · exact (points 2959484410 (by decide +kernel)).1.mpr (by decide)
  · exact (points 2369157494 (by decide +kernel)).2.mpr (by decide)

end Locator

end ClusterRing
