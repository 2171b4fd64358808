import ClusterRing.Proofs.Locator.Agreement
import ClusterRing.Proofs.Ring.Lookup

/-!
# Which keys a migration moves

During a migration the live ring lies between two rings that are laid out afresh:
while nodes join, between that of the active nodes and that of the active and the
joining ones together; while nodes leave, between that of the nodes that stay and
that of all active nodes. The ranges only decide where in between. So a key moves
to a joining node or not at all, and away from a leaving node or not at all.
-/

namespace ClusterRing.Locator

variable {locator : Locator} {placement : Placement}

namespace InOrder

/-- While nodes join, the live ring holds all points of active nodes, and others of joining ones only. -/
theorem joining_bounds (inOrder : locator.InOrder) (joining : locator.kind? = some .join) :
    (∀ placement ∈ locator.layout.ring locator.nodes.toList, placement ∈ locator.ring) ∧
    ∀ placement ∈ locator.ring, locator.layout.Places placement ∧
      (placement.node ∈ locator.nodes ∨ placement.node ∈ locator.moving) := by
  constructor
  · intro placement member
    rcases Layout.mem_ring_iff.mp member with ⟨active, places⟩
    apply inOrder.complete placement places active
    intro moving
    exact inOrder.joining_inactive joining placement.node moving active
  · intro placement live
    refine ⟨inOrder.places placement (.inl live), ?_⟩
    exact (inOrder.knows_owners placement live).imp_right And.right

/-- While nodes leave, only active ones own live points. -/
theorem leaving_bound (inOrder : locator.InOrder) (leaving : locator.kind? = some .leave) :
    ∀ placement ∈ locator.ring, placement ∈ locator.layout.ring locator.nodes.toList := by
  intro placement live
  have places := inOrder.places placement (.inl live)
  rcases inOrder.knows_owners placement live with active | ⟨joining, -⟩
  · exact Layout.mem_ring_iff.mpr ⟨active, places⟩
  · rw [leaving] at joining
    exact nomatch joining

end InOrder

/-- The locator after range notifications, each with its start and its stop. -/
def afterRanges (locator : Locator) (ranges : List (Point × Point)) : Locator :=
  locator.after (ranges.map fun range => .rangeApplied range.1 range.2)

theorem InOrder.afterRanges (inOrder : locator.InOrder) (ranges : List (Point × Point)) :
    (locator.afterRanges ranges).InOrder := by
  induction ranges generalizing locator with
  | nil => exact inOrder
  | cons range rest ih => exact ih (inOrder.receive (.rangeApplied range.1 range.2) trivial)

theorem Agrees.afterRanges_left {left right : Locator} (agrees : left.Agrees right)
    (ranges : List (Point × Point)) : (left.afterRanges ranges).Agrees right := by
  induction ranges generalizing left with
  | nil => exact agrees
  | cons range rest ih => exact ih (agrees.advance_left range.1 range.2)

/-- A migration that is prepared in order stays so under ranges, which only move placements. -/
theorem AtRest.swept_inOrder (atRest : locator.AtRest) (kind : Migration.Kind)
    (named : List Address) (active : kind = .leave → ∀ node ∈ named, node ∈ locator.nodes)
    (ranges : List (Point × Point)) :
    ((locator.prepare kind named).afterRanges ranges).InOrder ∧
      ((locator.prepare kind named).afterRanges ranges).Agrees (locator.prepare kind named) := by
  have prepared : (locator.prepare kind named).InOrder :=
    atRest.inOrder.receive (.prepareMigration kind named) ⟨atRest.idle, active⟩
  exact ⟨prepared.afterRanges ranges, (Agrees.refl _).afterRanges_left ranges⟩

theorem AtRest.joining_swept_between (atRest : locator.AtRest) (named : List Address)
    (ranges : List (Point × Point)) :
    let swept := (locator.prepare .join named).afterRanges ranges
    (∀ placement ∈ locator.ring, placement ∈ swept.ring) ∧
    ∀ placement ∈ swept.ring,
      placement ∈ locator.layout.ring (locator.nodes.toList ++ named) := by
  intro swept
  rcases atRest.swept_inOrder .join named nofun ranges with ⟨inOrder, agrees⟩
  have bounds := inOrder.joining_bounds (agrees.kind?.trans prepare_kind?)
  rw [agrees.layout, agrees.nodes, agrees.moving] at bounds
  constructor
  · intro placement live
    rcases atRest.mem_ring_iff.mp live with ⟨active, places⟩
    exact bounds.1 placement (Layout.mem_ring_iff.mpr ⟨active, places⟩)
  · intro placement live
    rcases bounds.2 placement live with ⟨places, active | moving⟩
    · exact Layout.mem_ring_iff.mpr ⟨List.mem_append_left named active, places⟩
    · have joining := (mem_moving_prepare.mp moving).1
      exact Layout.mem_ring_iff.mpr ⟨List.mem_append_right _ joining, places⟩

theorem AtRest.leaving_swept_between (atRest : locator.AtRest) {named : List Address}
    (active : ∀ node ∈ named, node ∈ locator.nodes) (ranges : List (Point × Point)) :
    let swept := (locator.prepare .leave named).afterRanges ranges
    (∀ placement ∈ locator.layout.ring (locator.nodes.toList.filter fun node => node ∉ named),
      placement ∈ swept.ring) ∧
    ∀ placement ∈ swept.ring, placement ∈ locator.ring := by
  intro swept
  rcases atRest.swept_inOrder .leave named (fun _ => active) ranges with ⟨inOrder, agrees⟩
  have complete := inOrder.complete
  have bound := inOrder.leaving_bound (agrees.kind?.trans prepare_kind?)
  rw [agrees.layout, agrees.nodes, agrees.moving] at complete
  rw [agrees.layout, agrees.nodes] at bound
  constructor
  · intro placement member
    rcases Layout.mem_ring_iff.mp member with ⟨remains, places⟩
    have remains := List.mem_filter.mp remains
    apply complete placement places remains.1
    intro moving
    exact of_decide_eq_true remains.2 (mem_moving_prepare.mp moving).1
  · intro placement live
    rw [atRest.ring_eq]
    exact bound placement live

/--
While nodes join, a key stays where it was or is with a joining node, and the latter
only if it would be with one in the ring of all nodes. While nodes leave, a key is
still with a leaving node or where it would be in the ring of those that stay, and it
has moved only if it was with a leaving node.
-/
theorem sweep_moves_no_other_key (atRest : locator.AtRest) (named : List Address)
    (ranges : List (Point × Point)) (hash : Point) :
    let before := locator.ring.owner? hash
    let now := fun kind => ((locator.prepare kind named).afterRanges ranges).ring.owner? hash
    let fresh := fun nodes => (build locator.layout nodes).ring.owner? hash
    ((now .join = before ∨ ∃ node ∈ named, node ∉ locator.nodes ∧ now .join = some node) ∧
      ((∀ node ∈ named, node ∉ locator.nodes →
          fresh (locator.nodes.toList ++ named) ≠ some node) → now .join = before)) ∧
    ((∀ node ∈ named, node ∈ locator.nodes) →
      ((∃ node ∈ named, now .leave = some node) ∨
        now .leave = fresh (locator.nodes.toList.filter fun node => node ∉ named)) ∧
      ((∀ node ∈ named, before ≠ some node) → now .leave = before)) := by
  intro before now fresh
  constructor
  · rcases atRest.joining_swept_between named ranges with ⟨low, high⟩
    have added : ∀ placement ∈ locator.layout.ring (locator.nodes.toList ++ named),
        placement ∉ locator.ring → placement.node ∈ named ∧ placement.node ∉ locator.nodes := by
      intro placement member absent
      rcases Layout.mem_ring_iff.mp member with ⟨listed, places⟩
      have inactive : placement.node ∉ locator.nodes :=
        fun active => absent (atRest.mem_ring_iff.mpr ⟨active, places⟩)
      exact ⟨(List.mem_append.mp listed).resolve_left inactive, inactive⟩
    have between := Ring.owner?_between (fun node => node ∈ named ∧ node ∉ locator.nodes)
      low high added hash
    constructor
    · rcases between.1 with same | ⟨node, ⟨member, inactive⟩, moved⟩
      · exact .inl same
      · exact .inr ⟨node, member, inactive, moved⟩
    · intro elsewhere
      exact (between.2 fun node joining => elsewhere node joining.1 joining.2).1
  · intro active
    rcases atRest.leaving_swept_between active ranges with ⟨low, high⟩
    have added : ∀ placement ∈ locator.ring,
        placement ∉ locator.layout.ring (locator.nodes.toList.filter fun node => node ∉ named) →
          placement.node ∈ named := by
      intro placement live absent
      rcases atRest.mem_ring_iff.mp live with ⟨active, places⟩
      by_contra stays
      apply absent
      exact Layout.mem_ring_iff.mpr ⟨List.mem_filter.mpr ⟨active, decide_eq_true stays⟩, places⟩
    have between := Ring.owner?_between (fun node => node ∈ named) low high added hash
    constructor
    · exact between.1.symm
    · intro elsewhere
      exact (between.2 elsewhere).2

/-- A key goes to the joining node and one stays; a key leaves the leaving node and one waits. -/
theorem keys_moved_by_half_a_sweep :
    let locator := build smallLayout [alpha, beta]
    let joined := (locator.prepare .join [gamma]).afterRanges [(100, 1700000000), (4000000000, 5)]
    let left := (locator.prepare .leave [beta]).afterRanges [(3000000000, 100)]
    locator.AtRest ∧ joined.ring.owner? 1163459187 = some gamma ∧
      joined.ring.owner? 2000000000 = locator.ring.owner? 2000000000 ∧
      left.ring.owner? 4017229430 = some alpha ∧ locator.ring.owner? 4017229430 = some beta ∧
      left.ring.owner? 2100000000 = some beta ∧
      left.ring.owner? 1000000000 = locator.ring.owner? 1000000000 := by
  intro locator joined left
  have atRest : locator.AtRest := .build smallLayout [alpha, beta]
  have active : ∀ node ∈ [beta], node ∈ locator.nodes := by decide +kernel
  have elsewhere : ∀ node ∈ [gamma], node ∉ locator.nodes →
      (build smallLayout (locator.nodes.toList ++ [gamma])).ring.owner? 2000000000 ≠ some node := by
    intro node member _
    rw [List.mem_singleton.mp member]
    decide +kernel
  have staying : ∀ node ∈ [beta], locator.ring.owner? 1000000000 ≠ some node := by decide +kernel
  have stays := (sweep_moves_no_other_key atRest [gamma] [(100, 1700000000), (4000000000, 5)]
    2000000000).1.2 elsewhere
  have waits := ((sweep_moves_no_other_key atRest [beta] [(3000000000, 100)] 1000000000).2
    active).2 staying
  exact ⟨atRest, by decide +kernel, stays, by decide +kernel, by decide +kernel, by decide +kernel,
    waits⟩

end ClusterRing.Locator
