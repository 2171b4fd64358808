import ClusterRing.Locator.Report
import ClusterRing.Proofs.Locator.Convergence
import ClusterRing.Proofs.Ring.Ownership
import ClusterRing.Proofs.Sorting

/-!
# Balance reports account for everything

A report has one row for each node that is active or moving. A leaving node is both, so the
rows are the sorted list of all these nodes without its repetitions
(`OrderedSet.toList_union_eq_sortedOnce`). In an orderly run such a node owns each of its points
exactly once, live or staged (`Coherent.pointsOf_append_perm`), and whoever answers for a point
of the circle has a row (`Coherent.mem_reported_of_owner?`), so that no point is left out.
-/

namespace ClusterRing

open Std

namespace Locator

variable {locator : Locator} {node : Address} {layout : Layout}

/-- The nodes that a report has rows for, one after the other. -/
def reported (locator : Locator) : List Address :=
  locator.inspect.map (·.node)

theorem reported_eq : locator.reported = (locator.nodes ∪ locator.moving).toList := by
  rw [reported, inspect, List.map_map]
  exact List.map_id _

theorem mem_reported : node ∈ locator.reported ↔ node ∈ locator.nodes ∨ node ∈ locator.moving := by
  rw [reported_eq, OrderedSet.mem_toList, OrderedSet.mem_union]

theorem nodup_reported : locator.reported.Nodup := by
  rw [reported_eq]
  exact OrderedSet.nodup_toList _

theorem pairwise_reported :
    locator.reported.Pairwise fun earlier later => earlier.text < later.text := by
  rw [reported_eq]
  refine (OrderedSet.ascending _).imp ?_
  intro earlier later lower
  exact compareOfLessAndEq_eq_lt.mp lower

namespace Coherent

theorem owned_iff {placement : Placement} (coherent : locator.Coherent)
    (listed : placement.node ∈ locator.reported) : locator.layout.Places placement ↔
      placement ∈ locator.ring ∨ placement ∈ locator.staging := by
  refine ⟨?_, coherent.places placement⟩
  intro places
  by_cases moving : placement.node ∈ locator.moving
  · exact coherent.live_or_staged places moving
  · have active := (mem_reported.mp listed).resolve_right moving
    exact .inl (coherent.complete placement places active moving)

theorem not_live_of_staged {placement : Placement} (coherent : locator.Coherent)
    (staged : placement ∈ locator.staging) : placement ∉ locator.ring :=
  coherent.not_live placement staged (coherent.staged_moving placement staged)

/-- The live points of a node and its staged ones are the points of its layout. -/
theorem pointsOf_append_perm (coherent : locator.Coherent) (listed : node ∈ locator.reported) :
    (locator.ring.pointsOf node ++ locator.staging.pointsOf node).Perm
      (locator.layout.points node).toList := by
  have once : (locator.ring.pointsOf node ++ locator.staging.pointsOf node).Nodup := by
    apply List.Nodup.append
    · exact OrderedSet.nodup_of_ascending (Ring.ascending_pointsOf _ _)
    · exact OrderedSet.nodup_of_ascending (Ring.ascending_pointsOf _ _)
    · intro point live staged
      exact coherent.not_live_of_staged (Ring.mem_pointsOf.mp staged) (Ring.mem_pointsOf.mp live)
  rw [List.perm_ext_iff_of_nodup once (OrderedSet.nodup_toList _)]
  intro point
  rw [List.mem_append, Ring.mem_pointsOf, Ring.mem_pointsOf]
  exact (coherent.owned_iff listed).symm

theorem mem_reported_of_owner? {hash : Point} (coherent : locator.Coherent)
    (found : locator.ring.owner? hash = some node) : node ∈ locator.reported := by
  rcases Ring.exists_mem_of_owner? found with ⟨placement, live, rfl⟩
  exact mem_reported.mpr ((coherent.knows_owners placement live).imp_right And.right)

end Coherent

/--
In an orderly run a report has one row for each node that is active or moving, in the order of
their texts. They are the nodes of both sets, put together in any order, sorted and rid of
repetitions. The live and the staged points of a row are as many as its node has, its span is
the one that the live ring is tallied with, and the spans make up the circle unless the ring is
empty.
-/
theorem inspect_accounts_for_all (reachable : Reachable Orderly layout locator) :
    locator.reported.Pairwise (fun earlier later => earlier.text < later.text) ∧
    (∀ node, locator.reported.count node =
      if node ∈ locator.nodes ∨ node ∈ locator.moving then 1 else 0) ∧
    (∀ found : List Address, (∀ node, node ∈ found ↔ node ∈ locator.moving) →
      locator.reported = sortedOnce (locator.nodes.toList ++ found)) ∧
    (∀ row ∈ locator.inspect, row.points + row.staged = (layout.points row.node).size ∧
      row.span = (locator.ring.ownership.lookup row.node).getD 0) ∧
    (locator.ring ≠ ∅ → (locator.inspect.map (·.span)).sum = circleSize) := by
  have coherent := reachable.inOrder.toCoherent
  refine ⟨pairwise_reported, ?_, ?_, ?_, ?_⟩
  · intro node
    simp only [nodup_reported.count, mem_reported]
  · intro found lists
    rw [reported_eq]
    exact OrderedSet.toList_union_eq_sortedOnce lists
  · intro row member
    have listed : row.node ∈ locator.reported := List.mem_map.mpr ⟨row, member, rfl⟩
    rcases List.mem_map.mp member with ⟨node, -, rfl⟩
    have points := (coherent.pointsOf_append_perm listed).length_eq
    rw [List.length_append, reachable.layout_eq] at points
    exact ⟨points, (Ring.lookup_ownership _ _).symm⟩
  · intro occupied
    have spans : locator.inspect.map (·.span) = locator.reported.map locator.ring.span := by
      simp [reported, inspect]
    rw [spans]
    exact Ring.sum_span nodup_reported occupied fun hash node => coherent.mem_reported_of_owner?

/-- A leaving node is active and moving, and has points in both rings. -/
theorem report_halfway_through_leave :
    let locator := (build smallLayout [gamma, beta, alpha]).after
      [.prepareMigration .leave [beta], .rangeApplied 1000000000 3000000000]
    Reachable Orderly smallLayout locator ∧ locator.ring ≠ ∅ ∧ beta ∈ locator.nodes ∧
      (locator.inspect.map fun row => (row.node, row.points, row.staged)) =
        [(alpha, 4, 0), (beta, 1, 3), (gamma, 4, 0)] ∧
      (∀ row ∈ locator.inspect, row.points + row.staged = (smallLayout.points row.node).size) ∧
      locator.reported = sortedOnce (locator.nodes.toList ++ [beta]) ∧
      (locator.inspect.map (·.span)).sum = circleSize := by
  intro locator
  have reachable : Reachable Orderly smallLayout locator := ⟨_, _, by decide +kernel, rfl⟩
  have moving : locator.moving.toList = [beta] := by decide +kernel
  have occupied : locator.ring ≠ ∅ := by decide +kernel
  rcases inspect_accounts_for_all reachable with ⟨-, -, sorted, complete, circle⟩
  refine ⟨reachable, occupied, by decide +kernel, by decide +kernel, ?_, ?_, circle occupied⟩
  · intro row member
    exact (complete row member).1
  · apply sorted [beta]
    intro node
    rw [← moving, OrderedSet.mem_toList]

end Locator

end ClusterRing
