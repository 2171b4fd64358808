import ClusterRing.OrderedMap
import ClusterRing.Ring.Basic
import Mathlib.Data.Set.Card

/-!
# Owners grouped by point

The occupied points of a ring are listed in order, each with its owners
(`grouping_byPoint`). There is one such list for a set of placements
(`Grouping.unique`), with one group for each occupied point (`Grouping.length_eq`).
-/

namespace ClusterRing.Ring

open Std

variable {ring : Ring} {placement other : Placement} {groups : List (Point × List Address)}
variable {owned : Set Placement}

/-- A group lists a placement under its point. -/
def Lists (groups : List (Point × List Address)) (placement : Placement) : Prop :=
  ∃ owners, (placement.point, owners) ∈ groups ∧ placement.node ∈ owners

/-- The points of a set of placements in order, each with its owners in text order. -/
structure Grouping (owned : Set Placement) (groups : List (Point × List Address)) : Prop where
  points_ascending : groups.Pairwise fun earlier later => earlier.1 < later.1
  owners_ascending : ∀ group ∈ groups, Ascending group.2
  /-- No point is listed without an owner. -/
  nonempty : ∀ group ∈ groups, group.2 ≠ []
  lists_iff : ∀ placement, Lists groups placement ↔ placement ∈ owned

theorem Grouping.owned_of_mem (grouping : Grouping owned groups) {point : Point}
    {owners : List Address} (listed : (point, owners) ∈ groups) {node : Address}
    (member : node ∈ owners) : ⟨point, node⟩ ∈ owned :=
  (grouping.lists_iff ⟨point, node⟩).mp ⟨owners, listed, member⟩

theorem Grouping.nil : Grouping ∅ [] where
  points_ascending := .nil
  owners_ascending := by simp
  nonempty := by simp
  lists_iff := by simp [Lists]

theorem lists_cons_iff {point : Point} {nodes : List Address} :
    Lists ((point, nodes) :: groups) other ↔
      other.point = point ∧ other.node ∈ nodes ∨ Lists groups other := by
  simp [Lists, or_and_right, exists_or, and_assoc]

theorem lists_addToGroups_iff :
    Lists (addToGroups placement groups) other ↔ other = placement ∨ Lists groups other := by
  have same : other = placement ↔ other.point = placement.point ∧ other.node = placement.node := by
    cases other
    cases placement
    simp
  cases groups with
  | nil => simp [addToGroups, same, Lists]
  | cons head rest =>
      rcases head with ⟨point, nodes⟩
      rw [addToGroups]
      split
      · next here =>
          simp [lists_cons_iff, same, here, and_or_left, or_assoc]
      · next apart =>
          simp [lists_cons_iff, same]

/-- A placement that comes before all others is added in front. -/
theorem Grouping.addToGroups (grouping : Grouping owned groups)
    (first : ∀ other ∈ owned, compare placement other = .lt) :
    Grouping (insert placement owned) (addToGroups placement groups) := by
  have below : ∀ group ∈ groups, ∀ node ∈ group.2, placement.point < group.1 ∨
      placement.point = group.1 ∧ compare placement.node node = .lt := by
    intro group member node listed
    exact Placement.lt_cases (first _ (grouping.owned_of_mem member listed))
  have lists_iff : ∀ other, Lists (Ring.addToGroups placement groups) other ↔
      other ∈ insert placement owned := by
    intro other
    rw [lists_addToGroups_iff, grouping.lists_iff, Set.mem_insert_iff]
  cases groups with
  | nil =>
      exact ⟨by simp [Ring.addToGroups], by simp [Ring.addToGroups, Ascending],
        by simp [Ring.addToGroups], lists_iff⟩
  | cons head rest =>
      rcases head with ⟨point, nodes⟩
      rcases List.pairwise_cons.mp grouping.points_ascending with ⟨after, ascending⟩
      rcases List.forall_mem_cons.mp grouping.owners_ascending with ⟨inOrder, restInOrder⟩
      rcases List.forall_mem_cons.mp grouping.nonempty with ⟨occupied, restOccupied⟩
      have belowHead := below (point, nodes) (by simp)
      rw [Ring.addToGroups] at lists_iff ⊢
      split at lists_iff
      · next here =>
          rw [if_pos here]
          refine ⟨List.pairwise_cons.mpr ⟨after, ascending⟩, ?_, ?_, lists_iff⟩
          · refine List.forall_mem_cons.mpr ⟨List.pairwise_cons.mpr ⟨?_, inOrder⟩, restInOrder⟩
            intro node listed
            rcases belowHead node listed with lower | ⟨-, before⟩
            · exact absurd here (UInt32.ne_of_lt lower)
            · exact before
          · exact List.forall_mem_cons.mpr ⟨by simp, restOccupied⟩
      · next apart =>
          rw [if_neg apart]
          have lower : placement.point < point := by
            rcases List.exists_mem_of_ne_nil nodes occupied with ⟨node, listed⟩
            rcases belowHead node listed with lower | ⟨here, -⟩
            · exact lower
            · exact absurd here apart
          refine ⟨List.pairwise_cons.mpr ⟨?_, grouping.points_ascending⟩, ?_, ?_, lists_iff⟩
          · refine List.forall_mem_cons.mpr ⟨lower, ?_⟩
            intro group member
            exact UInt32.lt_trans lower (after group member)
          · exact List.forall_mem_cons.mpr ⟨List.pairwise_singleton _ _, grouping.owners_ascending⟩
          · exact List.forall_mem_cons.mpr ⟨by simp, grouping.nonempty⟩

theorem grouping_foldr {placements : List Placement} (ascending : Ascending placements) :
    Grouping {placement | placement ∈ placements} (placements.foldr Ring.addToGroups []) := by
  induction placements with
  | nil => simpa using Grouping.nil
  | cons placement rest ih =>
      rcases List.pairwise_cons.mp ascending with ⟨first, ascending⟩
      rw [List.foldr_cons]
      convert (ih ascending).addToGroups first using 1
      ext other
      simp

/-- The groups of a ring list its placements. -/
theorem grouping_byPoint (ring : Ring) : Grouping {placement | placement ∈ ring} ring.byPoint :=
  grouping_foldr ring.ascending

/-- Every listed point has an owner, and all nodes that are listed there own it. -/
theorem owners_of_mem_byPoint {point : Point} {owners : List Address}
    (listed : (point, owners) ∈ ring.byPoint) :
    owners ≠ [] ∧ ∀ node ∈ owners, ⟨point, node⟩ ∈ ring := by
  have grouping := grouping_byPoint ring
  exact ⟨grouping.nonempty _ listed, fun node member => grouping.owned_of_mem listed member⟩

/-- Every owner of a point is listed there. -/
theorem exists_mem_byPoint {point : Point} {node : Address} (owned : ⟨point, node⟩ ∈ ring) :
    ∃ owners, (point, owners) ∈ ring.byPoint ∧ node ∈ owners :=
  ((grouping_byPoint ring).lists_iff ⟨point, node⟩).mpr owned

/-! ### One grouping for each set -/

/-- The groups as a map from points to owners. -/
def Grouping.toMap (grouping : Grouping owned groups) : OrderedMap Point (List Address) where
  entries := groups
  ascending := grouping.points_ascending.imp Std.compare_eq_lt.mpr

theorem Grouping.mem_iff_owned (grouping : Grouping owned groups) {point : Point}
    {owners : List Address} (listed : (point, owners) ∈ groups) {node : Address} :
    node ∈ owners ↔ ⟨point, node⟩ ∈ owned := by
  refine ⟨grouping.owned_of_mem listed, fun held => ?_⟩
  rcases (grouping.lists_iff ⟨point, node⟩).mpr held with ⟨others, again, member⟩
  rwa [grouping.toMap.value_unique listed again]

theorem Grouping.mem_of_mem {more : List (Point × List Address)} (grouping : Grouping owned groups)
    (again : Grouping owned more) {group : Point × List Address} (listed : group ∈ groups) :
    group ∈ more := by
  rcases group with ⟨point, owners⟩
  rcases List.exists_mem_of_ne_nil owners (grouping.nonempty _ listed) with ⟨node, member⟩
  have held := (grouping.mem_iff_owned listed).mp member
  rcases (again.lists_iff ⟨point, node⟩).mpr held with ⟨others, found, -⟩
  have same : owners = others :=
    OrderedSet.eq_of_ascending (grouping.owners_ascending _ listed) (again.owners_ascending _ found)
      fun other => (grouping.mem_iff_owned listed).trans (again.mem_iff_owned found).symm
  rwa [same]

/-- A set of placements has one grouping. -/
theorem Grouping.unique {more : List (Point × List Address)} (grouping : Grouping owned groups)
    (again : Grouping owned more) : groups = more := by
  have same : grouping.toMap = again.toMap :=
    OrderedMap.ext fun group => ⟨grouping.mem_of_mem again, again.mem_of_mem grouping⟩
  exact congrArg OrderedMap.entries same

/-- There is one group for each occupied point. -/
theorem Grouping.length_eq (grouping : Grouping owned groups) :
    groups.length = {point | ∃ node, (⟨point, node⟩ : Placement) ∈ owned}.ncard := by
  have nodup : (groups.map Prod.fst).Nodup :=
    List.pairwise_map.mpr grouping.toMap.keys_apart
  have occupied : {point | ∃ node, (⟨point, node⟩ : Placement) ∈ owned} =
      ((groups.map Prod.fst).toFinset : Set Point) := by
    ext point
    simp
    constructor
    · rintro ⟨node, held⟩
      rcases (grouping.lists_iff ⟨point, node⟩).mpr held with ⟨owners, listed, -⟩
      exact ⟨owners, listed⟩
    · rintro ⟨owners, listed⟩
      rcases List.exists_mem_of_ne_nil owners (grouping.nonempty _ listed) with ⟨node, member⟩
      exact ⟨node, grouping.owned_of_mem listed member⟩
  rw [occupied, Set.ncard_coe_finset, List.toFinset_card_of_nodup nodup, List.length_map]

end ClusterRing.Ring
