import ClusterRing.Proofs.Ring.Lookup
import ClusterRing.Proofs.Ring.OwnerMap

/-!
# Rings as sets of placements

What a ring does is a matter of the set of placements that it stands for. An
operation changes the set (`effect`), and the set determines the answer
(`Right.unique`). A map of owner sets and a ring go through the same sets with each
operation (`holds_onMap`, `members_onRing`) and give the right answers (`right_onMap`,
`right_onRing`), so they answer alike.
-/

namespace ClusterRing.Ring

open Std
open OwnerMap (placed)

/-- What can be done with a ring. -/
inductive Operation where
  | place (placement : Placement)
  | displace (placement : Placement)
  | merge (point : Point) (nodes : AddressSet)
  | takeRange (interval : Interval)
  | takeOwners (interval : Interval) (keep : Address → Bool)
  | clear
  | contains (placement : Placement)
  | pointsOf (node : Address)
  | count
  | owner (origin : Point)

namespace Operation

/-- The kind of answer to an operation. -/
def Answer : Operation → Type
  | place _ | displace _ | contains _ => Bool
  | merge .. | clear => Unit
  | takeRange _ => List (Point × List Address)
  | takeOwners .. => List Placement
  | pointsOf _ => List Point
  | count => Nat
  | owner _ => Option Address

/-- Carries out an operation on a map of owner sets. -/
def onMap (map : OwnerMap) : (operation : Operation) → operation.Answer × OwnerMap
  | place placement => map.place placement
  | displace placement => map.displace placement
  | merge point nodes => ((), map.merge point nodes)
  | takeRange interval =>
    let taking := map.takeRange interval
    (taking.1.map fun (point, owners) => (point, owners.toList), taking.2)
  | takeOwners interval keep => map.takeOwners interval keep
  | clear => ((), ∅)
  | contains placement => (map.contains placement, map)
  | pointsOf node => (map.pointsOf node, map)
  | count => (map.size, map)
  | owner origin => (map.owner? origin, map)

/-- Carries out an operation on a ring. -/
def onRing (ring : Ring) : (operation : Operation) → operation.Answer × Ring
  | place placement => ring.place placement
  | displace placement => ring.displace placement
  | merge point nodes => ((), ring.merge point nodes)
  | takeRange interval =>
    let taking := ring.takeRange [interval]
    (taking.1.byPoint, taking.2)
  | takeOwners interval keep =>
    let taking := ring.takeOwners [interval] keep
    (taking.1.toList, taking.2)
  | clear => ((), ∅)
  | contains placement => (decide (placement ∈ ring), ring)
  | pointsOf node => (ring.pointsOf node, ring)
  | count => (ring.pointCount, ring)
  | owner origin => (ring.owner? origin, ring)

/-- What an operation does to a set of placements. -/
def effect (owned : Set Placement) (operation : Operation) : Set Placement :=
  match operation with
  | place placement => insert placement owned
  | displace placement => owned \ {placement}
  | merge point nodes => owned ∪ {placement | placement.point = point ∧ placement.node ∈ nodes}
  | takeRange interval => {placement ∈ owned | interval.contains placement.point = false}
  | takeOwners interval keep =>
    {placement ∈ owned | ¬(interval.contains placement.point = true ∧ keep placement.node = false)}
  | clear => ∅
  | contains _ | pointsOf _ | count | owner _ => owned

/-- The right answer to an operation on a set of placements. -/
def Right (owned : Set Placement) : (operation : Operation) → operation.Answer → Prop
  | place placement, (new : Bool) => new = true ↔ placement ∉ owned
  | displace placement, (present : Bool) => present = true ↔ placement ∈ owned
  | merge .., _ => True
  | takeRange interval, taken =>
    Grouping {placement ∈ owned | interval.contains placement.point = true} taken
  | takeOwners interval keep, (taken : List Placement) =>
    Ascending taken ∧ ∀ placement, placement ∈ taken ↔
      placement ∈ owned ∧ interval.contains placement.point = true ∧ keep placement.node = false
  | clear, _ => True
  | contains placement, (present : Bool) => present = true ↔ placement ∈ owned
  | pointsOf node, (points : List Point) =>
    Ascending points ∧ ∀ point, point ∈ points ↔ ⟨point, node⟩ ∈ owned
  | count, (number : Nat) =>
    number = {point | ∃ node, (⟨point, node⟩ : Placement) ∈ owned}.ncard
  | owner _, none => owned = ∅
  | owner origin, some node =>
    ∃ point, ⟨point, node⟩ ∈ owned ∧
      (∀ other ∈ owned, (point - origin).toNat ≤ (other.point - origin).toNat) ∧
      ∀ other, ⟨point, other⟩ ∈ owned → node.text ≤ other.text

variable {owned : Set Placement} {operation : Operation}

theorem eq_of_sub_le {origin left right : Point}
    (le : (left - origin).toNat ≤ (right - origin).toNat)
    (ge : (right - origin).toNat ≤ (left - origin).toNat) : left = right := by
  have originBound := origin.toNat_lt
  have leftBound := left.toNat_lt
  have rightBound := right.toNat_lt
  rw [UInt32.toNat_sub, UInt32.toNat_sub] at le ge
  apply UInt32.toNat.inj
  omega

/-- There is one right answer. -/
theorem Right.unique {answer other : operation.Answer} (right : operation.Right owned answer)
    (alike : operation.Right owned other) : answer = other := by
  cases operation with
  | place placement | displace placement | contains placement =>
      exact Bool.eq_iff_iff.mpr (Iff.trans right (Iff.symm alike))
  | merge point nodes | clear => rfl
  | takeRange interval => exact Grouping.unique right alike
  | takeOwners interval keep | pointsOf node =>
      exact OrderedSet.eq_of_ascending right.1 alike.1 fun member =>
        (right.2 member).trans (alike.2 member).symm
  | count => exact Eq.trans right (Eq.symm alike)
  | owner origin =>
      cases answer with
      | none =>
          cases other with
          | none => rfl
          | some node =>
              rcases alike with ⟨point, held, -, -⟩
              exact absurd held (right ▸ Set.notMem_empty _)
      | some node =>
          rcases right with ⟨point, held, nearest, least⟩
          cases other with
          | none => exact absurd held (alike ▸ Set.notMem_empty _)
          | some another =>
              rcases alike with ⟨second, heldToo, nearestToo, leastToo⟩
              obtain rfl : point = second :=
                eq_of_sub_le (nearest _ heldToo) (nearestToo _ held)
              have same := String.le_antisymm (least _ heldToo) (leastToo _ held)
              rw [Address.text_injective same]

/-! ### Maps -/

variable {map : OwnerMap} {assigned : Point → AddressSet}

theorem right_onMap (holds : map.Holds assigned) (operation : Operation) :
    operation.Right (placed assigned) (operation.onMap map).1 := by
  cases operation with
  | place placement => simp [onMap, OwnerMap.place, holds.ownersAt, Right]
  | displace placement => exact holds.displace_fst_iff
  | merge point nodes | clear => trivial
  | takeRange interval =>
      have grouping := (holds.within interval).grouping
      have inside : (placed fun point => if interval.contains point then assigned point else ∅) =
          {placement ∈ placed assigned | interval.contains placement.point = true} := by
        ext placement
        by_cases within : interval.contains placement.point = true <;> simp [within]
      rw [inside] at grouping
      change Grouping _ ((map.takeRange interval).1.map _)
      rw [OwnerMap.taken_takeRange]
      exact grouping
  | takeOwners interval keep =>
      exact ⟨map.ascending_takeOwners interval keep, fun placement => holds.mem_takeOwners⟩
  | contains placement => exact holds.contains_iff
  | pointsOf node => exact ⟨map.ascending_pointsOf node, fun point => holds.mem_pointsOf⟩
  | count =>
      have size : map.size = map.groups.length := by simp [OrderedMap.size, OwnerMap.groups]
      exact size.trans holds.grouping.length_eq
  | owner origin =>
      simp only [onMap]
      cases found : map.owner? origin with
      | none =>
          refine Set.eq_empty_of_forall_notMem fun placement => ?_
          simp [holds.eq_empty_of_owner? found placement.point]
      | some node =>
          rcases holds.nearest_of_owner? found with ⟨point, held, nearest, least⟩
          exact ⟨point, held, fun other member =>
            nearest other.point (OwnerMap.ne_empty_of_mem member), least⟩

theorem holds_onMap (holds : map.Holds assigned) (operation : Operation) :
    ∃ next, (operation.onMap map).2.Holds next ∧
      placed next = effect (placed assigned) operation := by
  cases operation with
  | place placement =>
      rcases placement with ⟨point, node⟩
      refine ⟨_, holds.place ⟨point, node⟩, ?_⟩
      ext ⟨other, owner⟩
      by_cases here : other = point <;> simp [effect, here]
  | displace placement =>
      rcases placement with ⟨point, node⟩
      refine ⟨_, holds.displace ⟨point, node⟩, ?_⟩
      ext ⟨other, owner⟩
      by_cases here : other = point <;> simp [effect, here]
  | merge point nodes =>
      refine ⟨_, holds.merge point nodes, ?_⟩
      ext ⟨other, owner⟩
      by_cases here : other = point <;> simp [effect, here]
  | takeRange interval =>
      refine ⟨_, holds.takeRange interval, ?_⟩
      ext ⟨other, owner⟩
      by_cases inside : interval.contains other = true <;> simp [effect, inside]
  | takeOwners interval keep =>
      refine ⟨_, holds.takeOwners interval keep, ?_⟩
      ext ⟨other, owner⟩
      by_cases inside : interval.contains other = true <;> simp [effect, inside]
  | clear =>
      refine ⟨_, OwnerMap.holds_empty, ?_⟩
      ext other
      simp [effect]
  | contains _ | pointsOf _ | count | owner _ => exact ⟨assigned, holds, rfl⟩

/-! ### Rings -/

variable {ring : Ring}

/-- The placements of a ring as a set. -/
def members (ring : Ring) : Set Placement :=
  {placement | placement ∈ ring}

theorem right_onRing (ring : Ring) (operation : Operation) :
    operation.Right (members ring) (operation.onRing ring).1 := by
  cases operation with
  | place placement => simp [onRing, Ring.place, Right, members]
  | displace placement => simp [onRing, Ring.displace, Right, members]
  | merge point nodes | clear => trivial
  | takeRange interval =>
      have grouping := grouping_byPoint (ring.takeRange [interval]).1
      simp only [Ring.takeRange, inRange, OrderedSet.mem_filter] at grouping
      simpa [onRing, Right, Ring.takeRange, inRange, members] using grouping
  | takeOwners interval keep =>
      refine ⟨(ring.takeOwners [interval] keep).1.ascending, fun placement => ?_⟩
      change placement ∈ (ring.takeOwners [interval] keep).1 ↔ _
      simp [Ring.takeOwners, inRange, members]
  | contains placement => simp [onRing, Right, members]
  | pointsOf node => exact ⟨ascending_pointsOf ring node, fun point => mem_pointsOf⟩
  | count => exact (grouping_byPoint ring).length_eq
  | owner origin =>
      simp only [onRing]
      cases located : ring.locate? origin with
      | none =>
          rw [owner?_eq_none located]
          exact Set.eq_empty_of_forall_notMem (locate?_eq_none_iff.mp located)
      | some placement =>
          rw [owner?_eq_some located]
          rcases locate?_nearest located with ⟨held, nearest⟩
          refine ⟨placement.point, held, fun other member => ?_, fun other member => ?_⟩
          · rcases nearest other member with nearer | ⟨same, -⟩
            · omega
            · rw [same]
          · rcases nearest _ member with nearer | ⟨-, before⟩
            · exact absurd nearer (Nat.lt_irrefl _)
            · exact Address.text_le_of_isLE before

theorem members_onRing (ring : Ring) (operation : Operation) :
    members (operation.onRing ring).2 = effect (members ring) operation := by
  ext ⟨other, owner⟩
  cases operation with
  | place placement => simp [onRing, Ring.place, effect, members]
  | displace placement => simp [onRing, Ring.displace, effect, members]
  | merge point nodes =>
      simp [onRing, Ring.merge, effect, members, OrderedSet.mem_toList, and_comm, eq_comm]
  | takeRange interval => simp [onRing, Ring.takeRange, inRange, effect, members]
  | takeOwners interval keep =>
      cases rejected : keep owner <;>
        simp [onRing, Ring.takeOwners, inRange, effect, members, rejected]
  | clear => simp [onRing, effect, members]
  | contains _ | pointsOf _ | count | owner _ => rfl

/-! ### Runs -/

/-- The set of placements after operations, from the empty set on. -/
def outcome (past : List Operation) : Set Placement :=
  past.foldl effect ∅

/-- The map of owner sets after operations, from the empty map on. -/
def mapAfter (past : List Operation) : OwnerMap :=
  past.foldl (fun map operation => (operation.onMap map).2) ∅

/-- The ring after operations, from the empty ring on. -/
def ringAfter (past : List Operation) : Ring :=
  past.foldl (fun ring operation => (operation.onRing ring).2) ∅

theorem holds_foldl (holds : map.Holds assigned) (past : List Operation) :
    ∃ next, (past.foldl (fun map operation => (operation.onMap map).2) map).Holds next ∧
      placed next = past.foldl effect (placed assigned) := by
  induction past generalizing map assigned with
  | nil => exact ⟨assigned, holds, rfl⟩
  | cons operation rest ih =>
      rcases holds_onMap holds operation with ⟨next, nextHolds, same⟩
      rw [List.foldl_cons, List.foldl_cons, ← same]
      exact ih nextHolds

theorem members_foldl (ring : Ring) (past : List Operation) :
    members (past.foldl (fun ring operation => (operation.onRing ring).2) ring) =
      past.foldl effect (members ring) := by
  induction past generalizing ring with
  | nil => rfl
  | cons operation rest ih =>
      rw [List.foldl_cons, List.foldl_cons, ih, members_onRing]

theorem exists_holds_mapAfter (past : List Operation) :
    ∃ assigned, (mapAfter past).Holds assigned ∧ placed assigned = outcome past := by
  have nothing : placed (fun _ => ∅) = ∅ := by
    ext placement
    simp
  rcases holds_foldl OwnerMap.holds_empty past with ⟨assigned, holds, same⟩
  rw [nothing] at same
  exact ⟨assigned, holds, same⟩

theorem members_ringAfter (past : List Operation) : members (ringAfter past) = outcome past := by
  have empty : members (∅ : Ring) = ∅ := Set.eq_empty_of_forall_notMem OrderedSet.not_mem_empty
  rw [ringAfter, members_foldl, empty]
  rfl

theorem grouping_mapAfter (past : List Operation) :
    Grouping (outcome past) (mapAfter past).groups := by
  rcases exists_holds_mapAfter past with ⟨assigned, holds, same⟩
  exact same ▸ holds.grouping

theorem right_mapAfter (past : List Operation) (next : Operation) :
    next.Right (outcome past) (next.onMap (mapAfter past)).1 := by
  rcases exists_holds_mapAfter past with ⟨assigned, holds, same⟩
  exact same ▸ right_onMap holds next

theorem byPoint_ringAfter (past : List Operation) :
    (ringAfter past).byPoint = (mapAfter past).groups := by
  have grouping := grouping_byPoint (ringAfter past)
  change Grouping (members (ringAfter past)) _ at grouping
  rw [members_ringAfter] at grouping
  exact grouping.unique (grouping_mapAfter past)

theorem answer_ringAfter (past : List Operation) (next : Operation) :
    (next.onRing (ringAfter past)).1 = (next.onMap (mapAfter past)).1 := by
  have right := right_onRing (ringAfter past) next
  rw [members_ringAfter] at right
  exact right.unique (right_mapAfter past next)

/--
After any operations, the groups of a map of owner sets list the set of placements that the
operations make of the empty set, and no point without owners. Whatever is done next, the
map gives the one right answer for this set. A ring has the same placements, the same groups
and the same answers.
-/
theorem operations_refine_set (past : List Operation) (next : Operation) :
    Grouping (outcome past) (mapAfter past).groups ∧
      next.Right (outcome past) (next.onMap (mapAfter past)).1 ∧
      (∀ placement, placement ∈ ringAfter past ↔ placement ∈ outcome past) ∧
      (ringAfter past).byPoint = (mapAfter past).groups ∧
      (next.onRing (ringAfter past)).1 = (next.onMap (mapAfter past)).1 :=
  ⟨grouping_mapAfter past, right_mapAfter past next, Set.ext_iff.mp (members_ringAfter past),
    byPoint_ringAfter past, answer_ringAfter past next⟩

end Operation

end ClusterRing.Ring
