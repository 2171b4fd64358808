import ClusterRing.Ring.Basic
import Mathlib.Tactic.ByContra

/-!
# Which placement a lookup finds

A lookup walks the placements in order and starts over at the first when it has
passed the last. So it finds the placement that is nearest clockwise from where
it looks, and among the owners of one point the first in text order
(`locate?_nearest`). When a ring changes, an answer that is given by no node with
losses before and by none with gains after is the same as before
(`Exchange.owner?_eq`). So in between two rings it can only change to a node that is
in the bigger one alone (`owner?_between`).
-/

namespace ClusterRing

open Std

/--
From an origin, a placement is found before another: its point is nearer clockwise,
or it is the same point and the node comes first in text order.
-/
def Placement.Precedes (origin : Point) (placement other : Placement) : Prop :=
  (placement.point - origin).toNat < (other.point - origin).toNat ∨
    placement.point = other.point ∧ (compare placement.node other.node).isLE = true

namespace Placement

variable {origin : Point} {placement other : Placement}

theorem Precedes.refl : Precedes origin placement placement :=
  .inr ⟨rfl, by simp⟩

theorem Precedes.antisymm (precedes : Precedes origin placement other)
    (follows : Precedes origin other placement) : placement = other := by
  rcases precedes with nearer | ⟨samePoint, before⟩
  · rcases follows with farther | ⟨samePoint, -⟩
    · omega
    · rw [samePoint] at nearer
      exact absurd nearer (Nat.lt_irrefl _)
  · rcases follows with farther | ⟨-, notBefore⟩
    · rw [samePoint] at farther
      exact absurd farther (Nat.lt_irrefl _)
    · have sameNode := Std.compare_eq_iff_eq.mp (OrientedCmp.isLE_antisymm before notBefore)
      cases placement
      cases other
      simp_all

/-- On one side of the origin, the order of the ring is the order of the walk. -/
theorem Precedes.of_lt (lower : compare placement other = .lt)
    (sameSide : origin ≤ placement.point ∨ other.point < origin) :
    Precedes origin placement other := by
  rcases lt_cases lower with below | ⟨samePoint, before⟩
  · left
    have originBound := origin.toNat_lt
    have placementBound := placement.point.toNat_lt
    have otherBound := other.point.toNat_lt
    simp only [UInt32.lt_iff_toNat_lt, UInt32.le_iff_toNat_le] at below sameSide
    rw [UInt32.toNat_sub, UInt32.toNat_sub]
    omega
  · exact .inr ⟨samePoint, by rw [before]; rfl⟩

/-- What lies at or after the origin is found before what lies below it. -/
theorem Precedes.of_sides (ahead : origin ≤ placement.point) (passed : other.point < origin) :
    Precedes origin placement other := by
  left
  have originBound := origin.toNat_lt
  have placementBound := placement.point.toNat_lt
  simp only [UInt32.lt_iff_toNat_lt, UInt32.le_iff_toNat_le] at ahead passed
  rw [UInt32.toNat_sub, UInt32.toNat_sub]
  omega

end Placement

namespace Ring

variable {ring small middle big : Ring} {origin : Point} {placement : Placement}

theorem locate?_eq_none_iff : ring.locate? origin = none ↔ ∀ placement, placement ∉ ring := by
  rw [locate?, Option.or_eq_none_iff, List.head?_eq_none_iff]
  constructor
  · rintro ⟨-, empty⟩ placement member
    rw [← OrderedSet.mem_toList, empty] at member
    exact List.not_mem_nil member
  · intro absent
    have empty : ring.toList = [] := List.eq_nil_iff_forall_not_mem.mpr absent
    simp [empty]

/-- A lookup finds the placement that comes first clockwise from where it looks. -/
theorem locate?_nearest (located : ring.locate? origin = some placement) :
    placement ∈ ring ∧ ∀ other ∈ ring, Placement.Precedes origin placement other := by
  have ascending := ring.ascending
  rw [locate?, Option.or_eq_some_iff] at located
  rcases located with found | ⟨passedAll, first⟩
  · rcases List.find?_eq_some_iff_append.mp found with ⟨ahead, passed, rest, split, passedBelow⟩
    have ahead : origin ≤ placement.point := of_decide_eq_true ahead
    refine ⟨List.mem_of_find?_eq_some found, ?_⟩
    intro other member
    rw [← OrderedSet.mem_toList, split, List.mem_append, List.mem_cons] at member
    rw [Ascending, split, List.pairwise_append, List.pairwise_cons] at ascending
    rcases member with before | rfl | after
    · have below : other.point < origin := by
        simpa using passedBelow other before
      exact .of_sides ahead below
    · exact .refl
    · exact .of_lt (ascending.2.1.1 other after) (.inl ahead)
  · rcases List.head?_eq_some_iff.mp first with ⟨rest, split⟩
    refine ⟨List.mem_of_mem_head? first, ?_⟩
    intro other member
    have below : other.point < origin := by
      simpa using List.find?_eq_none.mp passedAll other member
    rw [← OrderedSet.mem_toList, split, List.mem_cons] at member
    rw [Ascending, split, List.pairwise_cons] at ascending
    rcases member with rfl | after
    · exact .refl
    · exact .of_lt (ascending.1 other after) (.inr below)

theorem exists_locate? (origin : Point) (member : placement ∈ ring) :
    ∃ found, ring.locate? origin = some found := by
  cases located : ring.locate? origin with
  | none => exact absurd member (locate?_eq_none_iff.mp located placement)
  | some found => exact ⟨found, rfl⟩

theorem owner?_eq_some (located : ring.locate? origin = some placement) :
    ring.owner? origin = some placement.node := by
  rw [owner?, located, Option.map_some]

theorem owner?_eq_none (located : ring.locate? origin = none) : ring.owner? origin = none := by
  rw [owner?, located, Option.map_none]

theorem owner?_eq_none_iff : ring.owner? origin = none ↔ ring = ∅ := by
  rw [owner?, Option.map_eq_none_iff, locate?_eq_none_iff,
    ← OrderedSet.isEmpty_iff_forall_not_mem, OrderedSet.isEmpty_iff]

theorem exists_owner? (occupied : ring ≠ ∅) (origin : Point) :
    ∃ node, ring.owner? origin = some node :=
  Option.ne_none_iff_exists'.mp fun nobody => occupied (owner?_eq_none_iff.mp nobody)

/-- All that one ring loses on the way to another belongs to some nodes, and all that it gains to others. -/
structure Exchange (losing gaining : Address → Prop) (before after : Ring) : Prop where
  kept : ∀ placement ∈ before, ¬losing placement.node → placement ∈ after
  old : ∀ placement ∈ after, ¬gaining placement.node → placement ∈ before

/-- An answer stays unless it is given by a node that loses before or by one that gains after. -/
theorem Exchange.owner?_eq {losing gaining : Address → Prop} {before after : Ring}
    (exchange : Exchange losing gaining before after)
    (notLosing : ∀ node, losing node → before.owner? origin ≠ some node)
    (notGaining : ∀ node, gaining node → after.owner? origin ≠ some node) :
    after.owner? origin = before.owner? origin := by
  have stays {placement : Placement} (located : before.locate? origin = some placement) :
      placement ∈ after := by
    apply exchange.kept placement (locate?_nearest located).1
    intro loses
    exact notLosing placement.node loses (owner?_eq_some located)
  have stood {placement : Placement} (located : after.locate? origin = some placement) :
      placement ∈ before := by
    apply exchange.old placement (locate?_nearest located).1
    intro gains
    exact notGaining placement.node gains (owner?_eq_some located)
  cases locatedBefore : before.locate? origin with
  | none =>
      cases locatedAfter : after.locate? origin with
      | none => rw [owner?_eq_none locatedBefore, owner?_eq_none locatedAfter]
      | some placement =>
          exact absurd (stood locatedAfter) (locate?_eq_none_iff.mp locatedBefore placement)
  | some placement =>
      rcases exists_locate? origin (stays locatedBefore) with ⟨found, locatedAfter⟩
      have precedes := (locate?_nearest locatedBefore).2 found (stood locatedAfter)
      have follows := (locate?_nearest locatedAfter).2 placement (stays locatedBefore)
      rw [owner?_eq_some locatedBefore, owner?_eq_some locatedAfter, precedes.antisymm follows]

/--
A ring that lies between a smaller and a bigger one answers like the smaller one or
with a node that has placements in the bigger one alone. If the bigger one does not
answer with such a node, all three answer alike.
-/
theorem owner?_between (new : Address → Prop) (low : ∀ placement ∈ small, placement ∈ middle)
    (high : ∀ placement ∈ middle, placement ∈ big)
    (added : ∀ placement ∈ big, placement ∉ small → new placement.node) (origin : Point) :
    (middle.owner? origin = small.owner? origin ∨
      ∃ node, new node ∧ middle.owner? origin = some node) ∧
    ((∀ node, new node → big.owner? origin ≠ some node) →
      middle.owner? origin = small.owner? origin ∧
        middle.owner? origin = big.owner? origin) := by
  have old {placement : Placement} (member : placement ∈ big) (notNew : ¬new placement.node) :
      placement ∈ small := by
    by_contra absent
    exact notNew (added placement member absent)
  have nobody (ring : Ring) (node : Address) : False → ring.owner? origin ≠ some node := False.elim
  have grows : Exchange (fun _ => False) new small middle :=
    ⟨fun placement member _ => low placement member,
      fun placement member notNew => old (high placement member) notNew⟩
  have shrinks : Exchange new (fun _ => False) big middle :=
    ⟨fun placement member notNew => low placement (old member notNew),
      fun placement member _ => high placement member⟩
  have shrinksToSmall : Exchange new (fun _ => False) big small :=
    ⟨fun placement member notNew => old member notNew,
      fun placement member _ => high placement (low placement member)⟩
  constructor
  · by_cases moved : ∃ node, new node ∧ middle.owner? origin = some node
    · exact .inr moved
    · exact .inl (grows.owner?_eq (nobody small) fun node isNew found => moved ⟨node, isNew, found⟩)
  · intro notNew
    have same := shrinks.owner?_eq notNew (nobody middle)
    exact ⟨same.trans (shrinksToSmall.owner?_eq notNew (nobody small)).symm, same⟩

end Ring

end ClusterRing
