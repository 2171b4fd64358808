import ClusterRing.Proofs.Arc
import ClusterRing.Proofs.Ring.Groups
import ClusterRing.Proofs.Ring.Lookup
import ClusterRing.Ring.Ownership

/-!
# Ownership counts the points that are looked up

A lookup finds the first owner of some occupied point (`owner?_eq_first`). Past the first
occupied point, an owner is found from just the points of the arc up to its own
(`ncard_ahead`), and the first owner from the rest of the circle (`ncard_around`). So a
node is found from as many points as its arcs have (`ncard_owned`), and all nodes together
from the whole circle (`sum_ownership`).
-/

namespace ClusterRing.Ring

variable {ring : Ring} {node owner other : Address} {hash point previous start stop : Point}
variable {heads : List (Point × Address)} {arcs more : List (Address × Nat)}

/-! ### First owners -/

/-- The first owner of the first listed point that is not below a point. -/
def ahead? (heads : List (Point × Address)) (hash : Point) : Option Address :=
  (heads.find? fun head => decide (hash ≤ head.1)).map Prod.snd

theorem ahead?_nil : ahead? [] hash = none := rfl

theorem ahead?_cons : ahead? ((point, owner) :: heads) hash =
    if hash ≤ point then some owner else ahead? heads hash := by
  by_cases reached : hash ≤ point <;> simp [ahead?, reached]

theorem ahead?_eq_none_iff : ahead? heads hash = none ↔ ∀ head ∈ heads, head.1 < hash := by
  simp [ahead?]

/-- Groups of owners, each with its first owner alone. -/
def headsOf (groups : List (Point × List Address)) : List (Point × Address) :=
  groups.filterMap fun (point, nodes) => nodes.head?.map fun node => (point, node)

theorem headsOf_byPoint : headsOf ring.byPoint = ring.firstOwners := rfl

@[simp]
theorem headsOf_nil : headsOf [] = [] := rfl

@[simp]
theorem headsOf_cons {nodes : List Address} {groups : List (Point × List Address)} :
    headsOf ((point, node :: nodes) :: groups) = (point, node) :: headsOf groups := rfl

@[simp]
theorem headsOf_unowned {groups : List (Point × List Address)} :
    headsOf ((point, []) :: groups) = headsOf groups := rfl

theorem ahead?_headsOf_addToGroups (placement : Placement)
    (groups : List (Point × List Address)) :
    ahead? (headsOf (addToGroups placement groups)) hash =
      if hash ≤ placement.point then some placement.node else ahead? (headsOf groups) hash := by
  cases groups with
  | nil => simp [addToGroups, ahead?_cons]
  | cons group rest =>
      rcases group with ⟨point, nodes⟩
      rw [addToGroups]
      split
      · next here =>
          cases nodes with
          | nil => simp [ahead?_cons, here]
          | cons first others =>
              simp only [headsOf_cons, ahead?_cons, here]
              split <;> rfl
      · simp [ahead?_cons]

theorem ahead?_firstOwners (ring : Ring) (hash : Point) :
    ahead? ring.firstOwners hash =
      (ring.toList.find? fun placement => decide (hash ≤ placement.point)).map (·.node) := by
  rw [← headsOf_byPoint, byPoint]
  induction ring.toList with
  | nil => rfl
  | cons placement rest ih =>
      rw [List.foldr_cons, ahead?_headsOf_addToGroups, ih]
      by_cases reached : hash ≤ placement.point <;> simp [reached]

theorem head?_firstOwners (ring : Ring) :
    ring.firstOwners.head?.map Prod.snd = ring.toList.head?.map (·.node) := by
  rw [← headsOf_byPoint, byPoint]
  cases ring.toList with
  | nil => rfl
  | cons placement rest =>
      rw [List.foldr_cons]
      cases rest.foldr addToGroups [] with
      | nil => rfl
      | cons group others =>
          rw [addToGroups]
          split <;> rfl

/-- A lookup finds the first owner of the next occupied point, or of the first one. -/
theorem owner?_eq_first (ring : Ring) (hash : Point) :
    ring.owner? hash =
      (ahead? ring.firstOwners hash).or (ring.firstOwners.head?.map Prod.snd) := by
  rw [owner?, locate?, Option.map_or, ahead?_firstOwners, head?_firstOwners]

/-! ### Counting -/

instance : Finite Point :=
  .of_injective UInt32.toFin fun _ _ => UInt32.toFin_inj.mp

/-- There are as many points on an arc as it is long. -/
theorem ncard_onArc (start stop : Point) :
    {hash | Point.onArc start stop hash = true}.ncard = Point.clockwise start stop := by
  have short : Point.clockwise start stop ≤ UInt32.size := Point.clockwise_le_circleSize
  have sub_number {number : Nat} (below : number < Point.clockwise start stop) :
      (stop - (stop - .ofNat number)).toNat = number := by
    rw [Point.sub_sub_self, UInt32.toNat_ofNat_of_lt' (Nat.lt_of_lt_of_le below short)]
  apply Set.ncard_eq_of_bijective fun number _ => stop - .ofNat number
  · intro hash inside
    refine ⟨(stop - hash).toNat, Point.onArc_iff_sub_lt.mp inside, ?_⟩
    rw [UInt32.ofNat_toNat, Point.sub_sub_self]
  · intro number below
    rw [Set.mem_ofPred_eq, Point.onArc_iff_sub_lt, sub_number below]
    exact below
  · intro number other below otherBelow same
    rw [← sub_number below, same, sub_number otherBelow]

/-- The lengths of the arcs of a node, added up. -/
def spanIn (arcs : List (Address × Nat)) (node : Address) : Nat :=
  arcs.foldr (fun arc total => if arc.1 = node then arc.2 + total else total) 0

theorem spanIn_nil : spanIn [] node = 0 := rfl

theorem spanIn_cons {length : Nat} : spanIn ((owner, length) :: arcs) node =
    (if owner = node then length else 0) + spanIn arcs node := by
  by_cases same : owner = node <;> simp [spanIn, same]

theorem spanIn_append : spanIn (arcs ++ more) node = spanIn arcs node + spanIn more node := by
  induction arcs with
  | nil => simp [spanIn_nil]
  | cons arc rest ih => rw [List.cons_append, spanIn_cons, spanIn_cons, ih, Nat.add_assoc]

theorem spanIn_eq_zero (absent : ∀ length, (node, length) ∉ arcs) : spanIn arcs node = 0 := by
  induction arcs with
  | nil => rfl
  | cons arc rest ih =>
      have apart : arc.1 ≠ node := fun same => absent arc.2 (by simp [← same])
      rw [spanIn_cons, if_neg apart, ih fun length listed => absent length (by simp [listed])]

theorem span_eq : ring.span node = spanIn ring.arcs node := rfl

/-- If some points are found on an arc alone, the arc adds its length to those of its owner. -/
theorem ncard_onArc_or {other : Point → Prop}
    (apart : ∀ hash, other hash → Point.onArc start stop hash = false) :
    {hash | Point.onArc start stop hash = true ∧ owner = node ∨ other hash}.ncard =
      (if owner = node then Point.clockwise start stop else 0) + {hash | other hash}.ncard := by
  split
  · next same =>
      have disjoint : Disjoint {hash | Point.onArc start stop hash = true} {hash | other hash} := by
        rw [Set.disjoint_left]
        intro hash inside found
        rw [Set.mem_ofPred_eq, apart hash found] at inside
        exact nomatch inside
      rw [← ncard_onArc, ← Set.ncard_union_eq disjoint]
      simp [same, Set.ofPred_or]
  · next apart => simp [apart]

/-- Points with their first owners in order, all after a previous point. -/
def Follows (previous : Point) (heads : List (Point × Address)) : Prop :=
  (∀ head ∈ heads, previous < head.1) ∧ heads.Pairwise fun earlier later => earlier.1 < later.1

theorem pairwise_cons_iff : (((point, owner) :: heads).Pairwise fun earlier later =>
    earlier.1 < later.1) ↔ Follows point heads :=
  List.pairwise_cons

theorem follows_cons_iff : Follows previous ((point, owner) :: heads) ↔
    previous < point ∧ Follows point heads := by
  simp only [Follows, List.forall_mem_cons, List.pairwise_cons]
  constructor
  · rintro ⟨⟨lower, -⟩, after, ascending⟩
    exact ⟨lower, after, ascending⟩
  · rintro ⟨lower, after, ascending⟩
    exact ⟨⟨lower, fun head member => UInt32.lt_trans lower (after head member)⟩, after, ascending⟩

/-- Past a point, a node is found ahead from as many points as its arcs from there have. -/
theorem ncard_ahead (follows : Follows previous heads) (node : Address) :
    {hash | previous < hash ∧ ahead? heads hash = some node}.ncard =
      spanIn (arcLengths previous heads) node := by
  induction heads generalizing previous with
  | nil => simp [ahead?_nil, arcLengths, spanIn_nil]
  | cons head rest ih =>
      rcases head with ⟨point, owner⟩
      rcases follows_cons_iff.mp follows with ⟨lower, after⟩
      have inside (hash : Point) :
          Point.onArc previous point hash = true ↔ previous < hash ∧ hash ≤ point := by
        rw [UInt32.lt_iff_toNat_lt] at lower
        rw [Point.onArc_iff, UInt32.lt_iff_toNat_lt, UInt32.le_iff_toNat_le]
        omega
      have split (hash : Point) : previous < hash ∧ ahead? ((point, owner) :: rest) hash = some node ↔
          Point.onArc previous point hash = true ∧ owner = node ∨
            point < hash ∧ ahead? rest hash = some node := by
        rw [ahead?_cons, inside]
        by_cases reached : hash ≤ point
        · simp [reached, UInt32.not_lt.mpr reached]
        · have passed := UInt32.not_le.mp reached
          simp [reached, passed, UInt32.lt_trans lower passed]
      simp only [split]
      rw [ncard_onArc_or, ih after, arcLengths, spanIn_cons]
      rintro hash ⟨passed, -⟩
      rw [Bool.eq_false_iff, ne_eq, inside, not_and, UInt32.not_le]
      exact fun _ => passed

theorem getLast?_lt_iff {last : Point × Address}
    (ascending : heads.Pairwise fun earlier later => earlier.1 < later.1)
    (ends : heads.getLast? = some last) : last.1 < hash ↔ ∀ head ∈ heads, head.1 < hash := by
  rcases List.getLast?_eq_some_iff.mp ends with ⟨before, rfl⟩
  rw [List.pairwise_append] at ascending
  constructor
  · intro passed head member
    rcases List.mem_append.mp member with earlier | same
    · exact UInt32.lt_trans (ascending.2.2 head earlier last (by simp)) passed
    · rwa [List.mem_singleton.mp same]
  · intro passed
    exact passed last (by simp)

theorem first_le_last {first last : Point} (follows : Follows first heads)
    (ends : ((first, owner) :: heads).getLast? = some (last, other)) : first ≤ last := by
  rw [← UInt32.not_lt, getLast?_lt_iff (pairwise_cons_iff.mpr follows) ends]
  simp

theorem ncard_around {first last : Point} (follows : Follows first heads)
    (ends : ((first, owner) :: heads).getLast? = some (last, other)) (node : Address) :
    {hash | (ahead? ((first, owner) :: heads) hash).or (some owner) = some node}.ncard =
      spanIn (arcLengths last ((first, owner) :: heads)) node := by
  have passed_iff (hash : Point) : ahead? ((first, owner) :: heads) hash = none ↔ last < hash :=
    ahead?_eq_none_iff.trans (getLast?_lt_iff (pairwise_cons_iff.mpr follows) ends).symm
  have order := first_le_last follows ends
  have inside (hash : Point) :
      Point.onArc last first hash = true ↔ hash ≤ first ∨ last < hash := by
    rw [UInt32.le_iff_toNat_le] at order
    rw [Point.onArc_iff, UInt32.lt_iff_toNat_lt, UInt32.le_iff_toNat_le]
    omega
  have split (hash : Point) :
      (ahead? ((first, owner) :: heads) hash).or (some owner) = some node ↔
        Point.onArc last first hash = true ∧ owner = node ∨
          first < hash ∧ ahead? heads hash = some node := by
    rw [inside, ← passed_iff, ahead?_cons]
    by_cases reached : hash ≤ first
    · simp [reached, UInt32.not_lt.mpr reached]
    · have passed := UInt32.not_le.mp reached
      cases found : ahead? heads hash <;> simp [reached, passed]
  simp only [split]
  rw [ncard_onArc_or, ncard_ahead follows, arcLengths, spanIn_cons]
  rintro hash ⟨passed, found⟩
  have beyond := UInt32.not_le.mpr passed
  rw [Bool.eq_false_iff, ne_eq, inside, ← passed_iff, ahead?_cons, if_neg beyond, found]
  simp [passed]

theorem pairwise_firstOwners (ring : Ring) :
    ring.firstOwners.Pairwise fun earlier later => earlier.1 < later.1 := by
  apply (grouping_byPoint ring).points_ascending.filterMap
  intro group next lower head kept other keptNext
  rcases Option.map_eq_some_iff.mp kept with ⟨-, -, rfl⟩
  rcases Option.map_eq_some_iff.mp keptNext with ⟨-, -, rfl⟩
  exact lower

/-- A node is found from as many points as its arcs have. -/
theorem ncard_owned (ring : Ring) (node : Address) :
    {hash | ring.owner? hash = some node}.ncard = ring.span node := by
  simp only [owner?_eq_first]
  have ascending := pairwise_firstOwners ring
  rw [span_eq, arcs]
  cases heads : ring.firstOwners with
  | nil => simp [ahead?_nil, spanIn_nil]
  | cons head rest =>
      rcases head with ⟨first, owner⟩
      rw [heads] at ascending
      cases ends : ((first, owner) :: rest).getLast? with
      | none => simp at ends
      | some final => exact ncard_around (pairwise_cons_iff.mp ascending) ends node

/-! ### Entries -/

theorem spanIn_pos_iff (positive : ∀ arc ∈ arcs, 0 < arc.2) :
    0 < spanIn arcs node ↔ ∃ length, (node, length) ∈ arcs := by
  induction arcs with
  | nil => simp [spanIn_nil]
  | cons arc rest ih =>
      rcases arc with ⟨owner, length⟩
      rcases List.forall_mem_cons.mp positive with ⟨long, positive⟩
      rw [spanIn_cons, Nat.add_pos_iff_pos_or_pos, ih positive]
      by_cases same : owner = node
      · have pays : 0 < if owner = node then length else 0 := by rwa [if_pos same]
        exact iff_of_true (.inl pays) ⟨length, by simp [same]⟩
      · simp [same, Ne.symm same]

theorem arcLengths_pos : ∀ arc ∈ arcLengths previous heads, 0 < arc.2 := by
  induction heads generalizing previous with
  | nil => simp [arcLengths]
  | cons head rest ih => exact List.forall_mem_cons.mpr ⟨Point.clockwise_pos, ih⟩

theorem arcs_pos : ∀ arc ∈ ring.arcs, 0 < arc.2 := by
  rw [arcs]
  split
  · simp
  · exact arcLengths_pos

theorem exists_mem_arcs_iff :
    (∃ length, (node, length) ∈ ring.arcs) ↔ ∃ hash, ring.owner? hash = some node := by
  rw [← spanIn_pos_iff arcs_pos, ← span_eq, ← ncard_owned, Set.ncard_pos]
  rfl

theorem mem_ownership_iff {count : Nat} : (node, count) ∈ ring.ownership ↔
    (∃ length, (node, length) ∈ ring.arcs) ∧ ring.span node = count := by
  simp [ownership, OrderedSet.mem_toList, OrderedSet.mem_ofList]

theorem pairwise_ownership (ring : Ring) :
    ring.ownership.Pairwise fun earlier later => compare earlier.1 later.1 = .lt := by
  rw [ownership, List.pairwise_map]
  exact OrderedSet.ascending _

theorem ncard_univ : (Set.univ : Set Point).ncard = circleSize := by
  have whole : Point.clockwise 0 0 = circleSize := Point.clockwise_self
  have everywhere : {hash | Point.onArc 0 0 hash = true} = Set.univ := by
    ext hash
    rw [Set.mem_ofPred_eq, Point.onArc_iff]
    simp
    omega
  rw [← everywhere, ncard_onArc, whole]

theorem span_le_circleSize (ring : Ring) (node : Address) : ring.span node ≤ circleSize := by
  rw [← ncard_owned, ← ncard_univ]
  exact Set.ncard_le_ncard (Set.subset_univ _)

theorem ncard_owned_by {nodes : List Address} (nodup : nodes.Nodup) :
    {hash | ∃ node ∈ nodes, ring.owner? hash = some node}.ncard = (nodes.map ring.span).sum := by
  induction nodes with
  | nil => simp
  | cons node rest ih =>
      rcases List.nodup_cons.mp nodup with ⟨absent, nodup⟩
      have disjoint : Disjoint {hash | ring.owner? hash = some node}
          {hash | ∃ node ∈ rest, ring.owner? hash = some node} := by
        rw [Set.disjoint_left]
        rintro hash found ⟨other, listed, foundToo⟩
        rw [Set.mem_ofPred_eq, foundToo, Option.some.injEq] at found
        exact absent (found ▸ listed)
      rw [List.map_cons, List.sum_cons, ← ncard_owned, ← ih nodup, ← Set.ncard_union_eq disjoint]
      congr 1
      ext hash
      simp

/-- Nodes that answer for every point answer for the whole circle together. -/
theorem sum_span {nodes : List Address} (nodup : nodes.Nodup) (occupied : ring ≠ ∅)
    (listed : ∀ hash node, ring.owner? hash = some node → node ∈ nodes) :
    (nodes.map ring.span).sum = circleSize := by
  have everywhere : {hash | ∃ node ∈ nodes, ring.owner? hash = some node} = Set.univ := by
    rw [Set.eq_univ_iff_forall]
    intro hash
    rcases exists_owner? occupied hash with ⟨node, found⟩
    exact ⟨node, listed hash node found, found⟩
  rw [← ncard_owned_by nodup, everywhere, ncard_univ]

theorem sum_ownership (occupied : ring ≠ ∅) : (ring.ownership.map Prod.snd).sum = circleSize := by
  have same : ring.ownership.map Prod.snd =
      (OrderedSet.ofList (ring.arcs.map (·.1))).toList.map ring.span := by
    simp [ownership]
  rw [same]
  apply sum_span (OrderedSet.nodup_toList _) occupied
  intro hash node found
  rcases exists_mem_arcs_iff.mpr ⟨hash, found⟩ with ⟨length, arc⟩
  exact OrderedSet.mem_ofList.mpr (List.mem_map.mpr ⟨_, arc, rfl⟩)

/-- A node without an entry answers for nothing. -/
theorem lookup_ownership (ring : Ring) (node : Address) :
    (ring.ownership.lookup node).getD 0 = ring.span node := by
  cases found : ring.ownership.lookup node with
  | some count =>
      rcases List.lookup_eq_some_iff.mp found with ⟨before, after, split, -⟩
      have entry : (node, count) ∈ ring.ownership := by simp [split]
      exact (mem_ownership_iff.mp entry).2.symm
  | none =>
      have absent := List.lookup_eq_none_iff.mp found
      rw [span_eq, spanIn_eq_zero, Option.getD_none]
      intro length arc
      have entry : (node, ring.span node) ∈ ring.ownership :=
        mem_ownership_iff.mpr ⟨⟨length, arc⟩, rfl⟩
      simpa using absent _ entry

end ClusterRing.Ring
