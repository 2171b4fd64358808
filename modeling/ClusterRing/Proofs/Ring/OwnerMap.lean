import ClusterRing.Proofs.Ring.Groups
import ClusterRing.Ring.OwnerMap

/-!
# What a map of owner sets holds

A map holds an assignment of owners to all points when it has the points that have
owners, and no others. Every change of a map takes it from one assignment to the
next (`Holds.place` to `Holds.takeOwners`), and what the map answers can be read off
the assignment.
-/

namespace ClusterRing

namespace OwnerMap

open OrderedMap

variable {map : OwnerMap} {assigned : Point → AddressSet} {interval : Interval}

/-! ### Assignments of owners -/

/-- What a map keeps for a point with given owners: nothing if there are none. -/
def occupant (owners : AddressSet) : Option AddressSet :=
  if owners.isEmpty then none else some owners

theorem occupant_eq_none_iff {owners : AddressSet} : occupant owners = none ↔ owners = ∅ := by
  simp [occupant, OrderedSet.isEmpty_iff]

theorem occupant_empty : occupant ∅ = none := rfl

theorem occupant_eq_some_iff {owners kept : AddressSet} :
    occupant owners = some kept ↔ kept = owners ∧ owners ≠ ∅ := by
  rw [ne_eq, ← OrderedSet.isEmpty_iff, occupant]
  split
  · next empty => simp [empty]
  · next occupied => simp [occupied, eq_comm]

/-- A map holds an assignment of owners: a point is in the map with its owners if it has any. -/
def Holds (map : OwnerMap) (assigned : Point → AddressSet) : Prop :=
  ∀ point, map.get? point = occupant (assigned point)

theorem Holds.mem_iff (holds : map.Holds assigned) {point : Point} {owners : AddressSet} :
    (point, owners) ∈ map ↔ owners = assigned point ∧ assigned point ≠ ∅ := by
  rw [← get?_eq_some_iff, holds, occupant_eq_some_iff]

theorem Holds.eq_empty_of_get? (holds : map.Holds assigned) {point : Point}
    (absent : map.get? point = none) : assigned point = ∅ := by
  rwa [holds, occupant_eq_none_iff] at absent

theorem Holds.eq_of_get? (holds : map.Holds assigned) {point : Point} {owners : AddressSet}
    (found : map.get? point = some owners) : owners = assigned point :=
  (holds.mem_iff.mp (get?_eq_some_iff.mp found)).1

theorem Holds.ownersAt (holds : map.Holds assigned) (point : Point) :
    map.ownersAt point = assigned point := by
  rw [OwnerMap.ownersAt]
  cases found : map.get? point with
  | none => exact (holds.eq_empty_of_get? found).symm
  | some owners => exact holds.eq_of_get? found

theorem holds_empty : Holds ∅ fun _ => ∅ := fun _ => rfl

/-- The placements of an assignment of owners. -/
def placed (assigned : Point → AddressSet) : Set Placement :=
  {placement | placement.node ∈ assigned placement.point}

@[simp]
theorem mem_placed {placement : Placement} :
    placement ∈ placed assigned ↔ placement.node ∈ assigned placement.point := Iff.rfl

variable {owners : AddressSet} {point : Point}

theorem Holds.set (holds : map.Holds assigned) (occupied : owners ≠ ∅) :
    Holds (OrderedMap.set map point owners) (Function.update assigned point owners) := by
  intro other
  rw [get?_set, Function.update_apply]
  split
  · exact (occupant_eq_some_iff.mpr ⟨rfl, occupied⟩).symm
  · exact holds other

theorem Holds.erase (holds : map.Holds assigned) :
    Holds (OrderedMap.erase map point) (Function.update assigned point ∅) := by
  intro other
  rw [get?_erase, Function.update_apply]
  split
  · rfl
  · exact holds other

/-! ### One point at a time -/

theorem ne_empty_of_mem {node : Address} (member : node ∈ owners) : owners ≠ ∅ := by
  rintro rfl
  exact OrderedSet.not_mem_empty node member

theorem Holds.place (holds : map.Holds assigned) (placement : Placement) :
    (map.place placement).2.Holds (Function.update assigned placement.point
      ((assigned placement.point).insert placement.node)) := by
  rw [OwnerMap.place, holds.ownersAt]
  exact holds.set (ne_empty_of_mem (OrderedSet.mem_insert.mpr (.inl rfl)))

theorem Holds.displace (holds : map.Holds assigned) (placement : Placement) :
    (map.displace placement).2.Holds (Function.update assigned placement.point
      ((assigned placement.point).erase placement.node)) := by
  unfold OwnerMap.displace
  split
  · next absent =>
      have same : (assigned placement.point).erase placement.node = assigned placement.point := by
        ext node
        simp [holds.eq_empty_of_get? absent]
      rwa [same, Function.update_eq_self]
  · next owners found =>
      rw [← holds.eq_of_get? found]
      dsimp
      split
      · next empty =>
          rw [OrderedSet.isEmpty_iff.mp empty]
          exact holds.erase
      · next occupied =>
          exact holds.set fun empty => occupied (OrderedSet.isEmpty_iff.mpr empty)

theorem Holds.merge (holds : map.Holds assigned) (point : Point) (nodes : AddressSet) :
    (map.merge point nodes).Holds (Function.update assigned point (assigned point ∪ nodes)) := by
  unfold OwnerMap.merge
  split
  · next empty =>
      have same : assigned point ∪ nodes = assigned point := by
        ext node
        simp [OrderedSet.isEmpty_iff.mp empty]
      rwa [same, Function.update_eq_self]
  · next occupied =>
      rw [holds.ownersAt]
      refine holds.set fun empty => occupied (OrderedSet.isEmpty_iff_forall_not_mem.mpr ?_)
      intro node member
      have both : node ∈ assigned point ∪ nodes := OrderedSet.mem_union.mpr (.inr member)
      exact ne_empty_of_mem both empty

/-! ### Ranges -/

theorem get?_takePoints (points : List Point) (point : Point) :
    (map.takePoints points).2.get? point = if point ∈ points then none else map.get? point := by
  induction points generalizing map with
  | nil => simp [takePoints]
  | cons first rest ih =>
      rw [takePoints]
      split
      · next absent =>
          rw [ih]
          by_cases here : point = first <;> simp [here, absent]
      · dsimp
        rw [ih, get?_erase]
        by_cases here : point = first <;> simp [here]

/-- The points of entries are taken with these entries. -/
theorem taken_takePoints {entries : List (Point × AddressSet)}
    (apart : entries.Pairwise fun earlier later => earlier.1 ≠ later.1)
    (listed : ∀ entry ∈ entries, entry ∈ map) :
    (map.takePoints (entries.map Prod.fst)).1 = entries := by
  induction entries generalizing map with
  | nil => rfl
  | cons first rest ih =>
      rcases first with ⟨point, owners⟩
      rcases List.pairwise_cons.mp apart with ⟨fresh, apart⟩
      rcases List.forall_mem_cons.mp listed with ⟨here, listed⟩
      have others : (takePoints (map.erase point) (rest.map Prod.fst)).1 = rest :=
        ih apart fun entry member =>
          mem_erase.mpr ⟨(fresh entry member).symm, listed entry member⟩
      simp [takePoints, get?_eq_some_iff.mpr here, others]

theorem mem_within {entry : Point × AddressSet} :
    entry ∈ map.within interval ↔ entry ∈ map ∧ interval.contains entry.1 = true :=
  List.mem_filter

theorem within_apart (map : OwnerMap) (interval : Interval) :
    (map.within interval).Pairwise fun earlier later => earlier.1 ≠ later.1 :=
  map.keys_apart.filter _

theorem taken_takeRange (map : OwnerMap) (interval : Interval) :
    (map.takeRange interval).1 = map.within interval :=
  taken_takePoints (map.within_apart interval) fun _ member => (mem_within.mp member).1

theorem Holds.mem_points_within (holds : map.Holds assigned) :
    point ∈ (map.within interval).map Prod.fst ↔
      interval.contains point = true ∧ assigned point ≠ ∅ := by
  simp [mem_within, holds.mem_iff, and_comm]

theorem Holds.takeRange (holds : map.Holds assigned) (interval : Interval) :
    (map.takeRange interval).2.Holds fun point =>
      if interval.contains point then ∅ else assigned point := by
  intro point
  rw [OwnerMap.takeRange, get?_takePoints, holds point]
  simp only [holds.mem_points_within]
  by_cases inside : interval.contains point = true
  · by_cases empty : assigned point = ∅ <;> simp [inside, empty, occupant_empty]
  · simp [inside]

/-! ### Owners in a range -/

theorem foldl_erase_eq_filter (owners : AddressSet) (keep : Address → Bool) :
    (owners.toList.filter fun node => !keep node).foldl OrderedSet.erase owners =
      owners.filter keep := by
  have mem_foldl : ∀ (leaving : List Address) (others : AddressSet) (node : Address),
      node ∈ leaving.foldl OrderedSet.erase others ↔ node ∈ others ∧ node ∉ leaving := by
    intro leaving
    induction leaving with
    | nil => simp
    | cons first rest ih =>
        intro others node
        rw [List.foldl_cons, ih]
        simp [and_assoc]
  ext node
  rw [mem_foldl, List.mem_filter, OrderedSet.mem_toList, OrderedSet.mem_filter]
  cases keep node <;> simp

namespace Visit

variable {visit : Visit} {keep : Address → Bool}

/-- The map without the points that are without owners. -/
def pruned (visit : Visit) : OwnerMap :=
  visit.emptied.foldl OrderedMap.erase visit.map

theorem holds_step (holds : visit.pruned.Holds assigned) (fresh : point ∉ visit.emptied)
    (owners : AddressSet) : (visit.step keep (point, owners)).pruned.Holds
      (Function.update assigned point (owners.filter keep)) := by
  intro other
  have here := holds other
  rw [pruned, get?_foldl_erase] at here
  simp only [step, pruned, foldl_erase_eq_filter]
  rw [get?_foldl_erase, get?_set, Function.update_apply]
  by_cases same : other = point
  · subst same
    by_cases empty : (owners.filter keep).isEmpty = true <;> simp [empty, fresh, occupant]
  · by_cases empty : (owners.filter keep).isEmpty = true <;> simp [empty, same, here]

theorem mem_emptied_step {entry : Point × AddressSet}
    (member : point ∈ (visit.step keep entry).emptied) :
    point ∈ visit.emptied ∨ point = entry.1 := by
  simp only [step] at member
  split at member
  · simpa using member
  · exact .inl member

/--
Entries are visited one after the other. As each point is visited once, the owners that an
entry lists are still those of the assignment when its turn comes.
-/
theorem holds_foldl_step {entries : List (Point × AddressSet)} (keep : Address → Bool)
    (apart : entries.Pairwise fun earlier later => earlier.1 ≠ later.1)
    (fresh : ∀ entry ∈ entries, entry.1 ∉ visit.emptied)
    (listed : ∀ entry ∈ entries, entry.2 = assigned entry.1)
    (holds : visit.pruned.Holds assigned) :
    (entries.foldl (step keep) visit).pruned.Holds fun point =>
      if point ∈ entries.map Prod.fst then (assigned point).filter keep else assigned point := by
  induction entries generalizing visit assigned with
  | nil => simpa using holds
  | cons first rest ih =>
      rcases first with ⟨point, owners⟩
      rcases List.pairwise_cons.mp apart with ⟨alone, restApart⟩
      rcases List.forall_mem_cons.mp fresh with ⟨here, restFresh⟩
      rcases List.forall_mem_cons.mp listed with ⟨same, restListed⟩
      obtain rfl : owners = assigned point := same
      have laterFresh : ∀ entry ∈ rest,
          entry.1 ∉ (visit.step keep (point, assigned point)).emptied := by
        intro entry member emptied
        rcases mem_emptied_step emptied with before | same
        · exact restFresh entry member before
        · exact alone entry member same.symm
      have laterListed : ∀ entry ∈ rest, entry.2 =
          Function.update assigned point ((assigned point).filter keep) entry.1 := by
        intro entry member
        rw [Function.update_of_ne (alone entry member).symm]
        exact restListed entry member
      have later := ih restApart laterFresh laterListed (holds_step holds here _)
      intro other
      rw [List.foldl_cons, later other, List.map_cons]
      by_cases same : other = point
      · subst same
        have absent : other ∉ rest.map Prod.fst := by
          intro listed
          rcases List.mem_map.mp listed with ⟨entry, member, rfl⟩
          exact alone entry member rfl
        simp [absent]
      · simp only [List.mem_cons, same, false_or, Function.update_of_ne same]

theorem taken_foldl_step (entries : List (Point × AddressSet)) :
    (entries.foldl (step keep) visit).taken = visit.taken ++ entries.flatMap fun (point, owners) =>
      (owners.toList.filter fun node => !keep node).map fun node => ⟨point, node⟩ := by
  induction entries generalizing visit with
  | nil => simp
  | cons first rest ih =>
      rw [List.foldl_cons, ih, List.flatMap_cons, ← List.append_assoc]
      rfl

end Visit

theorem Holds.takeOwners (holds : map.Holds assigned) (interval : Interval)
    (keep : Address → Bool) : (map.takeOwners interval keep).2.Holds fun point =>
      if interval.contains point then (assigned point).filter keep else assigned point := by
  have listed : ∀ entry ∈ map.within interval, entry.2 = assigned entry.1 :=
    fun entry member => (holds.mem_iff.mp (mem_within.mp member).1).1
  have start : (Visit.mk map [] []).pruned.Holds assigned := holds
  have visited := Visit.holds_foldl_step keep (map.within_apart interval)
    (fun _ _ => List.not_mem_nil) listed start
  intro point
  rw [OwnerMap.takeOwners]
  refine (visited point).trans (congrArg occupant ?_)
  simp only [holds.mem_points_within]
  by_cases inside : interval.contains point = true
  · by_cases empty : assigned point = ∅
    · simp [inside, empty]
      rfl
    · simp [inside, empty]
  · simp [inside]

/-! ### Answers -/

theorem Holds.exists_owners_iff (holds : map.Holds assigned) {node : Address} :
    (∃ owners, (point, owners) ∈ map ∧ node ∈ owners) ↔ node ∈ assigned point := by
  constructor
  · rintro ⟨owners, listed, member⟩
    rwa [← (holds.mem_iff.mp listed).1]
  · intro member
    exact ⟨assigned point, holds.mem_iff.mpr ⟨rfl, ne_empty_of_mem member⟩, member⟩

theorem Holds.grouping (holds : map.Holds assigned) :
    Ring.Grouping (placed assigned) map.groups where
  points_ascending := List.pairwise_map.mpr (map.ascending.imp Std.compare_eq_lt.mp)
  owners_ascending := by
    intro group member
    rcases List.mem_map.mp member with ⟨entry, -, rfl⟩
    exact entry.2.ascending
  nonempty := by
    intro group member empty
    rcases List.mem_map.mp member with ⟨⟨point, owners⟩, listed, rfl⟩
    rcases holds.mem_iff.mp listed with ⟨rfl, occupied⟩
    exact occupied (OrderedSet.isEmpty_iff.mp (List.isEmpty_iff.mpr empty))
  lists_iff := by
    intro placement
    rw [mem_placed, ← holds.exists_owners_iff]
    constructor
    · rintro ⟨nodes, member, listed⟩
      rcases List.mem_map.mp member with ⟨⟨point, owners⟩, listed', same⟩
      obtain ⟨rfl, rfl⟩ := Prod.mk.inj same
      exact ⟨owners, listed', listed⟩
    · rintro ⟨owners, listed, member⟩
      exact ⟨owners.toList, List.mem_map.mpr ⟨(placement.point, owners), listed, rfl⟩, member⟩

theorem Holds.contains_iff (holds : map.Holds assigned) {placement : Placement} :
    map.contains placement = true ↔ placement ∈ placed assigned := by
  rw [OwnerMap.contains, mem_placed]
  cases found : map.get? placement.point with
  | none => simp [holds.eq_empty_of_get? found]
  | some owners => simp [holds.eq_of_get? found]

theorem Holds.displace_fst_iff (holds : map.Holds assigned) {placement : Placement} :
    (map.displace placement).1 = true ↔ placement ∈ placed assigned := by
  unfold OwnerMap.displace
  split
  · next absent => simp [holds.eq_empty_of_get? absent]
  · next owners found => simp [holds.eq_of_get? found]

theorem Holds.mem_pointsOf (holds : map.Holds assigned) {node : Address} :
    point ∈ map.pointsOf node ↔ ⟨point, node⟩ ∈ placed assigned := by
  simp [pointsOf, holds.exists_owners_iff]

theorem ascending_pointsOf (map : OwnerMap) (node : Address) : Ascending (map.pointsOf node) :=
  List.pairwise_map.mpr (map.ascending.filter _)

theorem Holds.within (holds : map.Holds assigned) (interval : Interval) :
    Holds ⟨map.within interval, map.ascending.filter _⟩ fun point =>
      if interval.contains point then assigned point else ∅ := by
  intro point
  ext owners
  rw [get?_eq_some_iff, occupant_eq_some_iff]
  change (point, owners) ∈ map.within interval ↔ _
  rw [mem_within, holds.mem_iff]
  by_cases inside : interval.contains point = true <;> simp [inside]

theorem Holds.mem_takeOwners (holds : map.Holds assigned) {interval : Interval}
    {keep : Address → Bool} {placement : Placement} :
    placement ∈ (map.takeOwners interval keep).1 ↔ placement ∈ placed assigned ∧
      interval.contains placement.point = true ∧ keep placement.node = false := by
  rw [OwnerMap.takeOwners, Visit.taken_foldl_step, List.nil_append, List.mem_flatMap, mem_placed,
    ← holds.exists_owners_iff]
  constructor
  · rintro ⟨⟨point, owners⟩, listed, taken⟩
    simp at taken
    rcases taken with ⟨node, ⟨member, rejected⟩, rfl⟩
    rcases mem_within.mp listed with ⟨listed, inside⟩
    exact ⟨⟨owners, listed, member⟩, inside, rejected⟩
  · rintro ⟨⟨owners, listed, member⟩, inside, rejected⟩
    refine ⟨(placement.point, owners), mem_within.mpr ⟨listed, inside⟩, ?_⟩
    simp
    exact ⟨placement.node, ⟨member, rejected⟩, rfl⟩

theorem ascending_takeOwners (map : OwnerMap) (interval : Interval) (keep : Address → Bool) :
    Ascending (map.takeOwners interval keep).1 := by
  rw [takeOwners, Visit.taken_foldl_step, List.nil_append, Ascending, List.pairwise_flatMap]
  constructor
  · rintro ⟨point, owners⟩ -
    refine List.pairwise_map.mpr ((owners.ascending.filter _).imp fun below => ?_)
    simp [Placement.compare_eq, below]
  · refine (map.ascending.filter _).imp fun below => ?_
    intro first member second later
    simp at member later
    rcases member with ⟨node, -, rfl⟩
    rcases later with ⟨other, -, rfl⟩
    simp [Placement.compare_eq, below]

/-! ### Lookups -/

theorem nearer_of_le {origin near far : Point}
    (sides : near ≤ far ∧ (origin ≤ near ∨ far < origin) ∨ origin ≤ near ∧ far < origin) :
    (near - origin).toNat ≤ (far - origin).toNat := by
  have originBound := origin.toNat_lt
  have nearBound := near.toNat_lt
  have farBound := far.toNat_lt
  simp only [UInt32.lt_iff_toNat_lt, UInt32.le_iff_toNat_le] at sides
  rw [UInt32.toNat_sub, UInt32.toNat_sub]
  omega

/-- The entry that a lookup finds is the nearest clockwise from where it looks. -/
theorem nearest_of_first {origin : Point} {entry : Point × AddressSet}
    (found : (map.entries.find? fun entry => decide (origin ≤ entry.1)).or map.entries.head? =
      some entry) :
    entry ∈ map ∧ ∀ other ∈ map, (entry.1 - origin).toNat ≤ (other.1 - origin).toNat := by
  have ascending := map.ascending
  rw [Option.or_eq_some_iff] at found
  rcases found with ahead | ⟨passedAll, first⟩
  · rcases List.find?_eq_some_iff_append.mp ahead with ⟨reached, passed, rest, split, below⟩
    have reached : origin ≤ entry.1 := of_decide_eq_true reached
    refine ⟨List.mem_of_find?_eq_some ahead, fun other member => nearer_of_le ?_⟩
    rw [← mem_entries, split, List.mem_append, List.mem_cons] at member
    rw [split, List.pairwise_append, List.pairwise_cons] at ascending
    rcases member with before | rfl | after
    · exact .inr ⟨reached, by simpa using below other before⟩
    · exact .inl ⟨UInt32.le_refl _, .inl reached⟩
    · have later := Std.compare_eq_lt.mp (ascending.2.1.1 other after)
      exact .inl ⟨UInt32.le_of_lt later, .inl reached⟩
  · rcases List.head?_eq_some_iff.mp first with ⟨rest, split⟩
    refine ⟨List.mem_of_mem_head? first, fun other member => nearer_of_le ?_⟩
    have below : other.1 < origin := by
      simpa using List.find?_eq_none.mp passedAll other member
    rw [← mem_entries, split, List.mem_cons] at member
    rw [split, List.pairwise_cons] at ascending
    rcases member with rfl | after
    · exact .inl ⟨UInt32.le_refl _, .inr below⟩
    · have later := Std.compare_eq_lt.mp (ascending.1 other after)
      exact .inl ⟨UInt32.le_of_lt later, .inr below⟩

theorem least_of_head? {node : Address} (first : owners.toList.head? = some node) :
    node ∈ owners ∧ ∀ other ∈ owners, node.text ≤ other.text := by
  refine ⟨List.mem_of_mem_head? first, fun other member => Address.text_le_of_isLE ?_⟩
  rcases List.head?_eq_some_iff.mp first with ⟨rest, split⟩
  have ascending := owners.ascending
  rw [← OrderedSet.mem_toList, split, List.mem_cons] at member
  rw [Ascending, split, List.pairwise_cons] at ascending
  rcases member with rfl | after
  · simp
  · simp [ascending.1 other after]

theorem Holds.eq_empty_of_owner? (holds : map.Holds assigned) {origin : Point}
    (nobody : map.owner? origin = none) (point : Point) : assigned point = ∅ := by
  by_contra occupied
  have listed : (point, assigned point) ∈ map := holds.mem_iff.mpr ⟨rfl, occupied⟩
  cases reached : (map.entries.find? fun entry => decide (origin ≤ entry.1)).or
      map.entries.head? with
  | none =>
      have empty := List.head?_eq_none_iff.mp (Option.or_eq_none_iff.mp reached).2
      rw [← mem_entries, empty] at listed
      exact List.not_mem_nil listed
  | some entry =>
      have first := Option.bind_eq_none_iff.mp nobody entry reached
      rcases holds.mem_iff.mp (nearest_of_first reached).1 with ⟨same, others⟩
      have empty := List.isEmpty_iff.mpr (List.head?_eq_none_iff.mp first)
      exact others (same ▸ OrderedSet.isEmpty_iff.mp empty)

theorem Holds.nearest_of_owner? (holds : map.Holds assigned) {origin : Point} {node : Address}
    (found : map.owner? origin = some node) :
    ∃ point, node ∈ assigned point ∧
      (∀ other, assigned other ≠ ∅ → (point - origin).toNat ≤ (other - origin).toNat) ∧
      ∀ other ∈ assigned point, node.text ≤ other.text := by
  rcases Option.bind_eq_some_iff.mp found with ⟨⟨point, owners⟩, reached, first⟩
  rcases nearest_of_first reached with ⟨listed, nearest⟩
  rcases holds.mem_iff.mp listed with ⟨rfl, -⟩
  rcases least_of_head? first with ⟨member, least⟩
  exact ⟨point, member, fun other occupied =>
    nearest (other, assigned other) (holds.mem_iff.mpr ⟨rfl, occupied⟩), least⟩

end OwnerMap

end ClusterRing
