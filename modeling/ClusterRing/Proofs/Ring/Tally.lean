import ClusterRing.Proofs.Ring.Operations
import ClusterRing.Proofs.Ring.Ownership

/-!
# Shares are added up without overflow

Going through the points, the share of the first owner grows by what the point answers
for. A share never exceeds what it comes to in the end, and that is at most the whole
circle, so every addition is within its 64 bits (`exists_ownership?`).
-/

namespace ClusterRing

open ClusterRing.Ring

namespace OwnerMap

variable {map : OwnerMap} {first last previous point : Point} {node owner : Address}
variable {arcs : List (Address × Nat)} {shares : OrderedMap Address UInt64}

/-! ### Single operations -/

theorem exists_sub? {left right : Point} (le : right ≤ left) :
    ∃ difference, sub? left right = some difference ∧
      difference.toNat = left.toNat - right.toNat :=
  ⟨left - right, if_pos le, UInt32.toNat_sub_of_le _ _ le⟩

theorem exists_add? {left right : UInt64} (small : left.toNat + right.toNat < UInt64.size) :
    ∃ sum, add? left right = some sum ∧ sum.toNat = left.toNat + right.toNat := by
  refine ⟨left + right, if_pos small, ?_⟩
  rw [UInt64.toNat_add, Nat.mod_eq_of_lt small]

theorem exists_span?_of_lt (lower : previous < point) :
    ∃ span, span? first last (some previous) point = some span ∧
      span.toNat = Point.clockwise previous point := by
  rcases exists_sub? (UInt32.le_of_lt lower) with ⟨difference, same, exact⟩
  refine ⟨difference.toUInt64, by simp [span?, same], ?_⟩
  rw [UInt32.toNat_toUInt64, exact]
  rw [UInt32.lt_iff_toNat_lt] at lower
  have shape := Point.clockwise_cases previous point
  omega

theorem exists_span?_first (order : first ≤ last) (point : Point) :
    ∃ span, span? first last none point = some span ∧
      span.toNat = Point.clockwise last first := by
  have shape := Point.clockwise_cases last first
  have lastBound := last.toNat_lt
  have lastPoint : Point.last.toNat = 4294967295 := rfl
  rcases exists_sub? (Point.le_last last) with ⟨passed, passedSame, passedExact⟩
  rw [UInt32.le_iff_toNat_le] at order
  have small : passed.toUInt64.toNat + first.toUInt64.toNat < UInt64.size := by
    rw [UInt32.toNat_toUInt64, UInt32.toNat_toUInt64, UInt64.size]
    omega
  rcases exists_add? small with ⟨wrapped, wrappedSame, wrappedExact⟩
  rw [UInt32.toNat_toUInt64, UInt32.toNat_toUInt64] at wrappedExact
  have stillSmall : wrapped.toNat + (1 : UInt64).toNat < UInt64.size := by
    rw [UInt64.toNat_one, UInt64.size]
    omega
  rcases exists_add? stillSmall with ⟨span, spanSame, spanExact⟩
  refine ⟨span, by simp [span?, passedSame, wrappedSame, spanSame], ?_⟩
  rw [spanExact, wrappedExact, passedExact, UInt64.toNat_one]
  omega

/-! ### One point after the other -/

/-- The nodes with arcs have shares, each as long as its arcs, and no other nodes have any. -/
def Credits (shares : OrderedMap Address UInt64) (arcs : List (Address × Nat)) : Prop :=
  ∀ node count, (shares.get? node).map UInt64.toNat = some count ↔
    (∃ length, (node, length) ∈ arcs) ∧ spanIn arcs node = count

theorem credits_empty : Credits ∅ [] := by
  intro node count
  simp [OrderedMap.get?, EmptyCollection.emptyCollection]

namespace Credits

theorem getD (credits : Credits shares arcs) (node : Address) :
    ((shares.get? node).getD 0).toNat = spanIn arcs node := by
  cases found : shares.get? node with
  | some share =>
      have credited := (credits node share.toNat).mp (by simp [found])
      exact credited.2.symm
  | none =>
      rw [spanIn_eq_zero]
      · rfl
      · intro length listed
        have credited := (credits node _).mpr ⟨⟨length, listed⟩, rfl⟩
        simp [found] at credited

theorem set (credits : Credits shares arcs) {length : Nat} {share : UInt64}
    (exact : share.toNat = spanIn arcs owner + length) :
    Credits (shares.set owner share) (arcs ++ [(owner, length)]) := by
  intro node count
  rw [OrderedMap.get?_set, spanIn_append, spanIn_cons, spanIn_nil]
  by_cases same : node = owner
  · simp [same, exact]
  · simp [same, Ne.symm same, credits node count]

end Credits

/-- A point credits its first owner with the arc up to it. -/
theorem Tally.exists_step? (tally : Tally) {owners : AddressSet} {others : List Address}
    {span : UInt64} (credits : Credits tally.shares arcs) (listed : owners.toList = owner :: others)
    (spanned : span? first last tally.previous point = some span)
    (small : spanIn arcs owner + span.toNat < UInt64.size) :
    ∃ next, tally.step? first last (point, owners) = some next ∧ next.previous = some point ∧
      Credits next.shares (arcs ++ [(owner, span.toNat)]) := by
  rw [← credits.getD owner] at small
  rcases exists_add? small with ⟨share, same, exact⟩
  rw [credits.getD owner] at exact
  refine ⟨⟨some point, tally.shares.set owner share⟩, ?_, rfl, credits.set exact⟩
  simp [step?, spanned, listed, same]

/-- Entries as groups of owners. -/
def groupsOf (entries : List (Point × AddressSet)) : List (Point × List Address) :=
  entries.map fun (point, owners) => (point, owners.toList)

variable {entries rest : List (Point × AddressSet)}

theorem headsOf_groupsOf_cons {owners : AddressSet} {others : List Address}
    (listed : owners.toList = owner :: others) :
    headsOf (groupsOf ((point, owners) :: rest)) = (point, owner) :: headsOf (groupsOf rest) := by
  simp only [groupsOf, List.map_cons]
  rw [listed, headsOf_cons]

theorem map_fst_headsOf (owned : ∀ entry ∈ entries, entry.2.toList ≠ []) :
    (headsOf (groupsOf entries)).map Prod.fst = entries.map Prod.fst := by
  induction entries with
  | nil => rfl
  | cons entry rest ih =>
      rcases List.forall_mem_cons.mp owned with ⟨occupied, owned⟩
      rcases List.exists_cons_of_ne_nil occupied with ⟨owner, others, listed⟩
      rw [headsOf_groupsOf_cons listed, List.map_cons, List.map_cons, ih owned]

theorem exists_getLast? (owned : ∀ entry ∈ entries, entry.2.toList ≠ [])
    (ends : (headsOf (groupsOf entries)).getLast? = some (last, owner)) :
    ∃ owners, entries.getLast? = some (last, owners) := by
  have lasts := congrArg List.getLast? (map_fst_headsOf owned)
  rw [List.getLast?_map, List.getLast?_map, ends] at lasts
  rcases Option.map_eq_some_iff.mp lasts.symm with ⟨⟨_, owners⟩, same, rfl⟩
  exact ⟨owners, same⟩

/--
The points are credited with their arcs one after the other, if the first of them answers for
the arc from a previous point: the others follow their predecessors anyway.
-/
theorem exists_foldlM_step? (tally : Tally) (owned : ∀ entry ∈ entries, entry.2.toList ≠ [])
    (ascending : (headsOf (groupsOf entries)).Pairwise fun earlier later => earlier.1 < later.1)
    (credits : Credits tally.shares arcs)
    (spanned : ∀ head ∈ (headsOf (groupsOf entries)).head?, ∃ span,
      span? first last tally.previous head.1 = some span ∧
        span.toNat = Point.clockwise previous head.1)
    (small : ∀ node, spanIn (arcs ++ arcLengths previous (headsOf (groupsOf entries))) node <
      UInt64.size) :
    ∃ final, entries.foldlM (Tally.step? first last) tally = some final ∧
      Credits final.shares (arcs ++ arcLengths previous (headsOf (groupsOf entries))) := by
  induction entries generalizing previous tally arcs with
  | nil => exact ⟨tally, rfl, by simpa [groupsOf, arcLengths] using credits⟩
  | cons entry rest ih =>
      rcases entry with ⟨point, owners⟩
      rcases List.forall_mem_cons.mp owned with ⟨occupied, owned⟩
      rcases List.exists_cons_of_ne_nil occupied with ⟨owner, others, listed⟩
      rw [headsOf_groupsOf_cons listed] at ascending spanned small ⊢
      rcases List.pairwise_cons.mp ascending with ⟨after, ascending⟩
      rcases spanned (point, owner) rfl with ⟨span, spans, exact⟩
      rw [arcLengths, List.append_cons] at small ⊢
      have within : spanIn arcs owner + span.toNat < UInt64.size := by
        have bound := small owner
        rw [spanIn_append, spanIn_append, spanIn_cons, if_pos rfl, ← exact] at bound
        omega
      rcases tally.exists_step? credits listed spans within with
        ⟨next, stepped, reached, credited⟩
      rw [exact] at credited
      have nextSpans : ∀ head ∈ (headsOf (groupsOf rest)).head?, ∃ span,
          span? first last next.previous head.1 = some span ∧
            span.toNat = Point.clockwise point head.1 := by
        intro head member
        rw [reached]
        exact exists_span?_of_lt (after head (List.mem_of_mem_head? member))
      rcases ih next owned ascending credited nextSpans small with ⟨final, same, complete⟩
      refine ⟨final, ?_, complete⟩
      rw [List.foldlM_cons, stepped]
      exact same

theorem toList_ne_nil_of_byPoint {ring : Ring} (same : ring.byPoint = map.groups) :
    ∀ entry ∈ map.entries, entry.2.toList ≠ [] := by
  intro entry listed
  have member : (entry.1, entry.2.toList) ∈ ring.byPoint := by
    rw [same]
    exact List.mem_map.mpr ⟨entry, listed, rfl⟩
  exact (grouping_byPoint ring).nonempty _ member

/-- The shares of a map come to the arcs of the ring with the same owners. -/
theorem exists_ownership? {ring : Ring} (same : ring.byPoint = map.groups) :
    ∃ shares, map.ownership? = some shares ∧ Credits shares ring.arcs := by
  have heads : ring.firstOwners = headsOf (groupsOf map.entries) := by
    rw [← headsOf_byPoint, same]
    rfl
  have owned := toList_ne_nil_of_byPoint same
  have ascending := pairwise_firstOwners ring
  have small (node : Address) : spanIn ring.arcs node < UInt64.size :=
    Nat.lt_of_le_of_lt (span_le_circleSize ring node) (by decide)
  rw [arcs] at small ⊢
  rw [heads] at ascending small ⊢
  rw [ownership?]
  cases entries : map.entries with
  | nil => exact ⟨∅, rfl, credits_empty⟩
  | cons entry rest =>
      rw [entries] at owned ascending small
      rcases entry with ⟨first, owners⟩
      rcases List.exists_cons_of_ne_nil (owned (first, owners) (by simp)) with
        ⟨owner, others, listed⟩
      have heads : headsOf (groupsOf ((first, owners) :: rest)) =
          (first, owner) :: headsOf (groupsOf rest) := headsOf_groupsOf_cons listed
      cases ends : (headsOf (groupsOf ((first, owners) :: rest))).getLast? with
      | none => simp [heads] at ends
      | some final =>
          rcases final with ⟨last, lastOwner⟩
          rcases exists_getLast? owned ends with ⟨lastOwners, lastEntry⟩
          rw [ends] at small
          have order : first ≤ last := by
            rw [heads] at ends ascending
            exact first_le_last (pairwise_cons_iff.mp ascending) ends
          have spans : ∀ head ∈ (headsOf (groupsOf ((first, owners) :: rest))).head?, ∃ span,
              span? first last none head.1 = some span ∧
                span.toNat = Point.clockwise last head.1 := by
            rw [heads]
            rintro head ⟨⟩
            exact exists_span?_first order first
          rcases exists_foldlM_step? ⟨none, ∅⟩ owned ascending credits_empty spans small with
            ⟨final, folded, complete⟩
          refine ⟨final.shares, ?_, complete⟩
          rw [lastEntry]
          simp only [List.head?_cons]
          rw [folded, Option.map_some]

theorem Credits.entries_eq {ring : Ring} (credits : Credits shares ring.arcs) :
    shares.entries.map (fun (node, share) => (node, share.toNat)) = ring.ownership := by
  let counted : OrderedMap Address Nat :=
    ⟨shares.entries.map fun (node, share) => (node, share.toNat), by
      rw [List.pairwise_map]
      exact shares.ascending⟩
  let owned : OrderedMap Address Nat := ⟨ring.ownership, pairwise_ownership ring⟩
  have same : counted = owned := by
    ext ⟨node, count⟩
    change (node, count) ∈ shares.entries.map _ ↔ (node, count) ∈ ring.ownership
    rw [mem_ownership_iff, span_eq, ← credits node count, Option.map_eq_some_iff]
    simp [OrderedMap.get?_eq_some_iff]
  exact congrArg OrderedMap.entries same

/--
After any operations, the shares of a map of owner sets are computed without leaving the range
of any number, and they are the ownership of the ring with the same owners. The two answer
alike, and a node is listed exactly if some point is looked up to it, with the number of the
points that are. So the numbers add up to the whole circle, unless nothing is owned.
-/
theorem ownership_counts_lookups (past : List Operation) :
    let map := Operation.mapAfter past
    let ring := Operation.ringAfter past
    (∃ shares, map.ownership? = some shares ∧
      shares.entries.map (fun (node, share) => (node, share.toNat)) = ring.ownership) ∧
    (∀ hash, map.owner? hash = ring.owner? hash) ∧
    (∀ node, (∃ count, (node, count) ∈ ring.ownership) ↔ ∃ hash, ring.owner? hash = some node) ∧
    (∀ node count, (node, count) ∈ ring.ownership →
      count = {hash | ring.owner? hash = some node}.ncard) ∧
    (ring ≠ ∅ → (ring.ownership.map Prod.snd).sum = circleSize) := by
  intro map ring
  rcases exists_ownership? (Operation.byPoint_ringAfter past) with ⟨shares, same, credits⟩
  refine ⟨⟨shares, same, credits.entries_eq⟩, ?_, ?_, ?_, sum_ownership⟩
  · intro hash
    exact (Operation.answer_ringAfter past (.owner hash)).symm
  · intro node
    simp only [mem_ownership_iff, exists_mem_arcs_iff, exists_and_left, exists_eq', and_true]
  · intro node count listed
    rw [ncard_owned]
    exact (mem_ownership_iff.mp listed).2.symm

/-- Two nodes at zero and one at the last point: the second in text order is never found. -/
theorem ownership_at_both_ends :
    let alpha : Address := ⟨"a", 1, by decide⟩
    let beta : Address := ⟨"b", 1, by decide⟩
    let gamma : Address := ⟨"c", 1, by decide⟩
    let past := [.place ⟨0, beta⟩, .place ⟨Point.last, gamma⟩, .place ⟨0, alpha⟩,
      .displace ⟨Point.last, alpha⟩]
    let map := Operation.mapAfter past
    let ring := Operation.ringAfter past
    ring ≠ ∅ ∧ ring.ownership = [(alpha, 1), (gamma, 4294967295)] ∧
      {hash | ring.owner? hash = some gamma}.ncard = 4294967295 ∧
      (∀ hash, ring.owner? hash ≠ some beta) ∧ map.ownership?.isSome = true ∧
      (ring.ownership.map Prod.snd).sum = circleSize := by
  intro alpha beta gamma past map ring
  have occupied : ring ≠ ∅ := by
    intro empty
    have absent := OrderedSet.not_mem_empty (⟨0, alpha⟩ : Placement)
    rw [← empty] at absent
    exact absent (by decide +kernel)
  have owned : ring.ownership = [(alpha, 1), (gamma, 4294967295)] := by decide +kernel
  rcases ownership_counts_lookups past with ⟨⟨shares, exact, -⟩, -, listed, counts, total⟩
  refine ⟨occupied, owned, ?_, ?_, ?_, total occupied⟩
  · exact (counts gamma 4294967295 (owned ▸ by decide)).symm
  · intro hash found
    have listed := (listed beta).mpr ⟨hash, found⟩
    change ∃ count, (beta, count) ∈ ring.ownership at listed
    rw [owned] at listed
    simp [alpha, beta, gamma] at listed
  · rw [exact]
    rfl

end OwnerMap

end ClusterRing
