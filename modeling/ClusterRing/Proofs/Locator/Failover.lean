import ClusterRing.Locator.Failover
import ClusterRing.Proofs.Locator.Service
import ClusterRing.Proofs.Ring.Lookup
import Mathlib.Algebra.BigOperators.Intervals

/-!
# Which nodes are tried

Try number `i` looks up the owner of the point that is reached from the point of the
key by adding the hashes of the retries before it. On a ring with owners every try
finds one, so there are as many nodes as tries were allowed, and each call takes one
from the size hint (`afterCalls_start`). On an empty ring the first call ends the
sequence. What has ended does not go on (`next_afterCalls_of_ended`).

The first try of a locator finds the primary of the key as long as some node is active. Without
active nodes there are no tries, although a joining node may own live points already
(`next_failover_eq_primary?_iff`).
-/

namespace ClusterRing

open Finset Locator

namespace Failover

variable {ring : Ring} {hasher : Hasher} {key : String} {tries : Nat} {sequence : Failover}

/-- The sequence after some calls of `next`. -/
def afterCalls (sequence : Failover) (calls : Nat) : Failover :=
  (fun sequence => sequence.next.2)^[calls] sequence

/-- The hashes of the key and of the retries before a try, added up around the circle. -/
def tryPoint (hasher : Hasher) (key : String) (count : Nat) : Point :=
  .ofNat ((hasher.point key).toNat +
    ∑ attempt ∈ range count, (hasher.point (toString attempt ++ key)).toNat)

/-- The sequence after some successful tries. -/
def reached (ring : Ring) (hasher : Hasher) (key : String) (tries count : Nat) : Failover where
  ring := ring
  hasher := hasher
  key := key
  point := tryPoint hasher key count
  attempt := count
  remaining := tries - count

theorem afterCalls_zero : sequence.afterCalls 0 = sequence := rfl

theorem afterCalls_succ {calls : Nat} :
    sequence.afterCalls (calls + 1) = (sequence.afterCalls calls).next.2 :=
  Function.iterate_succ_apply' _ _ _

theorem afterCalls_add {calls more : Nat} :
    sequence.afterCalls (calls + more) = (sequence.afterCalls calls).afterCalls more := by
  rw [afterCalls, Nat.add_comm, Function.iterate_add_apply]
  rfl

theorem tryPoint_zero : tryPoint hasher key 0 = hasher.point key := by
  simp [tryPoint]

/-- A retry moves on by its hash, which fits into one word. -/
theorem nextPoint_tryPoint (count : Nat) :
    nextPoint hasher key count (tryPoint hasher key count) = tryPoint hasher key (count + 1) := by
  rw [nextPoint, fold64_toUInt64, tryPoint, tryPoint, sum_range_succ, ← Nat.add_assoc,
    UInt32.ofNat_add _ (hasher.point _).toNat, UInt32.ofNat_toNat]

theorem start_eq_reached : start ring hasher key tries = reached ring hasher key tries 0 := by
  rw [reached, tryPoint_zero]
  rfl

/-! ### The end of a sequence -/

theorem next_of_exhausted (exhausted : sequence.remaining = 0) : sequence.next = (none, sequence) := by
  rw [next, if_pos exhausted]

theorem next_of_left (left : sequence.remaining ≠ 0) :
    sequence.next.1 = sequence.ring.owner? sequence.point := by
  rw [next, if_neg left]
  cases sequence.ring.owner? sequence.point <;> rfl

/-- A call that gives no node leaves no tries. -/
theorem exhausted_of_next (ended : sequence.next.1 = none) : sequence.next.2.remaining = 0 := by
  unfold next at ended ⊢
  split
  · next exhausted => exact exhausted
  · next left =>
      rw [if_neg left] at ended
      cases found : sequence.ring.owner? sequence.point with
      | none => rfl
      | some node => simp [found] at ended

theorem afterCalls_of_exhausted (exhausted : sequence.remaining = 0) (calls : Nat) :
    sequence.afterCalls calls = sequence := by
  induction calls with
  | zero => rfl
  | succ calls ih => rw [afterCalls_succ, ih, next_of_exhausted exhausted]

/-- A sequence that has given no node gives none ever after. -/
theorem next_afterCalls_of_ended (ended : sequence.next.1 = none) (calls : Nat) :
    (sequence.afterCalls calls).next.1 = none := by
  cases calls with
  | zero => exact ended
  | succ calls =>
      have exhausted := exhausted_of_next ended
      have first : sequence.afterCalls 1 = sequence.next.2 := rfl
      rw [Nat.add_comm, afterCalls_add, first, afterCalls_of_exhausted exhausted,
        next_of_exhausted exhausted]

/-! ### Empty rings -/

theorem next_of_empty (empty : sequence.ring = ∅) :
    sequence.next = (none, { sequence with remaining := 0 }) := by
  by_cases exhausted : sequence.remaining = 0
  · rw [next_of_exhausted exhausted, ← exhausted]
  · rw [next, if_neg exhausted, Ring.owner?_eq_none_iff.mpr empty]

theorem afterCalls_of_empty (empty : sequence.ring = ∅) (calls : Nat) :
    sequence.afterCalls (calls + 1) = { sequence with remaining := 0 } := by
  rw [Nat.add_comm, afterCalls_add]
  change sequence.next.2.afterCalls calls = _
  rw [next_of_empty empty, afterCalls_of_exhausted rfl]

/-! ### Rings with owners -/

section Occupied

variable (occupied : ring ≠ ∅)
include occupied

theorem next_reached {count : Nat} (left : count < tries) :
    (reached ring hasher key tries count).next =
      (ring.owner? (tryPoint hasher key count), reached ring hasher key tries (count + 1)) := by
  have not_exhausted : (reached ring hasher key tries count).remaining ≠ 0 := Nat.sub_ne_zero_of_lt left
  rcases Ring.exists_owner? occupied (tryPoint hasher key count) with ⟨node, found⟩
  rw [next, if_neg not_exhausted]
  simp only [reached, found, nextPoint_tryPoint, Nat.sub_sub]

theorem afterCalls_start (calls : Nat) :
    (start ring hasher key tries).afterCalls calls =
      reached ring hasher key tries (min calls tries) := by
  induction calls with
  | zero => rw [Nat.zero_min, afterCalls_zero, start_eq_reached]
  | succ calls ih =>
      rw [afterCalls_succ, ih]
      by_cases left : calls < tries
      · rw [Nat.min_eq_left (Nat.le_of_lt left), Nat.min_eq_left left, next_reached occupied left]
      · rw [Nat.min_eq_right (Nat.le_of_not_lt left), Nat.min_eq_right (by omega),
          next_of_exhausted (Nat.sub_self tries)]

theorem next_afterCalls_start (calls : Nat) :
    ((start ring hasher key tries).afterCalls calls).next.1 =
      if calls < tries then ring.owner? (tryPoint hasher key calls) else none := by
  rw [afterCalls_start occupied]
  split
  · next left => rw [Nat.min_eq_left (Nat.le_of_lt left), next_reached occupied left]
  · next spent =>
      rw [Nat.min_eq_right (Nat.le_of_not_lt spent), next_of_exhausted (Nat.sub_self tries)]

/-- Taking more nodes than are left takes all that are left. -/
theorem take_reached {count more : Nat} (enough : tries - count < more) :
    ((reached ring hasher key tries count).take more).1.map some =
      (List.range' count (tries - count)).map fun index => ring.owner? (tryPoint hasher key index) := by
  induction more generalizing count with
  | zero => omega
  | succ more ih =>
      rw [take]
      by_cases left : count < tries
      · have one_more : tries - count = tries - (count + 1) + 1 := by omega
        rcases Ring.exists_owner? occupied (tryPoint hasher key count) with ⟨node, found⟩
        rw [next_reached occupied left, found, one_more, List.range'_succ, List.map_cons,
          List.map_cons, found]
        exact congrArg (some node :: ·) (ih (by omega))
      · rw [next_of_exhausted (Nat.sub_eq_zero_of_le (Nat.le_of_not_lt left)),
          Nat.sub_eq_zero_of_le (Nat.le_of_not_lt left)]
        rfl

theorem map_takeAll_start : (start ring hasher key tries).takeAll.1.map some =
    (List.range tries).map fun index => ring.owner? (tryPoint hasher key index) := by
  have taken : (start ring hasher key tries).takeAll =
      (reached ring hasher key tries 0).take (tries + 1) := by
    rw [← start_eq_reached]
    rfl
  rw [taken, List.range_eq_range']
  exact take_reached occupied (Nat.lt_succ_self tries)

end Occupied

/--
On an empty ring nothing is tried, and after one call nothing is left. On any other ring there
are as many nodes as tries: number `i` owns the point that the hashes of the key and of the
retries before it add up to, and each call takes one from the size hint. What has given no node
gives none ever after.
-/
theorem tries_owners (ring : Ring) (hasher : Hasher) (key : String) (tries : Nat) :
    let sequence := start ring hasher key tries
    let nodes := sequence.takeAll.1
    (ring = ∅ → nodes = [] ∧ ∀ calls, (sequence.afterCalls calls).next.1 = none ∧
      (sequence.afterCalls (calls + 1)).sizeHint = (0, some 0)) ∧
    (ring ≠ ∅ → nodes.length = tries ∧
      nodes.map some =
        (List.range tries).map (fun index => ring.owner? (tryPoint hasher key index)) ∧
      ∀ calls, (sequence.afterCalls calls).next.1 =
          (if calls < tries then ring.owner? (tryPoint hasher key calls) else none) ∧
        (sequence.afterCalls calls).sizeHint = (0, some (tries - min calls tries))) ∧
    ∀ calls more, (sequence.afterCalls calls).next.1 = none →
      (sequence.afterCalls (calls + more)).next.1 = none := by
  intro sequence nodes
  refine ⟨?_, ?_, ?_⟩
  · intro empty
    have first : sequence.next = (none, { sequence with remaining := 0 }) := next_of_empty empty
    have ended : sequence.next.1 = none := by rw [first]
    refine ⟨by simp [nodes, takeAll, take, first], ?_⟩
    intro calls
    refine ⟨next_afterCalls_of_ended ended calls, ?_⟩
    rw [afterCalls_of_empty empty]
    rfl
  · intro occupied
    have found : nodes.map some =
        (List.range tries).map fun index => ring.owner? (tryPoint hasher key index) :=
      map_takeAll_start occupied
    have length := congrArg List.length found
    rw [List.length_map, List.length_map, List.length_range] at length
    refine ⟨length, found, fun calls => ⟨next_afterCalls_start occupied calls, ?_⟩⟩
    rw [afterCalls_start occupied]
    rfl
  · intro calls more ended
    rw [afterCalls_add]
    exact next_afterCalls_of_ended ended more

/-- The first retry goes on past the largest point, and one node is tried twice. -/
theorem tries_across_zero :
    let locator := build smallLayout [alpha, beta, gamma]
    let sequence := locator.failover "k0"
    let nothing := start ∅ .ketama "k0" 3
    locator.ring ≠ ∅ ∧ sequence.takeAll.1 = [beta, gamma, gamma] ∧
      tryPoint .ketama "k0" 1 < tryPoint .ketama "k0" 0 ∧
      (sequence.afterCalls 1).next.1 = locator.ring.owner? (tryPoint .ketama "k0" 1) ∧
      (sequence.afterCalls 2).sizeHint = (0, some 1) ∧
      (sequence.afterCalls 5).next.1 = none ∧
      nothing.takeAll.1 = [] ∧ (nothing.afterCalls 1).sizeHint = (0, some 0) := by
  intro locator sequence nothing
  have evaluated : locator.ring.owner? 0 ≠ none ∧ locator.nodes.size = 3 ∧
      sequence.takeAll.1 = [beta, gamma, gamma] ∧
      tryPoint .ketama "k0" 1 < tryPoint .ketama "k0" 0 := by
    decide +kernel
  rcases evaluated with ⟨answers, three, nodes, across⟩
  have occupied : locator.ring ≠ ∅ := fun empty => answers (Ring.owner?_eq_none_iff.mpr empty)
  have same : start locator.ring .ketama "k0" 3 = sequence := by
    rw [← three]
    exact (failover_eq_start locator "k0").symm
  rcases tries_owners locator.ring .ketama "k0" 3 with ⟨-, withOwners, lasts⟩
  rcases withOwners occupied with ⟨-, -, calls⟩
  rw [same] at calls lasts
  rcases (tries_owners ∅ .ketama "k0" 3).1 rfl with ⟨none_found, ended⟩
  exact ⟨occupied, nodes, across, (calls 1).1, (calls 2).2, lasts 3 2 (calls 3).1, none_found,
    (ended 0).2⟩

end Failover

namespace Locator

/-! ### The first try -/

variable {locator : Locator} {key : String}

theorem next_failover_of_active {node : Address} (active : node ∈ locator.nodes) :
    (locator.failover key).next.1 = locator.primary? key := by
  have left : (locator.failover key).remaining ≠ 0 := OrderedSet.size_ne_zero_iff.mpr ⟨node, active⟩
  exact Failover.next_of_left left

theorem next_failover_of_none_active (none_active : ∀ node, node ∉ locator.nodes) :
    (locator.failover key).next = (none, locator.failover key) := by
  apply Failover.next_of_exhausted
  change locator.nodes.size = 0
  by_contra some_active
  rcases OrderedSet.size_ne_zero_iff.mp some_active with ⟨node, active⟩
  exact none_active node active

theorem next_failover_eq_primary?_iff :
    (locator.failover key).next.1 = locator.primary? key ↔
      (∃ node, node ∈ locator.nodes) ∨ locator.ring = ∅ := by
  by_cases some_active : ∃ node, node ∈ locator.nodes
  · rcases some_active with ⟨node, active⟩
    exact iff_of_true (next_failover_of_active active) (.inl ⟨node, active⟩)
  · rw [next_failover_of_none_active (not_exists.mp some_active), or_iff_right some_active, eq_comm]
    exact Ring.owner?_eq_none_iff

/--
The first node to try is the primary, unless no node is active: then nothing is tried, even
if the live ring has owners. If migrations are prepared only while none but active nodes own
live points, such an owner is a joining node.
-/
theorem first_try_is_primary_iff (layout : Layout) (nodes : List Address) (events : List Event)
    (key : String) :
    let locator := (build layout nodes).after events
    let first := (locator.failover key).next.1
    (first = locator.primary? key ↔ (∃ node, node ∈ locator.nodes) ∨ locator.ring = ∅) ∧
    ((∀ node, node ∉ locator.nodes) → (locator.failover key).takeAll.1 = []) ∧
    (Obeys PreparesClean (build layout nodes) events →
      (first ≠ locator.primary? key ↔ (∀ node, node ∉ locator.nodes) ∧
        locator.kind? = some .join ∧ ∃ node ∈ locator.moving, locator.primary? key = some node)) := by
  intro locator first
  refine ⟨next_failover_eq_primary?_iff, ?_, ?_⟩
  · intro none_active
    rw [Failover.takeAll, Failover.take, next_failover_of_none_active none_active]
  · intro obeys
    have guarded : locator.Guarded := Reachable.guarded ⟨nodes, events, obeys, rfl⟩
    have skipped (none_active : ∀ node, node ∉ locator.nodes) : first = none :=
      congrArg Prod.fst (next_failover_of_none_active none_active)
    constructor
    · intro different
      have none_active : ∀ node, node ∉ locator.nodes :=
        fun node active => different (next_failover_of_active active)
      rw [skipped none_active] at different
      rcases Option.ne_none_iff_exists'.mp different.symm with ⟨node, routed⟩
      rcases MayServe.of_primary? guarded.knows_owners routed with active | ⟨joining, moving⟩
      · exact absurd active (none_active node)
      · exact ⟨none_active, joining, node, moving, routed⟩
    · rintro ⟨none_active, -, node, -, routed⟩
      rw [routed, skipped none_active]
      exact (Option.some_ne_none node).symm

/-- A joining node is tried where another one is active, and is not where it is the first node. -/
theorem joining_node_tried_beside_active_one :
    let events : List Event := [.prepareMigration .join [beta], .rangeApplied 5 5]
    let growing := (build smallLayout [alpha]).after events
    let forming := (build smallLayout []).after events
    Obeys PreparesClean (build smallLayout [alpha]) events ∧
      growing.kind? = some .join ∧ growing.primary? "k0" = some beta ∧
      (growing.failover "k0").next.1 = growing.primary? "k0" ∧
      Obeys PreparesClean (build smallLayout []) events ∧
      forming.kind? = some .join ∧ forming.primary? "k0" = some beta ∧
      (forming.failover "k0").next.1 ≠ forming.primary? "k0" := by
  intro events growing forming
  have obeys : Obeys PreparesClean (build smallLayout [alpha]) events ∧
      Obeys PreparesClean (build smallLayout []) events := by
    decide +kernel
  have grows : growing.kind? = some .join ∧ growing.primary? "k0" = some beta ∧
      alpha ∈ growing.nodes := by
    decide +kernel
  have forms : forming.kind? = some .join ∧ forming.primary? "k0" = some beta ∧
      (∀ node, node ∉ forming.nodes) ∧ beta ∈ forming.moving :=
    ⟨by decide +kernel, by decide +kernel,
      OrderedSet.isEmpty_iff_forall_not_mem.mp (by decide +kernel), by decide +kernel⟩
  rcases grows with ⟨joining, answered, active⟩
  rcases forms with ⟨alsoJoining, alsoAnswered, none_active, moving⟩
  rcases first_try_is_primary_iff smallLayout [alpha] events "k0" with ⟨-, -, differs_iff⟩
  rcases first_try_is_primary_iff smallLayout [] events "k0" with ⟨-, -, also_differs_iff⟩
  have tried : (growing.failover "k0").next.1 = growing.primary? "k0" :=
    Decidable.byContradiction fun different =>
      ((differs_iff obeys.1).mp different).1 alpha active
  have untried : (forming.failover "k0").next.1 ≠ forming.primary? "k0" :=
    (also_differs_iff obeys.2).mpr ⟨none_active, alsoJoining, beta, moving, alsoAnswered⟩
  exact ⟨obeys.1, joining, answered, tried, obeys.2, alsoJoining, alsoAnswered, untried⟩

/-- In a cluster without active nodes the first joining node answers for keys before it is tried. -/
theorem no_try_before_first_node_is_active :
    let locator := (build smallLayout []).after [.prepareMigration .join [beta], .rangeApplied 5 5]
    locator.primary? "k0" = some beta ∧ (locator.failover "k0").next.1 = none := by
  decide +kernel

end Locator

end ClusterRing
