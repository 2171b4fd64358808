import ClusterRing.Bookkeeping
import ClusterRing.Proofs.Locator.Range
import ClusterRing.Proofs.Ring.Operations

/-!
# What the books of a migration keep

A map keeps a ring if it has the same placements and no point without owners. The
operations of a migration on its staging map and the live map, point by point and
piece by piece, leave maps that keep what the same operations on rings leave at once
(`keeps_foldl_promoteOne`, `keeps_foldl_purgeOne`, `keeps_sweepJoining`,
`keeps_sweepLeaving`).
-/

namespace ClusterRing

namespace OrderedSet

variable {α : Type} [Ord α] [Std.TransOrd α] [Std.LawfulEqOrd α]

/-- A list without repetitions has as many elements as its set. -/
theorem size_ofList {xs : List α} (distinct : xs.Nodup) : (ofList xs).size = xs.length :=
  ((List.perm_ext_iff_of_nodup (nodup_toList _) distinct).mpr fun _ => mem_ofList).length_eq

theorem erase_of_not_mem {set : OrderedSet α} {a : α} (absent : a ∉ set) : set.erase a = set := by
  ext other
  rw [mem_erase]
  constructor
  · exact And.left
  · intro member
    refine ⟨member, ?_⟩
    rintro rfl
    exact absent member

end OrderedSet

namespace OwnerMap

open Ring.Operation (members onMap onRing)

/-- A map has the placements of a ring, and no point without owners. -/
def Keeps (map : OwnerMap) (ring : Ring) : Prop :=
  ∃ assigned, map.Holds assigned ∧ placed assigned = members ring

namespace Keeps

variable {map : OwnerMap} {ring other : Ring} {placement : Placement} {interval : Interval}

theorem empty : Keeps ∅ ∅ :=
  ⟨_, holds_empty, by ext placement; simp [members]⟩

theorem congr (keeps : map.Keeps ring) (same : ∀ placement, placement ∈ ring ↔ placement ∈ other) :
    map.Keeps other :=
  OrderedSet.ext same ▸ keeps

theorem step (keeps : map.Keeps ring) (operation : Ring.Operation) :
    (operation.onMap map).2.Keeps (operation.onRing ring).2 := by
  rcases keeps with ⟨assigned, holds, same⟩
  rcases Ring.Operation.holds_onMap holds operation with ⟨next, nextHolds, nextSame⟩
  refine ⟨next, nextHolds, ?_⟩
  rw [nextSame, same, Ring.Operation.members_onRing]

theorem answer (keeps : map.Keeps ring) (operation : Ring.Operation) :
    (operation.onMap map).1 = (operation.onRing ring).1 := by
  rcases keeps with ⟨assigned, holds, same⟩
  have right := Ring.Operation.right_onMap holds operation
  rw [same] at right
  exact right.unique (Ring.Operation.right_onRing ring operation)

theorem place (keeps : map.Keeps ring) (placement : Placement) :
    (map.place placement).2.Keeps (ring.insert placement) :=
  keeps.step (.place placement)

theorem displace (keeps : map.Keeps ring) (placement : Placement) :
    (map.displace placement).2.Keeps (ring.erase placement) :=
  keeps.step (.displace placement)

theorem displace_fst (keeps : map.Keeps ring) (placement : Placement) :
    (map.displace placement).1 = decide (placement ∈ ring) :=
  keeps.answer (.displace placement)

theorem owner? (keeps : map.Keeps ring) (point : Point) : map.owner? point = ring.owner? point :=
  keeps.answer (.owner point)

/-- The owners of a point in the map are its owners in the ring, and there are some. -/
theorem owners (keeps : map.Keeps ring) {point : Point} {nodes : AddressSet}
    (listed : (point, nodes) ∈ map) :
    nodes ≠ ∅ ∧ ∀ node, node ∈ nodes ↔ ⟨point, node⟩ ∈ ring := by
  rcases keeps with ⟨assigned, holds, same⟩
  rcases holds.mem_iff.mp listed with ⟨rfl, occupied⟩
  exact ⟨occupied, fun node => Set.ext_iff.mp same ⟨point, node⟩⟩

/-! ### Several placements -/

theorem foldl_place (keeps : map.Keeps ring) (placements : List Placement) :
    (placements.foldl (fun map placement => (map.place placement).2) map).Keeps
      (ring ∪ .ofList placements) := by
  induction placements generalizing map ring with
  | nil => exact keeps.congr (by simp)
  | cons first rest ih =>
      refine (ih (keeps.place first)).congr fun placement => ?_
      simp only [OrderedSet.mem_union, OrderedSet.mem_insert, OrderedSet.mem_ofList, List.mem_cons]
      grind

theorem foldl_merge (keeps : map.Keeps ring) (entries : List (Point × AddressSet)) :
    (entries.foldl (fun map (point, owners) => map.merge point owners) map).Keeps
      (ring ∪ .ofList (entries.flatMap fun (point, owners) =>
        owners.toList.map fun node => ⟨point, node⟩)) := by
  induction entries generalizing map ring with
  | nil => exact keeps.congr (by simp)
  | cons first rest ih =>
      refine (ih (keeps.step (.merge first.1 first.2))).congr fun placement => ?_
      simp only [onRing, Ring.merge, OrderedSet.mem_union, OrderedSet.mem_ofList,
        List.flatMap_cons, List.mem_append, or_assoc]

/-! ### Ranges -/

theorem mem_taken_iff (keeps : map.Keeps ring) :
    placement ∈ (map.takeRange interval).1.flatMap (fun (point, owners) =>
        owners.toList.map fun node => (⟨point, node⟩ : Placement)) ↔
      placement ∈ (ring.takeRange [interval]).1 := by
  rcases keeps with ⟨assigned, holds, same⟩
  rw [taken_takeRange]
  have owned : placement.node ∈ assigned placement.point ↔ placement ∈ ring :=
    Set.ext_iff.mp same placement
  simp only [Ring.takeRange, Ring.inRange, List.any_cons, List.any_nil, Bool.or_false,
    OrderedSet.mem_filter, ← owned, ← holds.exists_owners_iff, List.mem_flatMap, List.mem_map]
  constructor
  · rintro ⟨⟨point, owners⟩, listed, node, member, rfl⟩
    rcases mem_within.mp listed with ⟨listed, inside⟩
    exact ⟨⟨owners, listed, member⟩, inside⟩
  · rintro ⟨⟨owners, listed, member⟩, inside⟩
    exact ⟨(placement.point, owners), mem_within.mpr ⟨listed, inside⟩, placement.node, member, rfl⟩

end Keeps

end OwnerMap

namespace Bookkeeping

open OwnerMap (Keeps)

variable {staging live : OwnerMap} {staged served : Ring}

/-! ### The points of one node -/

theorem keeps_promoteOne (keepsStaged : staging.Keeps staged) (keepsLive : live.Keeps served)
    (placement : Placement) :
    (promoteOne (staging, live) placement).1.Keeps (staged.erase placement) ∧
      (promoteOne (staging, live) placement).2.Keeps (served ∪ ({placement} ∩ staged)) := by
  refine ⟨keepsStaged.displace placement, ?_⟩
  simp only [promoteOne, keepsStaged.displace_fst, decide_eq_true_eq]
  split
  · next held =>
      refine (keepsLive.place placement).congr fun other => ?_
      by_cases same : other = placement <;> simp [same, held]
  · next absent =>
      refine keepsLive.congr fun other => ?_
      by_cases same : other = placement <;> simp [same, absent]

theorem keeps_foldl_promoteOne (keepsStaged : staging.Keeps staged)
    (keepsLive : live.Keeps served) (placements : List Placement) :
    (placements.foldl promoteOne (staging, live)).1.Keeps (staged \ .ofList placements) ∧
      (placements.foldl promoteOne (staging, live)).2.Keeps
        (served ∪ (.ofList placements ∩ staged)) := by
  induction placements generalizing staging live staged served with
  | nil => exact ⟨keepsStaged.congr (by simp), keepsLive.congr (by simp)⟩
  | cons first rest ih =>
      rcases keeps_promoteOne keepsStaged keepsLive first with ⟨unstaged, promoted⟩
      rcases ih unstaged promoted with ⟨restStaged, restLive⟩
      refine ⟨restStaged.congr fun placement => ?_, restLive.congr fun placement => ?_⟩
      · by_cases same : placement = first <;> simp [same]
      · by_cases same : placement = first <;> simp [same]

/-- Whether a placement is neither staged nor live. -/
def nowhere (staged served : Ring) (placement : Placement) : Bool :=
  decide (placement ∉ staged) && decide (placement ∉ served)

theorem keeps_purgeOne (keepsStaged : staging.Keeps staged) (keepsLive : live.Keeps served)
    (missing : Nat) (placement : Placement) :
    let state := purgeOne (staging, live, missing) placement
    state.1.Keeps (staged.erase placement) ∧
      state.2.1.Keeps (served \ ({placement} \ staged)) ∧
      state.2.2 = missing + [placement].countP (nowhere staged served) := by
  simp only [purgeOne, keepsStaged.displace_fst, keepsLive.displace_fst, decide_eq_true_eq]
  split
  · next held =>
      refine ⟨keepsStaged.displace placement, keepsLive.congr fun other => ?_, by simp [nowhere, held]⟩
      by_cases same : other = placement <;> simp [same, held]
  · next absent =>
      refine ⟨keepsStaged.displace placement, (keepsLive.displace placement).congr fun other => ?_, ?_⟩
      · by_cases same : other = placement <;> simp [same, absent]
      · by_cases served : placement ∈ served <;> simp [nowhere, absent, served]

theorem keeps_foldl_purgeOne (keepsStaged : staging.Keeps staged) (keepsLive : live.Keeps served)
    {placements : List Placement} (distinct : placements.Nodup) (missing : Nat) :
    let state := placements.foldl purgeOne (staging, live, missing)
    state.1.Keeps (staged \ .ofList placements) ∧
      state.2.1.Keeps (served \ (.ofList placements \ staged)) ∧
      state.2.2 = missing + placements.countP (nowhere staged served) := by
  induction placements generalizing staging live staged served missing with
  | nil => exact ⟨keepsStaged.congr (by simp), keepsLive.congr (by simp), rfl⟩
  | cons first rest ih =>
      rcases List.nodup_cons.mp distinct with ⟨fresh, distinct⟩
      rcases keeps_purgeOne keepsStaged keepsLive missing first with ⟨unstaged, purged, counted⟩
      rcases ih unstaged purged distinct (purgeOne (staging, live, missing) first).2.2 with
        ⟨restStaged, restLive, restCounted⟩
      have others : rest.countP (nowhere (staged.erase first) (served \ ({first} \ staged))) =
          rest.countP (nowhere staged served) := by
        refine List.countP_congr fun placement member => ?_
        have different : placement ≠ first := fun same => fresh (same ▸ member)
        simp [nowhere, different]
      refine ⟨restStaged.congr fun placement => ?_, restLive.congr fun placement => ?_, ?_⟩
      · by_cases same : placement = first <;> simp [same]
      · by_cases same : placement = first
        · by_cases held : first ∈ staged <;> simp [same, held, fresh]
        · simp [same]
      · have whole : (first :: rest).countP (nowhere staged served) =
            [first].countP (nowhere staged served) + rest.countP (nowhere staged served) := by
          rw [← List.countP_append, List.singleton_append]
        rw [List.foldl_cons, whole, ← Nat.add_assoc, ← counted, ← others]
        exact restCounted

theorem countP_nowhere {placements : List Placement} (distinct : placements.Nodup)
    (staged served : Ring) :
    placements.countP (nowhere staged served) =
      ((OrderedSet.ofList placements \ staged) \ served).size := by
  have same : (OrderedSet.ofList placements \ staged) \ served =
      .ofList (placements.filter (nowhere staged served)) := by
    ext placement
    simp [nowhere, and_assoc]
  rw [same, OrderedSet.size_ofList (distinct.filter _), List.countP_eq_length_filter]

/-! ### Ranges -/

variable {books : Bookkeeping}

theorem keeps_enter (keepsStaged : books.staging.Keeps staged) (keepsLive : live.Keeps served)
    (interval : Interval) :
    let next := enter interval (books, live)
    let rings := Migration.enter [interval] (served, staged)
    next.1.staging.Keeps rings.2 ∧ next.2.Keeps rings.1 := by
  refine ⟨keepsStaged.step (.takeRange interval), (keepsLive.foldl_merge _).congr fun placement => ?_⟩
  simp only [Migration.enter, OrderedSet.mem_union, OrderedSet.mem_ofList]
  exact or_congr_right keepsStaged.mem_taken_iff

theorem keeps_retire (keepsStaged : books.staging.Keeps staged) (keepsLive : live.Keeps served)
    (interval : Interval) :
    let next := retire interval (books, live)
    let rings := Migration.retire books.staying [interval] (served, staged)
    next.1.staging.Keeps rings.2 ∧ next.2.Keeps rings.1 := by
  let keep : Address → Bool := fun node => decide (node ∈ books.staying)
  have taken : (live.takeOwners interval keep).1 = (served.takeOwners [interval] keep).1.toList :=
    keepsLive.answer (.takeOwners interval keep)
  have retired := keepsStaged.foldl_place (live.takeOwners interval keep).1
  refine ⟨retired.congr fun placement => ?_, keepsLive.step (.takeOwners interval keep)⟩
  rw [OrderedSet.mem_union, OrderedSet.mem_ofList, taken, OrderedSet.mem_toList]
  exact OrderedSet.mem_union.symm

theorem keeps_foldl_enter (keepsStaged : books.staging.Keeps staged)
    (keepsLive : live.Keeps served) (intervals : List Interval) :
    let next := intervals.foldl (fun state interval => enter interval state) (books, live)
    let rings := Migration.enter intervals (served, staged)
    next.1.staging.Keeps rings.2 ∧ next.2.Keeps rings.1 ∧
      next.1 = { books with staging := next.1.staging } := by
  induction intervals generalizing books live staged served with
  | nil =>
      rw [Migration.enter_nil]
      exact ⟨keepsStaged, keepsLive, rfl⟩
  | cons interval rest ih =>
      rcases keeps_enter keepsStaged keepsLive interval with ⟨entered, keptLive⟩
      rw [Migration.enter_cons]
      exact ih entered keptLive

theorem keeps_foldl_retire (keepsStaged : books.staging.Keeps staged)
    (keepsLive : live.Keeps served) (intervals : List Interval) :
    let next := intervals.foldl (fun state interval => retire interval state) (books, live)
    let rings := Migration.retire books.staying intervals (served, staged)
    next.1.staging.Keeps rings.2 ∧ next.2.Keeps rings.1 ∧
      next.1 = { books with staging := next.1.staging } := by
  induction intervals generalizing books live staged served with
  | nil =>
      rw [Migration.retire_nil]
      exact ⟨keepsStaged, keepsLive, rfl⟩
  | cons interval rest ih =>
      rcases keeps_retire keepsStaged keepsLive interval with ⟨retired, keptLive⟩
      rw [Migration.retire_cons]
      exact ih retired keptLive

theorem needsRange_eq {sweep : Option Migration.Sweep} (reached : books.last = sweep.map (·.last))
    (start stop : Point) : books.needsRange start stop = Migration.needsRange sweep start stop := by
  unfold Bookkeeping.needsRange Migration.needsRange
  rw [reached]
  by_cases nothing : start = 0 ∧ stop = 0
  · rw [if_pos nothing, if_pos nothing]
  · rw [if_neg nothing, if_neg nothing]
    cases sweep with
    | none => rfl
    | some sweep =>
        simp only [Option.map_some, Point.onArc]
        rw [Bool.eq_iff_iff]
        by_cases circle : start = stop
        · subst circle
          simp [UInt32.lt_irrefl, UInt32.lt_iff_toNat_lt, UInt32.le_iff_toNat_le, ← UInt32.toNat_inj]
          omega
        · by_cases forward : start < stop
          · simp only [circle, forward, if_true, if_false, Bool.and_eq_true, decide_eq_true_eq]
            rw [UInt32.lt_iff_toNat_lt, UInt32.lt_iff_toNat_lt, UInt32.le_iff_toNat_le, ne_eq,
              ← UInt32.toNat_inj]
            omega
          · simp only [circle, forward, if_false, Bool.and_eq_true, Bool.or_eq_true,
              decide_eq_true_eq]
            rw [UInt32.lt_iff_toNat_lt] at forward
            rw [UInt32.lt_iff_toNat_lt, UInt32.lt_iff_toNat_lt, UInt32.le_iff_toNat_le, ne_eq,
              ← UInt32.toNat_inj]
            omega

/-- The first range sets the base, and each moves the boundary and what lies on its arc. -/
theorem keeps_sweepJoining (keepsStaged : books.staging.Keeps staged)
    (keepsLive : live.Keeps served) (start stop : Point) :
    let next := books.sweepJoining live start stop
    let rings := Migration.enter (Interval.arc (books.last.getD start) stop) (served, staged)
    next.1.staging.Keeps rings.2 ∧ next.2.Keeps rings.1 ∧
      next.1 = { books with
        base := if books.last = none then some start else books.base
        last := some stop
        staging := next.1.staging } := by
  rcases books with ⟨kind, base, _ | last, moving, staying, staging⟩
  · have keepsBased : (mk kind (some start) none moving staying staging).staging.Keeps staged :=
      keepsStaged
    rcases keeps_foldl_enter keepsBased keepsLive (Interval.arc start stop) with
      ⟨entered, keptLive, same⟩
    exact ⟨entered, keptLive, congrArg (fun books => { books with last := some stop }) same⟩
  · rcases keeps_foldl_enter keepsStaged keepsLive (Interval.arc last stop) with
      ⟨entered, keptLive, same⟩
    exact ⟨entered, keptLive, congrArg (fun books => { books with last := some stop }) same⟩

theorem keeps_sweepLeaving (keepsStaged : books.staging.Keeps staged)
    (keepsLive : live.Keeps served) (start stop : Point) :
    let next := books.sweepLeaving live start stop
    let rings := Migration.retire books.staying (Interval.arc start (books.last.getD stop))
      (served, staged)
    next.1.staging.Keeps rings.2 ∧ next.2.Keeps rings.1 ∧
      next.1 = { books with
        base := if books.last = none then some stop else books.base
        last := some start
        staging := next.1.staging } := by
  rcases books with ⟨kind, base, _ | last, moving, staying, staging⟩
  · have keepsBased : (mk kind (some stop) none moving staying staging).staging.Keeps staged :=
      keepsStaged
    rcases keeps_foldl_retire keepsBased keepsLive (Interval.arc start stop).reverse with
      ⟨retired, keptLive, same⟩
    rw [Migration.retire_reverse] at retired keptLive
    exact ⟨retired, keptLive, congrArg (fun books => { books with last := some start }) same⟩
  · rcases keeps_foldl_retire keepsStaged keepsLive (Interval.arc start last).reverse with
      ⟨retired, keptLive, same⟩
    rw [Migration.retire_reverse] at retired keptLive
    exact ⟨retired, keptLive, congrArg (fun books => { books with last := some start }) same⟩

end Bookkeeping

end ClusterRing
