import ClusterRing.Ledger
import ClusterRing.Proofs.Bookkeeping
import ClusterRing.Proofs.Locator.Rebuild
import ClusterRing.Proofs.Locator.WellFormed

/-!
# What a ledger keeps

A ledger represents a locator if its fields say the same and its maps keep the rings.
Each event leaves a ledger that represents the locator that the event leaves, and ends
in the same way (`Represents.receive`), so what holds of all locators holds of the six
fields (`fields_after`).
-/

namespace ClusterRing

open Bookkeeping (placementsAt)

variable {layout : Layout} {node : Address}

namespace Layout

theorem placements_eq (layout : Layout) (node : Address) :
    layout.placements node = .ofList (placementsAt node (layout.points node).toList) := rfl

theorem mem_ring_cons {rest : List Address} {placement : Placement} :
    placement ∈ layout.ring (node :: rest) ↔
      placement ∈ layout.placements node ∨ placement ∈ layout.ring rest := by
  rw [mem_ring, mem_placements, mem_ring, List.mem_cons]
  constructor
  · rintro ⟨rfl | later, placed⟩
    · exact .inl ⟨rfl, placed⟩
    · exact .inr ⟨later, placed⟩
  · rintro (⟨rfl, placed⟩ | ⟨later, placed⟩)
    · exact ⟨.inl rfl, placed⟩
    · exact ⟨.inr later, placed⟩

theorem nodup_placementsAt (layout : Layout) (node : Address) :
    (placementsAt node (layout.points node).toList).Nodup :=
  (OrderedSet.nodup_toList (layout.points node)).map fun _ _ same => (Placement.mk.inj same).1

theorem size_placements (layout : Layout) (node : Address) :
    (layout.placements node).size = (layout.points node).toList.length := by
  rw [placements_eq, OrderedSet.size_ofList (layout.nodup_placementsAt node), placementsAt,
    List.length_map]

end Layout

namespace Locator

variable {locator : Locator} {migration : Migration}

theorem base?_congr {left right : Locator} (same : left.sweep? = right.sweep?) :
    left.base? = right.base? := by
  rw [base?, base?, same]

theorem last?_congr {left right : Locator} (same : left.sweep? = right.sweep?) :
    left.last? = right.last? := by
  rw [last?, last?, same]

theorem touches_purge (running : locator.migration = some migration)
    (moves : node ∈ locator.moving) :
    Touches node locator (locator.purge migration node).locator where
  layout := rfl
  kind? := purge_kind? running
  staying := purge_staying running
  nodes _ _ := Iff.rfl
  moving _ := mem_moving_purge running
  ring := by
    intro placement elsewhere
    simp [mem_ring_purge running, elsewhere]
  staging := by
    intro placement
    simp [mem_staging_purge running, moves]

end Locator

namespace Ledger

open Locator (Verdict smallLayout alpha beta)
open OwnerMap (Keeps)

/-- The ledger keeps what the locator knows. -/
structure Represents (ledger : Ledger) (locator : Locator) : Prop where
  layout : ledger.layout = locator.layout
  nodes : ledger.nodes = locator.nodes
  ring : ledger.ring.Keeps locator.ring
  kind : ledger.books.kind = locator.kind?
  base : ledger.books.base = locator.base?
  last : ledger.books.last = locator.last?
  moving : ledger.books.moving = locator.moving
  staying : ledger.books.staying = locator.staying
  staging : ledger.books.staging.Keeps locator.staging

/-- A breach is reported as the failure of an operation, and nothing else is. -/
def Reports (breach : Option Breach) (verdict : Verdict) : Prop :=
  ∀ cause, breach = some cause ↔ verdict = .failed cause

variable {ledger : Ledger} {locator : Locator}

theorem reports_ite (missing : Nat) (breach : Nat → Breach) :
    Reports (if missing = 0 then none else some (breach missing))
      (if missing = 0 then .applied else .failed (breach missing)) := by
  intro cause
  by_cases found : missing = 0 <;> simp [found]

/-- A purge of which no breach is reported was carried out. -/
theorem purge_applied_of_reports {migration : Migration}
    (reported : Reports none (locator.purge migration node).verdict) :
    (locator.purge migration node).verdict = .applied := by
  have cases : (locator.purge migration node).verdict = .applied ∨
      ∃ breach, (locator.purge migration node).verdict = .failed breach := by
    rw [Locator.purge]
    dsimp only
    split
    · exact .inl rfl
    · exact .inr ⟨_, rfl⟩
  rcases cases with applied | ⟨breach, failed⟩
  · exact applied
  · cases (reported breach).mpr failed

theorem attach_eq (ledger : Ledger) (node : Address) :
    ledger.attach node =
      let placed := ledger.insertPoints node
      { placed with nodes := placed.nodes.insert node } := by
  have moves : { ledger with nodes := ledger.nodes.insert node }.moves node = ledger.moves node := rfl
  simp only [attach, insertPoints, moves]
  split <;> rfl

/-- With nothing staged, to purge placements is to remove them from the live ring. -/
theorem foldl_removeOne_eq (placements : List Placement) (ring : OwnerMap) (missing : Nat) :
    placements.foldl removeOne (ring, missing) =
      (placements.foldl Bookkeeping.purgeOne (∅, ring, missing)).2 := by
  induction placements generalizing ring missing with
  | nil => rfl
  | cons first rest ih => exact ih _ _

namespace Represents

theorem moves (same : ledger.Represents locator) :
    ledger.moves node = decide (node ∈ locator.moving) := by
  rw [Ledger.moves, Bookkeeping.inProgress, same.kind, same.moving]
  cases kind : locator.kind? with
  | some _ => simp
  | none => simp [Locator.not_mem_moving_of_idle (Locator.kind?_eq_none_iff.mp kind)]

theorem points (same : ledger.Represents locator) (node : Address) :
    OrderedSet.ofList (placementsAt node (ledger.points node)) = locator.layout.placements node := by
  rw [Ledger.points, same.layout]
  rfl

theorem primary? (same : ledger.Represents locator) (key : String) :
    ledger.primary? key = locator.primary? key := by
  rw [Ledger.primary?, same.ring.owner?, same.layout]
  rfl

/-! ### Ending a migration -/

theorem of_idle (idle : locator.migration = none) (layout : ledger.layout = locator.layout)
    (nodes : ledger.nodes = locator.nodes) (ring : ledger.ring.Keeps locator.ring)
    (books : ledger.books = .atRest) : ledger.Represents locator where
  layout := layout
  nodes := nodes
  ring := ring
  kind := by rw [books, Locator.kind?_eq_none_iff.mpr idle]; rfl
  base := by simp [books, Bookkeeping.atRest, Locator.base?, Locator.sweep?, idle]
  last := by simp [books, Bookkeeping.atRest, Locator.last?, Locator.sweep?, idle]
  moving := by simp [books, Bookkeeping.atRest, Locator.moving, idle]
  staying := by simp [books, Bookkeeping.atRest, Locator.staying, idle]
  staging := by
    have nothing : locator.staging = ∅ := by simp [Locator.staging, idle]
    rw [books, nothing]
    exact .empty

theorem finish (same : ledger.Represents locator) : ledger.finish.Represents locator.settle := by
  rw [Ledger.finish]
  cases kind : ledger.books.kind with
  | none =>
      have idle : locator.migration = none := by
        rw [← Locator.kind?_eq_none_iff, ← same.kind, kind]
      rw [Locator.settle_of_idle idle]
      exact same
  | some _ =>
      dsimp only
      split
      · next empty =>
          rw [same.moving, OrderedSet.isEmpty_iff_forall_not_mem] at empty
          exact of_idle (Locator.settle_idle_of_none_moving empty) same.layout same.nodes same.ring rfl
      · next occupied =>
          have some_moving : ∃ node, node ∈ locator.moving := by
            rw [same.moving, OrderedSet.isEmpty_iff_forall_not_mem] at occupied
            exact Classical.not_forall_not.mp occupied
          rcases some_moving with ⟨node, moves⟩
          rw [Locator.settle_eq_of_moving moves]
          exact same

/-! ### Changes that concern one node -/

theorem of_touches {after : Locator} {next : Ledger} (same : ledger.Represents locator)
    (touches : Locator.Touches node locator after) (sweep? : after.sweep? = locator.sweep?)
    (layout : next.layout = ledger.layout) (nodes : next.nodes = after.nodes)
    (ring : next.ring.Keeps after.ring)
    (books : next.books = { ledger.books with
      moving := ledger.books.moving.erase node, staging := next.books.staging })
    (staging : next.books.staging.Keeps after.staging) : next.Represents after where
  layout := layout.trans (same.layout.trans touches.layout.symm)
  nodes := nodes
  ring := ring
  kind := by
    rw [books, touches.kind?]
    exact same.kind
  base := by
    rw [books, Locator.base?_congr sweep?]
    exact same.base
  last := by
    rw [books, Locator.last?_congr sweep?]
    exact same.last
  moving := by
    rw [books]
    ext other
    simp [same.moving, touches.moving]
  staying := by
    rw [books, touches.staying]
    exact same.staying
  staging := staging

/-- Of a node that does not move nothing has to be taken out of the books. -/
theorem books_eq (same : ledger.Represents locator) (not_moving : node ∉ locator.moving) :
    ledger.books = { ledger.books with
      moving := ledger.books.moving.erase node, staging := ledger.books.staging } := by
  rw [← same.moving] at not_moving
  rw [OrderedSet.erase_of_not_mem not_moving]

theorem attach (same : ledger.Represents locator) (node : Address) :
    (ledger.attach node).Represents (locator.attach node) := by
  have nodes : ledger.nodes.insert node = (locator.attach node).nodes := by
    rw [same.nodes, Locator.attach_nodes]
  have touches : Locator.Touches node locator (locator.attach node) := Locator.touches_attach
  by_cases moves : node ∈ locator.moving
  · have promotes : ledger.moves node = true := by simpa [same.moves] using moves
    have shape : ledger.attach node = _ := if_pos promotes
    rcases Bookkeeping.keeps_foldl_promoteOne same.staging same.ring
      (placementsAt node (ledger.points node)) with ⟨staged, promoted⟩
    rw [same.points] at staged promoted
    rw [shape]
    refine same.of_touches touches Locator.attach_sweep? rfl nodes (promoted.congr ?_) rfl
      (staged.congr ?_)
    · simp [Locator.mem_ring_attach, moves]
    · simp [Locator.mem_staging_attach, moves]
  · have inserts : ¬ledger.moves node = true := by simpa [same.moves] using moves
    have shape : ledger.attach node = _ := if_neg inserts
    have placed := same.ring.foldl_place (placementsAt node (ledger.points node))
    rw [same.points] at placed
    rw [shape]
    refine same.of_touches touches Locator.attach_sweep? rfl nodes (placed.congr ?_)
      (same.books_eq moves) (same.staging.congr ?_)
    · simp [Locator.mem_ring_attach, moves]
    · simp [Locator.mem_staging_attach, moves]

/-! ### Removing the points of a node -/

theorem length_points (same : ledger.Represents locator) :
    (ledger.points node).length = (locator.layout.placements node).size := by
  rw [Layout.size_placements, Ledger.points, same.layout]

theorem purge {migration : Migration} (same : ledger.Represents locator)
    (running : locator.migration = some migration) (moves : node ∈ locator.moving) :
    (ledger.purge node).2.Represents (locator.purge migration node).locator ∧
      Reports (ledger.purge node).1 (locator.purge migration node).verdict := by
  have distinct : (placementsAt node (ledger.points node)).Nodup :=
    ledger.layout.nodup_placementsAt node
  rcases Bookkeeping.keeps_foldl_purgeOne same.staging same.ring distinct 0 with
    ⟨staged, purged, counted⟩
  have listed := same.points node
  rw [Bookkeeping.countP_nowhere distinct, Nat.zero_add] at counted
  rw [listed] at staged purged counted
  constructor
  · refine same.of_touches (Locator.touches_purge running moves) (Locator.purge_sweep? running) rfl
      same.nodes (purged.congr ?_) rfl (staged.congr ?_)
    · simp [Locator.mem_ring_purge running]
    · simp [Locator.mem_staging_purge running]
  · have staging : locator.staging = migration.staging := by simp [Locator.staging, running]
    have verdict : (locator.purge migration node).verdict =
        if ((locator.layout.placements node \ migration.staging) \ locator.ring).size = 0 then
          .applied
        else
          .failed (.inNeitherRing
            ((locator.layout.placements node \ migration.staging) \ locator.ring).size
            (locator.layout.placements node).size node) := rfl
    rw [verdict, ← staging, ← counted, ← same.length_points]
    exact reports_ite _ (Breach.inNeitherRing · (ledger.points node).length node)

theorem removePoints (same : ledger.Represents locator) (not_moving : node ∉ locator.moving) :
    (ledger.removePoints node).2.Represents
        { locator with ring := locator.ring \ locator.layout.placements node } ∧
      Reports (ledger.removePoints node).1
        (if (locator.layout.placements node \ locator.ring).size = 0 then
          .applied
        else
          .failed (.notInRing (locator.layout.placements node \ locator.ring).size
            (locator.layout.placements node).size node)) := by
  have still : ¬ledger.moves node = true := by simpa [same.moves] using not_moving
  have distinct : (placementsAt node (ledger.points node)).Nodup :=
    ledger.layout.nodup_placementsAt node
  have listed := same.points node
  have all : locator.layout.placements node \ ∅ = locator.layout.placements node := by
    ext placement
    simp
  rcases Bookkeeping.keeps_foldl_purgeOne Keeps.empty same.ring distinct 0 with
    ⟨-, removed, counted⟩
  rw [Bookkeeping.countP_nowhere distinct, Nat.zero_add] at counted
  rw [← foldl_removeOne_eq, listed, all] at removed counted
  rw [Ledger.removePoints, if_neg still, ← counted, ← same.length_points]
  exact ⟨{ same with ring := removed },
    reports_ite _ (Breach.notInRing · (ledger.points node).length node)⟩

theorem deactivate (same : ledger.Represents locator) (node : Address) :
    (ledger.deactivate node).Represents (locator.deactivate node) :=
  { same with nodes := congrArg (OrderedSet.erase · node) same.nodes }

theorem detach (same : ledger.Represents locator) (node : Address) :
    (ledger.detach node).2.Represents (locator.detach node).locator ∧
      Reports (ledger.detach node).1 (locator.detach node).verdict := by
  have remaining := same.deactivate node
  rcases Locator.moving_cases locator node with
    ⟨migration, found, running, moves⟩ | ⟨absent, not_moving⟩
  · have moving : (ledger.deactivate node).moves node = true :=
      remaining.moves.trans (decide_eq_true moves)
    have shape : ledger.detach node = (ledger.deactivate node).purge node := by
      rw [Ledger.detach, same.moves, decide_eq_true moves, Bool.not_true, Bool.and_false,
        if_neg Bool.false_ne_true, Ledger.removePoints, if_pos moving]
    have detached : locator.detach node = (locator.deactivate node).purge migration node := by
      simp [Locator.detach, found, Locator.deactivate]
    rw [shape, detached]
    exact remaining.purge running moves
  · by_cases active : node ∈ locator.nodes
    · have shape : ledger.detach node = (ledger.deactivate node).removePoints node := by
        simp [Ledger.detach, same.nodes, active]
      have detached : locator.detach node =
          ⟨{ locator.deactivate node with ring := locator.ring \ locator.layout.placements node },
            if (locator.layout.placements node \ locator.ring).size = 0 then
              .applied
            else
              .failed (.notInRing (locator.layout.placements node \ locator.ring).size
                (locator.layout.placements node).size node)⟩ := by
        simp [Locator.detach, absent, active, Locator.deactivate]
      rw [shape, detached]
      exact remaining.removePoints not_moving
    · have shape : ledger.detach node = (none, ledger.deactivate node) := by
        simp [Ledger.detach, same.nodes, active, same.moves, not_moving]
      have detached : locator.detach node = ⟨locator, .ignored⟩ := by
        simp [Locator.detach, absent, active]
      have inactive : locator.nodes.erase node = locator.nodes :=
        OrderedSet.erase_of_not_mem active
      rw [shape, detached]
      exact ⟨{ same with nodes := remaining.nodes.trans inactive }, by simp [Reports]⟩

theorem withdrawNode_of_moving {migration : Migration} (same : ledger.Represents locator)
    (found : locator.migrationOf? node = some migration)
    (running : locator.migration = some migration) (moves : node ∈ locator.moving) :
    (ledger.withdrawNode node).2.Represents (locator.withdrawNode node).locator ∧
      Reports (ledger.withdrawNode node).1 (locator.withdrawNode node).verdict := by
  rcases same.purge running moves with ⟨purged, reported⟩
  have kind : (ledger.purge node).2.books.kind = some migration.kind := by
    rw [purged.kind, Locator.purge_kind? running, Locator.kind?, running]
    rfl
  rcases taken : ledger.purge node with ⟨_ | breach, next⟩
  · rw [taken] at purged reported kind
    have applied := purge_applied_of_reports reported
    rcases left : locator.purge migration node with ⟨after, verdict⟩
    rw [left] at purged reported applied
    subst applied
    have shape : ledger.withdrawNode node =
        (none, if next.books.kind = some .leave then next.deactivate node else next) := by
      rw [Ledger.withdrawNode, same.moving, if_pos moves, taken]
    change next.books.kind = _ at kind
    cases leaving : migration.kind with
    | join =>
        have withdrawn : locator.withdrawNode node = ⟨after, .applied⟩ := by
          simp [Locator.withdrawNode, found, left, leaving]
        have joins : next.books.kind ≠ some .leave := by simp [kind, leaving]
        rw [shape, withdrawn, if_neg joins]
        exact ⟨purged, reported⟩
    | leave =>
        have withdrawn : locator.withdrawNode node = ⟨after.deactivate node, .applied⟩ := by
          simp [Locator.withdrawNode, found, left, leaving, Locator.deactivate]
        have leaves : next.books.kind = some .leave := by simp [kind, leaving]
        rw [shape, withdrawn, if_pos leaves]
        exact ⟨purged.deactivate node, reported⟩
  · rw [taken] at purged reported
    rcases left : locator.purge migration node with ⟨after, verdict⟩
    rw [left] at purged reported
    obtain rfl : verdict = .failed breach := (reported breach).mp rfl
    have shape : ledger.withdrawNode node = (some breach, next) := by
      rw [Ledger.withdrawNode, same.moving, if_pos moves, taken]
    have withdrawn : locator.withdrawNode node = ⟨after, .failed breach⟩ := by
      simp [Locator.withdrawNode, found, left]
    rw [shape, withdrawn]
    exact ⟨purged, reported⟩

theorem withdrawNode (same : ledger.Represents locator) (node : Address) :
    (ledger.withdrawNode node).2.Represents (locator.withdrawNode node).locator ∧
      Reports (ledger.withdrawNode node).1 (locator.withdrawNode node).verdict := by
  rcases Locator.moving_cases locator node with
    ⟨migration, found, running, moves⟩ | ⟨-, not_moving⟩
  · exact same.withdrawNode_of_moving found running moves
  · have shape : ledger.withdrawNode node = (none, ledger) := by
      rw [Ledger.withdrawNode, if_neg (same.moving ▸ not_moving)]
    rw [shape, Locator.withdrawNode_of_not_moving not_moving]
    exact ⟨same, by simp [Reports]⟩

/-! ### Operations on several nodes -/

theorem forEach {step : Ledger → Address → Option Breach × Ledger}
    {step' : Locator → Address → Locator.Outcome} (same : ledger.Represents locator)
    (steps : ∀ {ledger : Ledger} {locator : Locator} (node : Address), ledger.Represents locator →
      (step ledger node).2.Represents (step' locator node).locator ∧
        Reports (step ledger node).1 (step' locator node).verdict)
    (nodes : List Address) :
    (ledger.forEach step nodes).ledger.Represents (locator.forEach step' nodes).locator ∧
      (ledger.forEach step nodes).verdict = (locator.forEach step' nodes).verdict := by
  induction nodes generalizing ledger locator with
  | nil => exact ⟨same.finish, rfl⟩
  | cons node rest ih =>
      rcases steps node same with ⟨next, reported⟩
      rcases taken : step ledger node with ⟨_ | breach, after⟩
      · rw [taken] at next reported
        have goes_on : ¬(step' locator node).Failed := by
          rintro ⟨breach, failed⟩
          cases (reported breach).mpr failed
        rw [Ledger.forEach, taken, Locator.forEach_cons_of_not_failed goes_on]
        exact ih next
      · rw [taken] at next reported
        have failed := (reported breach).mp rfl
        rw [Ledger.forEach, taken, Locator.forEach_cons_of_failed ⟨breach, failed⟩]
        exact ⟨next, failed.symm⟩

theorem foldl_attach (same : ledger.Represents locator) (nodes : List Address) :
    (nodes.foldl Ledger.attach ledger).Represents (nodes.foldl Locator.attach locator) := by
  induction nodes generalizing ledger locator with
  | nil => exact same
  | cons node rest ih => exact ih (same.attach node)

/-! ### Migrations -/

/-- The nodes that are not active move, and are staged wherever the layout puts them. -/
theorem foldl_stageJoining {staged : Ring} (keeps : ledger.books.staging.Keeps staged)
    (nodes : List Address) :
    let next := nodes.foldl stageJoining ledger
    next = { ledger with books := { ledger.books with
      moving := next.books.moving, staging := next.books.staging } } ∧
    (∀ other, other ∈ next.books.moving ↔
      other ∈ ledger.books.moving ∨ other ∈ nodes ∧ other ∉ ledger.nodes) ∧
    next.books.staging.Keeps
      (staged ∪ ledger.layout.ring (nodes.filter fun node => decide (node ∉ ledger.nodes))) := by
  induction nodes generalizing ledger staged with
  | nil => exact ⟨rfl, by simp, keeps.congr (by simp)⟩
  | cons node rest ih =>
      by_cases active : node ∈ ledger.nodes
      · have skipped : ledger.stageJoining node = ledger := if_pos active
        rcases ih keeps with ⟨shape, moving, staging⟩
        rw [List.foldl_cons, skipped]
        refine ⟨shape, fun other => ?_, staging.congr ?_⟩
        · rw [moving, List.mem_cons]
          by_cases first : other = node <;> simp [first, active]
        · simp [active]
      · have stages : ledger.stageJoining node = { ledger with books :=
            { ledger.books.stage node (ledger.points node) with
              moving := ledger.books.moving.insert node } } := if_neg active
        have placed : (ledger.stageJoining node).books.staging.Keeps
            (staged ∪ .ofList (placementsAt node (ledger.points node))) := by
          rw [stages]
          exact keeps.foldl_place _
        rcases ih placed with ⟨shape, moving, staging⟩
        rw [stages] at shape moving staging
        rw [List.foldl_cons, stages]
        refine ⟨shape, fun other => ?_, staging.congr fun placement => ?_⟩
        · rw [moving, List.mem_cons]
          by_cases first : other = node <;> simp [first, active]
        · have points : OrderedSet.ofList (placementsAt node (ledger.points node)) =
              ledger.layout.placements node := rfl
          have joins : (node :: rest).filter (fun node => decide (node ∉ ledger.nodes)) =
              node :: rest.filter fun node => decide (node ∉ ledger.nodes) := by
            simp [active]
          rw [points, joins]
          simp only [OrderedSet.mem_union, Layout.mem_ring_cons, or_assoc]

theorem prepare_join (same : ledger.Represents locator) (nodes : List Address) :
    (ledger.prepare .join nodes).Represents (locator.prepare .join nodes) := by
  let started := { ledger with books := ledger.books.start .join }
  let staged := nodes.foldl stageJoining started
  have nothing : started.books.staging.Keeps ∅ := .empty
  rcases foldl_stageJoining nothing nodes with ⟨shape, moving, staging⟩
  have layout : staged.layout = started.layout := (congrArg Ledger.layout shape :)
  have active : staged.nodes = started.nodes := (congrArg Ledger.nodes shape :)
  have live : staged.ring = started.ring := (congrArg Ledger.ring shape :)
  have staying : staged.books.staying = ∅ := congrArg (·.books.staying) shape
  exact {
    layout := layout.trans same.layout
    nodes := active.trans same.nodes
    ring := live ▸ same.ring
    kind := congrArg (·.books.kind) shape
    base := congrArg (·.books.base) shape
    last := congrArg (·.books.last) shape
    moving := by
      ext other
      rw [Locator.mem_moving_prepare, ← same.nodes]
      refine (moving other).trans ?_
      simp [started, Bookkeeping.start, Bookkeeping.clear]
    staying := by
      ext other
      rw [Locator.mem_staying_prepare, ← same.nodes]
      change other ∈ staged.books.staying ∪ staged.nodes ↔ _
      simp [staying, active, started]
    staging := by
      refine staging.congr fun placement => ?_
      rw [Locator.mem_staging_prepare, Locator.mem_moving_prepare, ← same.nodes, ← same.layout]
      simp [started, Layout.Places] }

theorem prepare_leave (same : ledger.Represents locator) (nodes : List Address) :
    (ledger.prepare .leave nodes).Represents (locator.prepare .leave nodes) where
  layout := same.layout
  nodes := same.nodes
  ring := same.ring
  kind := rfl
  base := rfl
  last := rfl
  moving := by
    ext other
    rw [Locator.mem_moving_prepare]
    simp [Ledger.prepare, Bookkeeping.start, Bookkeeping.clear]
  staying := by
    ext other
    rw [Locator.mem_staying_prepare]
    simp [Ledger.prepare, Bookkeeping.start, Bookkeeping.clear, same.nodes]
  staging := .empty

theorem prepare (same : ledger.Represents locator) (kind : Migration.Kind) (nodes : List Address) :
    (ledger.prepare kind nodes).Represents (locator.prepare kind nodes) := by
  cases kind with
  | join => exact same.prepare_join nodes
  | leave => exact same.prepare_leave nodes

/-! ### Ranges -/

/-- The first range sets the base, and later ones keep it. -/
theorem base_eq (same : ledger.Represents locator) (point : Point) :
    (if ledger.books.last = none then some point else ledger.books.base) =
      some (locator.base?.getD point) := by
  rw [same.last, same.base, Locator.last?, Locator.base?]
  cases locator.sweep? <;> simp

theorem of_swept {swept : Bookkeeping} {live : OwnerMap} {sweep : Migration.Sweep}
    {start stop : Point} (same : ledger.Represents locator)
    (reached : (locator.advance start stop).locator.sweep? = some sweep)
    (books : swept = { ledger.books with
      base := some sweep.base, last := some sweep.last, staging := swept.staging })
    (ring : live.Keeps (locator.advance start stop).locator.ring)
    (staging : swept.staging.Keeps (locator.advance start stop).locator.staging) :
    { ledger with books := swept, ring := live }.Represents (locator.advance start stop).locator where
  layout := same.layout.trans Locator.advance_layout.symm
  nodes := same.nodes.trans Locator.advance_nodes.symm
  ring := ring
  kind := by
    rw [books, Locator.advance_kind?]
    exact same.kind
  base := by
    rw [books, Locator.base?, reached]
    rfl
  last := by
    rw [books, Locator.last?, reached]
    rfl
  moving := by
    rw [books, Locator.advance_moving]
    exact same.moving
  staying := by
    rw [books, Locator.advance_staying]
    exact same.staying
  staging := staging

theorem advance_of_joining {start stop : Point} (same : ledger.Represents locator)
    (joining : locator.kind? = some .join) (accepted : locator.Accepts start stop) :
    (ledger.advance start stop).ledger.Represents (locator.advance start stop).locator ∧
      (ledger.advance start stop).verdict = (locator.advance start stop).verdict := by
  have needed : ledger.books.needsRange start stop = true :=
    (Bookkeeping.needsRange_eq same.last start stop).trans (Locator.accepts_iff.mp accepted).2
  have applied : ledger.books.applyRange ledger.ring start stop =
      (true, ledger.books.sweepJoining ledger.ring start stop) := by
    simp [Bookkeeping.applyRange, same.kind, joining, needed]
  rcases Bookkeeping.keeps_sweepJoining same.staging same.ring start stop with
    ⟨staging, ring, books⟩
  rw [same.base_eq] at books
  rw [Ledger.advance, applied]
  refine ⟨same.of_swept (Locator.sweep?_advance_of_joining joining accepted) books
    (ring.congr fun placement => ?_) (staging.congr fun placement => ?_), ?_⟩
  · rw [(Locator.mem_advance_of_joining joining accepted).1]
    simp [Migration.enter, Ring.takeRange, Locator.inRange_arc, same.last]
  · rw [(Locator.mem_advance_of_joining joining accepted).2]
    simp [Migration.enter, Ring.takeRange, Locator.inRange_arc, same.last]
  · exact (Locator.advance_verdict_of_accepts accepted).symm

theorem advance_of_leaving {start stop : Point} (same : ledger.Represents locator)
    (leaving : locator.kind? = some .leave) (accepted : locator.Accepts start stop) :
    (ledger.advance start stop).ledger.Represents (locator.advance start stop).locator ∧
      (ledger.advance start stop).verdict = (locator.advance start stop).verdict := by
  have needed : ledger.books.needsRange start stop = true :=
    (Bookkeeping.needsRange_eq same.last start stop).trans (Locator.accepts_iff.mp accepted).2
  have applied : ledger.books.applyRange ledger.ring start stop =
      (true, ledger.books.sweepLeaving ledger.ring start stop) := by
    simp [Bookkeeping.applyRange, same.kind, leaving, needed]
  rcases Bookkeeping.keeps_sweepLeaving same.staging same.ring start stop with
    ⟨staging, ring, books⟩
  rw [same.base_eq] at books
  rw [Ledger.advance, applied]
  refine ⟨same.of_swept (Locator.sweep?_advance_of_leaving leaving accepted) books
    (ring.congr fun placement => ?_) (staging.congr fun placement => ?_), ?_⟩
  · rw [(Locator.mem_advance_of_leaving leaving accepted).1]
    by_cases stays : placement.node ∈ locator.staying <;>
      simp [Migration.retire, Ring.takeOwners, Locator.inRange_arc, same.last, same.staying, stays]
  · rw [(Locator.mem_advance_of_leaving leaving accepted).2]
    by_cases stays : placement.node ∈ locator.staying <;>
      simp [Migration.retire, Ring.takeOwners, Locator.inRange_arc, same.last, same.staying, stays]
  · exact (Locator.advance_verdict_of_accepts accepted).symm

theorem applyRange_of_not_accepts {start stop : Point} (same : ledger.Represents locator)
    (ignored : ¬locator.Accepts start stop) :
    ledger.books.applyRange ledger.ring start stop = (false, ledger.books, ledger.ring) := by
  cases running : locator.kind? with
  | none => simp [Bookkeeping.applyRange, same.kind, running]
  | some kind =>
      have stale : Migration.needsRange locator.sweep? start stop = false := by
        simpa [Locator.accepts_iff, running] using ignored
      simp [Bookkeeping.applyRange, same.kind, running, Bookkeeping.needsRange_eq same.last, stale]

theorem advance (same : ledger.Represents locator) (start stop : Point) :
    (ledger.advance start stop).ledger.Represents (locator.advance start stop).locator ∧
      (ledger.advance start stop).verdict = (locator.advance start stop).verdict := by
  by_cases accepted : locator.Accepts start stop
  · rcases accepted.kind?_cases with joining | leaving
    · exact same.advance_of_joining joining accepted
    · exact same.advance_of_leaving leaving accepted
  · rw [Ledger.advance, same.applyRange_of_not_accepts accepted,
      Locator.advance_of_not_accepts accepted]
    exact ⟨same, rfl⟩

/-! ### Events -/

/-- A ledger and a locator do the same with an event. -/
theorem receive (same : ledger.Represents locator) (event : Event) :
    (ledger.receive event).ledger.Represents (locator.receive event).locator ∧
      (ledger.receive event).verdict = (locator.receive event).verdict := by
  cases event with
  | topology attached detached =>
      exact (same.foldl_attach attached).forEach (fun node same => same.detach node) detached
  | prepareMigration kind nodes => exact ⟨same.prepare kind nodes, rfl⟩
  | rangeApplied start stop => exact same.advance start stop
  | alterChange _ detached => exact same.forEach (fun node same => same.withdrawNode node) detached

theorem after (same : ledger.Represents locator) (events : List Event) :
    (ledger.after events).Represents (locator.after events) := by
  induction events generalizing ledger locator with
  | nil => exact same
  | cons event rest ih => exact ih (same.receive event).1

/-- A ledger is built by attaching its nodes one after the other. -/
theorem build (layout : Layout) (nodes : List Address) :
    (Ledger.build layout nodes).Represents (Locator.build layout nodes) := by
  have attaches : Ledger.build layout nodes = nodes.foldl Ledger.attach ⟨layout, ∅, ∅, .atRest⟩ := by
    rw [Ledger.build]
    congr 1
    funext ledger node
    exact (attach_eq ledger node).symm
  have none_active : (∅ : AddressSet) = .ofList [] := by
    ext node
    simp
  have empty : Represents ⟨layout, ∅, ∅, .atRest⟩ (Locator.build layout []) :=
    of_idle rfl rfl none_active .empty rfl
  rw [attaches, ← Locator.foldl_attach_build]
  exact empty.foldl_attach nodes

/-- Without a migration nothing is left in the books. -/
theorem books_atRest (same : ledger.Represents locator) (ended : ledger.books.kind = none) :
    ledger.books = .atRest := by
  have idle : locator.migration = none := by
    rw [← Locator.kind?_eq_none_iff, ← same.kind, ended]
  have unstaged : ledger.books.staging = ∅ := by
    ext ⟨point, owners⟩
    refine iff_of_false (fun listed => ?_) (OrderedMap.not_mem_empty _)
    rcases same.staging.owners listed with ⟨occupied, owned⟩
    apply occupied
    ext node
    simp [owned, Locator.not_mem_staging_of_idle idle]
  apply Bookkeeping.ext
  · exact ended
  · rw [same.base]
    simp [Locator.base?, Locator.sweep?, idle, Bookkeeping.atRest]
  · rw [same.last]
    simp [Locator.last?, Locator.sweep?, idle, Bookkeeping.atRest]
  · rw [same.moving]
    simp [Locator.moving, idle, Bookkeeping.atRest]
  · rw [same.staying]
    simp [Locator.staying, idle, Bookkeeping.atRest]
  · exact unstaged

end Represents

/-- What the six fields of the books keep to after any events, failed ones among them. -/
theorem fields_after (layout : Layout) (nodes : List Address) (events : List Event) :
    let ledger := (Ledger.build layout nodes).after events
    let books := ledger.books
    (∀ map ∈ [ledger.ring, books.staging], ∀ point owners, (point, owners) ∈ map →
      owners ≠ ∅ ∧ ∀ node ∈ owners, point ∈ ledger.layout.points node) ∧
    (∀ node ∈ books.moving, node ∉ books.staying) ∧
    (books.base = none ↔ books.last = none) ∧
    (books.kind = some .join →
      (∀ node ∈ books.moving, node ∉ ledger.nodes) ∧
      ∀ point owners, (point, owners) ∈ books.staging → ∀ node ∈ owners, node ∈ books.moving) ∧
    (books.kind = some .leave →
      ∀ point owners, (point, owners) ∈ books.staging → ∀ node ∈ owners, node ∉ books.staying) ∧
    (books.kind = none → books = .atRest) := by
  intro ledger books
  let locator := (Locator.build layout nodes).after events
  have same : ledger.Represents locator := (Represents.build layout nodes).after events
  have wellFormed : locator.WellFormed := (Locator.WellFormed.build layout nodes).after
  refine ⟨?_, ?_, ?_, ?_, ?_, same.books_atRest⟩
  · intro map member point owners listed
    rw [List.mem_cons, List.mem_singleton] at member
    rw [same.layout]
    rcases member with rfl | rfl
    · rcases same.ring.owners listed with ⟨occupied, owned⟩
      exact ⟨occupied, fun node owns => wellFormed.places ⟨point, node⟩ (.inl ((owned node).mp owns))⟩
    · rcases same.staging.owners listed with ⟨occupied, owned⟩
      exact ⟨occupied, fun node owns => wellFormed.places ⟨point, node⟩ (.inr ((owned node).mp owns))⟩
  · rw [same.moving, same.staying]
    exact wellFormed.not_staying
  · rw [same.base, same.last, Locator.base?, Locator.last?, Option.map_eq_none_iff,
      Option.map_eq_none_iff]
  · intro joining
    rw [same.kind] at joining
    rw [same.moving, same.nodes]
    refine ⟨wellFormed.joining_inactive joining, fun point owners listed node owns => ?_⟩
    exact wellFormed.joining_staged joining ⟨point, node⟩ (((same.staging.owners listed).2 node).mp owns)
  · intro leaving point owners listed node owns
    rw [same.kind] at leaving
    rw [same.staying]
    exact wellFormed.leaving_staged leaving ⟨point, node⟩ (((same.staging.owners listed).2 node).mp owns)

/-- The fields once a range has made the first of the joining node's four points live. -/
example :
    let ledger := (build smallLayout [alpha]).after
      [.prepareMigration .join [beta], .rangeApplied 1000000000 2000000000]
    ledger.books.kind = some .join ∧
      ledger.books.base = some 1000000000 ∧ ledger.books.last = some 2000000000 ∧
      ledger.books.moving.toList = [beta] ∧ ledger.books.staying.toList = [alpha] ∧
      ledger.books.staging.groups =
        [(2369157494, [beta]), (2959484410, [beta]), (4017229437, [beta])] ∧
      (1745397900, [beta]) ∈ ledger.ring.groups := by
  decide +kernel

end Ledger

end ClusterRing
