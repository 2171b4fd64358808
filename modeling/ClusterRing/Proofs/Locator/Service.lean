import ClusterRing.Proofs.Locator.WellFormed
import Mathlib.Tactic.ByContra

/-!
# Who answers for keys

Only active nodes and joining ones should own live points. Joining nodes that
already serve swept ranges are at risk when a new migration is prepared: its
nodes replace them, or stage their points a second time, while the live ring
keeps what was swept. So the preparation of a migration is harmless exactly when
only active nodes own live points (`knows_owners_iff`).
-/

namespace ClusterRing

theorem Ring.exists_mem_of_owner? {ring : Ring} {point : Point} {node : Address}
    (owned : ring.owner? point = some node) : ∃ placement ∈ ring, placement.node = node := by
  rcases Option.map_eq_some_iff.mp owned with ⟨placement, located, rfl⟩
  rw [Ring.locate?, Option.or_eq_some_iff] at located
  refine ⟨placement, ?_, rfl⟩
  rcases located with found | ⟨-, first⟩
  · exact List.mem_of_find?_eq_some found
  · exact List.mem_of_mem_head? first

namespace Locator

/-- An active node may answer for keys, and during a joining migration a joining one. -/
def MayServe (locator : Locator) (node : Address) : Prop :=
  node ∈ locator.nodes ∨ locator.kind? = some .join ∧ node ∈ locator.moving

instance (locator : Locator) (node : Address) : Decidable (locator.MayServe node) :=
  inferInstanceAs (Decidable (_ ∨ _))

/-- Every owner of a live point may answer for keys. -/
def KnowsOwners (locator : Locator) : Prop :=
  ∀ placement ∈ locator.ring, locator.MayServe placement.node

/-- Only active nodes own live points. -/
def Clean (locator : Locator) : Prop :=
  ∀ placement ∈ locator.ring, placement.node ∈ locator.nodes

instance (locator : Locator) : Decidable locator.Clean :=
  inferInstanceAs (Decidable (∀ placement ∈ locator.ring, placement.node ∈ locator.nodes))

/-- A migration is prepared only while none but active nodes own live points. -/
def PreparesClean : Locator → Event → Prop :=
  Prepares fun locator _ _ => locator.Clean

instance (locator : Locator) (event : Event) : Decidable (PreparesClean locator event) :=
  inferInstanceAs (Decidable (Prepares _ locator event))

/-- What keeps strangers out of the live ring. -/
structure Guarded (locator : Locator) : Prop extends locator.WellFormed where
  knows_owners : locator.KnowsOwners
  /-- A staged point of a moving node is not live as well, so purging leaves nothing behind. -/
  not_live : ∀ placement ∈ locator.staging, placement.node ∈ locator.moving →
    placement ∉ locator.ring

theorem KnowsOwners.clean {locator : Locator} (knows : locator.KnowsOwners)
    (idle : locator.migration = none) : locator.Clean := by
  intro placement live
  rcases knows placement live with active | ⟨-, moving⟩
  · exact active
  · exact absurd moving (not_mem_moving_of_idle idle)

namespace Guarded

variable {locator : Locator}

theorem build (layout : Layout) (nodes : List Address) : (build layout nodes).Guarded where
  toWellFormed := .build layout nodes
  knows_owners := by
    intro placement live
    left
    exact OrderedSet.mem_ofList.mpr (Layout.mem_ring_iff.mp live).1
  not_live := fun _ staged => absurd staged (not_mem_staging_of_idle rfl)

/-- Only the node that a change concerns can become a stranger. -/
theorem of_touches {node : Address} {before after : Locator} (touches : Touches node before after)
    (guarded : before.Guarded)
    (known : ∀ placement ∈ after.ring, placement.node = node → node ∈ after.nodes) :
    after.Guarded where
  toWellFormed := guarded.toWellFormed.of_touches touches
  knows_owners := by
    intro placement live
    by_cases same : placement.node = node
    · left
      rw [same]
      exact known placement live same
    · rw [touches.ring_of_ne placement same] at live
      have served := guarded.knows_owners placement live
      rw [MayServe, touches.nodes placement.node same, touches.kind?, touches.moving]
      exact served.imp_right fun joining => ⟨joining.1, joining.2, same⟩
  not_live := by
    intro placement staged member
    rcases (touches.moving placement.node).mp member with ⟨moved, different⟩
    rw [touches.ring_of_ne placement different]
    exact guarded.not_live placement ((touches.staging placement).mp staged).1 moved

theorem attach (node : Address) (guarded : locator.Guarded) : (locator.attach node).Guarded := by
  apply guarded.of_touches touches_attach
  intro placement live same
  simp

theorem detach (node : Address) (guarded : locator.Guarded) :
    (locator.detach node).locator.Guarded := by
  apply guarded.of_touches touches_detach
  rintro placement remains rfl
  rcases mem_ring_detach.mp remains with ⟨live, kept⟩
  have placed := Layout.mem_placements_iff.mpr ⟨rfl, guarded.places placement (.inl live)⟩
  exfalso
  apply kept
  refine ⟨placed, ?_⟩
  by_cases moving : placement.node ∈ locator.moving
  · exact .inl ⟨moving, fun staged => guarded.not_live placement staged moving live⟩
  · exact .inr ⟨moving, (guarded.knows_owners placement live).resolve_right
      fun joining => moving joining.2⟩

theorem withdrawNode (node : Address) (guarded : locator.Guarded) :
    (locator.withdrawNode node).locator.Guarded := by
  apply guarded.of_touches touches_withdrawNode
  rintro placement remains rfl
  rcases mem_ring_withdrawNode.mp remains with ⟨live, kept⟩
  have placed := Layout.mem_placements_iff.mpr ⟨rfl, guarded.places placement (.inl live)⟩
  have not_moving : placement.node ∉ locator.moving := by
    intro moving
    exact kept ⟨placed, moving, fun staged => guarded.not_live placement staged moving live⟩
  rw [mem_nodes_withdrawNode]
  refine ⟨(guarded.knows_owners placement live).resolve_right fun joining => not_moving joining.2,
    fun purged => not_moving purged.2.1⟩

theorem settle (guarded : locator.Guarded) : locator.settle.Guarded := by
  rcases settle_cases locator with ⟨same, -⟩ | ⟨idle, none_moving⟩
  · rwa [same]
  · exact {
      toWellFormed := guarded.toWellFormed.settle
      knows_owners := fun placement live =>
        .inl ((guarded.knows_owners placement live).resolve_right
          fun joining => none_moving placement.node joining.2)
      not_live := fun _ staged => absurd staged (not_mem_staging_of_idle idle) }

theorem advance (start stop : Point) (guarded : locator.Guarded) :
    (locator.advance start stop).locator.Guarded where
  toWellFormed := guarded.toWellFormed.advance start stop
  knows_owners := by
    intro placement live
    rw [MayServe, advance_nodes, advance_kind?, advance_moving]
    rcases mem_ring_advance.mp live with ⟨live, -⟩ | enters
    · exact guarded.knows_owners placement live
    · exact .inr ⟨enters.joining, guarded.joining_staged enters.joining placement enters.staged⟩
  not_live := by
    intro placement staged member
    rw [advance_moving] at member
    rw [mem_staging_advance] at staged
    rw [mem_ring_advance]
    have not_live := guarded.not_live placement
    rcases staged with ⟨staged, waits⟩ | retires
    · grind
    · have leaving := retires.leaving
      grind [Enters]

theorem prepare (kind : Migration.Kind) (named : List Address) (guarded : locator.Guarded)
    (clean : locator.Clean) : (locator.prepare kind named).Guarded where
  toWellFormed := guarded.toWellFormed.prepare kind named
  knows_owners := fun placement live => .inl (clean placement live)
  not_live := by
    intro placement staged member live
    have active := clean placement live
    exact (mem_moving_prepare.mp member).2 (mem_staging_prepare.mp staged).1 active

theorem kept : Kept Guarded where
  attach _ node := attach node
  detach _ node := detach node
  withdrawNode _ node := withdrawNode node
  settle _ := settle
  advance _ start stop := advance start stop

theorem receive (event : Event) (admitted : PreparesClean locator event)
    (guarded : locator.Guarded) : (locator.receive event).locator.Guarded := by
  apply kept.receive guarded
  rintro kind named rfl
  exact guarded.prepare kind named admitted

end Guarded

variable {locator : Locator} {layout : Layout}

theorem Reachable.guarded (reachable : Reachable PreparesClean layout locator) :
    locator.Guarded :=
  reachable.invariant (Guarded.build layout) fun _ event => Guarded.receive event

theorem MayServe.of_primary? {key : String} {node : Address} (knows : locator.KnowsOwners)
    (routed : locator.primary? key = some node) : locator.MayServe node := by
  rcases Ring.exists_mem_of_owner? routed with ⟨placement, live, rfl⟩
  exact knows placement live

theorem update_detach_one (locator : Locator) (node : Address) :
    (locator.update [] [node]).locator = (locator.detach node).locator ∨
      (locator.update [] [node]).locator = (locator.detach node).locator.settle := by
  change (locator.forEach Locator.detach [node]).locator = _ ∨
    (locator.forEach Locator.detach [node]).locator = _
  by_cases failed : (locator.detach node).Failed
  · left
    rw [forEach_cons_of_failed failed]
  · right
    rw [forEach_cons_of_not_failed failed]
    rfl

/-- A live point that is staged too outlives its moving node. -/
theorem not_knowsOwners_of_detach {placement : Placement} (live : placement ∈ locator.ring)
    (moving : placement.node ∈ locator.moving) (staged : placement ∈ locator.staging) :
    ¬(locator.update [] [placement.node]).locator.KnowsOwners := by
  intro knows
  have remains : placement ∈ (locator.detach placement.node).locator.ring := by
    rw [mem_ring_detach]
    exact ⟨live, by simp [moving, staged]⟩
  rcases update_detach_one locator placement.node with same | same
  all_goals
    rw [same] at knows
    have served := knows placement remains
    simp [MayServe] at served

/--
Where an inactive node owns a live point, a preparation lets in a stranger: at
once, unless that node is to join again, and else as soon as it is detached, for
then only the staged copies of its points are purged.
-/
theorem exists_stranger_of_not_clean (guarded : locator.Guarded) (unclean : ¬locator.Clean)
    (kind : Migration.Kind) (named : List Address) :
    ∃ later, Obeys PreparesClean (locator.prepare kind named) later ∧
      ¬((locator.prepare kind named).after later).KnowsOwners := by
  have inactive : ∃ placement ∈ locator.ring, placement.node ∉ locator.nodes := by
    simpa [Clean] using unclean
  rcases inactive with ⟨placement, live, inactive⟩
  by_cases served : (locator.prepare kind named).MayServe placement.node
  · rcases served with active | ⟨joining, moving⟩
    · exact absurd active inactive
    · rw [prepare_kind?, Option.some.injEq] at joining
      have staged : placement ∈ (locator.prepare kind named).staging :=
        mem_staging_prepare.mpr ⟨joining, moving, guarded.places placement (.inl live)⟩
      refine ⟨[.topology [] [placement.node]], ⟨trivial, trivial⟩, ?_⟩
      exact not_knowsOwners_of_detach live moving staged
  · exact ⟨[], trivial, fun knows => served (knows placement live)⟩

/--
Keys are routed to active and joining nodes only, provided that migrations are
prepared while only active nodes own live points. A preparation at any other
time can be followed by events that leave a stranger in the live ring.
-/
theorem knows_owners_iff (reachable : Reachable PreparesClean layout locator) :
    locator.KnowsOwners ∧
    (∀ key node, locator.primary? key = some node → locator.MayServe node) ∧
    ∀ kind named, locator.Clean ↔
      ∀ later, Obeys PreparesClean (locator.prepare kind named) later →
        ((locator.prepare kind named).after later).KnowsOwners := by
  have guarded := reachable.guarded
  refine ⟨guarded.knows_owners, fun _ _ => .of_primary? guarded.knows_owners, ?_⟩
  intro kind named
  constructor
  · intro clean later obeys
    have prepared := guarded.prepare kind named clean
    exact (obeys.throughout prepared fun _ event => Guarded.receive event).last.knows_owners
  · intro safe
    by_contra unclean
    rcases exists_stranger_of_not_clean guarded unclean kind named with ⟨later, obeys, stranger⟩
    exact stranger (safe later obeys)

/-- The discarded migration has swept nothing yet, so the node that joins next is no stranger. -/
theorem knows_owners_after_unswept_preparation :
    let locator := (build smallLayout [alpha]).after
      [.prepareMigration .join [beta], .prepareMigration .join [gamma], .rangeApplied 5 5]
    Reachable PreparesClean smallLayout locator ∧ locator.primary? "k2" = some gamma ∧
      locator.MayServe gamma ∧ ¬locator.Clean := by
  intro locator
  have reachable : Reachable PreparesClean smallLayout locator := ⟨_, _, by decide +kernel, rfl⟩
  have routed : locator.primary? "k2" = some gamma := by decide +kernel
  rcases knows_owners_iff reachable with ⟨-, known, -⟩
  exact ⟨reachable, routed, known "k2" gamma routed, by decide +kernel⟩

/-- Once a joining node serves swept points, the next preparation makes it a stranger. -/
theorem stranger_after_second_preparation :
    let locator := (build smallLayout [alpha]).after
      [.prepareMigration .join [beta], .rangeApplied 5 5, .prepareMigration .join [gamma]]
    locator.primary? "k0" = some beta ∧ ¬locator.MayServe beta := by
  decide +kernel

end Locator

end ClusterRing
