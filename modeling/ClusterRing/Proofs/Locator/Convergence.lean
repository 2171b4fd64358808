import ClusterRing.Proofs.Locator.Division
import ClusterRing.Proofs.Locator.Service

/-!
# Convergence

In an orderly run a migration is prepared only while none is in progress, only
active nodes leave, and while nodes leave, no other node is attached than one
that stays, unless the migration ends with it. Then every active node that is not
moving owns all its points in the live ring, the points of moving nodes are
divided between the live ring and staging, and nobody else owns any. So no event
fails, and whenever no migration is in progress the live ring is the one that is
laid out afresh for the active nodes (`orderly_run_converges`).
-/

namespace ClusterRing.Locator

/-- The events that may arrive in an orderly run. -/
def Orderly : Locator → Event → Prop
  | locator, .topology attached detached =>
    locator.kind? = some .leave → (∃ node ∈ attached, node ∉ locator.staying) →
      (locator.update attached detached).locator.migration = none
  | locator, event => PreparesIdle locator event

instance (locator : Locator) (event : Event) : Decidable (Orderly locator event) :=
  match event with
  | .topology attached detached =>
    inferInstanceAs (Decidable (locator.kind? = some .leave →
      (∃ node ∈ attached, node ∉ locator.staying) →
        (locator.update attached detached).locator.migration = none))
  | .prepareMigration kind named =>
    inferInstanceAs (Decidable (PreparesIdle locator (.prepareMigration kind named)))
  | .rangeApplied .. => isTrue trivial
  | .alterChange .. => isTrue trivial

/-- Every point of an active or a moving node is where it has to be, and no other is owned. -/
structure Coherent (locator : Locator) : Prop extends locator.Guarded where
  complete : ∀ placement, locator.layout.Places placement → placement.node ∈ locator.nodes →
    placement.node ∉ locator.moving → placement ∈ locator.ring
  divided : locator.Divided
  staged_moving : ∀ placement ∈ locator.staging, placement.node ∈ locator.moving

/-- While nodes leave, the other active nodes stay. -/
def Covered (locator : Locator) : Prop :=
  locator.kind? = some .leave → ∀ node ∈ locator.nodes,
    node ∈ locator.moving ∨ node ∈ locator.staying

namespace Coherent

variable {locator : Locator}

theorem of_idle (guarded : locator.Guarded) (idle : locator.migration = none)
    (complete : ∀ placement, locator.layout.Places placement → placement.node ∈ locator.nodes →
      placement ∈ locator.ring) : locator.Coherent where
  toGuarded := guarded
  complete placement places active _ := complete placement places active
  divided := .of_idle idle
  staged_moving _ staged := absurd staged (not_mem_staging_of_idle idle)

theorem build (layout : Layout) (nodes : List Address) : (build layout nodes).Coherent := by
  apply of_idle (.build layout nodes) rfl
  intro placement places active
  exact Layout.mem_ring_iff.mpr ⟨OrderedSet.mem_ofList.mp active, places⟩

theorem live_or_staged (coherent : locator.Coherent) {placement : Placement}
    (places : locator.layout.Places placement) (moving : placement.node ∈ locator.moving) :
    placement ∈ locator.ring ∨ placement ∈ locator.staging := by
  have owned := coherent.divided placement.node moving placement.point places
  by_cases staged : placement ∈ locator.staging
  · exact .inr staged
  · exact .inl (owned.mpr staged)

theorem not_failed_detach (coherent : locator.Coherent) (node : Address) :
    ¬(locator.detach node).Failed := by
  rw [failed_detach_iff]
  rintro ⟨placement, placed, not_live, unowned⟩
  rcases Layout.mem_placements_iff.mp placed with ⟨rfl, places⟩
  rcases unowned with ⟨moving, not_staged⟩ | ⟨not_moving, active⟩
  · exact (coherent.live_or_staged places moving).elim not_live not_staged
  · exact not_live (coherent.complete placement places active not_moving)

theorem not_failed_withdrawNode (coherent : locator.Coherent) (node : Address) :
    ¬(locator.withdrawNode node).Failed := by
  rw [failed_withdrawNode_iff]
  rintro ⟨moving, placement, placed, not_staged, not_live⟩
  rcases Layout.mem_placements_iff.mp placed with ⟨rfl, places⟩
  exact (coherent.live_or_staged places moving).elim not_live not_staged

/-- Of the node that a change concerns, the points have to be live if it is active afterwards. -/
theorem of_touches {node : Address} {before after : Locator} (touches : Touches node before after)
    (coherent : before.Coherent) (guarded : after.Guarded)
    (complete : ∀ placement ∈ before.layout.placements node, node ∈ after.nodes →
      placement ∈ after.ring) : after.Coherent where
  toGuarded := guarded
  complete := by
    intro placement places active not_moving
    rw [touches.layout] at places
    by_cases same : placement.node = node
    · exact complete placement (Layout.mem_placements_iff.mpr ⟨same, places⟩) (same ▸ active)
    · rw [touches.ring_of_ne placement same]
      rw [touches.nodes placement.node same] at active
      apply coherent.complete placement places active
      intro moving
      exact not_moving ((touches.moving placement.node).mpr ⟨moving, same⟩)
  divided := coherent.divided.of_touches touches
  staged_moving := by
    intro placement staged
    have was_staged := ((touches.staging placement).mp staged).1
    exact touches.moving_of_staged (coherent.places placement (.inr was_staged))
      (coherent.staged_moving placement was_staged) staged

theorem attach (node : Address) (coherent : locator.Coherent) : (locator.attach node).Coherent := by
  apply coherent.of_touches touches_attach (coherent.toGuarded.attach node)
  intro placement placed _
  rcases Layout.mem_placements_iff.mp placed with ⟨rfl, places⟩
  rw [mem_ring_attach]
  by_cases moving : placement.node ∈ locator.moving
  · rcases coherent.live_or_staged places moving with live | staged
    · exact .inl live
    · exact .inr ⟨placed, fun _ => staged⟩
  · exact .inr ⟨placed, fun moves => absurd moves moving⟩

theorem detach (node : Address) (coherent : locator.Coherent) :
    (locator.detach node).locator.Coherent := by
  apply coherent.of_touches touches_detach (coherent.toGuarded.detach node)
  intro placement _ active
  exact absurd rfl (mem_nodes_detach.mp active).2

theorem withdrawNode (node : Address) (coherent : locator.Coherent) :
    (locator.withdrawNode node).locator.Coherent := by
  apply coherent.of_touches touches_withdrawNode (coherent.toGuarded.withdrawNode node)
  intro placement placed remains
  rcases Layout.mem_placements_iff.mp placed with ⟨rfl, places⟩
  rcases mem_nodes_withdrawNode.mp remains with ⟨active, kept⟩
  have not_moving : placement.node ∉ locator.moving := by
    intro moving
    cases kind : locator.kind? with
    | none => exact not_mem_moving_of_idle (kind?_eq_none_iff.mp kind) moving
    | some kind' =>
        cases kind' with
        | join => exact coherent.joining_inactive kind placement.node moving active
        | leave =>
            exact kept ⟨rfl, moving, kind, coherent.not_failed_withdrawNode placement.node⟩
  rw [mem_ring_withdrawNode]
  exact ⟨coherent.complete placement places active not_moving, fun purged => not_moving purged.2.1⟩

theorem settle (coherent : locator.Coherent) : locator.settle.Coherent := by
  rcases settle_cases locator with ⟨same, -⟩ | ⟨idle, none_moving⟩
  · rwa [same]
  · apply of_idle coherent.toGuarded.settle idle
    intro placement places active
    exact coherent.complete placement places active (none_moving placement.node)

theorem advance (start stop : Point) (coherent : locator.Coherent) (covered : locator.Covered) :
    (locator.advance start stop).locator.Coherent where
  toGuarded := coherent.toGuarded.advance start stop
  complete := by
    intro placement places active not_moving
    rw [advance_layout] at places
    rw [advance_nodes] at active
    rw [advance_moving] at not_moving
    refine mem_ring_advance.mpr (.inl ⟨coherent.complete placement places active not_moving, ?_⟩)
    intro retires
    exact retires.not_staying ((covered retires.leaving placement.node active).resolve_left
      not_moving)
  divided := coherent.divided.advance start stop
  staged_moving := by
    intro placement staged
    rw [advance_moving]
    rcases mem_staging_advance.mp staged with ⟨staged, -⟩ | retires
    · exact coherent.staged_moving placement staged
    · have leaving := retires.leaving
      have active : placement.node ∈ locator.nodes := by
        rcases coherent.knows_owners placement retires.live with active | ⟨joining, -⟩
        · exact active
        · rw [leaving] at joining
          exact nomatch joining
      exact (covered leaving placement.node active).resolve_right retires.not_staying

/-- Between migrations any preparation can divide the points, if only active nodes leave. -/
theorem divisible (coherent : locator.Coherent) (idle : locator.migration = none)
    {kind : Migration.Kind} {named : List Address}
    (leaving_active : kind = .leave → ∀ node ∈ named, node ∈ locator.nodes) :
    locator.Divisible kind named := by
  intro node member point placed
  cases kind with
  | join => exact fun inactive live => inactive (coherent.knows_owners.clean idle _ live)
  | leave =>
      exact coherent.complete ⟨point, node⟩ placed (leaving_active rfl node member)
        (not_mem_moving_of_idle idle)

theorem prepare {kind : Migration.Kind} {named : List Address} (coherent : locator.Coherent)
    (idle : locator.migration = none)
    (leaving_active : kind = .leave → ∀ node ∈ named, node ∈ locator.nodes) :
    (locator.prepare kind named).Coherent where
  toGuarded := coherent.toGuarded.prepare kind named (coherent.knows_owners.clean idle)
  complete _ places active _ :=
    coherent.complete _ places active (not_mem_moving_of_idle idle)
  divided := Divided.prepare_iff.mpr (coherent.divisible idle leaving_active)
  staged_moving _ staged := (mem_staging_prepare.mp staged).2.1

theorem foldl_attach (attached : List Address) (coherent : locator.Coherent) :
    (attached.foldl Locator.attach locator).Coherent :=
  foldl_attach_induction coherent fun _ node _ => Coherent.attach node

theorem update (attached detached : List Address) (coherent : locator.Coherent) :
    (locator.update attached detached).locator.Coherent :=
  update_induction coherent (fun _ node _ => Coherent.attach node)
    (fun _ node _ => Coherent.detach node) fun _ => Coherent.settle

theorem withdraw (nodes : List Address) (coherent : locator.Coherent) :
    (locator.withdraw nodes).locator.Coherent :=
  forEach_induction coherent (fun _ node _ => Coherent.withdrawNode node) fun _ => Coherent.settle

theorem not_failed_receive (coherent : locator.Coherent) (event : Event) :
    ¬(locator.receive event).Failed := by
  cases event with
  | topology attached detached =>
      exact not_failed_forEach (coherent.foldl_attach attached) fun locator node coherent =>
        ⟨coherent.detach node, coherent.not_failed_detach node⟩
  | prepareMigration kind named => simp [receive, Outcome.Failed]
  | rangeApplied start stop => exact not_failed_advance
  | alterChange attached detached =>
      exact not_failed_forEach coherent fun locator node coherent =>
        ⟨coherent.withdrawNode node, coherent.not_failed_withdrawNode node⟩

/-- Between migrations the live ring is the one laid out afresh for the active nodes. -/
theorem ring_eq (coherent : locator.Coherent) (idle : locator.migration = none) :
    locator.ring = locator.layout.ring locator.nodes.toList := by
  ext placement
  rw [Layout.mem_ring_iff, OrderedSet.mem_toList]
  constructor
  · intro live
    exact ⟨coherent.knows_owners.clean idle placement live, coherent.places placement (.inl live)⟩
  · rintro ⟨active, places⟩
    exact coherent.complete placement places active (not_mem_moving_of_idle idle)

end Coherent

namespace Covered

variable {locator : Locator}

theorem of_idle (idle : locator.migration = none) : locator.Covered := by
  intro leaving
  rw [kind?_eq_none_iff.mpr idle] at leaving
  exact nomatch leaving

/-- The node that a change concerns has to stay if it is active afterwards. -/
theorem of_touches {node : Address} {before after : Locator} (touches : Touches node before after)
    (covered : before.Covered)
    (stays : before.kind? = some .leave → node ∈ after.nodes → node ∈ before.staying) :
    after.Covered := by
  intro leaving other active
  rw [touches.kind?] at leaving
  rw [touches.moving, touches.staying]
  by_cases same : other = node
  · rw [same] at active ⊢
    exact .inr (stays leaving active)
  · rw [touches.nodes other same] at active
    exact (covered leaving other active).imp_left fun moving => ⟨moving, same⟩

theorem detach (node : Address) (covered : locator.Covered) :
    (locator.detach node).locator.Covered := by
  apply covered.of_touches touches_detach
  intro _ active
  exact absurd rfl (mem_nodes_detach.mp active).2

theorem withdrawNode (node : Address) (coherent : locator.Coherent) (covered : locator.Covered) :
    (locator.withdrawNode node).locator.Covered := by
  apply covered.of_touches touches_withdrawNode
  intro leaving remains
  rcases mem_nodes_withdrawNode.mp remains with ⟨active, kept⟩
  rcases covered leaving node active with moving | staying
  · exact absurd ⟨rfl, moving, leaving, coherent.not_failed_withdrawNode node⟩ kept
  · exact staying

theorem settle (covered : locator.Covered) : locator.settle.Covered :=
  settle_induction covered of_idle

theorem prepare (kind : Migration.Kind) (named : List Address) :
    (locator.prepare kind named).Covered := by
  intro leaving node active
  rw [prepare_kind?, Option.some.injEq] at leaving
  rw [mem_moving_prepare, mem_staying_prepare]
  rw [prepare_nodes] at active
  grind

theorem foldl_attach {attached : List Address} (covered : locator.Covered)
    (attaches : locator.kind? = some .leave → ∀ node ∈ attached, node ∈ locator.staying) :
    (attached.foldl Locator.attach locator).Covered := by
  induction attached generalizing locator with
  | nil => exact covered
  | cons node rest ih =>
      apply ih
      · apply covered.of_touches touches_attach
        intro leaving _
        exact attaches leaving node (by simp)
      · intro leaving other member
        rw [attach_kind?] at leaving
        rw [attach_staying]
        exact attaches leaving other (by simp [member])

theorem update {attached detached : List Address} (covered : locator.Covered)
    (attaches : locator.kind? = some .leave → ∀ node ∈ attached, node ∈ locator.staying) :
    (locator.update attached detached).locator.Covered :=
  forEach_induction (covered.foldl_attach attaches) (fun _ node _ => detach node) fun _ => settle

theorem advance (start stop : Point) (covered : locator.Covered) :
    (locator.advance start stop).locator.Covered := by
  intro leaving node active
  rw [advance_kind?] at leaving
  rw [advance_nodes] at active
  rw [advance_moving, advance_staying]
  exact covered leaving node active

end Covered

/-! ### Orderly runs -/

/-- What holds throughout an orderly run. -/
structure InOrder (locator : Locator) : Prop extends locator.Coherent where
  covered : locator.Covered

namespace InOrder

variable {locator : Locator}

theorem build (layout : Layout) (nodes : List Address) : (build layout nodes).InOrder where
  toCoherent := .build layout nodes
  covered := .of_idle rfl

theorem update {attached detached : List Address} (inOrder : locator.InOrder)
    (orderly : Orderly locator (.topology attached detached)) :
    (locator.update attached detached).locator.InOrder where
  toCoherent := inOrder.toCoherent.update attached detached
  covered := by
    by_cases idle : (locator.update attached detached).locator.migration = none
    · exact .of_idle idle
    · apply inOrder.covered.update
      intro leaving node member
      by_contra stranger
      exact idle (orderly leaving ⟨node, member, stranger⟩)

theorem withdraw (nodes : List Address) (inOrder : locator.InOrder) :
    (locator.withdraw nodes).locator.InOrder := by
  apply forEach_induction inOrder
  · intro current node _ inOrder
    exact ⟨inOrder.toCoherent.withdrawNode node,
      inOrder.covered.withdrawNode node inOrder.toCoherent⟩
  · intro current inOrder
    exact ⟨inOrder.toCoherent.settle, inOrder.covered.settle⟩

theorem receive (event : Event) (orderly : Orderly locator event) (inOrder : locator.InOrder) :
    (locator.receive event).locator.InOrder := by
  cases event with
  | topology attached detached => exact inOrder.update orderly
  | prepareMigration kind named =>
      exact ⟨inOrder.toCoherent.prepare orderly.1 orderly.2, .prepare kind named⟩
  | rangeApplied start stop =>
      exact ⟨inOrder.toCoherent.advance start stop inOrder.covered,
        inOrder.covered.advance start stop⟩
  | alterChange attached detached => exact inOrder.withdraw detached

end InOrder

theorem Reachable.inOrder {layout : Layout} {locator : Locator}
    (reachable : Reachable Orderly layout locator) : locator.InOrder :=
  reachable.invariant (InOrder.build layout) fun _ => InOrder.receive

/-- No migration is in progress, and the live ring is laid out afresh for the active nodes. -/
structure AtRest (locator : Locator) : Prop where
  idle : locator.migration = none
  ring_eq : locator.ring = (Locator.build locator.layout locator.nodes.toList).ring

namespace AtRest

variable {locator : Locator} {placement : Placement}

theorem mem_ring_iff (atRest : locator.AtRest) :
    placement ∈ locator.ring ↔ placement.node ∈ locator.nodes ∧ locator.layout.Places placement := by
  rw [atRest.ring_eq]
  exact Layout.mem_ring_iff

theorem build (layout : Layout) (nodes : List Address) : (build layout nodes).AtRest where
  idle := rfl
  ring_eq := (Coherent.build layout nodes).ring_eq rfl

theorem inOrder (atRest : locator.AtRest) : locator.InOrder where
  toCoherent := by
    apply Coherent.of_idle
    · exact {
        toWellFormed := .of_idle atRest.idle fun _ live => (atRest.mem_ring_iff.mp live).2
        knows_owners := fun _ live => .inl (atRest.mem_ring_iff.mp live).1
        not_live := fun _ staged => absurd staged (not_mem_staging_of_idle atRest.idle) }
    · exact atRest.idle
    · intro placement places active
      exact atRest.mem_ring_iff.mpr ⟨active, places⟩
  covered := .of_idle atRest.idle

end AtRest

/--
In an orderly run no event fails, and between migrations the live ring is the
one of a locator that is freshly built from the active nodes.
-/
theorem orderly_run_converges {layout : Layout} {locator : Locator}
    (reachable : Reachable Orderly layout locator) :
    (∀ event, ¬(locator.receive event).Failed) ∧
    (locator.migration = none →
      locator.ring = (build layout locator.nodes.toList).ring ∧
      locator.snapshot.ring = locator.ring) := by
  have coherent := reachable.inOrder.toCoherent
  refine ⟨coherent.not_failed_receive, ?_⟩
  intro idle
  have fresh := coherent.ring_eq idle
  exact ⟨by rw [fresh, reachable.layout_eq]; rfl, fresh.symm⟩

/-- A node joins over two ranges, one across zero, and another leaves halfway and is called back. -/
theorem converges_after_join_and_leave :
    let locator := (build smallLayout [alpha, beta]).after
      [.prepareMigration .join [gamma], .rangeApplied 3000000000 5, .rangeApplied 3000000000 7,
        .topology [gamma] [], .prepareMigration .leave [beta], .rangeApplied 1000000000 3000000000,
        .alterChange [] [beta]]
    Reachable Orderly smallLayout locator ∧ locator.migration = none ∧
      (∀ event, ¬(locator.receive event).Failed) ∧
      locator.ring = (build smallLayout locator.nodes.toList).ring := by
  intro locator
  have reachable : Reachable Orderly smallLayout locator := ⟨_, _, by decide +kernel, rfl⟩
  have idle : locator.migration = none := by decide +kernel
  rcases orderly_run_converges reachable with ⟨succeeds, fresh⟩
  exact ⟨reachable, idle, succeeds, (fresh idle).1⟩

end ClusterRing.Locator
