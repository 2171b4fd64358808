import ClusterRing.Proofs.Locator.Agreement

/-!
# What membership events leave

A topology event and an alter change take the nodes that they name out of the
migration in progress, with what is staged of them, and leave the rest of the
migration as it is (`Releases`). Where they fail they stop halfway, but in an
orderly run they do not fail, so each comes down to the release of all its nodes
and the end of a migration that has run out of moving nodes.

Of a coherent locator the live ring need not be looked at: it follows from the
sets of nodes and from staging (`Coherent.mem_ring_iff`). Two locators that agree
on the sets, on the sweep and on staging are therefore the same
(`Coherent.eq_of_agrees`).
-/

namespace ClusterRing

/-- Whether an event changes which nodes are active or take part in the migration in progress. -/
def Event.isMembership : Event → Bool
  | .topology .. => true
  | .alterChange .. => true
  | _ => false

/-- The nodes that an event takes out of the migration in progress. -/
def Event.released : Event → List Address
  | .topology attached detached => attached ++ detached
  | .alterChange _ detached => detached
  | _ => []

namespace Locator

variable {locator before between after left right : Locator} {event : Event} {node : Address}
variable {named others attached detached : List Address} {placement : Placement}

/-- Nodes stop moving and what is staged of them is gone; the migration is otherwise as before. -/
structure Releases (named : List Address) (before after : Locator) : Prop where
  layout : after.layout = before.layout
  kind? : after.kind? = before.kind?
  sweep? : after.sweep? = before.sweep?
  staying : after.staying = before.staying
  moving : ∀ node, node ∈ after.moving ↔ node ∈ before.moving ∧ node ∉ named
  staging : ∀ placement, placement ∈ after.staging ↔
    placement ∈ before.staging ∧ placement.node ∉ named

namespace Releases

theorem refl (locator : Locator) : Releases [] locator locator :=
  ⟨rfl, rfl, rfl, rfl, by simp, by simp⟩

theorem trans (first : Releases named before between) (second : Releases others between after) :
    Releases (named ++ others) before after where
  layout := second.layout.trans first.layout
  kind? := second.kind?.trans first.kind?
  sweep? := second.sweep?.trans first.sweep?
  staying := second.staying.trans first.staying
  moving := by
    intro node
    rw [second.moving, first.moving, List.mem_append, not_or, and_assoc]
  staging := by
    intro placement
    rw [second.staging, first.staging, List.mem_append, not_or, and_assoc]

/-- All that is staged in a coherent locator belongs to moving nodes at their points. -/
theorem of_touches (touches : Touches node before after) (coherent : before.Coherent)
    (sweep? : after.sweep? = before.sweep?) : Releases [node] before after where
  layout := touches.layout
  kind? := touches.kind?
  sweep? := sweep?
  staying := touches.staying
  moving := by
    intro other
    rw [touches.moving, List.mem_singleton]
  staging := by
    intro placement
    rw [touches.staging, Layout.mem_placements_iff, List.mem_singleton]
    apply and_congr_right
    intro staged
    have moving := coherent.staged_moving placement staged
    have places := coherent.places placement (.inr staged)
    constructor
    · rintro kept rfl
      exact kept ⟨moving, rfl, places⟩
    · rintro different ⟨-, same, -⟩
      exact different same

theorem foldl {change : Locator → Address → Locator} (coherent : locator.Coherent)
    (each : ∀ locator node, locator.Coherent →
      (change locator node).Coherent ∧ Releases [node] locator (change locator node)) :
    (named.foldl change locator).Coherent ∧ Releases named locator (named.foldl change locator) := by
  induction named generalizing locator with
  | nil => exact ⟨coherent, refl locator⟩
  | cons node rest ih =>
      rcases each locator node coherent with ⟨next, released⟩
      rcases ih next with ⟨last, restReleased⟩
      exact ⟨last, released.trans restReleased⟩

end Releases

namespace Coherent

/--
A point of a moving node is live unless it is staged, and a point of any other node is
live exactly if the node is active.
-/
theorem mem_ring_iff (coherent : locator.Coherent) :
    placement ∈ locator.ring ↔ locator.layout.Places placement ∧
      (placement.node ∈ locator.moving ∧ placement ∉ locator.staging ∨
        placement.node ∉ locator.moving ∧ placement.node ∈ locator.nodes) := by
  constructor
  · intro live
    have places := coherent.places placement (.inl live)
    refine ⟨places, ?_⟩
    by_cases moving : placement.node ∈ locator.moving
    · exact .inl ⟨moving, (coherent.divided _ moving _ places).mp live⟩
    · exact .inr ⟨moving, (coherent.knows_owners placement live).resolve_right
        fun joining => moving joining.2⟩
  · rintro ⟨places, ⟨moving, not_staged⟩ | ⟨not_moving, active⟩⟩
    · exact (coherent.divided _ moving _ places).mpr not_staged
    · exact coherent.complete placement places active not_moving

/-- Coherent locators with the same sets of nodes, the same sweep and the same staging are equal. -/
theorem eq_of_agrees (leftCoherent : left.Coherent) (rightCoherent : right.Coherent)
    (agrees : left.Agrees right) (sweep? : left.sweep? = right.sweep?)
    (staging : ∀ placement, placement ∈ left.staging ↔ placement ∈ right.staging) :
    left = right := by
  apply eq_of_parts agrees.layout agrees.nodes
  case ring =>
    ext placement
    rw [leftCoherent.mem_ring_iff, rightCoherent.mem_ring_iff, agrees.layout, agrees.moving,
      agrees.nodes, staging]
  case staging => exact OrderedSet.ext staging
  case kind? => exact agrees.kind?
  case sweep? => exact sweep?
  case moving => exact agrees.moving
  case staying => exact agrees.staying

/-- Between migrations there is neither a sweep nor staging. -/
theorem eq_of_agrees_idle (leftCoherent : left.Coherent) (rightCoherent : right.Coherent)
    (agrees : left.Agrees right) (idle : right.migration = none) : left = right := by
  have leftIdle := agrees.idle_iff.mpr idle
  apply leftCoherent.eq_of_agrees rightCoherent agrees
  · rw [sweep?, sweep?, leftIdle, idle]
  · intro placement
    exact iff_of_false (not_mem_staging_of_idle leftIdle) (not_mem_staging_of_idle idle)

theorem releases_attach (coherent : locator.Coherent) (node : Address) :
    Releases [node] locator (locator.attach node) :=
  .of_touches touches_attach coherent attach_sweep?

theorem releases_detach (coherent : locator.Coherent) (node : Address) :
    Releases [node] locator (locator.detach node).locator :=
  .of_touches touches_detach coherent detach_sweep?

theorem releases_withdrawNode (coherent : locator.Coherent) (node : Address) :
    Releases [node] locator (locator.withdrawNode node).locator :=
  .of_touches touches_withdrawNode coherent withdrawNode_sweep?

end Coherent

theorem mem_nodes_foldl_attach :
    node ∈ (attached.foldl attach locator).nodes ↔ node ∈ locator.nodes ∨ node ∈ attached := by
  induction attached generalizing locator with
  | nil => simp
  | cons first rest ih =>
      rw [List.foldl_cons, ih, attach_nodes, OrderedSet.mem_insert, List.mem_cons]
      grind

theorem mem_nodes_foldl_detach :
    node ∈ (detached.foldl (fun locator node => (locator.detach node).locator) locator).nodes ↔
      node ∈ locator.nodes ∧ node ∉ detached := by
  induction detached generalizing locator with
  | nil => simp
  | cons first rest ih =>
      rw [List.foldl_cons, ih, mem_nodes_detach, List.mem_cons]
      grind

namespace Coherent

/-- An update attaches and detaches all its nodes before an empty migration ends. -/
theorem update_eq (coherent : locator.Coherent) (attached detached : List Address) :
    ∃ changed : Locator, changed.Coherent ∧ Releases (attached ++ detached) locator changed ∧
      (∀ node, node ∈ changed.nodes ↔
        (node ∈ locator.nodes ∨ node ∈ attached) ∧ node ∉ detached) ∧
      locator.update attached detached = ⟨changed.settle, .applied⟩ := by
  rcases Releases.foldl coherent fun locator node coherent =>
    ⟨coherent.attach node, coherent.releases_attach node⟩ with ⟨grown, attaches⟩
  rcases Releases.foldl grown fun locator node coherent =>
    ⟨coherent.detach node, coherent.releases_detach node⟩ with ⟨shrunk, detaches⟩
  refine ⟨_, shrunk, attaches.trans detaches, ?_, ?_⟩
  · intro node
    rw [mem_nodes_foldl_detach, mem_nodes_foldl_attach]
  · exact forEach_eq_foldl grown fun locator node coherent =>
      ⟨coherent.detach node, coherent.not_failed_detach node⟩

/-- A withdrawal withdraws all its nodes before an empty migration ends. -/
theorem withdraw_eq_foldl (coherent : locator.Coherent) (named : List Address) :
    let changed := named.foldl (fun locator node => (locator.withdrawNode node).locator) locator
    changed.Coherent ∧ Releases named locator changed ∧
      locator.withdraw named = ⟨changed.settle, .applied⟩ := by
  rcases Releases.foldl coherent fun locator node coherent =>
    ⟨coherent.withdrawNode node, coherent.releases_withdrawNode node⟩ with ⟨withdrawn, releases⟩
  exact ⟨withdrawn, releases, forEach_eq_foldl coherent fun locator node coherent =>
    ⟨coherent.withdrawNode node, coherent.not_failed_withdrawNode node⟩⟩

theorem withdraw_eq (coherent : locator.Coherent) (named : List Address) :
    ∃ changed : Locator, changed.Coherent ∧ Releases named locator changed ∧
      locator.withdraw named = ⟨changed.settle, .applied⟩ :=
  ⟨_, coherent.withdraw_eq_foldl named⟩

/-- What a membership event comes down to. -/
theorem receive_eq_of_membership (coherent : locator.Coherent)
    (membership : event.isMembership = true) :
    ∃ changed : Locator, changed.Coherent ∧ Releases event.released locator changed ∧
      locator.receive event = ⟨changed.settle, .applied⟩ := by
  cases event with
  | topology attached detached =>
      rcases coherent.update_eq attached detached with ⟨changed, next, releases, -, same⟩
      exact ⟨changed, next, releases, same⟩
  | alterChange attached detached => exact coherent.withdraw_eq detached
  | prepareMigration kind named => exact nomatch membership
  | rangeApplied start stop => exact nomatch membership

end Coherent

end Locator

end ClusterRing
