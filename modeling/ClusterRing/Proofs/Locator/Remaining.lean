import ClusterRing.Proofs.Locator.Release

/-!
# Nodes that stay

The nodes that stay are written down when a migration is prepared, and the locator
should keep all of them active until it ends. A withdrawal concerns moving nodes only, and a
range none, but an update detaches a staying node without a word to the migration. So the
staying nodes are active throughout a run exactly when each update that reaches one of them
ends the migration (`stayers_active_throughout_iff`).
-/

namespace ClusterRing.Locator

/-- Every node that stays is active. -/
def StayersActive (locator : Locator) : Prop :=
  ∀ node ∈ locator.staying, node ∈ locator.nodes

/-- The nodes that an operation gets to: all that are named, or those up to the first that fails. -/
def reached (step : Locator → Address → Outcome) (locator : Locator) : List Address → List Address
  | [] => []
  | node :: rest =>
    match (step locator node).verdict with
    | .failed _ => [node]
    | _ => node :: reached step (step locator node).locator rest

/-- An update detaches no node that stays, unless the migration ends with it. -/
def Retains (locator : Locator) : Event → Prop
  | .topology attached detached =>
    (locator.update attached detached).locator.migration = none ∨
      ∀ node ∈ reached detach (attached.foldl attach locator) detached, node ∉ locator.staying
  | _ => True

instance (locator : Locator) (event : Event) : Decidable (Retains locator event) :=
  match event with
  | .topology attached detached =>
    have := List.decidableBAll (· ∉ locator.staying)
      (reached detach (attached.foldl attach locator) detached)
    inferInstanceAs (Decidable (_ ∨ _))
  | .prepareMigration .. => isTrue trivial
  | .rangeApplied .. => isTrue trivial
  | .alterChange .. => isTrue trivial

instance (locator : Locator) : Decidable locator.StayersActive :=
  inferInstanceAs (Decidable (∀ node ∈ locator.staying, node ∈ locator.nodes))

variable {locator : Locator} {node : Address} {attached detached nodes : List Address}

/-! ### Nodes that are reached -/

section Reached

variable {step : Locator → Address → Outcome}

theorem reached_cons_of_failed (failed : (step locator node).Failed) :
    reached step locator (node :: nodes) = [node] := by
  rcases failed with ⟨breach, failed⟩
  rw [reached, failed]

theorem reached_cons_of_not_failed (succeeded : ¬(step locator node).Failed) :
    reached step locator (node :: nodes) =
      node :: reached step (step locator node).locator nodes := by
  rw [reached]
  cases verdict : (step locator node).verdict with
  | applied => rfl
  | ignored => rfl
  | failed breach => exact absurd ⟨breach, verdict⟩ succeeded

end Reached

/-- What is detached before a failure stays detached. -/
theorem mem_nodes_forEach_detach :
    node ∈ (locator.forEach detach detached).locator.nodes ↔
      node ∈ locator.nodes ∧ node ∉ reached detach locator detached := by
  induction detached generalizing locator with
  | nil => simp [forEach, reached]
  | cons first rest ih =>
      by_cases failed : (locator.detach first).Failed
      · rw [forEach_cons_of_failed failed, reached_cons_of_failed failed, mem_nodes_detach,
          List.mem_singleton]
      · rw [forEach_cons_of_not_failed failed, reached_cons_of_not_failed failed, ih,
          mem_nodes_detach, List.mem_cons, not_or, and_assoc]

theorem mem_nodes_update : node ∈ (locator.update attached detached).locator.nodes ↔
    (node ∈ locator.nodes ∨ node ∈ attached) ∧
      node ∉ reached detach (attached.foldl attach locator) detached := by
  rw [update, mem_nodes_forEach_detach, mem_nodes_foldl_attach]

/-! ### One event -/

theorem not_mem_staying_of_idle (idle : locator.migration = none) : node ∉ locator.staying := by
  simp [staying, idle]

/-- Until a migration ends, nothing but a preparation changes who stays. -/
theorem kept_staying (staying : AddressSet) :
    Kept fun locator => locator.migration = none ∨ locator.staying = staying := by
  apply Kept.of_touches
  · rintro node before after touches (idle | same)
    · left
      rwa [← kind?_eq_none_iff, touches.kind?, kind?_eq_none_iff]
    · exact .inr (touches.staying.trans same)
  · intro locator kept
    rcases settle_cases locator with ⟨same, -⟩ | ⟨idle, -⟩
    · rwa [same]
    · exact .inl idle
  · rintro locator start stop (idle | same)
    · left
      rwa [← kind?_eq_none_iff, advance_kind?, kind?_eq_none_iff]
    · exact .inr (advance_staying.trans same)

theorem staying_receive_of_goes_on (event : Event)
    (other : ∀ kind named, event ≠ .prepareMigration kind named)
    (goes_on : (locator.receive event).locator.migration ≠ none) :
    (locator.receive event).locator.staying = locator.staying := by
  have kept := (kept_staying locator.staying).receive (.inr rfl)
    fun kind named same => absurd same (other kind named)
  exact kept.resolve_left goes_on

namespace StayersActive

theorem of_idle (idle : locator.migration = none) : locator.StayersActive :=
  fun _ stays => absurd stays (not_mem_staying_of_idle idle)

theorem settle (active : locator.StayersActive) : locator.settle.StayersActive :=
  settle_induction active of_idle

theorem prepare (kind : Migration.Kind) (named : List Address) :
    (locator.prepare kind named).StayersActive := by
  intro node stays
  exact (mem_staying_prepare.mp stays).1

theorem advance (start stop : Point) (active : locator.StayersActive) :
    (locator.advance start stop).locator.StayersActive := by
  unfold StayersActive
  rw [advance_staying, advance_nodes]
  exact active

/-- Only a moving node is withdrawn, and no moving node stays. -/
theorem withdrawNode (wellFormed : locator.WellFormed) (active : locator.StayersActive)
    (node : Address) : (locator.withdrawNode node).locator.StayersActive := by
  intro other stays
  rw [withdrawNode_staying] at stays
  refine mem_nodes_withdrawNode.mpr ⟨active other stays, ?_⟩
  rintro ⟨rfl, moving, -⟩
  exact wellFormed.not_staying other moving stays

theorem withdraw (wellFormed : locator.WellFormed) (active : locator.StayersActive)
    (nodes : List Address) : (locator.withdraw nodes).locator.StayersActive := by
  let invariant (current : Locator) := current.WellFormed ∧ current.StayersActive
  have last : invariant (locator.forEach Locator.withdrawNode nodes).locator := by
    apply forEach_induction ⟨wellFormed, active⟩
    · rintro current node - ⟨wellFormed, active⟩
      exact ⟨wellFormed.of_touches touches_withdrawNode, active.withdrawNode wellFormed node⟩
    · rintro current ⟨wellFormed, active⟩
      exact ⟨wellFormed.settle, active.settle⟩
  exact last.2

theorem update_iff (active : locator.StayersActive) :
    (locator.update attached detached).locator.StayersActive ↔
      Retains locator (.topology attached detached) := by
  by_cases idle : (locator.update attached detached).locator.migration = none
  · exact iff_of_true (of_idle idle) (.inl idle)
  · have same : (locator.update attached detached).locator.staying = locator.staying :=
      staying_receive_of_goes_on (.topology attached detached) (by simp) idle
    rw [Retains, or_iff_right idle, StayersActive, same]
    simp only [mem_nodes_update]
    constructor
    · intro remain node listed stays
      exact (remain node stays).2 listed
    · intro spared node stays
      exact ⟨.inl (active node stays), fun listed => spared node listed stays⟩

theorem receive_iff (wellFormed : locator.WellFormed) (active : locator.StayersActive)
    (event : Event) : (locator.receive event).locator.StayersActive ↔ Retains locator event := by
  cases event with
  | topology attached detached => exact active.update_iff
  | prepareMigration kind named => exact iff_of_true (prepare kind named) trivial
  | rangeApplied start stop => exact iff_of_true (active.advance start stop) trivial
  | alterChange attached detached => exact iff_of_true (active.withdraw wellFormed detached) trivial

theorem throughout_iff {events : List Event} (wellFormed : locator.WellFormed)
    (active : locator.StayersActive) :
    Throughout StayersActive locator events ↔ Obeys Retains locator events :=
  throughout_iff_obeys wellFormed active (fun _ event wellFormed => wellFormed.receive event)
    fun _ event wellFormed active => active.receive_iff wellFormed event

end StayersActive

theorem mem_staying_of_participant {text : String}
    (named : locator.participant text .leave = .ok (some node)) : node ∈ locator.staying := by
  rw [participant] at named
  cases read : Address.parse text with
  | error fault =>
      rw [read] at named
      exact nomatch named
  | ok other =>
      rw [read] at named
      have found : (if other ∈ locator.staying then some other else none) = some node :=
        Except.ok.inj named
      split at found
      · next stays => exact Option.some.inj found ▸ stays
      · exact nomatch found

/--
The nodes that stay are active throughout a run exactly when no update detaches one of them
while the migration goes on. A text then names no node for a leaving migration but an active one.
-/
theorem stayers_active_throughout_iff (layout : Layout) (nodes : List Address)
    (events : List Event) :
    (Throughout StayersActive (build layout nodes) events ↔
      Obeys Retains (build layout nodes) events) ∧
    (Obeys Retains (build layout nodes) events → ∀ text node,
      ((build layout nodes).after events).participant text .leave = .ok (some node) →
        node ∈ ((build layout nodes).after events).nodes) := by
  have active_iff : Throughout StayersActive (build layout nodes) events ↔
      Obeys Retains (build layout nodes) events :=
    StayersActive.throughout_iff (.build layout nodes) (.of_idle rfl)
  refine ⟨active_iff, ?_⟩
  intro obeys text node named
  exact (active_iff.mpr obeys).last node (mem_staying_of_participant named)

/-- One of two leaving nodes is detached, the other goes on leaving, and the third stays. -/
theorem staying_node_named_while_leaving :
    let events : List Event :=
      [.prepareMigration .leave [beta, gamma], .rangeApplied 5 5, .topology [] [beta]]
    let locator := (build smallLayout [alpha, beta, gamma]).after events
    Obeys Retains (build smallLayout [alpha, beta, gamma]) events ∧
      locator.kind? = some .leave ∧ gamma ∈ locator.moving ∧
      Throughout StayersActive (build smallLayout [alpha, beta, gamma]) events ∧
      locator.participant "a:1" .leave = .ok (some alpha) ∧ alpha ∈ locator.nodes := by
  intro events locator
  have obeys : Obeys Retains (build smallLayout [alpha, beta, gamma]) events := by decide +kernel
  have leaving : locator.kind? = some .leave ∧ gamma ∈ locator.moving := by decide +kernel
  have named : locator.participant "a:1" .leave = .ok (some alpha) := by decide +kernel
  rcases stayers_active_throughout_iff smallLayout [alpha, beta, gamma] events with
    ⟨active_iff, active_of_named⟩
  exact ⟨obeys, leaving.1, leaving.2, active_iff.mpr obeys, named,
    active_of_named obeys "a:1" alpha named⟩

/-- A node that is detached while another one leaves is still named as one that stays. -/
theorem detached_node_named_as_staying :
    let locator := (build smallLayout [alpha, beta, gamma]).after
      [.prepareMigration .leave [beta], .topology [] [alpha]]
    locator.participant "a:1" .leave = .ok (some alpha) ∧ alpha ∉ locator.nodes ∧
      ¬locator.StayersActive := by
  decide +kernel

end ClusterRing.Locator
