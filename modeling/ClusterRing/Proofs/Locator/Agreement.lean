import ClusterRing.Locator.Failover
import ClusterRing.Proofs.Locator.Convergence

/-!
# Clients that see different ranges

Range notifications may be lost, repeated or reordered on the way to a client.
They move points between the live ring and staging, but neither the active nodes
nor the moving and staying ones nor the kind of migration. In an orderly run the
other events treat these sets without regard to where the points are: they could
only look at the rings to fail, and none of them fails. So two clients agree on
the sets as long as they receive the same other events, and between migrations
their live rings agree as well.
-/

namespace ClusterRing

/-- Whether an event is a range notification. -/
def Event.isRange : Event → Bool
  | .rangeApplied .. => true
  | _ => false

/-- The events of a list that are not range notifications. -/
def withoutRanges (events : List Event) : List Event :=
  events.filter fun event => !event.isRange

theorem withoutRanges_cons_of_range {event : Event} (ranged : event.isRange = true)
    {rest : List Event} : withoutRanges (event :: rest) = withoutRanges rest := by
  simp [withoutRanges, ranged]

theorem withoutRanges_cons_of_not_range {event : Event} (other : ¬event.isRange = true)
    {rest : List Event} : withoutRanges (event :: rest) = event :: withoutRanges rest := by
  simp [withoutRanges, other]

namespace Locator

variable {locator left right : Locator} {event : Event}

theorem Orderly.of_range (ranged : event.isRange = true) : Orderly locator event := by
  cases event with
  | rangeApplied start stop => exact trivial
  | _ => exact nomatch ranged

/-- Locators with the same active, moving and staying nodes in the same kind of migration. -/
structure Agrees (left right : Locator) : Prop where
  layout : left.layout = right.layout
  nodes : left.nodes = right.nodes
  kind? : left.kind? = right.kind?
  moving : left.moving = right.moving
  staying : left.staying = right.staying

namespace Agrees

theorem refl (locator : Locator) : locator.Agrees locator :=
  ⟨rfl, rfl, rfl, rfl, rfl⟩

theorem symm (agrees : left.Agrees right) : right.Agrees left :=
  ⟨agrees.layout.symm, agrees.nodes.symm, agrees.kind?.symm, agrees.moving.symm,
    agrees.staying.symm⟩

theorem trans {middle : Locator} (first : left.Agrees middle) (second : middle.Agrees right) :
    left.Agrees right :=
  ⟨first.layout.trans second.layout, first.nodes.trans second.nodes,
    first.kind?.trans second.kind?, first.moving.trans second.moving,
    first.staying.trans second.staying⟩

theorem idle_iff (agrees : left.Agrees right) :
    left.migration = none ↔ right.migration = none := by
  rw [← kind?_eq_none_iff, ← kind?_eq_none_iff, agrees.kind?]

theorem of_idle (layout : left.layout = right.layout) (nodes : left.nodes = right.nodes)
    (leftIdle : left.migration = none) (rightIdle : right.migration = none) : left.Agrees right where
  layout := layout
  nodes := nodes
  kind? := by rw [kind?_eq_none_iff.mpr leftIdle, kind?_eq_none_iff.mpr rightIdle]
  moving := by simp [Locator.moving, leftIdle, rightIdle]
  staying := by simp [Locator.staying, leftIdle, rightIdle]

theorem of_touches {node : Address} {leftAfter rightAfter : Locator} (agrees : left.Agrees right)
    (leftTouches : Touches node left leftAfter) (rightTouches : Touches node right rightAfter)
    (active : node ∈ leftAfter.nodes ↔ node ∈ rightAfter.nodes) : leftAfter.Agrees rightAfter where
  layout := by rw [leftTouches.layout, rightTouches.layout, agrees.layout]
  nodes := by
    ext other
    by_cases same : other = node
    · rw [same]
      exact active
    · rw [leftTouches.nodes other same, rightTouches.nodes other same, agrees.nodes]
  kind? := by rw [leftTouches.kind?, rightTouches.kind?, agrees.kind?]
  moving := by
    ext other
    rw [leftTouches.moving, rightTouches.moving, agrees.moving]
  staying := by rw [leftTouches.staying, rightTouches.staying, agrees.staying]

theorem attach (agrees : left.Agrees right) (node : Address) :
    (left.attach node).Agrees (right.attach node) :=
  agrees.of_touches touches_attach touches_attach (by simp)

theorem detach (agrees : left.Agrees right) (node : Address) :
    (left.detach node).locator.Agrees (right.detach node).locator :=
  agrees.of_touches touches_detach touches_detach (by simp)

/-- A withdrawn node stays active only if its withdrawal fails, so neither may. -/
theorem withdrawNode (agrees : left.Agrees right) (leftCoherent : left.Coherent)
    (rightCoherent : right.Coherent) (node : Address) :
    (left.withdrawNode node).locator.Agrees (right.withdrawNode node).locator := by
  apply agrees.of_touches touches_withdrawNode touches_withdrawNode
  have leftSucceeds := leftCoherent.not_failed_withdrawNode node
  have rightSucceeds := rightCoherent.not_failed_withdrawNode node
  simp [mem_nodes_withdrawNode, leftSucceeds, rightSucceeds, agrees.nodes, agrees.moving,
    agrees.kind?]

theorem settle (agrees : left.Agrees right) : left.settle.Agrees right.settle := by
  by_cases moves : ∃ node, node ∈ left.moving
  · rcases moves with ⟨node, moves⟩
    rw [settle_eq_of_moving moves, settle_eq_of_moving (agrees.moving ▸ moves)]
    exact agrees
  · have none_moving := not_exists.mp moves
    apply of_idle
    · exact agrees.layout
    · exact agrees.nodes
    · exact settle_idle_of_none_moving none_moving
    · exact settle_idle_of_none_moving (agrees.moving ▸ none_moving)

theorem prepare (agrees : left.Agrees right) (kind : Migration.Kind) (named : List Address) :
    (left.prepare kind named).Agrees (right.prepare kind named) where
  layout := agrees.layout
  nodes := agrees.nodes
  kind? := by rw [prepare_kind?, prepare_kind?]
  moving := by
    ext node
    rw [mem_moving_prepare, mem_moving_prepare, agrees.nodes]
  staying := by
    ext node
    rw [mem_staying_prepare, mem_staying_prepare, agrees.nodes]

theorem advance_left (agrees : left.Agrees right) (start stop : Point) :
    (left.advance start stop).locator.Agrees right where
  layout := advance_layout.trans agrees.layout
  nodes := advance_nodes.trans agrees.nodes
  kind? := advance_kind?.trans agrees.kind?
  moving := advance_moving.trans agrees.moving
  staying := advance_staying.trans agrees.staying

theorem receive_left_of_range (agrees : left.Agrees right) (ranged : event.isRange = true) :
    (left.receive event).locator.Agrees right := by
  cases event with
  | rangeApplied start stop => exact agrees.advance_left start stop
  | _ => exact nomatch ranged

theorem foldl_attach (agrees : left.Agrees right) (attached : List Address) :
    (attached.foldl Locator.attach left).Agrees (attached.foldl Locator.attach right) := by
  induction attached generalizing left right with
  | nil => exact agrees
  | cons node rest ih => exact ih (agrees.attach node)

/-- Both sides carry out the whole list, because no step fails on either. -/
theorem forEach {step : Locator → Address → Outcome} (agrees : left.Agrees right)
    (leftCoherent : left.Coherent) (rightCoherent : right.Coherent)
    (each : ∀ left right node, Agrees left right → left.Coherent → right.Coherent →
      (step left node).locator.Agrees (step right node).locator)
    (coherent : ∀ locator node, locator.Coherent →
      (step locator node).locator.Coherent ∧ ¬(step locator node).Failed) (nodes : List Address) :
    (left.forEach step nodes).locator.Agrees (right.forEach step nodes).locator := by
  induction nodes generalizing left right with
  | nil => exact agrees.settle
  | cons node rest ih =>
      have leftNext := coherent left node leftCoherent
      have rightNext := coherent right node rightCoherent
      rw [forEach_cons_of_not_failed leftNext.2, forEach_cons_of_not_failed rightNext.2]
      exact ih (each left right node agrees leftCoherent rightCoherent) leftNext.1 rightNext.1

theorem update (agrees : left.Agrees right) (leftCoherent : left.Coherent)
    (rightCoherent : right.Coherent) (attached detached : List Address) :
    (left.update attached detached).locator.Agrees (right.update attached detached).locator := by
  apply forEach (agrees.foldl_attach attached) (leftCoherent.foldl_attach attached)
    (rightCoherent.foldl_attach attached)
  · intro left right node agrees _ _
    exact agrees.detach node
  · intro locator node coherent
    exact ⟨coherent.detach node, coherent.not_failed_detach node⟩

theorem withdraw (agrees : left.Agrees right) (leftCoherent : left.Coherent)
    (rightCoherent : right.Coherent) (nodes : List Address) :
    (left.withdraw nodes).locator.Agrees (right.withdraw nodes).locator := by
  apply forEach agrees leftCoherent rightCoherent
  · intro left right node agrees leftCoherent rightCoherent
    exact agrees.withdrawNode leftCoherent rightCoherent node
  · intro locator node coherent
    exact ⟨coherent.withdrawNode node, coherent.not_failed_withdrawNode node⟩

theorem receive (agrees : left.Agrees right) (leftCoherent : left.Coherent)
    (rightCoherent : right.Coherent) (event : Event) :
    (left.receive event).locator.Agrees (right.receive event).locator := by
  cases event with
  | topology attached detached => exact agrees.update leftCoherent rightCoherent attached detached
  | prepareMigration kind named => exact agrees.prepare kind named
  | rangeApplied start stop =>
      exact ((agrees.advance_left start stop).symm.advance_left start stop).symm
  | alterChange attached detached => exact agrees.withdraw leftCoherent rightCoherent detached

/-- Whether an event may arrive in an orderly run is a matter of the sets of nodes. -/
theorem orderly_iff (agrees : left.Agrees right) (leftCoherent : left.Coherent)
    (rightCoherent : right.Coherent) (event : Event) : Orderly left event ↔ Orderly right event := by
  cases event with
  | topology attached detached =>
      have ends := (agrees.update leftCoherent rightCoherent attached detached).idle_iff
      simp only [Orderly, agrees.kind?, agrees.staying, ends]
  | prepareMigration kind named =>
      change _ ∧ _ ↔ _ ∧ _
      rw [agrees.idle_iff, agrees.nodes]
  | rangeApplied start stop => exact Iff.rfl
  | alterChange attached detached => exact Iff.rfl

/-- Range notifications can be left out of an orderly run, or put in anywhere. -/
theorem obeys_iff (agrees : left.Agrees right) (leftInOrder : left.InOrder)
    (rightInOrder : right.InOrder) {events : List Event} :
    Obeys Orderly left events ↔ Obeys Orderly right (withoutRanges events) := by
  induction events generalizing left right with
  | nil => exact Iff.rfl
  | cons event rest ih =>
      by_cases ranged : event.isRange = true
      · rw [withoutRanges_cons_of_range ranged]
        constructor
        · rintro ⟨admitted, obeys⟩
          exact (ih (agrees.receive_left_of_range ranged) (leftInOrder.receive event admitted)
            rightInOrder).mp obeys
        · intro obeys
          have admitted : Orderly left event := .of_range ranged
          exact ⟨admitted, (ih (agrees.receive_left_of_range ranged)
            (leftInOrder.receive event admitted) rightInOrder).mpr obeys⟩
      · rw [withoutRanges_cons_of_not_range ranged]
        have admits := agrees.orderly_iff leftInOrder.toCoherent rightInOrder.toCoherent event
        have next := agrees.receive leftInOrder.toCoherent rightInOrder.toCoherent event
        constructor
        · rintro ⟨admitted, obeys⟩
          exact ⟨admits.mp admitted, (ih next (leftInOrder.receive event admitted)
            (rightInOrder.receive event (admits.mp admitted))).mp obeys⟩
        · rintro ⟨admitted, obeys⟩
          exact ⟨admits.mpr admitted, (ih next (leftInOrder.receive event (admits.mpr admitted))
            (rightInOrder.receive event admitted)).mpr obeys⟩

/-- A run agrees with the same run without its range notifications. -/
theorem after (agrees : left.Agrees right) (leftInOrder : left.InOrder)
    (rightInOrder : right.InOrder) {events : List Event} (obeys : Obeys Orderly left events) :
    (left.after events).Agrees (right.after (withoutRanges events)) := by
  induction events generalizing left right with
  | nil => exact agrees
  | cons event rest ih =>
      rcases obeys with ⟨admitted, obeys⟩
      have leftNext := leftInOrder.receive event admitted
      by_cases ranged : event.isRange = true
      · rw [withoutRanges_cons_of_range ranged]
        exact ih (agrees.receive_left_of_range ranged) leftNext rightInOrder obeys
      · rw [withoutRanges_cons_of_not_range ranged]
        have admits := agrees.orderly_iff leftInOrder.toCoherent rightInOrder.toCoherent event
        exact ih (agrees.receive leftInOrder.toCoherent rightInOrder.toCoherent event) leftNext
          (rightInOrder.receive event (admits.mp admitted)) obeys

/-- Between migrations agreement extends to the live rings, and so to the answers. -/
theorem ring_eq (agrees : left.Agrees right) (leftCoherent : left.Coherent)
    (rightCoherent : right.Coherent) (idle : left.migration = none) : left.ring = right.ring := by
  have leftFresh := leftCoherent.ring_eq idle
  have rightFresh := rightCoherent.ring_eq (agrees.idle_iff.mp idle)
  rw [leftFresh, rightFresh, agrees.layout, agrees.nodes]

end Agrees

theorem agrees_of_same_events {layout : Layout} {nodes : List Address} {left right : List Event}
    (leftObeys : Obeys Orderly (build layout nodes) left)
    (rightObeys : Obeys Orderly (build layout nodes) right)
    (same : withoutRanges left = withoutRanges right) :
    ((build layout nodes).after left).Agrees ((build layout nodes).after right) := by
  have start := InOrder.build layout nodes
  have leftAgrees := (Agrees.refl (build layout nodes)).after start start leftObeys
  have rightAgrees := (Agrees.refl (build layout nodes)).after start start rightObeys
  rw [same] at leftAgrees
  exact leftAgrees.trans rightAgrees.symm

/--
If a run is orderly, so is every other run with the same events apart from range
notifications. Whenever both have seen the same of these events, they agree on the
active, moving and staying nodes and on the kind of migration, and between
migrations on every answer.
-/
theorem agree_despite_ranges {layout : Layout} {nodes : List Address} {left right : List Event}
    (orderly : Obeys Orderly (build layout nodes) left)
    (same : withoutRanges left = withoutRanges right) :
    Obeys Orderly (build layout nodes) right ∧
    ∀ leftPast rightPast, leftPast <+: left → rightPast <+: right →
      withoutRanges leftPast = withoutRanges rightPast →
      let leftNow := (build layout nodes).after leftPast
      let rightNow := (build layout nodes).after rightPast
      leftNow.nodes = rightNow.nodes ∧ leftNow.kind? = rightNow.kind? ∧
      leftNow.moving = rightNow.moving ∧ leftNow.staying = rightNow.staying ∧
      (leftNow.migration = none →
        leftNow.ring = rightNow.ring ∧
        ∀ key, leftNow.primary? key = rightNow.primary? key ∧
          leftNow.failover key = rightNow.failover key) := by
  have start := InOrder.build layout nodes
  have refl := Agrees.refl (build layout nodes)
  have otherOrderly : Obeys Orderly (build layout nodes) right := by
    rw [refl.obeys_iff start start, ← same, ← refl.obeys_iff start start]
    exact orderly
  refine ⟨otherOrderly, ?_⟩
  intro leftPast rightPast leftEarlier rightEarlier samePast leftNow rightNow
  have leftObeys := orderly.of_prefix leftEarlier
  have rightObeys := otherOrderly.of_prefix rightEarlier
  have agrees : leftNow.Agrees rightNow := agrees_of_same_events leftObeys rightObeys samePast
  refine ⟨agrees.nodes, agrees.kind?, agrees.moving, agrees.staying, ?_⟩
  intro idle
  have leftReachable : Reachable Orderly layout leftNow := ⟨nodes, leftPast, leftObeys, rfl⟩
  have rightReachable : Reachable Orderly layout rightNow := ⟨nodes, rightPast, rightObeys, rfl⟩
  have ring := agrees.ring_eq leftReachable.inOrder.toCoherent rightReachable.inOrder.toCoherent idle
  refine ⟨ring, fun key => ⟨?_, ?_⟩⟩
  · rw [primary?, primary?, ring, agrees.layout]
  · rw [failover, failover, ring, agrees.layout, agrees.nodes]

/-- One client has swept half of the circle and the other nothing when the joining node arrives. -/
theorem agree_after_lost_range :
    let left : List Event := [.prepareMigration .join [gamma], .rangeApplied 5 3000000000,
      .topology [gamma] []]
    let right : List Event := [.prepareMigration .join [gamma], .topology [gamma] [],
      .rangeApplied 7 7]
    let leftNow := (build smallLayout [alpha, beta]).after left
    let rightNow := (build smallLayout [alpha, beta]).after right
    Obeys Orderly (build smallLayout [alpha, beta]) left ∧
      withoutRanges left = withoutRanges right ∧ leftNow.migration = none ∧
      leftNow.ring = rightNow.ring ∧ ∀ key, leftNow.primary? key = rightNow.primary? key := by
  intro left right leftNow rightNow
  have orderly : Obeys Orderly (build smallLayout [alpha, beta]) left := by decide +kernel
  have same : withoutRanges left = withoutRanges right := by decide
  have idle : leftNow.migration = none := by decide +kernel
  rcases agree_despite_ranges orderly same with ⟨-, agree⟩
  rcases agree left right (List.prefix_refl left) (List.prefix_refl right) same with
    ⟨-, -, -, -, answers⟩
  have answers := answers idle
  exact ⟨orderly, same, idle, answers.1, fun key => (answers.2 key).1⟩

end Locator

end ClusterRing
