import ClusterRing.Proofs.Locator.Changes

/-!
# Runs

A run takes a locator through a list of events. An event that fails leaves a
locator too, and the run goes on from there. A discipline says which events may
arrive at which locators; a run obeys it if each of its events may.

`Kept.receive` reduces what an event preserves to what the elementary changes
preserve, and `Obeys.throughout` carries it from one event to a whole run.
-/

namespace ClusterRing.Locator

/-- The locator that a list of events leaves, whether or not they succeed. -/
def after (locator : Locator) (events : List Event) : Locator :=
  events.foldl (fun locator event => (locator.receive event).locator) locator

@[simp]
theorem after_nil {locator : Locator} : locator.after [] = locator := rfl

@[simp]
theorem after_cons {locator : Locator} {event : Event} {rest : List Event} :
    locator.after (event :: rest) = (locator.receive event).locator.after rest := rfl

theorem after_append {locator : Locator} {past rest : List Event} :
    locator.after (past ++ rest) = (locator.after past).after rest :=
  List.foldl_append

/-- Each event of a run may arrive at the locator that the events before it leave. -/
def Obeys (admits : Locator → Event → Prop) : Locator → List Event → Prop
  | _, [] => True
  | locator, event :: rest =>
    admits locator event ∧ Obeys admits (locator.receive event).locator rest

instance Obeys.decidable (admits : Locator → Event → Prop)
    [∀ locator event, Decidable (admits locator event)] :
    (locator : Locator) → (events : List Event) → Decidable (Obeys admits locator events)
  | _, [] => isTrue trivial
  | locator, event :: rest =>
    have : Decidable (Obeys admits (locator.receive event).locator rest) :=
      decidable admits (locator.receive event).locator rest
    inferInstanceAs (Decidable (admits locator event ∧ Obeys admits _ rest))

/-- The discipline that says when which migrations may be prepared, and admits everything else. -/
def Prepares (allows : Locator → Migration.Kind → List Address → Prop) : Locator → Event → Prop
  | locator, .prepareMigration kind named => allows locator kind named
  | _, _ => True

instance (allows : Locator → Migration.Kind → List Address → Prop)
    [∀ locator kind named, Decidable (allows locator kind named)]
    (locator : Locator) (event : Event) : Decidable (Prepares allows locator event) :=
  match event with
  | .prepareMigration kind named => inferInstanceAs (Decidable (allows locator kind named))
  | .topology .. => isTrue trivial
  | .rangeApplied .. => isTrue trivial
  | .alterChange .. => isTrue trivial

/-- A migration is prepared only while none is in progress, and only active nodes leave. -/
def PreparesIdle : Locator → Event → Prop :=
  Prepares fun locator kind named =>
    locator.migration = none ∧ (kind = .leave → ∀ node ∈ named, node ∈ locator.nodes)

instance (locator : Locator) (event : Event) : Decidable (PreparesIdle locator event) :=
  inferInstanceAs (Decidable (Prepares _ locator event))

/-- A property of the locators before, between and after the events of a run. -/
def Throughout (property : Locator → Prop) : Locator → List Event → Prop
  | locator, [] => property locator
  | locator, event :: rest =>
    property locator ∧ Throughout property (locator.receive event).locator rest

theorem Throughout.first {property : Locator → Prop} {locator : Locator} {events : List Event}
    (throughout : Throughout property locator events) : property locator := by
  cases events with
  | nil => exact throughout
  | cons event rest => exact throughout.1

theorem Throughout.last {property : Locator → Prop} {locator : Locator} {events : List Event}
    (throughout : Throughout property locator events) : property (locator.after events) := by
  induction events generalizing locator with
  | nil => exact throughout
  | cons event rest ih => exact ih throughout.2

/-- What each admitted event preserves holds throughout a run that obeys. -/
theorem Obeys.throughout {admits : Locator → Event → Prop} {invariant : Locator → Prop}
    {locator : Locator} {events : List Event} (obeys : Obeys admits locator events)
    (initial : invariant locator)
    (preserved : ∀ locator event, admits locator event → invariant locator →
      invariant (locator.receive event).locator) :
    Throughout invariant locator events := by
  induction events generalizing locator with
  | nil => exact initial
  | cons event rest ih =>
      rcases obeys with ⟨admitted, rest_obeys⟩
      exact ⟨initial, ih rest_obeys (preserved locator event admitted initial)⟩

/--
Where an event keeps a property exactly if it is admitted, the property holds throughout a run
exactly if the run obeys. What every event preserves may be assumed on the way.
-/
theorem throughout_iff_obeys {admits : Locator → Event → Prop}
    {background property : Locator → Prop} {locator : Locator} {events : List Event}
    (assumed : background locator) (initial : property locator)
    (preserved : ∀ locator event, background locator →
      background (locator.receive event).locator)
    (receive_iff : ∀ locator event, background locator → property locator →
      (property (locator.receive event).locator ↔ admits locator event)) :
    Throughout property locator events ↔ Obeys admits locator events := by
  induction events generalizing locator with
  | nil => exact iff_of_true initial trivial
  | cons event rest ih =>
      have next := preserved locator event assumed
      constructor
      · rintro ⟨-, throughout⟩
        have kept := throughout.first
        exact ⟨(receive_iff locator event assumed initial).mp kept, (ih next kept).mp throughout⟩
      · rintro ⟨admitted, obeys⟩
        have kept := (receive_iff locator event assumed initial).mpr admitted
        exact ⟨initial, (ih next kept).mpr obeys⟩

theorem obeys_append_iff {admits : Locator → Event → Prop} {locator : Locator}
    {first second : List Event} :
    Obeys admits locator (first ++ second) ↔
      Obeys admits locator first ∧ Obeys admits (locator.after first) second := by
  induction first generalizing locator with
  | nil => simp [Obeys]
  | cons event rest ih => simp [Obeys, ih, and_assoc]

theorem Obeys.of_prefix {admits : Locator → Event → Prop} {locator : Locator}
    {past events : List Event} (obeys : Obeys admits locator events) (earlier : past <+: events) :
    Obeys admits locator past := by
  rcases earlier with ⟨rest, rfl⟩
  exact (obeys_append_iff.mp obeys).1

/-- A locator that an obedient run from a freshly built one leads to. -/
def Reachable (admits : Locator → Event → Prop) (layout : Layout) (locator : Locator) : Prop :=
  ∃ nodes events, Obeys admits (build layout nodes) events ∧
    (build layout nodes).after events = locator

theorem Reachable.invariant {admits : Locator → Event → Prop} {invariant : Locator → Prop}
    {layout : Layout} {locator : Locator} (reachable : Reachable admits layout locator)
    (initial : ∀ nodes, invariant (build layout nodes))
    (preserved : ∀ locator event, admits locator event → invariant locator →
      invariant (locator.receive event).locator) : invariant locator := by
  rcases reachable with ⟨nodes, events, obeys, rfl⟩
  exact (obeys.throughout (initial nodes) preserved).last

/-! ### Operations on several nodes -/

variable {invariant : Locator → Prop} {locator : Locator} {nodes attached detached : List Address}

theorem foldl_attach_induction (initial : invariant locator)
    (attach : ∀ locator node, node ∈ nodes → invariant locator →
      invariant (locator.attach node)) :
    invariant (nodes.foldl Locator.attach locator) := by
  induction nodes generalizing locator with
  | nil => exact initial
  | cons node rest ih =>
      apply ih
      · exact attach locator node (by simp) initial
      · intro locator other member
        exact attach locator other (by simp [member])

theorem forEach_cons_of_failed {step : Locator → Address → Outcome} {node : Address}
    (failed : (step locator node).Failed) :
    locator.forEach step (node :: nodes) = step locator node := by
  rcases failed with ⟨breach, failed⟩
  rcases taken : step locator node with ⟨stopped, verdict⟩
  rw [taken] at failed
  change verdict = .failed breach at failed
  simp [forEach, taken, failed]

theorem forEach_cons_of_not_failed {step : Locator → Address → Outcome} {node : Address}
    (succeeded : ¬(step locator node).Failed) :
    locator.forEach step (node :: nodes) = (step locator node).locator.forEach step nodes := by
  rcases taken : step locator node with ⟨next, verdict⟩
  rw [taken] at succeeded
  cases verdict with
  | applied => simp [forEach, taken]
  | ignored => simp [forEach, taken]
  | failed breach => exact absurd ⟨breach, rfl⟩ succeeded

theorem forEach_induction {step : Locator → Address → Outcome} (initial : invariant locator)
    (each : ∀ locator node, node ∈ nodes → invariant locator →
      invariant (step locator node).locator)
    (settle : ∀ locator, invariant locator → invariant locator.settle) :
    invariant (locator.forEach step nodes).locator := by
  induction nodes generalizing locator with
  | nil => exact settle locator initial
  | cons node rest ih =>
      have next := each locator node (by simp) initial
      by_cases failed : (step locator node).Failed
      · rwa [forEach_cons_of_failed failed]
      · rw [forEach_cons_of_not_failed failed]
        apply ih next
        intro locator other member
        exact each locator other (by simp [member])

/-- Steps that do not fail are all taken, and then a migration without moving nodes ends. -/
theorem forEach_eq_foldl {step : Locator → Address → Outcome} (initial : invariant locator)
    (each : ∀ locator node, invariant locator →
      invariant (step locator node).locator ∧ ¬(step locator node).Failed) :
    locator.forEach step nodes =
      ⟨(nodes.foldl (fun locator node => (step locator node).locator) locator).settle,
        .applied⟩ := by
  induction nodes generalizing locator with
  | nil => rfl
  | cons node rest ih =>
      rcases each locator node initial with ⟨next, succeeded⟩
      rw [forEach_cons_of_not_failed succeeded, List.foldl_cons]
      exact ih next

theorem not_failed_forEach {step : Locator → Address → Outcome} (initial : invariant locator)
    (each : ∀ locator node, invariant locator →
      invariant (step locator node).locator ∧ ¬(step locator node).Failed) :
    ¬(locator.forEach step nodes).Failed := by
  rw [forEach_eq_foldl initial each]
  simp [Outcome.Failed]

theorem update_induction (initial : invariant locator)
    (attach : ∀ locator node, node ∈ attached → invariant locator →
      invariant (locator.attach node))
    (detach : ∀ locator node, node ∈ detached → invariant locator →
      invariant (locator.detach node).locator)
    (settle : ∀ locator, invariant locator → invariant locator.settle) :
    invariant (locator.update attached detached).locator :=
  forEach_induction (foldl_attach_induction initial attach) detach settle

/-- A property that every change keeps, the preparation of a migration apart. -/
structure Kept (invariant : Locator → Prop) : Prop where
  attach : ∀ locator node, invariant locator → invariant (locator.attach node)
  detach : ∀ locator node, invariant locator → invariant (locator.detach node).locator
  withdrawNode : ∀ locator node, invariant locator → invariant (locator.withdrawNode node).locator
  settle : ∀ locator, invariant locator → invariant locator.settle
  advance : ∀ locator start stop, invariant locator →
    invariant (locator.advance start stop).locator

/-- It is enough to see what happens to the other nodes when a change concerns one. -/
theorem Kept.of_touches
    (touched : ∀ node before after, Touches node before after → invariant before → invariant after)
    (settle : ∀ locator, invariant locator → invariant locator.settle)
    (advance : ∀ locator start stop, invariant locator →
      invariant (locator.advance start stop).locator) : Kept invariant where
  attach locator node := touched node locator _ touches_attach
  detach locator node := touched node locator _ touches_detach
  withdrawNode locator node := touched node locator _ touches_withdrawNode
  settle := settle
  advance := advance

theorem Kept.receive {event : Event} (kept : Kept invariant) (initial : invariant locator)
    (prepare : ∀ kind named, event = .prepareMigration kind named →
      invariant (locator.prepare kind named)) :
    invariant (locator.receive event).locator := by
  cases event with
  | topology attached detached =>
      exact update_induction initial (fun locator node _ => kept.attach locator node)
        (fun locator node _ => kept.detach locator node) kept.settle
  | prepareMigration kind named => exact prepare kind named rfl
  | rangeApplied start stop => exact kept.advance locator start stop initial
  | alterChange attached detached =>
      exact forEach_induction initial (fun locator node _ => kept.withdrawNode locator node)
        kept.settle

theorem Kept.reachable {admits : Locator → Event → Prop} {layout : Layout} (kept : Kept invariant)
    (reachable : Reachable admits layout locator) (initial : ∀ nodes, invariant (build layout nodes))
    (prepare : ∀ locator kind named, admits locator (.prepareMigration kind named) →
      invariant locator → invariant (locator.prepare kind named)) : invariant locator := by
  apply reachable.invariant initial
  intro locator event admitted holds
  apply kept.receive holds
  rintro kind named rfl
  exact prepare locator kind named admitted holds

theorem kept_layout (layout : Layout) : Kept fun locator => locator.layout = layout :=
  .of_touches (fun _ _ _ touches same => touches.layout.trans same) (fun _ same => same)
    fun _ _ _ same => advance_layout.trans same

theorem receive_layout (event : Event) : (locator.receive event).locator.layout = locator.layout :=
  (kept_layout locator.layout).receive rfl fun _ _ _ => rfl

theorem after_layout {events : List Event} : (locator.after events).layout = locator.layout := by
  induction events generalizing locator with
  | nil => rfl
  | cons event rest ih => exact ih.trans (receive_layout event)

theorem Reachable.layout_eq {admits : Locator → Event → Prop} {layout : Layout}
    (reachable : Reachable admits layout locator) : locator.layout = layout := by
  rcases reachable with ⟨nodes, events, -, rfl⟩
  exact after_layout

/-! ### A small cluster

Three nodes with four points each, to show single runs with.
-/

def smallLayout : Layout :=
  ⟨.ketama, ⟨pointsPerDigest, pointsPerDigest_pos, Nat.dvd_refl pointsPerDigest⟩⟩

def alpha : Address := ⟨"a", 1, by decide⟩

def beta : Address := ⟨"b", 1, by decide⟩

def gamma : Address := ⟨"c", 1, by decide⟩

end ClusterRing.Locator
