import Mathlib.Data.List.Induction
import ClusterRing.Proofs.ControlLoop
import ClusterRing.Proofs.Locator.Failure

/-!
# What readers see after a failure

An event that fails publishes nothing, but the writer keeps what the event has done so far, and
the next event that is applied publishes that too. So readers see all events up to the last one
that was applied, the failed ones among them. They see what the events without an error do alone
exactly as long as each applied event does to the locator of the writer what it does to that of
the readers (`hides_failures_throughout_iff`). It is so as long as nothing is applied after a
failure, and the control loop stops there. Otherwise the failure shows: the node that it has
displaced stays so unless the applied event names it or prepares a migration.
-/

namespace ClusterRing.Publisher

open Locator (Obeys Succeeds Rejects build smallLayout alpha beta gamma)

/-- The publisher that a list of events leaves; it goes on after an event that fails. -/
def after (publisher : Publisher) (events : List Event) : Publisher :=
  events.foldl (fun publisher event => (publisher.receive event).2) publisher

/-- The events of a run that return no error. -/
def accepted : Publisher → List Event → List Event
  | _, [] => []
  | publisher, event :: rest =>
    match publisher.receive event with
    | (.failed _, next) => next.accepted rest
    | (_, next) => event :: next.accepted rest

/-- Readers see what the events without an error do to the locator that they saw first. -/
def HidesFailures (publisher : Publisher) (events : List Event) : Prop :=
  (publisher.after events).published = publisher.published.after (publisher.accepted events)

/-- If an event is applied, it does to the locator of the writer what it does to that of the readers. -/
def Impartial (publisher : Publisher) (event : Event) : Prop :=
  (publisher.writer.receive event).verdict = .applied →
    (publisher.writer.receive event).locator = (publisher.published.receive event).locator

/-- An event publishes nothing. -/
def Withholds (locator : Locator) (event : Event) : Prop :=
  (locator.receive event).verdict ≠ .applied

/-- The writer and the readers would accept the same ranges. -/
def InStep (publisher : Publisher) : Prop :=
  ∀ start stop, publisher.writer.Accepts start stop ↔ publisher.published.Accepts start stop

variable {publisher : Publisher} {locator : Locator} {event : Event} {events past : List Event}

/-! ### One event -/

/-- An event is applied and published, or it is a rejected range, or it fails and only the writer changes. -/
theorem receive_cases (publisher : Publisher) (event : Event) :
    ((publisher.writer.receive event).verdict = .applied ∧
      publisher.receive event =
        (.applied, synced (publisher.writer.receive event).locator (publisher.version + 1))) ∨
    (publisher.writer.Rejects event ∧ publisher.receive event = (.ignored, publisher)) ∨
    ∃ breach, (publisher.writer.receive event).verdict = .failed breach ∧
      publisher.receive event =
        (.failed breach, { publisher with writer := (publisher.writer.receive event).locator }) := by
  by_cases rejects : publisher.writer.Rejects event
  · refine .inr (.inl ⟨rejects, ?_⟩)
    simp [receive, Locator.receive_of_rejects rejects]
  · by_cases succeeds : publisher.writer.Succeeds event
    · have applied := succeeds.applied rejects
      exact .inl ⟨applied, by simp [receive, applied, synced]⟩
    · rcases Decidable.not_not.mp succeeds with ⟨breach, failed⟩
      exact .inr (.inr ⟨breach, failed, by simp [receive, failed]⟩)

theorem receive_writer :
    (publisher.receive event).2.writer = (publisher.writer.receive event).locator := by
  rcases receive_cases publisher event with ⟨-, same⟩ | ⟨rejects, same⟩ | ⟨breach, -, same⟩
  · rw [same]
    rfl
  · rw [same, Locator.receive_of_rejects rejects]
  · rw [same]

theorem receive_published_of_applied
    (applied : (publisher.writer.receive event).verdict = .applied) :
    (publisher.receive event).2.published = (publisher.writer.receive event).locator := by
  simp [receive, applied]

theorem receive_published_of_withholds (withholds : Withholds publisher.writer event) :
    (publisher.receive event).2.published = publisher.published := by
  rcases receive_cases publisher event with ⟨applied, -⟩ | ⟨-, same⟩ | ⟨breach, -, same⟩
  · exact absurd applied withholds
  · rw [same]
  · rw [same]

theorem InStep.receive (inStep : publisher.InStep) (event : Event) :
    (publisher.receive event).2.InStep := by
  intro start stop
  rcases receive_cases publisher event with ⟨-, same⟩ | ⟨-, same⟩ | ⟨breach, failed, same⟩
  · rw [same]
    exact Iff.rfl
  · rw [same]
    exact inStep start stop
  · rw [same]
    exact (Locator.accepts_iff_of_failed ⟨breach, failed⟩ start stop).trans (inStep start stop)

/-- The readers' locator rejects what the writer rejects. -/
theorem InStep.rejects (inStep : publisher.InStep) (rejects : publisher.writer.Rejects event) :
    publisher.published.Rejects event := by
  cases event with
  | rangeApplied start stop => exact fun accepts => rejects ((inStep start stop).mpr accepts)
  | _ => exact absurd rejects id

/-! ### Several events -/

theorem after_concat : publisher.after (past ++ [event]) = ((publisher.after past).receive event).2 := by
  simp [after]

/-- The version counts events, so it has room in 64 bits for fewer than 2^64 of them. -/
theorem version_after_le : (publisher.after events).version ≤ publisher.version + events.length := by
  induction events generalizing publisher with
  | nil => exact Nat.le_refl _
  | cons event rest ih =>
      have first := publisher.version_receive_le event
      have later : ((publisher.receive event).2.after rest).version ≤ _ := ih
      rw [List.length_cons]
      change ((publisher.receive event).2.after rest).version ≤ _
      omega

theorem after_writer : (publisher.after events).writer = publisher.writer.after events := by
  induction events generalizing publisher with
  | nil => rfl
  | cons event rest ih =>
      change ((publisher.receive event).2.after rest).writer = _
      rw [ih, receive_writer, Locator.after_cons]

theorem accepted_append {rest : List Event} :
    publisher.accepted (past ++ rest) =
      publisher.accepted past ++ (publisher.after past).accepted rest := by
  induction past generalizing publisher with
  | nil => rfl
  | cons event later ih =>
      change _ = _ ++ ((publisher.receive event).2.after later).accepted rest
      rw [List.cons_append, accepted, accepted]
      rcases receive_cases publisher event with ⟨-, same⟩ | ⟨-, same⟩ | ⟨breach, -, same⟩ <;>
        simp [same, ih]

theorem InStep.after (inStep : publisher.InStep) (events : List Event) :
    (publisher.after events).InStep := by
  induction events generalizing publisher with
  | nil => exact inStep
  | cons event rest ih => exact ih (inStep.receive event)

theorem inStep_start (locator : Locator) : (start locator).InStep :=
  fun _ _ => Iff.rfl

/-- Until an event fails, the readers see the locator of the writer. -/
theorem after_synced (succeeds : Obeys Succeeds locator events) (version : Nat) :
    ∃ later, (synced locator version).after events = synced (locator.after events) later := by
  induction events generalizing locator version with
  | nil => exact ⟨version, rfl⟩
  | cons event rest ih =>
      rcases succeeds with ⟨first, succeeds⟩
      change ∃ later, ((synced locator version).receive event).2.after rest = _
      rcases receive_cases (synced locator version) event with
        ⟨-, same⟩ | ⟨rejects, same⟩ | ⟨breach, failed, -⟩
      · rw [same]
        exact ih succeeds _
      · change locator.Rejects event at rejects
        rw [Locator.receive_of_rejects rejects] at succeeds
        rw [same, Locator.after_cons, Locator.receive_of_rejects rejects]
        exact ih succeeds _
      · exact absurd ⟨breach, failed⟩ first

/--
One more event keeps failures hidden exactly if it is impartial. A range that is rejected gives
no failure to hide, so readers must see nothing of it.
-/
theorem HidesFailures.concat_iff (hides : publisher.HidesFailures past) (inStep : publisher.InStep) :
    publisher.HidesFailures (past ++ [event]) ↔ (publisher.after past).Impartial event := by
  have fold : publisher.published.after (publisher.accepted (past ++ [event])) =
      (publisher.after past).published.after ((publisher.after past).accepted [event]) := by
    rw [accepted_append, Locator.after_append, hides]
  rw [HidesFailures, fold, after_concat]
  generalize reached : publisher.after past = current
  have inStep : current.InStep := reached ▸ inStep.after past
  rcases receive_cases current event with
    ⟨applied, same⟩ | ⟨rejects, same⟩ | ⟨breach, failed, same⟩
  · simp [accepted, same, Impartial, applied, synced]
  · have ignored := Locator.receive_of_rejects rejects
    have unchanged := Locator.receive_of_rejects (inStep.rejects rejects)
    simp [accepted, same, Impartial, ignored, unchanged]
  · simp [accepted, same, Impartial, failed]

/-- Readers see all events up to the last one that was applied, failed ones too. -/
theorem published_start_after (locator : Locator) (events : List Event) :
    ∃ past rest, past ++ rest = events ∧
      (∀ before last, before ++ [last] = past →
        ((locator.after before).receive last).verdict = .applied) ∧
      Obeys Withholds (locator.after past) rest ∧
      ((start locator).after events).published = locator.after past := by
  induction events using List.reverseRecOn with
  | nil => exact ⟨[], [], rfl, by simp, trivial, rfl⟩
  | append_singleton earlier event ih =>
      have written : ((start locator).after earlier).writer = locator.after earlier := after_writer
      rw [after_concat]
      by_cases applied : ((locator.after earlier).receive event).verdict = .applied
      · refine ⟨earlier ++ [event], [], List.append_nil _, ?_, trivial, ?_⟩
        · intro before last same
          rcases List.append_inj' same rfl with ⟨rfl, ends_alike⟩
          rwa [List.singleton_inj.mp ends_alike]
        · rw [receive_published_of_applied (written ▸ applied), written, Locator.after_append]
          rfl
      · rcases ih with ⟨past, rest, rfl, ends_applied, withheld, published⟩
        rw [receive_published_of_withholds (written ▸ applied)]
        rw [Locator.after_append] at applied
        exact ⟨past, rest ++ [event], (List.append_assoc ..).symm, ends_applied,
          Locator.obeys_append_iff.mpr ⟨withheld, applied, trivial⟩, published⟩

/-! ### Whole runs -/

theorem hides_failures_iff_impartial (inStep : publisher.InStep) (events : List Event) :
    (∀ past, past <+: events → publisher.HidesFailures past) ↔
      ∀ past event, past ++ [event] <+: events → (publisher.after past).Impartial event := by
  constructor
  · intro hides past event earlier
    have before : past <+: events := (List.prefix_append past [event]).trans earlier
    exact ((hides past before).concat_iff inStep).mp (hides _ earlier)
  · intro impartial past
    induction past using List.reverseRecOn with
    | nil => exact fun _ => rfl
    | append_singleton before event ih =>
        intro earlier
        have hides := ih ((List.prefix_append before [event]).trans earlier)
        exact (hides.concat_iff inStep).mpr (impartial before event earlier)

/-- An event that is applied while none has failed meets the same locator twice. -/
theorem impartial_of_succeeds (succeeds : Obeys Succeeds locator past) :
    ((start locator).after past).Impartial event := by
  rcases after_synced succeeds 0 with ⟨version, same⟩
  intro _
  rw [start, ← synced, same]
  rfl

/-- What a failed event displaces shows as soon as an event is applied that does not name it. -/
theorem exists_displaced_in_sight {failing : Event} (failed : (locator.receive failing).Failed) :
    ∃ node ∈ failing.named, ∀ next, ¬next.IsPreparation → node ∉ next.named →
      ((locator.receive failing).locator.receive next).verdict = .applied →
        ¬(start locator).HidesFailures [failing, next] := by
  rcases Locator.exists_displaced_of_failed failed with ⟨node, named, displaced⟩
  refine ⟨node, named, ?_⟩
  intro next no_preparation unnamed applied hides
  rcases failed with ⟨breach, failed⟩
  have seen : ((start locator).after [failing, next]).published =
      ((locator.receive failing).locator.receive next).locator := by
    simp [after, start, receive, failed, applied]
  have without_failure : (start locator).accepted [failing, next] = [next] := by
    simp [accepted, start, receive, failed, applied]
  rw [HidesFailures, seen, without_failure] at hides
  change _ = (locator.receive next).locator at hides
  have after_failure : Locator.AlikeAt node
      ((locator.receive failing).locator.receive next).locator (locator.receive failing).locator :=
    Locator.alikeAt_receive no_preparation unnamed
  rw [hides] at after_failure
  exact displaced (after_failure.symm.trans (Locator.alikeAt_receive no_preparation unnamed))

/--
Readers see all events up to the last one that was applied, those that failed among them. What
they see is throughout what the events without an error do alone, exactly if each applied event
does to the writer's locator what it does to the readers'; and so it is if nothing is applied
after a failure. Otherwise a failed event shows: there is a node such that the next event brings
the failure to light if it is applied, is no preparation and does not name the node.
-/
theorem hides_failures_throughout_iff (locator : Locator) (events : List Event) :
    (∃ past rest, past ++ rest = events ∧
      (∀ before last, before ++ [last] = past →
        ((locator.after before).receive last).verdict = .applied) ∧
      Obeys Withholds (locator.after past) rest ∧
      ((start locator).after events).published = locator.after past) ∧
    ((∀ past, past <+: events → (start locator).HidesFailures past) ↔
      ∀ past event, past ++ [event] <+: events → ((start locator).after past).Impartial event) ∧
    ((∀ past event, past ++ [event] <+: events →
        ((locator.after past).receive event).verdict = .applied → Obeys Succeeds locator past) →
      ∀ past, past <+: events → (start locator).HidesFailures past) ∧
    ∀ failing, (locator.receive failing).Failed →
      ∃ node ∈ failing.named, ∀ next, ¬next.IsPreparation → node ∉ next.named →
        ((locator.receive failing).locator.receive next).verdict = .applied →
          ¬(start locator).HidesFailures [failing, next] := by
  have throughout_iff := hides_failures_iff_impartial (inStep_start locator) events
  refine ⟨published_start_after locator events, throughout_iff, ?_,
    fun failing failed => exists_displaced_in_sight failed⟩
  intro stops
  refine throughout_iff.mpr ?_
  intro past event earlier applied
  have written : ((start locator).after past).writer = locator.after past := after_writer
  exact impartial_of_succeeds (stops past event earlier (written ▸ applied)) applied

/-- The failed detachment of a node that owns nothing is hidden at first, and shows with the next range. -/
theorem failure_hidden_until_next_range :
    let locator := (build smallLayout [alpha, beta]).after [.prepareMigration .leave [beta],
      .rangeApplied 7 7, .prepareMigration .join [gamma]]
    let failing : Event := .topology [] [beta]
    (locator.receive failing).verdict = .failed (.notInRing 4 4 beta) ∧
      (start locator).HidesFailures [.rangeApplied 5 5, failing] ∧
      ¬(start locator).HidesFailures [failing, .rangeApplied 5 5] := by
  intro locator failing
  have failed : (locator.receive failing).verdict = .failed (.notInRing 4 4 beta) := by
    decide +kernel
  refine ⟨failed, ?_, ?_⟩
  · refine (hides_failures_throughout_iff locator [.rangeApplied 5 5, failing]).2.2.1 ?_ _
      List.prefix_rfl
    rintro (_ | ⟨first, _ | ⟨second, rest⟩⟩) event earlier -
    · trivial
    · obtain rfl : first = .rangeApplied 5 5 := (List.cons_prefix_cons.mp earlier).1
      exact ⟨by decide +kernel, trivial⟩
    · have short := earlier.length_le
      simp at short
  · rcases (hides_failures_throughout_iff locator []).2.2.2 failing ⟨_, failed⟩ with
      ⟨node, -, shows⟩
    exact shows (.rangeApplied 5 5) id List.not_mem_nil (by decide +kernel)

/--
A failed event has attached a node and detached another one. When the migration is prepared again
the readers see both, and a key is answered with the node that never was attached.
-/
theorem failed_exchange_reaches_readers :
    let locator := build smallLayout [alpha, beta]
    let events : List Event := [.prepareMigration .leave [beta], .rangeApplied 7 7,
      .prepareMigration .join [gamma], .topology [gamma] [beta], .prepareMigration .join [gamma]]
    let readers := ((start locator).after events).published
    let promised := locator.after ((start locator).accepted events)
    (start locator).accepted events = events.eraseIdx 3 ∧
      (beta ∈ promised.nodes ∧ gamma ∉ promised.nodes) ∧
      (beta ∉ readers.nodes ∧ gamma ∈ readers.nodes) ∧
      promised.primary? "k2" = some alpha ∧ readers.primary? "k2" = some gamma ∧
      ¬(start locator).HidesFailures events := by
  intro locator events readers promised
  have kept : beta ∈ promised.nodes ∧ gamma ∉ promised.nodes := by decide +kernel
  have exchanged : beta ∉ readers.nodes ∧ gamma ∈ readers.nodes := by decide +kernel
  refine ⟨by decide +kernel, kept, exchanged, by decide +kernel, by decide +kernel, ?_⟩
  intro hides
  have same : readers = promised := hides
  exact exchanged.1 (same ▸ kept.1)

end ClusterRing.Publisher
