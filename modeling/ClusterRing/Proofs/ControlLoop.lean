import ClusterRing.ControlLoop
import ClusterRing.Proofs.Locator.Run

/-!
# What the control loop publishes

As long as no event fails, the readers of a publisher see the locator of its
writer: what an event changes is published at once, and a rejected range changes
nothing. So the loop runs along with the plain fold of the events (`run_append`).
At the first event that fails it stops, and the readers keep the locator from
before that event, though the writer has changed its own already. It never goes on
after a failure (`isFatal_of_apply`).

No counter runs ahead of the events that arrive (`counters_le`), so each fits in 64
bits as long as their number does (`fits_runEvents`).
-/

namespace ClusterRing

namespace Locator

variable {locator : Locator} {event : Event}

instance (outcome : Outcome) : Decidable outcome.Failed :=
  match outcome with
  | ⟨_, .failed breach⟩ => isTrue ⟨breach, rfl⟩
  | ⟨_, .applied⟩ => isFalse fun ⟨_, failed⟩ => nomatch failed
  | ⟨_, .ignored⟩ => isFalse fun ⟨_, failed⟩ => nomatch failed

instance (start stop : Point) : Decidable (locator.Accepts start stop) :=
  decidable_of_iff ((locator.advance start stop).verdict = .applied) advance_verdict_eq_applied_iff

/-- An event is carried out, or there is nothing to do. -/
def Succeeds (locator : Locator) (event : Event) : Prop :=
  ¬(locator.receive event).Failed

instance : Decidable (locator.Succeeds event) :=
  inferInstanceAs (Decidable (¬_))

/-- An event is a range notification that carries no migration forward. -/
def Rejects (locator : Locator) : Event → Prop
  | .rangeApplied start stop => ¬locator.Accepts start stop
  | _ => False

instance : Decidable (locator.Rejects event) :=
  match event with
  | .rangeApplied start stop => inferInstanceAs (Decidable (¬locator.Accepts start stop))
  | .topology .. => isFalse id
  | .prepareMigration .. => isFalse id
  | .alterChange .. => isFalse id

/-- How many events of a run are rejected. -/
def rejections (locator : Locator) : List Event → Nat
  | [] => 0
  | event :: rest =>
    (if locator.Rejects event then 1 else 0) + (locator.receive event).locator.rejections rest

theorem receive_of_rejects (rejects : locator.Rejects event) :
    locator.receive event = ⟨locator, .ignored⟩ := by
  cases event with
  | rangeApplied start stop => exact advance_of_not_accepts rejects
  | _ => exact absurd rejects id

theorem forEach_verdict_of_not_failed {step : Locator → Address → Outcome} {nodes : List Address}
    (succeeds : ¬(locator.forEach step nodes).Failed) :
    (locator.forEach step nodes).verdict = .applied := by
  induction nodes generalizing locator with
  | nil => rfl
  | cons node rest ih =>
      by_cases failed : (step locator node).Failed
      · rw [forEach_cons_of_failed failed] at succeeds
        exact absurd failed succeeds
      · rw [forEach_cons_of_not_failed failed] at succeeds ⊢
        exact ih succeeds

theorem Succeeds.applied (succeeds : locator.Succeeds event) (accepted : ¬locator.Rejects event) :
    (locator.receive event).verdict = .applied := by
  cases event with
  | topology attached detached => exact forEach_verdict_of_not_failed succeeds
  | prepareMigration kind named => rfl
  | rangeApplied start stop => exact advance_verdict_of_accepts (Decidable.not_not.mp accepted)
  | alterChange attached detached => exact forEach_verdict_of_not_failed succeeds

end Locator

namespace Publisher

/-- A publisher whose readers see the locator of the writer. -/
def synced (locator : Locator) (version : Nat) : Publisher :=
  ⟨locator, locator, version⟩

theorem version_receive_le (publisher : Publisher) (event : Event) :
    (publisher.receive event).2.version ≤ publisher.version + 1 := by
  rw [receive]
  cases (publisher.writer.receive event).verdict with
  | applied => exact Nat.le_refl _
  | ignored => exact Nat.le_succ _
  | failed breach => exact Nat.le_succ _

end Publisher

namespace ControlLoop

open Locator (Obeys Succeeds build smallLayout alpha beta gamma)
open Publisher (synced)

/-! ### One turn of the loop -/

section Turn

variable {publisher : Publisher} {event : Event} {tally : Tally}
variable {α : Type} [Source α] {source other rest closed : α}

/-- What an event fails with is a breach, so the loop never goes on after a failure. -/
theorem isFatal_of_apply {failure : Failure}
    (failed : (apply publisher event).1 = .error failure) : failure.isFatal = true := by
  rw [Failure.isFatal_eq]
  rw [apply] at failed
  split at failed
  · cases failed
  · cases failed
  · cases failed
    rfl

theorem run_of_closed (ends : Source.next source = (none, closed)) :
    run publisher tally source = ⟨publisher, closed, .ok tally⟩ := by
  rw [run]
  split
  · next same => cases ends.symm.trans same; rfl
  · next same => cases ends.symm.trans same

/-- A turn takes one event, and whatever it fails with ends the loop. -/
theorem run_of_next (taken : Source.next source = (some event, rest)) :
    run publisher tally source =
      match publisher.receive event with
      | (.applied, next) => run next { tally with published := tally.published + 1 } rest
      | (.ignored, next) => run next { tally with unchanged := tally.unchanged + 1 } rest
      | (.failed breach, stopped) => ⟨stopped, rest, .error breach⟩ := by
  rw [run]
  split
  · next same => cases taken.symm.trans same
  · next same =>
      cases taken.symm.trans same
      rcases received : publisher.receive event with ⟨verdict, next⟩
      cases verdict <;> simp [apply, received, Failure.breach?]

/-- The loop does the same with sources that yield the same. -/
theorem run_congr (same : Source.next source = Source.next other) :
    run publisher tally source = run publisher tally other := by
  rcases taken : Source.next other with ⟨_ | event, rest⟩
  · rw [run_of_closed taken, run_of_closed (same.trans taken)]
  · rw [run_of_next taken, run_of_next (same.trans taken)]

end Turn

/-- An event is counted and the loop goes on, or it ends the loop, whatever source it comes from. -/
theorem run_event_cases (publisher : Publisher) (tally : Tally) (event : Event) :
    (∃ next counted, next.version ≤ publisher.version + 1 ∧
      counted.published + counted.unchanged = tally.published + tally.unchanged + 1 ∧
      ∀ {α : Type} [Source α] {source rest : α}, Source.next source = (some event, rest) →
        run publisher tally source = run next counted rest) ∨
    ∃ stopped breach, stopped.version ≤ publisher.version + 1 ∧
      ∀ {α : Type} [Source α] {source rest : α}, Source.next source = (some event, rest) →
        run publisher tally source = ⟨stopped, rest, .error breach⟩ := by
  rcases received : publisher.receive event with ⟨verdict, next⟩
  have version : next.version ≤ publisher.version + 1 := by
    simpa [received] using publisher.version_receive_le event
  cases verdict with
  | applied =>
      refine .inl ⟨next, { tally with published := tally.published + 1 }, version, ?_, ?_⟩
      · exact Nat.succ_add _ _
      · intro α _ source rest taken
        rw [run_of_next taken, received]
  | ignored =>
      refine .inl ⟨next, { tally with unchanged := tally.unchanged + 1 }, version, rfl, ?_⟩
      intro α _ source rest taken
      rw [run_of_next taken, received]
  | failed breach =>
      refine .inr ⟨next, breach, version, ?_⟩
      intro α _ source rest taken
      rw [run_of_next taken, received]

/-! ### Counters -/

/-- No counter of a run leaves its 64 bits. -/
structure Run.Fits (ended : Run) : Prop where
  version : ended.publisher.version < UInt64.size
  skipped : ended.skipped < UInt64.size
  tally : ∀ tally, ended.result = .ok tally →
    tally.published < UInt64.size ∧ tally.unchanged < UInt64.size

/-- An event adds at most one to each counter, and it uses up an item of the source. -/
theorem counters_le {α : Type} [Source α] (publisher : Publisher) (tally : Tally) (source : α) :
    (run publisher tally source).publisher.version ≤ publisher.version + Source.left source ∧
      ∀ final, (run publisher tally source).result = .ok final →
        final.published + final.unchanged ≤
          tally.published + tally.unchanged + Source.left source := by
  induction size : Source.left source using Nat.strongRecOn generalizing publisher tally source with
  | _ size ih =>
      subst size
      rcases taken : Source.next source with ⟨_ | event, rest⟩
      · rw [run_of_closed taken]
        refine ⟨Nat.le_add_right _ _, fun final ended => ?_⟩
        cases ended
        exact Nat.le_add_right _ _
      · have shorter : Source.left rest < Source.left source := Source.left_lt taken
        rcases run_event_cases publisher tally event with
          ⟨next, counted, version, total, continues⟩ | ⟨stopped, breach, version, ends⟩
        · rcases ih _ shorter next counted rest rfl with ⟨later, final_le⟩
          rw [continues taken]
          refine ⟨by omega, fun final ended => ?_⟩
          have := final_le final ended
          omega
        · rw [ends taken]
          refine ⟨by dsimp only; omega, fun final ended => ?_⟩
          cases ended

/-! ### Queues of events -/

variable {locator : Locator} {event : Event} {version : Nat} {tally : Tally} {rest : List Event}

theorem run_nil (publisher : Publisher) :
    run publisher tally ([] : List Event) = ⟨publisher, [], .ok tally⟩ :=
  run_of_closed rfl

theorem run_cons_of_rejects (rejects : locator.Rejects event) :
    run (synced locator version) tally (event :: rest) =
      run (synced locator version) { tally with unchanged := tally.unchanged + 1 } rest := by
  rw [run_of_next rfl]
  simp [synced, Publisher.receive, Locator.receive_of_rejects rejects]

theorem run_cons_of_applied (applied : (locator.receive event).verdict = .applied) :
    run (synced locator version) tally (event :: rest) =
      run (synced (locator.receive event).locator (version + 1))
        { tally with published := tally.published + 1 } rest := by
  rw [run_of_next rfl]
  simp [synced, Publisher.receive, applied]

/-- The writer keeps what a failed event did so far, the readers do not see it. -/
theorem run_cons_of_failed {breach : Breach}
    (failed : (locator.receive event).verdict = .failed breach) :
    run (synced locator version) tally (event :: rest) =
      ⟨⟨(locator.receive event).locator, locator, version⟩, rest, .error breach⟩ := by
  rw [run_of_next rfl]
  simp [synced, Publisher.receive, failed]

/-- Fewer than 2^64 events count up to less than that. -/
theorem fits_runEvents {events : List Event} (few : events.length < UInt64.size)
    (locator : Locator) : (runEvents (.start locator) events).Fits := by
  rcases counters_le (.start locator) ⟨0, 0⟩ events with ⟨version, tally⟩
  change _ ≤ 0 + events.length at version
  refine ⟨Nat.lt_of_le_of_lt version (by omega), Nat.zero_lt_succ _, fun final ended => ?_⟩
  have counted := tally final ended
  change _ ≤ 0 + 0 + events.length at counted
  omega

/-- Events that do not fail take the loop along with their fold, whatever comes after them. -/
theorem run_append {past : List Event} (succeeds : Obeys Succeeds locator past)
    (version : Nat) (tally : Tally) (rest : List Event) :
    ∃ applied, applied + locator.rejections past = past.length ∧
      run (synced locator version) tally (past ++ rest) =
        run (synced (locator.after past) (version + applied))
          ⟨tally.published + applied, tally.unchanged + locator.rejections past⟩ rest := by
  induction past generalizing locator version tally with
  | nil => exact ⟨0, rfl, rfl⟩
  | cons event later ih =>
      rcases succeeds with ⟨first, succeeds⟩
      rw [List.cons_append, Locator.after_cons, Locator.rejections]
      by_cases rejects : locator.Rejects event
      · have same := congrArg Locator.Outcome.locator (Locator.receive_of_rejects rejects)
        rw [same] at succeeds ⊢
        rcases ih succeeds version ⟨tally.published, tally.unchanged + 1⟩ with
          ⟨applied, total, continues⟩
        refine ⟨applied, ?_, ?_⟩
        · rw [if_pos rejects, List.length_cons]
          omega
        · rw [run_cons_of_rejects rejects, continues, if_pos rejects, Nat.add_assoc]
      · rcases ih succeeds (version + 1) ⟨tally.published + 1, tally.unchanged⟩ with
          ⟨applied, total, continues⟩
        refine ⟨1 + applied, ?_, ?_⟩
        · rw [if_neg rejects, List.length_cons]
          omega
        · rw [run_cons_of_applied (first.applied rejects), continues, if_neg rejects, Nat.zero_add,
            Nat.add_assoc, Nat.add_assoc]

theorem runEvents_eq_of_run {events : List Event} {ended : End (List Event)}
    (same : run (synced locator 0) ⟨0, 0⟩ events = ended) :
    runEvents (.start locator) events = ⟨ended.publisher, 0, ended.result⟩ := by
  subst same
  rfl

/-- A run stops at the first event that fails, and what comes after it does not matter. -/
theorem runEvents_of_failed {past : List Event} {breach : Breach}
    (succeeds : Obeys Succeeds locator past)
    (failed : ((locator.after past).receive event).verdict = .failed breach)
    (later : List Event) :
    ∃ applied, applied + locator.rejections past = past.length ∧
      runEvents (.start locator) (past ++ event :: later) =
        ⟨⟨((locator.after past).receive event).locator, locator.after past, applied⟩, 0,
          .error breach⟩ := by
  rcases run_append succeeds 0 ⟨0, 0⟩ (event :: later) with ⟨applied, total, same⟩
  rw [run_cons_of_failed failed, Nat.zero_add] at same
  exact ⟨applied, total, runEvents_eq_of_run same⟩

/--
Events that do not fail are all published but for the rejected ranges, and the readers
see their fold in the end. At the first event that fails the loop stops with its breach,
and the readers go on seeing the fold of the events before it.
-/
theorem runEvents_refines_after (locator : Locator) (events : List Event) :
    let ended := runEvents (.start locator) events
    (Obeys Succeeds locator events →
      ∃ tally, ended.result = .ok tally ∧
        tally.published + tally.unchanged = events.length ∧
        tally.unchanged = locator.rejections events ∧
        ended.publisher.version = tally.published ∧
        ended.publisher.published = locator.after events) ∧
    ∀ past event later breach, events = past ++ event :: later → Obeys Succeeds locator past →
      ((locator.after past).receive event).verdict = .failed breach →
        ended.result = .error breach ∧ (Fault.breach breach).isFatal = true ∧
        ended.publisher.published = locator.after past ∧
        ended.publisher.version + locator.rejections past = past.length ∧
        ended = runEvents (.start locator) (past ++ [event]) := by
  intro ended
  constructor
  · intro succeeds
    rcases run_append succeeds 0 ⟨0, 0⟩ [] with ⟨applied, total, same⟩
    rw [List.append_nil, Nat.zero_add, Nat.zero_add, run_nil] at same
    have run_eq : ended = _ := runEvents_eq_of_run same
    rw [run_eq]
    exact ⟨⟨applied, locator.rejections events⟩, rfl, total, rfl, rfl, rfl⟩
  · rintro past event later breach rfl succeeds failed
    rcases runEvents_of_failed succeeds failed later with ⟨applied, total, same⟩
    rcases runEvents_of_failed succeeds failed [] with ⟨applied', total', alone⟩
    obtain rfl : applied' = applied := by omega
    change ended = _ at same
    rw [alone, same]
    exact ⟨rfl, rfl, rfl, total, rfl⟩

/--
A leaving node is swept out, the range comes again, and a new migration forgets its staged
points: it cannot be detached any more, and the last event is not applied.
-/
theorem stops_at_forgotten_node :
    let locator := build smallLayout [alpha, beta]
    let past : List Event := [.prepareMigration .leave [beta], .rangeApplied 7 7,
      .rangeApplied 7 7, .prepareMigration .join [gamma]]
    let detaching : Event := .topology [] [beta]
    let finished := runEvents (.start locator) past
    let stopped := runEvents (.start locator) (past ++ [detaching, .topology [gamma] []])
    Obeys Succeeds locator past ∧
      (∃ tally, finished.result = .ok tally ∧ tally.published + tally.unchanged = 4 ∧
        tally.unchanged = 1 ∧ finished.publisher.published = locator.after past) ∧
      ((locator.after past).receive detaching).verdict = .failed (.notInRing 4 4 beta) ∧
      stopped.result = .error (.notInRing 4 4 beta) ∧
      stopped.publisher.published = locator.after past ∧ stopped.publisher.version = 3 := by
  intro locator past detaching finished stopped
  have succeeds : Obeys Succeeds locator past := by decide +kernel
  have rejected : locator.rejections past = 1 := by decide +kernel
  have failed : ((locator.after past).receive detaching).verdict =
    .failed (.notInRing 4 4 beta) := by decide +kernel
  rcases (runEvents_refines_after locator past).1 succeeds with
    ⟨tally, ok, total, unchanged, -, published⟩
  rcases (runEvents_refines_after locator _).2 past detaching [.topology [gamma] []] _ rfl
    succeeds failed with ⟨error, -, seen, version, -⟩
  refine ⟨succeeds, ⟨tally, ok, total, unchanged.trans rejected, published⟩, failed, error, seen, ?_⟩
  rw [rejected] at version
  exact Nat.succ.inj version

end ControlLoop

end ClusterRing
