import ClusterRing.Proofs.ControlLoop
import ClusterRing.Proofs.Event.Frame

/-!
# The control loop on frames

A frame that cannot be read is counted and otherwise passed over. So the loop
does with frames what it does with the events that they carry (`run_frames`), and
until it ends it has counted the unreadable frames before the one at which it ends
(`run_ends`).
-/

namespace ClusterRing.ControlLoop

open ClusterRing.Frame (decode encode Fits)
open Locator (build smallLayout alpha beta gamma)

variable {publisher : Publisher} {skipped : Nat} {tally : Tally}

/-- The event that a frame carries, if it can be read. -/
def delivered (frame : List UInt8) : Option Event :=
  (decode frame).toOption

/-- How many frames cannot be read. -/
def unreadable (frames : List (List UInt8)) : Nat :=
  frames.countP fun frame => (delivered frame).isNone

theorem unreadable_cons_of_undecodable {frame : List UInt8} (undecodable : delivered frame = none)
    (rest : List (List UInt8)) : unreadable (frame :: rest) = unreadable rest + 1 := by
  simp [unreadable, undecodable]

theorem unreadable_cons_of_delivered {frame : List UInt8} {event : Event}
    (arrives : delivered frame = some event) (rest : List (List UInt8)) :
    unreadable (frame :: rest) = unreadable rest := by
  simp [unreadable, arrives]

/-- Frames that carry events in order, with frames that cannot be read anywhere among them. -/
inductive Carries : List (List UInt8) → List Event → Prop where
  | done : Carries [] []
  | event {frames : List (List UInt8)} {events : List Event} (event : Event)
      (carries : Carries frames events) : Carries (encode event :: frames) (event :: events)
  | noise {frames : List (List UInt8)} {events : List Event} {frame : List UInt8}
      (undecodable : delivered frame = none) (carries : Carries frames events) :
      Carries (frame :: frames) events

theorem next_of_undecodable {frame : List UInt8} (undecodable : delivered frame = none)
    (rest : List (List UInt8)) (skipped : Nat) :
    Source.next (⟨frame :: rest, skipped⟩ : FrameSource) =
      Source.next (⟨rest, skipped + 1⟩ : FrameSource) := by
  change nextOfFrames skipped (frame :: rest) = nextOfFrames (skipped + 1) rest
  rw [delivered] at undecodable
  rw [nextOfFrames, readFrame]
  cases decoded : decode frame with
  | error fault => rfl
  | ok event => simp [decoded, Except.toOption] at undecodable

theorem next_of_delivered {frame : List UInt8} {event : Event}
    (arrives : delivered frame = some event) (rest : List (List UInt8)) (skipped : Nat) :
    Source.next (⟨frame :: rest, skipped⟩ : FrameSource) = (some event, ⟨rest, skipped⟩) := by
  change nextOfFrames skipped (frame :: rest) = _
  rw [delivered] at arrives
  rw [nextOfFrames, readFrame]
  cases decoded : decode frame with
  | error fault => simp [decoded, Except.toOption] at arrives
  | ok read =>
      simp only [decoded, Except.toOption, Option.some.injEq] at arrives
      rw [← arrives]
      rfl

/-- Unreadable frames change nothing but their count. -/
theorem run_frames {frames : List (List UInt8)} {events : List Event}
    (carries : Carries frames events)
    (sent : ∀ event ∈ events, event.Readable ∧ Fits event) :
    (run publisher tally (⟨frames, skipped⟩ : FrameSource)).publisher =
        (run publisher tally events).publisher ∧
      (run publisher tally (⟨frames, skipped⟩ : FrameSource)).result =
        (run publisher tally events).result := by
  induction carries generalizing publisher skipped tally with
  | done =>
      rw [run_nil, run_of_closed rfl]
      exact ⟨rfl, rfl⟩
  | @event frames events event carries ih =>
      have arrives : delivered (encode event) = some event := by
        have read := sent event (by simp)
        have decoded := (Frame.reads_readEvent read.1 read.2).decode_append []
        rw [List.append_nil] at decoded
        rw [delivered, decoded]
        rfl
      have framed := next_of_delivered arrives frames skipped
      have queued : Source.next (event :: events) = (some event, events) := rfl
      rcases run_event_cases publisher tally event with
        ⟨next, counted, -, -, continues⟩ | ⟨stopped, breach, -, ends⟩
      · rw [continues framed, continues queued]
        exact ih fun other member => sent other (by simp [member])
      · rw [ends framed, ends queued]
        exact ⟨rfl, rfl⟩
  | noise undecodable carries ih =>
      rw [run_congr (next_of_undecodable undecodable _ skipped)]
      exact ih sent

/-- The loop ends after all frames, or at the frame whose event fails, whatever comes after it. -/
theorem run_ends (publisher : Publisher) (skipped : Nat) (tally : Tally)
    (frames : List (List UInt8)) :
    (∃ final, (run publisher tally (⟨frames, skipped⟩ : FrameSource)).result = .ok final ∧
      (run publisher tally (⟨frames, skipped⟩ : FrameSource)).source.skipped =
        skipped + unreadable frames) ∨
    ∃ before frame after, frames = before ++ frame :: after ∧
      (∃ final, (run publisher tally (⟨before, skipped⟩ : FrameSource)).result = .ok final) ∧
      ∃ stopped breach, ∀ rest,
        run publisher tally (⟨before ++ frame :: rest, skipped⟩ : FrameSource) =
          ⟨stopped, ⟨rest, skipped + unreadable before⟩, .error breach⟩ := by
  induction frames generalizing publisher skipped tally with
  | nil =>
      rw [run_of_closed rfl]
      exact .inl ⟨tally, rfl, rfl⟩
  | cons frame rest ih =>
      cases arrives : delivered frame with
      | none =>
          have passed (others : List (List UInt8)) :
              run publisher tally (⟨frame :: others, skipped⟩ : FrameSource) =
                run publisher tally (⟨others, skipped + 1⟩ : FrameSource) :=
            run_congr (next_of_undecodable arrives others skipped)
          have counted (others : List (List UInt8)) :
              skipped + 1 + unreadable others = skipped + unreadable (frame :: others) := by
            rw [unreadable_cons_of_undecodable arrives]
            omega
          rcases ih publisher (skipped + 1) tally with
            ⟨final, ok, count⟩ | ⟨before, other, after, rfl, passes, stopped, breach, stops⟩
          · rw [passed, ← counted]
            exact .inl ⟨final, ok, count⟩
          · refine .inr ⟨frame :: before, other, after, rfl, ?_, stopped, breach, fun later => ?_⟩
            · rwa [passed]
            · rw [List.cons_append, passed, ← counted]
              exact stops later
      | some event =>
          have taken (others : List (List UInt8)) := next_of_delivered arrives others skipped
          have counted := unreadable_cons_of_delivered arrives
          rcases run_event_cases publisher tally event with
            ⟨next, tallied, -, -, continues⟩ | ⟨stopped, breach, -, ends⟩
          · rcases ih next skipped tallied with
              ⟨final, ok, count⟩ | ⟨before, other, after, rfl, passes, stopped, breach, stops⟩
            · rw [continues (taken rest), counted]
              exact .inl ⟨final, ok, count⟩
            · refine .inr ⟨frame :: before, other, after, rfl, ?_, stopped, breach, fun later => ?_⟩
              · rwa [continues (taken before)]
              · rw [List.cons_append, continues (taken _), counted]
                exact stops later
          · refine .inr ⟨[], frame, rest, rfl, ⟨tally, ?_⟩, stopped, breach, fun later => ?_⟩
            · rw [run_of_closed rfl]
            · exact ends (taken later)

/-- Fewer than 2^64 frames count up to less than that. -/
theorem fits_runFrames {frames : List (List UInt8)} (few : frames.length < UInt64.size)
    (locator : Locator) : (runFrames (.start locator) frames).Fits := by
  have at_most (part : List (List UInt8)) : unreadable part ≤ part.length := List.countP_le_length
  have skipped : (runFrames (.start locator) frames).skipped ≤ frames.length := by
    rcases run_ends (.start locator) 0 ⟨0, 0⟩ frames with
      ⟨_, -, count⟩ | ⟨before, frame, after, rfl, -, stopped, breach, stops⟩
    · rw [Nat.zero_add] at count
      exact Nat.le_trans (Nat.le_of_eq count) (at_most frames)
    · have count := congrArg (fun ended => ended.source.skipped) (stops after)
      rw [Nat.zero_add] at count
      have shorter : before.length ≤ (before ++ frame :: after).length := by simp
      exact Nat.le_trans (Nat.le_of_eq count) (Nat.le_trans (at_most before) shorter)
  rcases counters_le (.start locator) ⟨0, 0⟩ (⟨frames, 0⟩ : FrameSource) with ⟨version, tally⟩
  change _ ≤ 0 + frames.length at version
  refine ⟨Nat.lt_of_le_of_lt version (by omega), by omega, fun final ended => ?_⟩
  have counted := tally final ended
  change _ ≤ 0 + 0 + frames.length at counted
  omega

/--
The loop ends on frames as it ends on the events that they carry: with the same result
and the same published locator. It has skipped all unreadable frames when it runs to the
end, and those before the frame at which it stops when it stops.
-/
theorem runFrames_agrees_with_runEvents {frames : List (List UInt8)} {events : List Event}
    (carries : Carries frames events)
    (sent : ∀ event ∈ events, event.Readable ∧ Fits event) (locator : Locator) :
    let framed := runFrames (.start locator) frames
    let plain := runEvents (.start locator) events
    framed.result = plain.result ∧ framed.publisher.published = plain.publisher.published ∧
      framed.publisher.version = plain.publisher.version ∧
      (∀ tally, framed.result = .ok tally → framed.skipped = unreadable frames) ∧
      ∀ breach, framed.result = .error breach →
        ∃ before frame after, frames = before ++ frame :: after ∧
          (∃ tally, (runFrames (.start locator) before).result = .ok tally) ∧
          (runFrames (.start locator) (before ++ [frame])).result = .error breach ∧
          framed.skipped = unreadable before := by
  intro framed plain
  have same : framed.publisher = plain.publisher ∧ framed.result = plain.result :=
    run_frames carries sent
  refine ⟨same.2, congrArg Publisher.published same.1, congrArg Publisher.version same.1, ?_⟩
  rcases run_ends (.start locator) 0 ⟨0, 0⟩ frames with
    ⟨final, ok, count⟩ | ⟨before, frame, later, rfl, passes, stopped, failure, stops⟩
  · rw [Nat.zero_add] at count
    refine ⟨fun _ _ => count, fun breach ended => ?_⟩
    cases ok.symm.trans ended
  · have failed (rest : List (List UInt8)) :
        (runFrames (.start locator) (before ++ frame :: rest)).result = .error failure :=
      congrArg End.result (stops rest)
    constructor
    · intro tally ended
      cases (failed later).symm.trans ended
    · intro breach ended
      cases (failed later).symm.trans ended
      have count := congrArg (fun ended => ended.source.skipped) (stops later)
      exact ⟨before, frame, later, rfl, passes, failed [], count.trans (Nat.zero_add _)⟩

/-- The loop stops at an event after two unreadable frames, and does not see the third. -/
theorem stops_after_two_skipped :
    let locator := build smallLayout [alpha, beta]
    let preparing : Event := .prepareMigration .leave [beta]
    let sweeping : Event := .rangeApplied 7 7
    let forgetting : Event := .prepareMigration .join [gamma]
    let detaching : Event := .topology [] [beta]
    let events := [preparing, sweeping, sweeping, forgetting, detaching, sweeping]
    let noise : List UInt8 := [255, 0, 0, 0]
    let frames := [encode preparing, noise, encode sweeping, encode sweeping,
      (encode detaching).dropLast, encode forgetting, encode detaching, noise, encode sweeping]
    let stopped := runFrames (.start locator) frames
    Carries frames events ∧ (∀ event ∈ events, event.Readable ∧ Fits event) ∧
      stopped.result = (runEvents (.start locator) events).result ∧
      stopped.publisher.published = (runEvents (.start locator) events).publisher.published ∧
      stopped.result.toOption = none ∧ unreadable frames = 3 ∧ stopped.skipped = 2 := by
  intro locator preparing sweeping forgetting detaching events noise frames stopped
  have garbled : delivered noise = none := by decide +kernel
  have short : delivered (encode detaching).dropLast = none := by decide +kernel
  have carries : Carries frames events :=
    .event _ (.noise garbled (.event _ (.event _ (.noise short (.event _ (.event _
      (.noise garbled (.event _ .done))))))))
  have named : ∀ event ∈ events, ∀ nodes ∈ event.addressLists, ∀ node ∈ nodes,
      node = beta ∨ node = gamma := by decide +kernel
  have sent : ∀ event ∈ events, event.Readable ∧ Fits event := by
    intro event member
    constructor
    · intro nodes listed node within
      rcases named event member nodes listed node within with rfl | rfl
      · exact ⟨"b:1", rfl⟩
      · exact ⟨"c:1", rfl⟩
    · revert event
      decide +kernel
  rcases runFrames_agrees_with_runEvents carries sent locator with ⟨result, published, -, -, -⟩
  exact ⟨carries, sent, result, published, by decide +kernel, by decide +kernel, by decide +kernel⟩

end ClusterRing.ControlLoop
