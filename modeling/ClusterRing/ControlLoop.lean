import ClusterRing.Event.Frame
import ClusterRing.Publisher

/-!
# The control loop

Events are taken from a source until it closes or an event fails for good. A source
is a queue of events, or a stream of frames, which yields an event for each frame
that can be read and drops the others.
-/

namespace ClusterRing.ControlLoop

/-- What can go wrong on the channel of events. -/
inductive Failure where
  /-- A frame is no event. -/
  | codec (cause : Frame.Fault)
  /-- The locator does not carry out an event. -/
  | locator (cause : Fault)

/-- Whether the locator can no longer be trusted, so that the loop must stop. -/
def Failure.isFatal : Failure → Bool
  | .codec _ => false
  | .locator cause => cause.isFatal

/-- The breach that makes a failure fatal. -/
def Failure.breach? : Failure → Option Breach
  | .locator (.breach cause) => some cause
  | _ => none

/-- A failure is fatal exactly if there is a breach behind it. -/
theorem Failure.isFatal_eq (failure : Failure) : failure.isFatal = failure.breach?.isSome := by
  rcases failure with _ | (_ | _ | _ | _) <;> rfl

/-! ### Sources -/

/-- Anything that yields events until it closes. -/
class Source (α : Type) where
  /-- The next event, none if the source has closed, and what the source is then. -/
  next : α → Option Event × α
  /-- How many items are still to come. -/
  left : α → Nat
  /-- An event uses up an item. -/
  left_lt {source rest : α} {event : Event} :
    next source = (some event, rest) → left rest < left source

/-- Takes the first event of a queue. -/
def nextOfQueue : List Event → Option Event × List Event
  | [] => (none, [])
  | event :: rest => (some event, rest)

/-- A queue of events yields them in order. -/
instance : Source (List Event) where
  next := nextOfQueue
  left := List.length
  left_lt {source rest event} taken := by
    cases source with
    | nil => cases taken
    | cons first others =>
        cases taken
        exact Nat.lt_succ_self _

/-- Reads a frame. -/
def readFrame (frame : List UInt8) : Except Failure Event :=
  (Frame.decode frame).mapError .codec

/-- Frames that are still to be taken, and how many of those before them were dropped. -/
structure FrameSource where
  frames : List (List UInt8)
  skipped : Nat

/-- Takes the first frame that can be read, and drops those before it. -/
def nextOfFrames (skipped : Nat) : List (List UInt8) → Option Event × FrameSource
  | [] => (none, ⟨[], skipped⟩)
  | frame :: rest =>
    match readFrame frame with
    | .ok event => (some event, ⟨rest, skipped⟩)
    | .error _ => nextOfFrames (skipped + 1) rest

theorem length_lt_of_nextOfFrames {skipped : Nat} {frames : List (List UInt8)} {event : Event}
    {rest : FrameSource} (taken : nextOfFrames skipped frames = (some event, rest)) :
    rest.frames.length < frames.length := by
  induction frames generalizing skipped with
  | nil => cases taken
  | cons frame later ih =>
      rw [nextOfFrames] at taken
      split at taken
      · cases taken
        exact Nat.lt_succ_self _
      · exact Nat.lt_succ_of_lt (ih taken)

/-- A stream of frames yields the events of those that can be read. -/
instance : Source FrameSource where
  next source := nextOfFrames source.skipped source.frames
  left source := source.frames.length
  left_lt := length_lt_of_nextOfFrames

/-! ### The loop -/

/-- How many events were published, and how many changed nothing. -/
structure Tally where
  published : Nat
  unchanged : Nat
deriving DecidableEq

/-- Where a loop has ended, and what it leaves of its source. -/
structure End (α : Type) where
  publisher : Publisher
  source : α
  /-- The tally, or the breach that stopped the loop. -/
  result : Except Breach Tally

/-- Applies an event, and says whether a locator was published. -/
def apply (publisher : Publisher) (event : Event) : Except Failure Bool × Publisher :=
  match publisher.receive event with
  | (.applied, next) => (.ok true, next)
  | (.ignored, next) => (.ok false, next)
  | (.failed breach, next) => (.error (.locator (.breach breach)), next)

/--
Applies what a source yields until it closes. A fatal failure stops the loop; after any
other the event counts among those that changed nothing.
-/
def run {α : Type} [Source α] (publisher : Publisher) (tally : Tally) (source : α) : End α :=
  match _ : Source.next source with
  | (none, closed) => ⟨publisher, closed, .ok tally⟩
  | (some event, rest) =>
    match apply publisher event with
    | (.ok true, next) => run next { tally with published := tally.published + 1 } rest
    | (.ok false, next) => run next { tally with unchanged := tally.unchanged + 1 } rest
    | (.error failure, next) =>
      match failure.breach? with
      | some breach => ⟨next, rest, .error breach⟩
      | none => run next { tally with unchanged := tally.unchanged + 1 } rest
termination_by Source.left source
decreasing_by all_goals exact Source.left_lt ‹_›

/-- How a run of the loop ended. -/
structure Run where
  publisher : Publisher
  /-- How many frames were skipped. -/
  skipped : Nat
  /-- The tally, or the breach that stopped the loop. -/
  result : Except Breach Tally

/-- Runs the loop on events. -/
def runEvents (publisher : Publisher) (events : List Event) : Run :=
  let ended := run publisher ⟨0, 0⟩ events
  ⟨ended.publisher, 0, ended.result⟩

/-- Runs the loop on frames. -/
def runFrames (publisher : Publisher) (frames : List (List UInt8)) : Run :=
  let ended := run publisher ⟨0, 0⟩ (⟨frames, 0⟩ : FrameSource)
  ⟨ended.publisher, ended.source.skipped, ended.result⟩

end ClusterRing.ControlLoop
