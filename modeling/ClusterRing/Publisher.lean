import ClusterRing.Event.Basic

/-!
# Publishing locators

One writer applies events to its own locator, and readers use the copy that was
published last. A copy is published whenever an event was applied; an event that
was ignored or that failed publishes nothing. After a failure the writer keeps
what the event did so far.
-/

namespace ClusterRing

/-- The writer's locator and the one that readers see. -/
structure Publisher where
  writer : Locator
  published : Locator
  /-- How many locators were published since the start. -/
  version : Nat

namespace Publisher

/-- A publisher whose readers see the first locator. -/
def start (locator : Locator) : Publisher :=
  ⟨locator, locator, 0⟩

/-- Applies one event. -/
def receive (publisher : Publisher) (event : Event) : Locator.Verdict × Publisher :=
  let outcome := publisher.writer.receive event
  match outcome.verdict with
  | .applied => (.applied, ⟨outcome.locator, outcome.locator, publisher.version + 1⟩)
  | verdict => (verdict, { publisher with writer := outcome.locator })

/-- The node that holds a key, as readers see it. -/
def resolve? (publisher : Publisher) (key : String) : Option Address :=
  publisher.published.primary? key

end Publisher

end ClusterRing
