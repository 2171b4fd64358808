import ClusterRing.Point

/-!
# Intervals of points

An interval runs from a lower to an upper bound without wrapping around. Bounds
that cross make no interval. An arc of the circle is one interval, or two where
it passes the largest point (`any_contains_arc`).
-/

namespace ClusterRing

/-- One end of an interval. -/
inductive Bound where
  | included (point : Point)
  | excluded (point : Point)
  | unbounded
deriving DecidableEq

/-- Whether a lower and an upper bound leave no room for an interval between them. -/
def Bound.crosses : Bound → Bound → Bool
  | .unbounded, _ => false
  | _, .unbounded => false
  | .excluded lower, .excluded upper => decide (upper ≤ lower)
  | .included lower, .included upper => decide (upper < lower)
  | .included lower, .excluded upper => decide (upper < lower)
  | .excluded lower, .included upper => decide (upper < lower)

/-- A range of points between bounds that do not cross. -/
structure Interval where
  lower : Bound
  upper : Bound
  ordered : lower.crosses upper = false

namespace Interval

/-- The interval between two bounds, unless they cross. -/
def ofBounds? (lower upper : Bound) : Option Interval :=
  if ordered : lower.crosses upper = false then some ⟨lower, upper, ordered⟩ else none

/-- Whether a point lies in an interval. -/
def contains (interval : Interval) (point : Point) : Bool :=
  let aboveLower := match interval.lower with
    | .included lower => decide (lower ≤ point)
    | .excluded lower => decide (lower < point)
    | .unbounded => true
  let belowUpper := match interval.upper with
    | .included upper => decide (point ≤ upper)
    | .excluded upper => decide (point < upper)
    | .unbounded => true
  aboveLower && belowUpper

/-- The intervals that make up the arc from `start` to `stop`. -/
def arc (start stop : Point) : List Interval :=
  if forward : start < stop then
    [⟨.excluded start, .included stop, by
      simpa [Bound.crosses] using UInt32.le_of_lt forward⟩]
  else
    [⟨.excluded start, .included Point.last, by
        simpa [Bound.crosses] using Point.le_last start⟩,
      ⟨.included 0, .included stop, by simp [Bound.crosses]⟩]

/-- The intervals of an arc hold exactly the points on it. -/
theorem any_contains_arc (start stop point : Point) :
    (arc start stop).any (·.contains point) = Point.onArc start stop point := by
  unfold arc Point.onArc
  split <;> simp [contains, Point.le_last]

end Interval

end ClusterRing
