/-!
# Points and arcs

The ring is a circle of 2^32 points. An arc leads clockwise, with growing points,
from a start that it leaves out to a stop that it takes in, and from the largest
point on to zero. Between two equal points it is the whole circle, so every arc
has a length between 1 and 2^32.
-/

namespace ClusterRing

/-- A position on the circle. -/
abbrev Point := UInt32

/-- How many points the circle has. -/
def circleSize : Nat := UInt32.size

namespace Point

/-- The largest point; the next one clockwise is zero. -/
def last : Point := 0xFFFFFFFF

theorem le_last (point : Point) : point ≤ last := by
  rw [UInt32.le_iff_toNat_le]
  exact Nat.le_of_lt_succ point.toNat_lt

/-- The length of the arc from one point clockwise to another. -/
def clockwise (start stop : Point) : Nat :=
  if start = stop then circleSize else (stop - start).toNat

/-- Whether a point lies on the arc from `start` to `stop`. -/
def onArc (start stop point : Point) : Bool :=
  if start < stop then
    decide (start < point) && decide (point ≤ stop)
  else
    decide (start < point) || decide (point ≤ stop)

/-- A point lies on an arc exactly when it is no farther from the start than the stop. -/
theorem onArc_iff_clockwise_le (start stop point : Point) :
    onArc start stop point = true ↔ clockwise start point ≤ clockwise start stop := by
  have boundStart := start.toNat_lt
  have boundStop := stop.toNat_lt
  have boundPoint := point.toNat_lt
  simp only [onArc, clockwise, circleSize, UInt32.size, UInt32.lt_iff_toNat_lt, UInt32.le_iff_toNat_le,
    ← UInt32.toNat_inj]
  split <;> split <;> split <;>
    simp only [Bool.and_eq_true, Bool.or_eq_true, decide_eq_true_eq, UInt32.toNat_sub] <;> omega

end Point

end ClusterRing
