import ClusterRing.Point

/-!
# Arcs and distances

A point lies inside an arc exactly when it is nearer to the start than the stop
is, and exactly when it is nearer to the stop than the start is. A point inside
an arc cuts it in two. All of this is arithmetic on the two shapes that an arc
can have, below the largest point (`onArc_iff`, `clockwise_cases`) and across it.
-/

namespace ClusterRing.Point

variable {start stop middle point : Point}

theorem onArc_iff :
    onArc start stop point = true ↔
      start.toNat < stop.toNat ∧ start.toNat < point.toNat ∧ point.toNat ≤ stop.toNat ∨
      stop.toNat ≤ start.toNat ∧ (start.toNat < point.toNat ∨ point.toNat ≤ stop.toNat) := by
  simp only [onArc, UInt32.lt_iff_toNat_lt, UInt32.le_iff_toNat_le]
  split
  · simp
    omega
  · simp
    omega

/-- Only the arc around the whole circle comes back to the start that it leaves out. -/
theorem onArc_start_iff : onArc start stop start = true ↔ start = stop := by
  rw [onArc_iff, ← UInt32.toNat_inj]
  omega

theorem clockwise_cases (start stop : Point) :
    start.toNat < stop.toNat ∧ start.toNat + clockwise start stop = stop.toNat ∨
      stop.toNat ≤ start.toNat ∧
        start.toNat + clockwise start stop = stop.toNat + 4294967296 := by
  have startBound := start.toNat_lt
  have stopBound := stop.toNat_lt
  simp only [clockwise, circleSize, UInt32.size, ← UInt32.toNat_inj, UInt32.toNat_sub]
  split <;> omega

theorem clockwise_le_circleSize : clockwise start stop ≤ circleSize := by
  have stopBound := stop.toNat_lt
  have shape := clockwise_cases start stop
  rw [circleSize, UInt32.size]
  omega

theorem clockwise_pos : 0 < clockwise start stop := by
  have startBound := start.toNat_lt
  have shape := clockwise_cases start stop
  omega

theorem clockwise_self : clockwise point point = circleSize := by
  simp [clockwise]

theorem clockwise_from_lt_iff :
    clockwise start point < clockwise start stop ↔
      onArc start stop point = true ∧ point ≠ stop := by
  have toPoint := clockwise_cases start point
  have toStop := clockwise_cases start stop
  have stopBound := stop.toNat_lt
  have pointBound := point.toNat_lt
  rw [onArc_iff, ne_eq, ← UInt32.toNat_inj]
  omega

theorem clockwise_to_lt_iff :
    clockwise point stop < clockwise start stop ↔
      onArc start stop point = true ∧ point ≠ stop := by
  have fromPoint := clockwise_cases point stop
  have fromStart := clockwise_cases start stop
  have startBound := start.toNat_lt
  have pointBound := point.toNat_lt
  rw [onArc_iff, ne_eq, ← UInt32.toNat_inj]
  omega

theorem onArc_iff_sub_lt :
    onArc start stop point = true ↔ (stop - point).toNat < clockwise start stop := by
  have fromStart := clockwise_cases start stop
  have startBound := start.toNat_lt
  have stopBound := stop.toNat_lt
  have pointBound := point.toNat_lt
  rw [onArc_iff, UInt32.toNat_sub]
  omega

theorem sub_sub_self (start stop : Point) : stop - (stop - start) = start := by
  have startBound := start.toNat_lt
  have stopBound := stop.toNat_lt
  apply UInt32.toNat.inj
  rw [UInt32.toNat_sub, UInt32.toNat_sub]
  omega

/-- A point inside an arc cuts it into the arc up to the point and the arc from there. -/
theorem onArc_cut (inside : onArc start stop middle = true) (short : middle ≠ stop) :
    onArc start stop point = true ↔
      onArc start middle point = true ∨ onArc middle stop point = true := by
  rw [ne_eq, ← UInt32.toNat_inj] at short
  simp only [onArc_iff] at inside ⊢
  omega

end ClusterRing.Point
