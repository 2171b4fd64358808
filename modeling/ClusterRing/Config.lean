/-!
# Ring settings

How many points a node takes on the ring. All clients of a cluster agree on the
number, otherwise they compute different rings. A digest yields four points, so
the number is a positive multiple of four.
-/

namespace ClusterRing

/-- How many points are taken from one digest. -/
def pointsPerDigest : Nat := 4

theorem pointsPerDigest_pos : 0 < pointsPerDigest := by decide

/-- Settings that all clients of a cluster share. -/
structure Config where
  /-- How many points are computed for each node. -/
  repetitions : Nat := 160
  repetitions_pos : 0 < repetitions := by decide
  pointsPerDigest_dvd : pointsPerDigest ∣ repetitions := by decide
deriving DecidableEq

namespace Config

instance : Inhabited Config where
  default := {}

/-- The configuration with a number of repetitions, if it is a positive multiple of four. -/
def ofRepetitions? (count : Nat) : Option Config :=
  if valid : 0 < count ∧ pointsPerDigest ∣ count then some ⟨count, valid.1, valid.2⟩ else none

/-- How many digests are computed for each node. -/
def digestsPerNode (config : Config) : Nat :=
  config.repetitions / pointsPerDigest

theorem digestsPerNode_pos (config : Config) : 0 < config.digestsPerNode :=
  Nat.div_pos (Nat.le_of_dvd config.repetitions_pos config.pointsPerDigest_dvd) pointsPerDigest_pos

theorem digestsPerNode_mul (config : Config) :
    config.digestsPerNode * pointsPerDigest = config.repetitions :=
  Nat.div_mul_cancel config.pointsPerDigest_dvd

end Config

end ClusterRing
