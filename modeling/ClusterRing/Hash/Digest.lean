import ClusterRing.Bytes.LittleEndian
import ClusterRing.Point

/-!
# Digests

A digest is sixteen bytes, read as four little-endian words of 32 bits. A word of
a digest is a point of the ring.
-/

namespace ClusterRing

/-- The sixteen bytes that a hash function computes from a text. -/
structure Digest where
  bytes : Vector UInt8 16
deriving DecidableEq

namespace Digest

/-- The `index`-th little-endian word. -/
def word (digest : Digest) (index : Fin 4) : Point :=
  let bytes := (digest.bytes.toList.drop (4 * index)).take 4
  UInt32.ofNat (Bytes.LittleEndian.toNat bytes)

/-- The four words, in order. -/
def words (digest : Digest) : List Point :=
  List.ofFn digest.word

/-- The digest whose bytes are those of a 128-bit number, lowest first. -/
def ofNat (number : Nat) : Digest where
  bytes := ⟨(Bytes.LittleEndian.ofNat 16 number).toArray, by simp⟩

end Digest

/-- The two halves of a 64-bit number, folded into one word. -/
def fold64 (number : UInt64) : UInt32 :=
  (number ^^^ (number >>> 32)).toUInt32

/-- Folding keeps a number that fits in one word. -/
theorem fold64_toUInt64 (word : UInt32) : fold64 word.toUInt64 = word := by
  have shifted : word.toUInt64 >>> 32 = 0 := by
    apply UInt64.toNat.inj
    have := word.toNat_lt
    simp [Nat.shiftRight_eq_div_pow]
    omega
  simp [fold64, shifted]

end ClusterRing
