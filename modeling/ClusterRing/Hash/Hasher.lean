import ClusterRing.Hash.Md5
import ClusterRing.Hash.Xxh3

/-!
# Hashers

A hasher places keys on the ring and computes the digests that node points are
taken from. Rings work with any hasher; two are given here. Both place a key at
the first word of its digest.
-/

namespace ClusterRing

/-- How keys and node labels are hashed. -/
structure Hasher where
  /-- The name the hasher is known by. -/
  name : String
  /-- The point at which a key lies. -/
  point : String → Point
  /-- The digest of a node label. -/
  digest : String → Digest

namespace Hasher

/-- The hasher that places each key at the first word of its digest. -/
def ofDigest (name : String) (digest : String → Digest) : Hasher where
  name := name
  point key := (digest key).word ⟨0, Nat.zero_lt_succ 3⟩
  digest := digest

/-- MD5, as other ketama clients use it. -/
def ketama : Hasher :=
  ofDigest "KetamaHash" fun text => Md5.digest text.toUTF8.data.toList

/-- XXH3 with 128 bits. -/
def xxh3 : Hasher :=
  ofDigest "Xxh3Hash" fun text => Xxh3.digest text.toUTF8.data

/-- The hasher that a word of the command line chooses. -/
def ofWord? : String → Option Hasher
  | "ketama" => some ketama
  | "xxh3" => some xxh3
  | _ => none

end Hasher

end ClusterRing
