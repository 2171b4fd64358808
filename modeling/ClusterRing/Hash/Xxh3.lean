import ClusterRing.Hash.Digest

/-!
# XXH3, 128 bits

The 128-bit hash of a message under the default secret, without a seed. Messages
of different lengths take different paths: up to 16 bytes are mixed whole, up to
240 bytes are mixed in pieces of 32, and longer ones run through eight
accumulators in stripes of 64 bytes. All arithmetic wraps at 64 bits.
-/

namespace ClusterRing.Xxh3

open Bytes

/-- The two halves of a 128-bit number. -/
structure Halves where
  low : UInt64
  high : UInt64

/-- The default secret that message words are combined with. -/
def secret : Array UInt8 :=
  #[0xb8, 0xfe, 0x6c, 0x39, 0x23, 0xa4, 0x4b, 0xbe, 0x7c, 0x01, 0x81, 0x2c, 0xf7, 0x21, 0xad, 0x1c,
    0xde, 0xd4, 0x6d, 0xe9, 0x83, 0x90, 0x97, 0xdb, 0x72, 0x40, 0xa4, 0xa4, 0xb7, 0xb3, 0x67, 0x1f,
    0xcb, 0x79, 0xe6, 0x4e, 0xcc, 0xc0, 0xe5, 0x78, 0x82, 0x5a, 0xd0, 0x7d, 0xcc, 0xff, 0x72, 0x21,
    0xb8, 0x08, 0x46, 0x74, 0xf7, 0x43, 0x24, 0x8e, 0xe0, 0x35, 0x90, 0xe6, 0x81, 0x3a, 0x26, 0x4c,
    0x3c, 0x28, 0x52, 0xbb, 0x91, 0xc3, 0x00, 0xcb, 0x88, 0xd0, 0x65, 0x8b, 0x1b, 0x53, 0x2e, 0xa3,
    0x71, 0x64, 0x48, 0x97, 0xa2, 0x0d, 0xf9, 0x4e, 0x38, 0x19, 0xef, 0x46, 0xa9, 0xde, 0xac, 0xd8,
    0xa8, 0xfa, 0x76, 0x3f, 0xe3, 0x9c, 0x34, 0x3f, 0xf9, 0xdc, 0xbb, 0xc7, 0xc7, 0x0b, 0x4f, 0x1d,
    0x8a, 0x51, 0xe0, 0x4b, 0xcd, 0xb4, 0x59, 0x31, 0xc8, 0x9f, 0x7e, 0xc9, 0xd9, 0x78, 0x73, 0x64,
    0xea, 0xc5, 0xac, 0x83, 0x34, 0xd3, 0xeb, 0xc3, 0xc5, 0x81, 0xa0, 0xff, 0xfa, 0x13, 0x63, 0xeb,
    0x17, 0x0d, 0xdd, 0x51, 0xb7, 0xf0, 0xda, 0x49, 0xd3, 0x16, 0x55, 0x26, 0x29, 0xd4, 0x68, 0x9e,
    0x2b, 0x16, 0xbe, 0x58, 0x7d, 0x47, 0xa1, 0xfc, 0x8f, 0xf8, 0xb8, 0xd1, 0x7a, 0xd0, 0x31, 0xce,
    0x45, 0xcb, 0x3a, 0x8f, 0x95, 0x16, 0x04, 0x28, 0xaf, 0xd7, 0xfb, 0xca, 0xbb, 0x4b, 0x40, 0x7e]

/-! ### Constants -/

def prime32A : UInt64 := 0x9E3779B1
def prime32B : UInt64 := 0x85EBCA77
def prime32C : UInt64 := 0xC2B2AE3D

def prime64A : UInt64 := 0x9E3779B185EBCA87
def prime64B : UInt64 := 0xC2B2AE3D27D4EB4F
def prime64C : UInt64 := 0x165667B19E3779F9
def prime64D : UInt64 := 0x85EBCA77C2B2AE63
def prime64E : UInt64 := 0x27D4EB2F165667C5

def mixerA : UInt64 := 0x165667919E3779F9
def mixerB : UInt64 := 0x9FB21C651E98DF25

/-! ### Words -/

/-- The little-endian number in `width` bytes from an offset; bytes past the end count as zero. -/
def wordAt (width : Nat) (bytes : Array UInt8) (offset : Nat) : UInt64 :=
  (List.range width).foldr
    (fun index word => (word <<< 8) ||| (bytes.getD (offset + index) 0).toUInt64) 0

/-- The 32-bit word at an offset. -/
def word32 : Array UInt8 → Nat → UInt64 := wordAt 4

/-- The 64-bit word at an offset. -/
def word64 : Array UInt8 → Nat → UInt64 := wordAt 8

/-- The word of the secret at an offset, combined with the next one. -/
def secretPair (offset : Nat) : UInt64 :=
  word64 secret offset ^^^ word64 secret (offset + 8)

/-- The low 32 bits of a word. -/
def low32 (word : UInt64) : UInt64 := word &&& 0xFFFFFFFF

/-- A word of `width` bytes with its bytes in the opposite order. -/
def reverseBytes (width : Nat) (word : UInt64) : UInt64 :=
  UInt64.ofNat (LittleEndian.toNat (LittleEndian.ofNat width word.toNat).reverse)

/-- A 32-bit word turned left by 13 bits. -/
def rotate13 (word : UInt64) : UInt64 :=
  low32 ((word <<< 13) ||| (word >>> 19))

/-- The full product of two words. -/
def multiply (left right : UInt64) : Halves :=
  let product := left.toNat * right.toNat
  ⟨UInt64.ofNat product, UInt64.ofNat (product / UInt64.size)⟩

/-- The two halves of a full product, combined. -/
def multiplyFold (left right : UInt64) : UInt64 :=
  let product := multiply left right
  product.low ^^^ product.high

/-- A word combined with itself shifted right. -/
def shiftMix (word amount : UInt64) : UInt64 :=
  word ^^^ (word >>> amount)

/-- The final mix of the longer paths. -/
def avalanche (word : UInt64) : UInt64 :=
  shiftMix (shiftMix word 37 * mixerA) 32

/-- The final mix of the shortest messages. -/
def avalancheShort (word : UInt64) : UInt64 :=
  shiftMix (shiftMix (shiftMix word 33 * prime64B) 29 * prime64C) 32

/-! ### Up to 16 bytes -/

/-- The hash of the empty message. -/
def hashEmpty : Halves :=
  ⟨avalancheShort (secretPair 64), avalancheShort (secretPair 80)⟩

/-- The hash of one to three bytes: all of them and the length in one word. -/
def hashUpTo3 (message : Array UInt8) : Halves :=
  let length := message.size
  let first := wordAt 1 message 0
  let middle := wordAt 1 message (length / 2)
  let last := wordAt 1 message (length - 1)
  let low := (first <<< 16) ||| (middle <<< 24) ||| last ||| (UInt64.ofNat length <<< 8)
  let high := rotate13 (reverseBytes 4 low)
  ⟨avalancheShort (low ^^^ (word32 secret 0 ^^^ word32 secret 4)),
    avalancheShort (high ^^^ (word32 secret 8 ^^^ word32 secret 12))⟩

/-- The hash of four to eight bytes: the first and the last four. -/
def hashUpTo8 (message : Array UInt8) : Halves :=
  let length := message.size
  let word := word32 message 0 + (word32 message (length - 4) <<< 32)
  let product := multiply (word ^^^ secretPair 16) (prime64A + (UInt64.ofNat length <<< 2))
  let high := product.high + (product.low <<< 1)
  let low := product.low ^^^ (high >>> 3)
  ⟨shiftMix (shiftMix low 35 * mixerB) 28, avalanche high⟩

/-- The hash of nine to sixteen bytes: the first and the last eight. -/
def hashUpTo16 (message : Array UInt8) : Halves :=
  let length := message.size
  let first := word64 message 0
  let last := word64 message (length - 8)
  let product := multiply (first ^^^ last ^^^ secretPair 32) prime64A
  let low := product.low + (UInt64.ofNat (length - 1) <<< 54)
  let keyed := last ^^^ secretPair 48
  let high := product.high + keyed + low32 keyed * (prime32B - 1)
  let final := multiply (low ^^^ reverseBytes 8 high) prime64B
  ⟨avalanche final.low, avalanche (final.high + high * prime64B)⟩

/-! ### Up to 240 bytes -/

/-- Sixteen bytes of the message, combined with sixteen of the secret. -/
def mix16 (message : Array UInt8) (offset secretOffset : Nat) : UInt64 :=
  multiplyFold (word64 message offset ^^^ word64 secret secretOffset)
    (word64 message (offset + 8) ^^^ word64 secret (secretOffset + 8))

/-- The sum of the two words at an offset. -/
def wordSum (message : Array UInt8) (offset : Nat) : UInt64 :=
  word64 message offset + word64 message (offset + 8)

/-- Mixes two pieces of sixteen bytes into both halves. -/
def Halves.mix32 (acc : Halves) (message : Array UInt8) (left right secretOffset : Nat) :
    Halves where
  low := (acc.low + mix16 message left secretOffset) ^^^ wordSum message right
  high := (acc.high + mix16 message right (secretOffset + 16)) ^^^ wordSum message left

/-- The last step of the paths for middle lengths. -/
def Halves.finish (acc : Halves) (length : Nat) : Halves where
  low := avalanche (acc.low + acc.high)
  high := 0 - avalanche
    (acc.low * prime64A + acc.high * prime64D + UInt64.ofNat length * prime64B)

/-- The halves that the paths for middle lengths begin with. -/
def Halves.start (length : Nat) : Halves :=
  ⟨UInt64.ofNat length * prime64A, 0⟩

/-- The hash of 17 to 128 bytes: pairs of pieces, from the middle out to both ends. -/
def hashUpTo128 (message : Array UInt8) : Halves :=
  let length := message.size
  let pairs := (length - 1) / 32 + 1
  let mixed := (List.range pairs).foldr
    (fun pair acc => acc.mix32 message (16 * pair) (length - 16 * (pair + 1)) (32 * pair))
    (Halves.start length)
  mixed.finish length

/-- The hash of 129 to 240 bytes: pieces of 32 in order, then the last 32 once more. -/
def hashUpTo240 (message : Array UInt8) : Halves :=
  let length := message.size
  let mixPiece (secretOffset : Nat → Nat) (acc : Halves) (piece : Nat) : Halves :=
    acc.mix32 message (32 * piece) (32 * piece + 16) (secretOffset piece)
  let early := (List.range 4).foldl (mixPiece (32 * ·)) (Halves.start length)
  let settled : Halves := ⟨avalanche early.low, avalanche early.high⟩
  let late := (List.range' 4 (length / 32 - 4)).foldl (mixPiece (32 * · - 125)) settled
  (late.mix32 message (length - 16) (length - 32) 103).finish length

/-! ### Longer messages -/

/-- The eight accumulators of a long message. -/
abbrev Lanes := Vector UInt64 8

/-- The accumulators before the first stripe. -/
def lanesStart : Lanes :=
  #v[prime32C, prime64A, prime64B, prime64C, prime64D, prime32B, prime64E, prime32A]

/-- Adds one stripe of 64 bytes: to each lane its keyed product and its neighbour's word. -/
def absorbStripe (message : Array UInt8) (lanes : Lanes) (offset secretOffset : Nat) : Lanes :=
  let word (lane : Nat) := word64 message (offset + 8 * lane)
  Vector.ofFn fun lane =>
    let keyed := word lane ^^^ word64 secret (secretOffset + 8 * lane)
    lanes[lane] + word (lane.val ^^^ 1) + low32 keyed * (keyed >>> 32)

/-- Spreads the bits of each accumulator at the end of a block. -/
def scramble (lanes : Lanes) : Lanes :=
  Vector.ofFn fun lane =>
    (shiftMix lanes[lane] 47 ^^^ word64 secret (128 + 8 * lane)) * prime32A

/-- How many stripes make a block. -/
def stripesPerBlock : Nat := 16

/-- Adds stripes from an offset on, moving eight bytes through the secret at each. -/
def absorbStripes (message : Array UInt8) (offset count : Nat) (lanes : Lanes) : Lanes :=
  (List.range count).foldl
    (fun current stripe => absorbStripe message current (offset + 64 * stripe) (8 * stripe)) lanes

/-- The accumulators combined with the secret into one word. -/
def mergeLanes (lanes : Lanes) (secretOffset : Nat) (start : UInt64) : UInt64 :=
  let pair (index : Fin 4) : UInt64 :=
    multiplyFold (lanes[2 * index.val] ^^^ word64 secret (secretOffset + 16 * index))
      (lanes[2 * index.val + 1] ^^^ word64 secret (secretOffset + 16 * index + 8))
  avalanche (start + pair 0 + pair 1 + pair 2 + pair 3)

/-- The hash of more than 240 bytes. -/
def hashLong (message : Array UInt8) : Halves :=
  let length := message.size
  let blockLength := 64 * stripesPerBlock
  let blocks := (length - 1) / blockLength
  let whole := (List.range blocks).foldl
    (fun lanes block => scramble (absorbStripes message (blockLength * block) stripesPerBlock lanes))
    lanesStart
  let rest := (length - 1 - blockLength * blocks) / 64
  let partly := absorbStripes message (blockLength * blocks) rest whole
  let lanes := absorbStripe message partly (length - 64) 121
  ⟨mergeLanes lanes 11 (UInt64.ofNat length * prime64A),
    mergeLanes lanes 117 (~~~(UInt64.ofNat length * prime64B))⟩

/-! ### The digest -/

/-- The hash of a message of any length. -/
def hash (message : Array UInt8) : Halves :=
  let length := message.size
  if length = 0 then hashEmpty
  else if length ≤ 3 then hashUpTo3 message
  else if length ≤ 8 then hashUpTo8 message
  else if length ≤ 16 then hashUpTo16 message
  else if length ≤ 128 then hashUpTo128 message
  else if length ≤ 240 then hashUpTo240 message
  else hashLong message

/-- The digest of a message: its hash, lowest byte first. -/
def digest (message : Array UInt8) : Digest :=
  let halves := hash message
  .ofNat (halves.low.toNat + UInt64.size * halves.high.toNat)

end ClusterRing.Xxh3
