import ClusterRing.Hash.Digest

/-!
# MD5

The message is padded to whole blocks of 64 bytes, and each block is mixed into a
state of four words by 64 steps in four rounds of sixteen. The digest is the
final state, each word with its lowest byte first.
-/

namespace ClusterRing.Md5

open Bytes

/-- The four words that are carried from block to block. -/
structure State where
  a : UInt32
  b : UInt32
  c : UInt32
  d : UInt32

/-- The state before the first block. -/
def State.start : State :=
  ⟨0x67452301, 0xefcdab89, 0x98badcfe, 0x10325476⟩

/-- The constant that each step adds: the first 32 bits of the fraction of `|sin (step + 1)|`. -/
def sines : List UInt32 :=
  [0xd76aa478, 0xe8c7b756, 0x242070db, 0xc1bdceee, 0xf57c0faf, 0x4787c62a, 0xa8304613, 0xfd469501,
    0x698098d8, 0x8b44f7af, 0xffff5bb1, 0x895cd7be, 0x6b901122, 0xfd987193, 0xa679438e, 0x49b40821,
    0xf61e2562, 0xc040b340, 0x265e5a51, 0xe9b6c7aa, 0xd62f105d, 0x02441453, 0xd8a1e681, 0xe7d3fbc8,
    0x21e1cde6, 0xc33707d6, 0xf4d50d87, 0x455a14ed, 0xa9e3e905, 0xfcefa3f8, 0x676f02d9, 0x8d2a4c8a,
    0xfffa3942, 0x8771f681, 0x6d9d6122, 0xfde5380c, 0xa4beea44, 0x4bdecfa9, 0xf6bb4b60, 0xbebfbc70,
    0x289b7ec6, 0xeaa127fa, 0xd4ef3085, 0x04881d05, 0xd9d4d039, 0xe6db99e5, 0x1fa27cf8, 0xc4ac5665,
    0xf4292244, 0x432aff97, 0xab9423a7, 0xfc93a039, 0x655b59c3, 0x8f0ccc92, 0xffeff47d, 0x85845dd1,
    0x6fa87e4f, 0xfe2ce6e0, 0xa3014314, 0x4e0811a1, 0xf7537e82, 0xbd3af235, 0x2ad7d2bb, 0xeb86d391]

/-- One round: how its steps combine three words, choose a word of the block, and rotate. -/
structure Round where
  combine : UInt32 → UInt32 → UInt32 → UInt32
  choose : Nat → Nat
  rotations : List UInt32

/-- The four rounds. -/
def rounds : List Round :=
  [⟨fun b c d => (b &&& c) ||| (~~~b &&& d), fun step => step, [7, 12, 17, 22]⟩,
    ⟨fun b c d => (d &&& b) ||| (~~~d &&& c), fun step => 5 * step + 1, [5, 9, 14, 20]⟩,
    ⟨fun b c d => b ^^^ c ^^^ d, fun step => 3 * step + 5, [4, 11, 16, 23]⟩,
    ⟨fun b c d => c ^^^ (b ||| ~~~d), fun step => 7 * step, [6, 10, 15, 21]⟩]

/-- One step: the function that combines words, the word of the block, the rotation, the constant. -/
structure Step where
  combine : UInt32 → UInt32 → UInt32 → UInt32
  word : Nat
  rotation : UInt32
  sine : UInt32

/-- The sixteen steps of a round, without their constants. -/
def Round.steps (round : Round) : List (UInt32 → Step) :=
  (List.range 16).map fun step =>
    Step.mk round.combine (round.choose step % 16) (round.rotations.getD (step % 4) 0)

/-- The 64 steps that mix one block. -/
def steps : List Step :=
  List.zipWith (fun step sine => step sine) (rounds.flatMap Round.steps) sines

/-- A word turned left by a number of bits between 1 and 31. -/
def rotateLeft (word amount : UInt32) : UInt32 :=
  (word <<< amount) ||| (word >>> (32 - amount))

/-- Mixes one word of the block into the state. -/
def Step.apply (step : Step) (block : Array UInt32) (state : State) : State :=
  let mixed := state.a + step.combine state.b state.c state.d + step.sine + block.getD step.word 0
  ⟨state.d, state.b + rotateLeft mixed step.rotation, state.b, state.c⟩

/-- Mixes one block of sixteen words into the state. -/
def State.absorb (state : State) (block : Array UInt32) : State :=
  let mixed := steps.foldl (fun current step => step.apply block current) state
  ⟨state.a + mixed.a, state.b + mixed.b, state.c + mixed.c, state.d + mixed.d⟩

/-- The message, a one bit, zero bits, and the length of the message in bits. -/
def pad (message : List UInt8) : List UInt8 :=
  let zeros := (119 - message.length % 64) % 64
  message ++ 0x80 :: List.replicate zeros 0 ++ LittleEndian.ofNat 8 (8 * message.length)

/-- A list cut into pieces of a positive length; the last may be shorter. -/
def chunks (length : Nat) (positive : 0 < length) (bytes : List UInt8) : List (List UInt8) :=
  match bytes with
  | [] => []
  | byte :: rest =>
    (byte :: rest).take length :: chunks length positive ((byte :: rest).drop length)
termination_by bytes.length
decreasing_by simp; omega

/-- The little-endian words of a block. -/
def wordsOf (block : List UInt8) : Array UInt32 :=
  ((chunks 4 (by decide) block).map fun bytes => UInt32.ofNat (LittleEndian.toNat bytes)).toArray

/-- The MD5 digest of a message. -/
def digest (message : List UInt8) : Digest :=
  let blocks := (chunks 64 (by decide) (pad message)).map wordsOf
  let state := blocks.foldl State.absorb State.start
  .ofNat (state.a.toNat + UInt32.size *
    (state.b.toNat + UInt32.size * (state.c.toNat + UInt32.size * state.d.toNat)))

end ClusterRing.Md5
