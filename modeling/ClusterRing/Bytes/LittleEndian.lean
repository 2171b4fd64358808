/-!
# Little-endian numbers

A number of a fixed width is written as its bytes, lowest first. Writing and
reading are inverse for every number that fits the width (`toNat_ofNat`,
`ofNat_toNat`).
-/

namespace ClusterRing.Bytes.LittleEndian

/-- The number that a list of bytes stands for, lowest byte first. -/
def toNat : List UInt8 → Nat
  | [] => 0
  | byte :: rest => byte.toNat + 256 * toNat rest

/-- The lowest `width` bytes of a number, lowest first. -/
def ofNat : (width : Nat) → (number : Nat) → List UInt8
  | 0, _ => []
  | width + 1, number => UInt8.ofNat number :: ofNat width (number / 256)

/-- How many numbers fit a width. -/
def capacity : (width : Nat) → Nat
  | 0 => 1
  | width + 1 => 256 * capacity width

@[simp]
theorem length_ofNat (width number : Nat) : (ofNat width number).length = width := by
  induction width generalizing number with
  | zero => rfl
  | succ width ih => simp [ofNat, ih]

theorem toNat_lt (bytes : List UInt8) : toNat bytes < capacity bytes.length := by
  induction bytes with
  | nil => simp [toNat, capacity]
  | cons byte rest ih =>
      have := byte.toNat_lt
      simp only [toNat, List.length_cons, capacity]
      omega

/-- Reading what was written gives the number back, up to the width. -/
theorem toNat_ofNat (width number : Nat) : toNat (ofNat width number) = number % capacity width := by
  induction width generalizing number with
  | zero => simp [ofNat, toNat, capacity, Nat.mod_one]
  | succ width ih =>
      rw [ofNat, toNat, ih, capacity, Nat.mod_mul]
      simp

theorem toNat_ofNat_of_lt {width number : Nat} (fits : number < capacity width) :
    toNat (ofNat width number) = number := by
  rw [toNat_ofNat, Nat.mod_eq_of_lt fits]

/-- Writing what was read gives the bytes back. -/
theorem ofNat_toNat (bytes : List UInt8) : ofNat bytes.length (toNat bytes) = bytes := by
  induction bytes with
  | nil => rfl
  | cons byte rest ih =>
      have := byte.toNat_lt
      rw [List.length_cons, ofNat, toNat, Nat.add_mul_div_left _ _ (by decide),
        Nat.div_eq_of_lt this, Nat.zero_add, ih]
      congr 1
      apply UInt8.toNat.inj
      simp

end ClusterRing.Bytes.LittleEndian
