import ClusterRing.Address.Basic

/-!
# The order of texts is the order of their bytes

Texts are compared character by character, and their bytes in UTF-8 byte by byte. Both give the
same order: of two characters the smaller one has the smaller bytes, whatever follows
(`compare_utf8EncodeChar_append`), and so of two texts (`compare_utf8`). Comparing the text, the
host and the port of addresses one after the other therefore comes down to the bytes of the texts
(`Address.compareParts_eq`).
-/

namespace ClusterRing

open Std

namespace Text

/-- The bytes of a text in UTF-8. -/
def utf8 (text : String) : List UInt8 :=
  text.toUTF8.data.toList

/-! ### Characters -/

/-- Bytes are compared as the numbers that they stand for. -/
theorem compare_byte_cons {low high : Nat} (fits : low < 256) (fits' : high < 256)
    (rest others : List UInt8) :
    compare (UInt8.ofNat low :: rest) (UInt8.ofNat high :: others) = .lt ↔
      low < high ∨ low = high ∧ compare rest others = .lt := by
  have below : compare (UInt8.ofNat low) (UInt8.ofNat high) = .lt ↔ low < high := by
    rw [Std.compare_eq_lt, UInt8.lt_iff_toNat_lt, UInt8.toNat_ofNat', UInt8.toNat_ofNat',
      Nat.mod_eq_of_lt fits, Nat.mod_eq_of_lt fits']
  have same : compare (UInt8.ofNat low) (UInt8.ofNat high) = .eq ↔ low = high := by
    rw [Std.compare_eq_iff_eq, ← UInt8.toNat_inj, UInt8.toNat_ofNat', UInt8.toNat_ofNat',
      Nat.mod_eq_of_lt fits, Nat.mod_eq_of_lt fits']
  rw [List.compare_cons_cons, Ordering.then_eq_lt, below, same]

/-- The bytes of a character: the more there are, the greater is the first. -/
theorem utf8EncodeChar_cases (char : Char) :
    (char.val.toNat < 0x80 ∧ String.utf8EncodeChar char = [.ofNat char.val.toNat]) ∨
    (0x80 ≤ char.val.toNat ∧ char.val.toNat < 0x800 ∧ String.utf8EncodeChar char =
      [.ofNat (char.val.toNat / 64 + 0xC0), .ofNat (char.val.toNat % 64 + 0x80)]) ∨
    (0x800 ≤ char.val.toNat ∧ char.val.toNat < 0x10000 ∧ String.utf8EncodeChar char =
      [.ofNat (char.val.toNat / 4096 + 0xE0), .ofNat (char.val.toNat / 64 % 64 + 0x80),
        .ofNat (char.val.toNat % 64 + 0x80)]) ∨
    (0x10000 ≤ char.val.toNat ∧ char.val.toNat < 0x110000 ∧ String.utf8EncodeChar char =
      [.ofNat (char.val.toNat / 262144 + 0xF0), .ofNat (char.val.toNat / 4096 % 64 + 0x80),
        .ofNat (char.val.toNat / 64 % 64 + 0x80), .ofNat (char.val.toNat % 64 + 0x80)]) := by
  have valid : char.val.toNat < 0x110000 := by
    have valid := char.valid
    simp only [UInt32.isValidChar, Nat.isValidChar] at valid
    omega
  rw [String.utf8EncodeChar]
  split
  · exact .inl ⟨by omega, rfl⟩
  · split
    · refine .inr (.inl ⟨by omega, by omega, ?_⟩)
      rw [Nat.mod_eq_of_lt (a := char.val.toNat / 64) (by omega)]
    · split
      · refine .inr (.inr (.inl ⟨by omega, by omega, ?_⟩))
        rw [Nat.mod_eq_of_lt (a := char.val.toNat / 4096) (by omega)]
      · refine .inr (.inr (.inr ⟨by omega, by omega, ?_⟩))
        rw [Nat.mod_eq_of_lt (a := char.val.toNat / 262144) (by omega)]

/--
Wherever two characters differ, the bytes of the smaller one come first: more bytes begin with a
greater one, and of equally many the first that differs decides.
-/
theorem compare_utf8EncodeChar_append {char other : Char} (below : char < other)
    (rest others : List UInt8) :
    compare (String.utf8EncodeChar char ++ rest) (String.utf8EncodeChar other ++ others) = .lt := by
  have below : char.val.toNat < other.val.toNat := below
  rcases utf8EncodeChar_cases char with ⟨_, bytes⟩ | ⟨_, _, bytes⟩ | ⟨_, _, bytes⟩ | ⟨_, _, bytes⟩ <;>
    rcases utf8EncodeChar_cases other with
      ⟨_, bytes'⟩ | ⟨_, _, bytes'⟩ | ⟨_, _, bytes'⟩ | ⟨_, _, bytes'⟩ <;>
    rw [bytes, bytes'] <;>
    simp (disch := omega) only [List.cons_append, List.nil_append, compare_byte_cons] <;>
    omega

/-! ### Texts -/

theorem compare_append_self (front rest others : List UInt8) :
    compare (front ++ rest) (front ++ others) = compare rest others := by
  induction front with
  | nil => rfl
  | cons byte front ih =>
      rw [List.cons_append, List.cons_append, List.compare_cons_cons, ReflOrd.compare_self, ih]
      rfl

theorem compare_flatMap_utf8EncodeChar {left right : List Char} (below : left < right) :
    compare (left.flatMap String.utf8EncodeChar) (right.flatMap String.utf8EncodeChar) = .lt := by
  induction below with
  | @nil char rest =>
      cases bytes : String.utf8EncodeChar char with
      | nil => exact absurd bytes String.utf8EncodeChar_ne_nil
      | cons byte bytes' => simp [bytes]
  | rel first =>
      rw [List.flatMap_cons, List.flatMap_cons]
      exact compare_utf8EncodeChar_append first _ _
  | cons _ ih =>
      rw [List.flatMap_cons, List.flatMap_cons, compare_append_self]
      exact ih

theorem utf8_eq_flatMap (text : String) :
    utf8 text = text.toList.flatMap String.utf8EncodeChar := by
  rw [utf8, String.toUTF8_eq_toByteArray, ← String.utf8Encode_toList, List.utf8Encode]
  simp

/-- Texts are in the order of their bytes. -/
theorem compare_utf8 (left right : String) : compare (utf8 left) (utf8 right) = compare left right := by
  have below {first second : String} (order : compare first second = .lt) :
      compare (utf8 first) (utf8 second) = .lt := by
    have smaller : first < second := compareOfLessAndEq_eq_lt.mp order
    rw [utf8_eq_flatMap, utf8_eq_flatMap]
    exact compare_flatMap_utf8EncodeChar smaller
  cases order : compare left right with
  | lt => exact below order
  | eq =>
      obtain rfl := Std.compare_eq_iff_eq.mp order
      exact ReflOrd.compare_self
  | gt => exact OrientedCmp.gt_of_lt (below (OrientedCmp.gt_iff_lt.mp order))

end Text

namespace Address

/-- Addresses compared part by part: their texts, then their hosts, then their ports. -/
def compareParts (left right : Address) : Ordering :=
  (compare left.text right.text).then
    ((compare left.host right.host).then (compare left.port right.port))

/-- The text decides, so that the other parts are never looked at with effect. -/
theorem compareParts_eq (left right : Address) :
    left.compareParts right = compare (Text.utf8 left.text) (Text.utf8 right.text) := by
  rw [Text.compare_utf8, compareParts]
  cases order : compare left.text right.text with
  | lt => rfl
  | eq =>
      obtain rfl := text_injective (Std.compare_eq_iff_eq.mp order)
      simp [ReflOrd.compare_self]
  | gt => rfl

end Address

end ClusterRing
