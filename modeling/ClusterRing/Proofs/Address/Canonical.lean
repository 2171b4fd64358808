import ClusterRing.Proofs.Readable
import Mathlib.Data.String.Basic
import Mathlib.Data.Nat.Digits.Defs

/-!
# The shortest text of an address

An address can be written with blanks around it, a sign in front of the port and
leading zeros. Its own text has none of these, so it is no longer than any text
that is read as the address (`utf8ByteSize_text_le`), and what holds a text with
its length has room for the address's own text too.
-/

namespace ClusterRing

namespace Text

/-! ### Lengths in bytes -/

theorem sublist_trimStart (text : List Char) : (trimStart text).Sublist text :=
  (List.dropWhile_suffix isBlank).sublist

theorem sublist_trim (text : List Char) : (trim text).Sublist text := by
  have backwards := (sublist_trimStart (trimStart text).reverse).trans
    (sublist_trimStart text).reverse
  simpa [trim] using backwards.reverse

theorem length_le_utf8Len (text : List Char) : text.length ≤ String.utf8Len text := by
  induction text with
  | nil => simp
  | cons char rest ih =>
      have positive := char.utf8Size_pos
      rw [List.length_cons, String.utf8Len_cons]
      omega

theorem utf8Size_of_isDigit {char : Char} (digit : char.isDigit = true) : char.utf8Size = 1 := by
  simp only [Char.isDigit, Bool.and_eq_true, decide_eq_true_eq, UInt32.le_iff_toNat_le] at digit
  rw [Char.utf8Size_eq_one_iff, UInt32.le_iff_toNat_le]
  exact digit.2.trans (by decide)

theorem utf8Len_of_digits {text : List Char} (digits : ∀ char ∈ text, char.isDigit = true) :
    String.utf8Len text = text.length := by
  induction text with
  | nil => rfl
  | cons char rest ih =>
      rcases List.forall_mem_cons.mp digits with ⟨first, others⟩
      rw [String.utf8Len_cons, List.length_cons, utf8Size_of_isDigit first, ih others]

/-! ### Lengths of numerals -/

namespace Decimal

variable {limit value number : Nat} {digits text : List Char}

theorem digit_le_nine {char : Char} (digit : char.isDigit = true) :
    char.toNat - '0'.toNat ≤ 9 := by
  simp only [Char.isDigit, Bool.and_eq_true, decide_eq_true_eq, UInt32.le_iff_toNat_le] at digit
  have upper : char.toNat ≤ 57 := digit.2
  have zero : '0'.toNat = 48 := rfl
  omega

/-- With each digit that is read there are ten times as many values. -/
theorem readDigits_lt (success : readDigits limit value digits = .ok number) :
    number < (value + 1) * 10 ^ digits.length := by
  induction digits generalizing value with
  | nil => simp_all [readDigits]
  | cons char rest ih =>
      simp only [readDigits] at success
      split at success
      · next digit =>
          split at success
          · have small := digit_le_nine digit
            have below := ih success
            have wider : (10 * value + (char.toNat - '0'.toNat) + 1) * 10 ^ rest.length ≤
                (value + 1) * 10 * 10 ^ rest.length := Nat.mul_le_mul_right _ (by omega)
            rw [List.length_cons, Nat.pow_succ', ← Nat.mul_assoc]
            exact below.trans_le wider
          · cases success
      · cases success

theorem read_lt (success : read limit text = .ok number) :
    text ≠ [] ∧ number < 10 ^ text.length := by
  unfold read at success
  split at success
  · exact nomatch success
  · exact nomatch success
  · next digits _ =>
      have below := readDigits_lt success
      rw [Nat.zero_add, Nat.one_mul] at below
      exact ⟨by simp, below.trans_le (Nat.pow_le_pow_right (by decide) (Nat.le_succ _))⟩
  · next nonempty _ _ =>
      have below := readDigits_lt success
      rw [Nat.zero_add, Nat.one_mul] at below
      exact ⟨nonempty, below⟩

/-- A numeral without a sign and leading zeros is the shortest one of its number. -/
theorem length_toDigits_le (success : read limit text = .ok number) :
    (Nat.toDigits 10 number).length ≤ text.length := by
  rcases read_lt success with ⟨nonempty, below⟩
  exact (Nat.length_toDigits_le_iff (by decide) (List.length_pos_iff.mpr nonempty)).mpr below

end Decimal

end Text

namespace Address

open Text

/-- No text that is read as an address is shorter than the address's own text. -/
theorem utf8ByteSize_text_le {address : Address} {input : String}
    (found : parse input = .ok address) : address.text.utf8ByteSize ≤ input.utf8ByteSize := by
  rcases parts_of_parse found with ⟨digits, whole, numeral⟩
  have port : String.utf8Len (Nat.toDigits 10 address.port.toNat) ≤ String.utf8Len digits := by
    rw [utf8Len_of_digits fun _ => Nat.isDigit_of_mem_toDigits (by decide) (by decide)]
    exact (Decimal.length_toDigits_le numeral).trans (length_le_utf8Len digits)
  have trimmed := String.utf8Len_le_of_sublist (sublist_trim input.toList)
  rw [← String.utf8Len_toList, ← String.utf8Len_toList, toList_text]
  rw [whole] at trimmed
  simp only [String.utf8Len_append, String.utf8Len_cons] at trimmed ⊢
  omega

end Address

end ClusterRing
