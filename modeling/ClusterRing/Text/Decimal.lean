/-!
# Decimal numerals

Reading an unsigned decimal numeral with an upper limit. The digits are taken
from left to right, and the first character that is no digit, or that carries
the value past the limit, decides the fault. A number within the limit is read
back from its numeral (`read_toDigits`).
-/

namespace ClusterRing.Text.Decimal

/-- Why a text is no numeral below the limit. -/
inductive Fault where
  /-- There is no text. -/
  | empty
  /-- A character is no digit, or a sign stands alone. -/
  | invalidDigit
  /-- The value passes the limit. -/
  | tooLarge
deriving DecidableEq, Repr

/-- The fault in words. -/
def Fault.message : Fault → String
  | .empty => "cannot parse integer from empty string"
  | .invalidDigit => "invalid digit found in string"
  | .tooLarge => "number too large to fit in target type"

/-- Reads digits onto a value that stands for the digits before them. -/
def readDigits (limit value : Nat) : List Char → Except Fault Nat
  | [] => .ok value
  | char :: rest =>
    if char.isDigit then
      let longer := 10 * value + (char.toNat - '0'.toNat)
      if longer ≤ limit then readDigits limit longer rest else .error .tooLarge
    else
      .error .invalidDigit

/-- Reads a numeral with at most one leading plus sign and a value of at most `limit`. -/
def read (limit : Nat) : List Char → Except Fault Nat
  | [] => .error .empty
  | ['+'] => .error .invalidDigit
  | '+' :: digits => readDigits limit 0 digits
  | digits => readDigits limit 0 digits

/-- The value that a successful reading returns is within the limit. -/
theorem readDigits_le {limit value result : Nat} {digits : List Char} (start : value ≤ limit)
    (success : readDigits limit value digits = .ok result) : result ≤ limit := by
  induction digits generalizing value with
  | nil => simp_all [readDigits]
  | cons char rest ih =>
      simp only [readDigits] at success
      split at success
      · split at success
        · next within => exact ih within success
        · exact nomatch success
      · exact nomatch success

theorem read_le {limit result : Nat} {text : List Char} (success : read limit text = .ok result) :
    result ≤ limit := by
  unfold read at success
  split at success
  · exact nomatch success
  · exact nomatch success
  · exact readDigits_le (Nat.zero_le _) success
  · exact readDigits_le (Nat.zero_le _) success

theorem le_ofDigitChars (value : Nat) (digits : List Char) :
    value ≤ Nat.ofDigitChars 10 digits value := by
  induction digits generalizing value with
  | nil => simp
  | cons char rest ih =>
      rw [Nat.ofDigitChars_cons]
      have := ih (10 * value + (char.toNat - '0'.toNat))
      omega

theorem readDigits_eq_ok {limit value : Nat} {digits : List Char}
    (digit : ∀ char ∈ digits, char.isDigit = true)
    (within : Nat.ofDigitChars 10 digits value ≤ limit) :
    readDigits limit value digits = .ok (Nat.ofDigitChars 10 digits value) := by
  induction digits generalizing value with
  | nil => simp [readDigits]
  | cons char rest ih =>
      rw [Nat.ofDigitChars_cons] at within ⊢
      have soFar := le_ofDigitChars (10 * value + (char.toNat - '0'.toNat)) rest
      rw [readDigits, if_pos (digit char (by simp)), if_pos (by omega)]
      exact ih (fun other member => digit other (by simp [member])) within

/-- Digits without a sign are read as they stand. -/
theorem read_of_digits {limit : Nat} {digits : List Char} (nonempty : digits ≠ [])
    (digit : ∀ char ∈ digits, char.isDigit = true) :
    read limit digits = readDigits limit 0 digits := by
  cases digits with
  | nil => exact absurd rfl nonempty
  | cons char rest =>
      have unsigned : char ≠ '+' := by
        rintro rfl
        exact absurd (digit '+' (by simp)) (by decide)
      rw [read]
      · simp
      · simp [unsigned]
      · simp [unsigned]

/-- A plus sign in front of something is skipped. -/
theorem read_plus {limit : Nat} {digits : List Char} (nonempty : digits ≠ []) :
    read limit ('+' :: digits) = readDigits limit 0 digits := by
  cases digits with
  | nil => exact absurd rfl nonempty
  | cons char rest => rfl

/-- A number within the limit is read back from its numeral. -/
theorem read_toDigits {limit number : Nat} (within : number ≤ limit) :
    read limit (Nat.toDigits 10 number) = .ok number := by
  have digit : ∀ char ∈ Nat.toDigits 10 number, char.isDigit = true :=
    fun char member => Nat.isDigit_of_mem_toDigits (by decide) (by decide) member
  have value := Nat.ofDigitChars_ten_toDigits (n := number)
  rw [read_of_digits Nat.toDigits_ne_nil digit, readDigits_eq_ok digit (by omega), value]

/-- Nothing but digits stands in the numeral of a number. -/
theorem not_mem_toDigits {mark : Char} (other : mark.isDigit = false) (number : Nat) :
    mark ∉ Nat.toDigits 10 number := by
  intro member
  have digit := Nat.isDigit_of_mem_toDigits (by decide) (by decide) member
  exact Bool.false_ne_true (other.symm.trans digit)

/-- Numbers with the same numeral are equal. -/
theorem toDigits_injective {number other : Nat}
    (same : Nat.toDigits 10 number = Nat.toDigits 10 other) : number = other := by
  rw [← Nat.ofDigitChars_ten_toDigits (n := number), same, Nat.ofDigitChars_ten_toDigits]

/-- The numeral of a positive number has no leading zero. -/
theorem head?_toDigits {value : Nat} (positive : 0 < value) :
    (Nat.toDigits 10 value).head? ≠ some '0' := by
  induction value using Nat.strongRecOn with
  | ind value ih =>
      rw [Nat.toDigits_eq_if (by decide)]
      split
      · next single =>
          have digits : ∀ digit < 10, 0 < digit → Nat.digitChar digit ≠ '0' := by decide
          simpa using digits value single positive
      · rw [List.head?_append, List.head?_eq_some_head Nat.toDigits_ne_nil, Option.some_or,
          ← List.head?_eq_some_head]
        exact ih (value / 10) (by omega) (by omega)

end ClusterRing.Text.Decimal
