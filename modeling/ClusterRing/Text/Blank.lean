/-!
# Blank characters

The characters with the Unicode property White_Space, and text without such
characters at its ends. Trimming skips blank characters up to the first other one
(`trim_cons_of_blank`) and keeps that one (`trim_cons_of_not_blank`).
-/

namespace ClusterRing.Text

/-- The code points with the Unicode property White_Space, as first and last of each run. -/
def blankRuns : List (Nat × Nat) :=
  [(0x09, 0x0D), (0x20, 0x20), (0x85, 0x85), (0xA0, 0xA0), (0x1680, 0x1680), (0x2000, 0x200A),
    (0x2028, 0x2029), (0x202F, 0x202F), (0x205F, 0x205F), (0x3000, 0x3000)]

/-- Whether a character has the property White_Space. -/
def isBlank (char : Char) : Bool :=
  blankRuns.any fun (first, last) => decide (first ≤ char.toNat) && decide (char.toNat ≤ last)

/-- There are twenty-five blank characters. -/
example : (blankRuns.map fun (first, last) => last - first + 1).sum = 25 := by decide

theorem not_blank_of_isDigit {char : Char} (digit : char.isDigit = true) :
    isBlank char = false := by
  have bounds : 48 ≤ char.toNat ∧ char.toNat ≤ 57 := by
    simpa [Char.isDigit, UInt32.le_iff_toNat_le] using digit
  simp [isBlank, blankRuns]
  omega

/-- Text without the blank characters at its start. -/
def trimStart (text : List Char) : List Char :=
  text.dropWhile isBlank

/-- Text without the blank characters at its start and its end. -/
def trim (text : List Char) : List Char :=
  (trimStart (trimStart text).reverse).reverse

theorem trim_cons_of_blank {char : Char} {rest : List Char} (blank : isBlank char = true) :
    trim (char :: rest) = trim rest := by
  simp [trim, trimStart, blank]

theorem trim_cons_of_not_blank {char : Char} {rest : List Char} (solid : isBlank char = false) :
    trim (char :: rest) = char :: (trimStart rest.reverse).reverse := by
  have start : trimStart (char :: rest) = char :: rest := by
    simp [trimStart, solid]
  rw [trim, start, List.reverse_cons, trimStart, List.dropWhile_append]
  split
  · next empty => simp [trimStart, List.isEmpty_iff.mp empty, solid]
  · simp [trimStart]

theorem not_blank_of_head?_trim {char : Char} {text : List Char}
    (first : (trim text).head? = some char) : isBlank char = false := by
  induction text with
  | nil => simp [trim, trimStart] at first
  | cons other rest ih =>
      cases blank : isBlank other with
      | true =>
          rw [trim_cons_of_blank blank] at first
          exact ih first
      | false =>
          rw [trim_cons_of_not_blank blank, List.head?_cons, Option.some.injEq] at first
          rwa [← first]

theorem trimStart_eq_self {text : List Char}
    (first : ∀ char, text.head? = some char → isBlank char = false) : trimStart text = text := by
  cases text with
  | nil => rfl
  | cons char rest => simp [trimStart, first char rfl]

/-- A text without blank characters at its ends stays as it is. -/
theorem trim_eq_self {text : List Char}
    (first : ∀ char, text.head? = some char → isBlank char = false)
    (last : ∀ char, text.getLast? = some char → isBlank char = false) : trim text = text := by
  rw [trim, trimStart_eq_self first, trimStart_eq_self, List.reverse_reverse]
  simpa using last

end ClusterRing.Text
