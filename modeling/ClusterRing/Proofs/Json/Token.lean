import ClusterRing.Json.Token
import ClusterRing.Text.Decimal

/-!
# Tokens are read back

What comes after a token does not matter to its reading, but for a number, which
goes on as long as the characters can stand in a numeral (`Ends`).
-/

namespace ClusterRing.Json

/-! ### Strings -/

theorem hexValue?_hexDigit : ∀ value < 16, hexValue? (hexDigit value) = some value := by
  decide

theorem unitValue?_hexDigit {code : Nat} (small : code < 256) :
    unitValue? '0' '0' (hexDigit (code / 16)) (hexDigit (code % 16)) = some code := by
  have zero : hexValue? '0' = some 0 := by decide
  have high := hexValue?_hexDigit (code / 16) (by omega)
  have low := hexValue?_hexDigit (code % 16) (by omega)
  simp [unitValue?, zero, high, low]
  omega

theorem joinPieces?_unit_cons {code : Nat} (alone : code < 0xD800) (rest : List Piece) :
    joinPieces? (.unit code :: rest) = (joinPieces? rest).map (Char.ofNat code :: ·) := by
  have high : isHighSurrogate code = false := by
    simp [isHighSurrogate]
    omega
  have low : isLowSurrogate code = false := by
    simp [isLowSurrogate]
    omega
  rcases rest with _ | ⟨char | other, rest⟩ <;> simp [joinPieces?, high, low]

/-- The characters with an escape of one letter. -/
def lettered : List Char :=
  ['"', '\\', '\x08', '\x0c', '\n', '\r', '\t']

theorem escape_of_not_lettered {char : Char} (plain : char ∉ lettered) :
    escape char = if char < ' ' then
        ['\\', 'u', '0', '0', hexDigit (char.toNat / 16), hexDigit (char.toNat % 16)]
      else [char] := by
  simp [lettered] at plain
  simp [escape, plain]

/-- What is written for a character is scanned as one piece, which stands for the character. -/
theorem scanString?_escape (char : Char) :
    ∃ piece, (∀ rest, scanString? (escape char ++ rest) = do
        let (pieces, after) ← scanString? rest
        some (piece :: pieces, after)) ∧
      ∀ pieces, joinPieces? (piece :: pieces) = (joinPieces? pieces).map (char :: ·) := by
  by_cases letter : char ∈ lettered
  · refine ⟨.char char, fun rest => ?_, fun pieces => rfl⟩
    simp only [lettered, List.mem_cons, List.not_mem_nil, or_false] at letter
    rcases letter with rfl | rfl | rfl | rfl | rfl | rfl | rfl <;>
      simp [escape, scanString?, escaped?]
  · rw [escape_of_not_lettered letter]
    by_cases control : char < ' '
    · have small : char.toNat < 32 := control
      have digits := unitValue?_hexDigit (show char.toNat < 256 by omega)
      have alone : char.toNat < 0xD800 := by omega
      refine ⟨.unit char.toNat, fun rest => ?_, fun pieces => ?_⟩
      · simp [control, scanString?, digits]
      · simp [joinPieces?_unit_cons alone]
    · refine ⟨.char char, fun rest => ?_, fun pieces => rfl⟩
      simp [lettered] at letter
      simp [control, scanString?, letter]

/-- No control characters among these. -/
def printed (chars : List Char) : Bool :=
  chars.all fun char => decide (' ' ≤ char)

theorem blank_le_of_printed {chars : List Char} (printed : printed chars = true) {char : Char}
    (member : char ∈ chars) : ' ' ≤ char :=
  of_decide_eq_true (List.all_eq_true.mp printed char member)

/-- Control characters are written as escapes. -/
theorem blank_le_of_mem_escape {char other : Char} (member : other ∈ escape char) :
    ' ' ≤ other := by
  have digits : ∀ value < 16, ' ' ≤ hexDigit value := by decide
  by_cases letter : char ∈ lettered
  · have within : (lettered.all fun char => printed (escape char)) = true := by decide
    exact blank_le_of_printed (List.all_eq_true.mp within char letter) member
  · rw [escape_of_not_lettered letter] at member
    split at member
    · next control =>
        have small : char.toNat < 32 := control
        have high := digits (char.toNat / 16) (by omega)
        have low := digits (char.toNat % 16) (by omega)
        simp at member
        rcases member with rfl | rfl | rfl | rfl | rfl
        · decide
        · decide
        · decide
        · exact high
        · exact low
    · next printed =>
        simp at member printed
        simpa [member] using printed

theorem scanString?_flatMap_escape (text rest : List Char) :
    ∃ pieces, scanString? (text.flatMap escape ++ '"' :: rest) = some (pieces, rest) ∧
      joinPieces? pieces = some text := by
  induction text with
  | nil => exact ⟨[], by simp [scanString?], rfl⟩
  | cons char others ih =>
      rcases ih with ⟨pieces, scanned, joined⟩
      rcases scanString?_escape char with ⟨piece, scans, joins⟩
      refine ⟨piece :: pieces, ?_, ?_⟩
      · simp [scans, scanned]
      · simp [joins, joined]

/-! ### Numerals -/

theorem isWhole_toDigits (value : Nat) : isWhole (Nat.toDigits 10 value) = true := by
  rcases Nat.eq_zero_or_pos value with rfl | positive
  · rfl
  · have first := Text.Decimal.head?_toDigits positive
    have digit : ∀ char ∈ Nat.toDigits 10 value, char.isDigit = true :=
      fun char member => Nat.isDigit_of_mem_toDigits (by decide) (by decide) member
    unfold isWhole
    split
    · rfl
    · next digits => simp [digits] at first
    · simpa [Nat.toDigits_ne_nil] using digit

/-! ### Tokens -/

/-- A token that is read as what it is: if it is a number, so is its numeral. -/
def Token.Legible : Token → Prop
  | .number numeral => numeral? (numeralText numeral) = some numeral ∧
      ∀ char ∈ numeralText numeral, inNumeral char = true
  | _ => True

theorem Token.natural_legible (value : Nat) : (Token.number (.natural value)).Legible := by
  constructor
  · simp [numeral?, numeralText, isWhole_toDigits]
  · intro char member
    have digit := Nat.isDigit_of_mem_toDigits (by decide) (by decide) member
    simp [inNumeral, digit]

/-- What follows does not go on with a numeral. -/
def Ends (rest : List Char) : Prop :=
  ∀ char, rest.head? = some char → inNumeral char = false

theorem Ends.takeWhile_dropWhile {rest : List Char} (ends : Ends rest) :
    rest.takeWhile inNumeral = [] ∧ rest.dropWhile inNumeral = rest := by
  cases rest with
  | nil => exact ⟨rfl, rfl⟩
  | cons char rest => simp [ends char rfl]

theorem Token.next?_of_inNumeral {char : Char} (first : inNumeral char = true) (rest : List Char) :
    Token.next? (char :: rest) = (numeral? (char :: rest.takeWhile inNumeral)).map fun numeral =>
      (.number numeral, rest.dropWhile inNumeral) := by
  have plain : char ∉ ['{', '}', '[', ']', ':', ',', 'n', 't', 'f', '"'] := by
    intro member
    simp only [List.mem_cons, List.not_mem_nil, or_false] at member
    rcases member with rfl | rfl | rfl | rfl | rfl | rfl | rfl | rfl | rfl | rfl <;>
      simp [inNumeral] at first
  simp at plain
  have read : Token.next? (char :: rest) =
      (numeral? (char :: rest.takeWhile inNumeral)).bind fun numeral =>
        some (.number numeral, rest.dropWhile inNumeral) := by
    simp [next?, plain, first]
  exact read.trans Option.map_eq_bind.symm

theorem not_isSpace_of_inNumeral {char : Char} (within : inNumeral char = true) :
    isSpace char = false := by
  cases space : isSpace char with
  | false => rfl
  | true =>
      simp [isSpace] at space
      rcases space with ((rfl | rfl) | rfl) | rfl <;> simp [inNumeral] at within

theorem Token.Legible.exists_cons {numeral : Numeral} (legible : (Token.number numeral).Legible) :
    ∃ first others, numeralText numeral = first :: others ∧ inNumeral first = true ∧
      ∀ other ∈ others, inNumeral other = true := by
  rcases legible with ⟨same, within⟩
  cases written : numeralText numeral with
  | nil => simp [written, numeral?, isWhole, isUnsigned] at same
  | cons first others =>
      rw [written] at within
      exact ⟨first, others, rfl, within first (by simp),
        fun other member => within other (by simp [member])⟩

theorem Token.next?_number {numeral : Numeral} (legible : (Token.number numeral).Legible)
    {rest : List Char} (ends : Ends rest) :
    Token.next? (numeralText numeral ++ rest) = some (.number numeral, rest) := by
  rcases legible.exists_cons with ⟨first, others, written, begins, more⟩
  have same := legible.1
  rw [written] at same
  simp [written, next?_of_inNumeral begins, List.takeWhile_append_of_pos more,
    List.dropWhile_append_of_pos more, ends.takeWhile_dropWhile, same]

/-- Whether a token is a number. -/
def Token.isNumber : Token → Bool
  | .number _ => true
  | _ => false

/-- A token is read from its text, whatever follows, unless it is a number that goes on. -/
theorem Token.next?_text {token : Token} (legible : token.Legible) {rest : List Char}
    (ends : token.isNumber = true → Ends rest) :
    Token.next? (token.text ++ rest) = some (token, rest) := by
  cases token with
  | number numeral => exact next?_number legible (ends rfl)
  | bool value => cases value <;> rfl
  | string content =>
      cases content with
      | none => rfl
      | some word =>
          rcases scanString?_flatMap_escape word.toList rest with ⟨pieces, scanned, joined⟩
          simp [Token.text, quoted, next?, scanned, joined]
  | _ => rfl

/-- Only a number begins with a character of numerals, and no token with white space. -/
theorem Token.head?_text {token : Token} (legible : token.Legible) :
    ∃ first others, token.text = first :: others ∧ isSpace first = false ∧
      inNumeral first = token.isNumber := by
  cases token with
  | number numeral =>
      rcases legible.exists_cons with ⟨first, others, written, begins, -⟩
      exact ⟨first, others, written, not_isSpace_of_inNumeral begins, begins⟩
  | bool value => cases value <;> exact ⟨_, _, rfl, rfl, rfl⟩
  | string content => cases content <;> exact ⟨_, _, rfl, rfl, rfl⟩
  | _ => exact ⟨_, _, rfl, rfl, rfl⟩

theorem tokens?_text_append {token : Token} (legible : token.Legible) {rest : List Char}
    (ends : token.isNumber = true → Ends rest) :
    tokens? (token.text ++ rest) = (tokens? rest).map (token :: ·) := by
  have read := Token.next?_text legible ends
  rcases Token.head?_text legible with ⟨first, others, written, solid, -⟩
  rw [written, List.cons_append] at read ⊢
  rw [tokens?, solid]
  simp
  split <;> simp_all

theorem blank_le_of_inNumeral {char : Char} (within : inNumeral char = true) : ' ' ≤ char := by
  simp [inNumeral] at within
  rcases within with ((((digit | rfl) | rfl) | rfl) | rfl) | rfl
  · simp [Char.isDigit] at digit
    exact Nat.le_trans (by decide) digit.1
  all_goals decide

theorem Token.blank_le_of_mem_text {token : Token} (legible : token.Legible) {char : Char}
    (member : char ∈ token.text) : ' ' ≤ char := by
  cases token with
  | number numeral => exact blank_le_of_inNumeral (legible.2 char member)
  | string content =>
      cases content with
      | none => exact blank_le_of_printed (by decide) member
      | some word =>
          simp [Token.text, quoted] at member
          rcases member with rfl | ⟨other, -, member⟩ | rfl
          · decide
          · exact blank_le_of_mem_escape member
          · decide
  | bool value =>
      have marks : printed (Token.bool value).text = true := by cases value <;> decide
      exact blank_le_of_printed marks member
  | _ => exact blank_le_of_printed (by decide) member

end ClusterRing.Json
