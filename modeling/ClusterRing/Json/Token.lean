import ClusterRing.Json.Basic

/-!
# JSON tokens

A JSON text is a sequence of tokens with white space between them. `Token.text`
writes a token and `Token.next?` reads the first one of a text; `tokens?` reads
them all. In a string every character below the blank, the quote and the
backslash are written as escapes, and all other characters as they are.
-/

namespace ClusterRing.Json

/-- A JSON token. -/
inductive Token where
  | leftBrace
  | rightBrace
  | leftBracket
  | rightBracket
  | colon
  | comma
  | null
  | bool (value : Bool)
  | number (numeral : Numeral)
  | string (content : Option String)
deriving DecidableEq

/-! ### Strings -/

/-- What one character or one escape of a string contributes. -/
inductive Piece where
  | char (char : Char)
  /-- A code unit of 16 bits, written as four hexadecimal digits. -/
  | unit (code : Nat)
deriving DecidableEq

/-- The value of a hexadecimal digit of either case. -/
def hexValue? (char : Char) : Option Nat :=
  if char.isDigit then some (char.toNat - '0'.toNat)
  else if 'a' ≤ char ∧ char ≤ 'f' then some (char.toNat - 'a'.toNat + 10)
  else if 'A' ≤ char ∧ char ≤ 'F' then some (char.toNat - 'A'.toNat + 10)
  else none

/-- The value of four hexadecimal digits. -/
def unitValue? (a b c d : Char) : Option Nat := do
  let a ← hexValue? a
  let b ← hexValue? b
  let c ← hexValue? c
  let d ← hexValue? d
  some (((a * 16 + b) * 16 + c) * 16 + d)

/-- The character that a one-letter escape stands for. -/
def escaped? : Char → Option Char
  | '"' => some '"'
  | '\\' => some '\\'
  | '/' => some '/'
  | 'b' => some '\x08'
  | 'f' => some '\x0c'
  | 'n' => some '\n'
  | 'r' => some '\r'
  | 't' => some '\t'
  | _ => none

/-- The pieces of a string up to its closing quote, and the text after the quote. -/
def scanString? : List Char → Option (List Piece × List Char)
  | [] => none
  | '"' :: rest => some ([], rest)
  | '\\' :: 'u' :: a :: b :: c :: d :: rest => do
    let code ← unitValue? a b c d
    let (pieces, after) ← scanString? rest
    some (.unit code :: pieces, after)
  | '\\' :: letter :: rest => do
    let char ← escaped? letter
    let (pieces, after) ← scanString? rest
    some (.char char :: pieces, after)
  | char :: rest =>
    if char < ' ' ∨ char = '\\' then
      none
    else do
      let (pieces, after) ← scanString? rest
      some (.char char :: pieces, after)

/-- Whether a code unit is the first half of a surrogate pair. -/
def isHighSurrogate (code : Nat) : Bool :=
  decide (0xD800 ≤ code ∧ code ≤ 0xDBFF)

/-- Whether a code unit is the second half of a surrogate pair. -/
def isLowSurrogate (code : Nat) : Bool :=
  decide (0xDC00 ≤ code ∧ code ≤ 0xDFFF)

/-- The characters that pieces stand for, unless half of a surrogate pair stands alone. -/
def joinPieces? : List Piece → Option (List Char)
  | [] => some []
  | .char char :: rest => (joinPieces? rest).map (char :: ·)
  | .unit high :: .unit low :: rest =>
    if isHighSurrogate high && isLowSurrogate low then
      (joinPieces? rest).map
        (Char.ofNat (0x10000 + (high - 0xD800) * 0x400 + (low - 0xDC00)) :: ·)
    else if isHighSurrogate high || isLowSurrogate high then
      none
    else
      (joinPieces? (.unit low :: rest)).map (Char.ofNat high :: ·)
  | .unit code :: rest =>
    if isHighSurrogate code || isLowSurrogate code then
      none
    else
      (joinPieces? rest).map (Char.ofNat code :: ·)

/-- The lower-case hexadecimal digit of a number below sixteen. -/
def hexDigit (value : Nat) : Char :=
  Nat.digitChar value

/-- How a character is written in a string. -/
def escape (char : Char) : List Char :=
  match char with
  | '"' => ['\\', '"']
  | '\\' => ['\\', '\\']
  | '\x08' => ['\\', 'b']
  | '\x0c' => ['\\', 'f']
  | '\n' => ['\\', 'n']
  | '\r' => ['\\', 'r']
  | '\t' => ['\\', 't']
  | char =>
    if char < ' ' then
      ['\\', 'u', '0', '0', hexDigit (char.toNat / 16), hexDigit (char.toNat % 16)]
    else
      [char]

/-- A string in quotes. Content that stands for no text is written as half of a surrogate pair. -/
def quoted : Option String → List Char
  | some text => '"' :: text.toList.flatMap escape ++ ['"']
  | none => ['"', '\\', 'u', 'd', '8', '0', '0', '"']

/-! ### Numerals -/

/-- Whether a character can stand in a numeral. -/
def inNumeral (char : Char) : Bool :=
  char.isDigit || char = '-' || char = '+' || char = '.' || char = 'e' || char = 'E'

/-- Whether a text is the exponent of a numeral, or nothing. -/
def isExponent : List Char → Bool
  | [] => true
  | mark :: rest =>
    let digits := match rest with
      | '+' :: digits => digits
      | '-' :: digits => digits
      | digits => digits
    (mark = 'e' || mark = 'E') && !digits.isEmpty && digits.all Char.isDigit

/-- Whether a text is the fraction and exponent of a numeral, either of which may be missing. -/
def isFraction : List Char → Bool
  | '.' :: rest =>
    !(rest.takeWhile Char.isDigit).isEmpty && isExponent (rest.dropWhile Char.isDigit)
  | rest => isExponent rest

/-- Whether digits form a whole number without leading zeros. -/
def isWhole : List Char → Bool
  | ['0'] => true
  | '0' :: _ => false
  | digits => !digits.isEmpty && digits.all Char.isDigit

/-- Whether a text is a numeral without sign. -/
def isUnsigned (text : List Char) : Bool :=
  isWhole (text.takeWhile Char.isDigit) && isFraction (text.dropWhile Char.isDigit)

/-- The numeral that a text spells. -/
def numeral? (text : List Char) : Option Numeral :=
  if isWhole text then
    some (.natural (Nat.ofDigitChars 10 text 0))
  else
    let unsigned := match text with
      | '-' :: rest => rest
      | rest => rest
    if isUnsigned unsigned then some (.other (String.ofList text)) else none

/-- How a numeral is written. -/
def numeralText : Numeral → List Char
  | .natural value => Nat.toDigits 10 value
  | .other literal => literal.toList

/-! ### Tokens -/

/-- How a token is written. -/
def Token.text : Token → List Char
  | .leftBrace => ['{']
  | .rightBrace => ['}']
  | .leftBracket => ['[']
  | .rightBracket => [']']
  | .colon => [':']
  | .comma => [',']
  | .null => ['n', 'u', 'l', 'l']
  | .bool true => ['t', 'r', 'u', 'e']
  | .bool false => ['f', 'a', 'l', 's', 'e']
  | .number numeral => numeralText numeral
  | .string content => quoted content

/-- Whether a character is white space between tokens. -/
def isSpace (char : Char) : Bool :=
  char = ' ' || char = '\t' || char = '\n' || char = '\r'

/-- The first token of a text, which must not start with white space, and the text after it. -/
def Token.next? : List Char → Option (Token × List Char)
  | '{' :: rest => some (.leftBrace, rest)
  | '}' :: rest => some (.rightBrace, rest)
  | '[' :: rest => some (.leftBracket, rest)
  | ']' :: rest => some (.rightBracket, rest)
  | ':' :: rest => some (.colon, rest)
  | ',' :: rest => some (.comma, rest)
  | 'n' :: 'u' :: 'l' :: 'l' :: rest => some (.null, rest)
  | 't' :: 'r' :: 'u' :: 'e' :: rest => some (.bool true, rest)
  | 'f' :: 'a' :: 'l' :: 's' :: 'e' :: rest => some (.bool false, rest)
  | '"' :: rest => do
    let (pieces, after) ← scanString? rest
    some (.string ((joinPieces? pieces).map String.ofList), after)
  | char :: rest =>
    if inNumeral char then do
      let numeral ← numeral? (char :: rest.takeWhile inNumeral)
      some (.number numeral, rest.dropWhile inNumeral)
    else
      none
  | [] => none

theorem length_of_scanString? {text after : List Char} {pieces : List Piece}
    (found : scanString? text = some (pieces, after)) : after.length < text.length := by
  fun_induction scanString? text generalizing pieces with
  | case1 => exact nomatch found
  | case2 rest =>
      obtain ⟨-, rfl⟩ : [] = pieces ∧ rest = after := by simpa using found
      simp
  | case3 a b c d rest ih =>
      simp only [Option.bind_eq_bind, Option.bind_eq_some_iff, Option.some.injEq,
        Prod.mk.injEq] at found
      obtain ⟨_, _, ⟨pieces', after'⟩, scanned, _, rfl⟩ := found
      have : after'.length < rest.length := ih scanned
      simp only [List.length_cons]
      omega
  | case4 letter rest _ ih =>
      simp only [Option.bind_eq_bind, Option.bind_eq_some_iff, Option.some.injEq,
        Prod.mk.injEq] at found
      obtain ⟨_, _, ⟨pieces', after'⟩, scanned, _, rfl⟩ := found
      have : after'.length < rest.length := ih scanned
      simp only [List.length_cons]
      omega
  | case5 => exact nomatch found
  | case6 char rest _ _ _ _ ih =>
      simp only [Option.bind_eq_bind, Option.bind_eq_some_iff, Option.some.injEq,
        Prod.mk.injEq] at found
      obtain ⟨⟨pieces', after'⟩, scanned, _, rfl⟩ := found
      have : after'.length < rest.length := ih scanned
      simp only [List.length_cons]
      omega

theorem Token.length_of_next? {text after : List Char} {token : Token}
    (found : Token.next? text = some (token, after)) : after.length < text.length := by
  unfold Token.next? at found
  split at found
  all_goals first
    | (simp only [Option.some.injEq, Prod.mk.injEq] at found
       obtain ⟨-, rfl⟩ := found
       simp only [List.length_cons]
       omega)
    | skip
  · simp only [Option.bind_eq_bind, Option.bind_eq_some_iff, Option.some.injEq,
      Prod.mk.injEq] at found
    obtain ⟨⟨pieces, after'⟩, scanned, -, rfl⟩ := found
    have := length_of_scanString? scanned
    simp only [List.length_cons]
    omega
  · next char rest _ _ _ _ _ _ _ _ _ _ =>
      split at found
      · simp only [Option.bind_eq_bind, Option.bind_eq_some_iff, Option.some.injEq,
          Prod.mk.injEq] at found
        obtain ⟨_, _, _, rfl⟩ := found
        have := (List.dropWhile_sublist inNumeral (l := rest)).length_le
        simp only [List.length_cons]
        omega
      · exact nomatch found
  · exact nomatch found

/-- The tokens of a text. -/
def tokens? (text : List Char) : Option (List Token) :=
  match text with
  | [] => some []
  | char :: rest =>
    if isSpace char then
      tokens? rest
    else
      match _found : Token.next? (char :: rest) with
      | none => none
      | some (token, after) => (tokens? after).map (token :: ·)
termination_by text.length
decreasing_by
  · simp
  · exact Token.length_of_next? _found

end ClusterRing.Json
