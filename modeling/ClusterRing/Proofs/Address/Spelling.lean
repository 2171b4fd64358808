import ClusterRing.Proofs.Address.Order
import ClusterRing.Proofs.Readable

/-!
# The text form of addresses

An address may be written with blank characters around it, with a plus sign in front of its port
and with leading zeros. What is read is exactly what is so written (`Address.parse_eq_ok_iff`): the
core of the text between its blank ends (`Text.Trimmed`), cut at the last colon, with a numeral of
the port behind it (`Text.Decimal.Denotes`). The address's own text has the plain numeral, and is
read back unless the host begins with a blank character.
-/

namespace ClusterRing

namespace Text

variable {before after core text : List Char}

/-! ### Blank ends -/

/-- Nothing but blank characters. -/
def Blank (text : List Char) : Prop :=
  ∀ char ∈ text, isBlank char = true

/-- A text is a core that has no blank character at its ends, with blank characters around it. -/
structure Trimmed (text core : List Char) : Prop where
  around : ∃ before after, Blank before ∧ Blank after ∧ text = before ++ core ++ after
  first : ∀ char, core.head? = some char → isBlank char = false
  last : ∀ char, core.getLast? = some char → isBlank char = false

theorem trimStart_append (blank : Blank before) (rest : List Char) :
    trimStart (before ++ rest) = trimStart rest := by
  rw [trimStart, List.dropWhile_append_of_pos blank]
  rfl

theorem exists_blank_append_trimStart (text : List Char) :
    ∃ before, Blank before ∧ text = before ++ trimStart text :=
  ⟨text.takeWhile isBlank, List.all_eq_true.mp List.all_takeWhile,
    List.takeWhile_append_dropWhile.symm⟩

/-- Only blank characters are trimmed. -/
theorem exists_blank_around_trim (text : List Char) :
    ∃ before after, Blank before ∧ Blank after ∧ text = before ++ trim text ++ after := by
  rcases exists_blank_append_trimStart text with ⟨before, blank, whole⟩
  rcases exists_blank_append_trimStart (trimStart text).reverse with ⟨after, blank', backwards⟩
  have rest : trimStart text = trim text ++ after.reverse := by
    rw [trim, ← List.reverse_append, ← backwards, List.reverse_reverse]
  refine ⟨before, after.reverse, blank, ?_, ?_⟩
  · intro char member
    exact blank' char (List.mem_reverse.mp member)
  · rwa [List.append_assoc, ← rest]

theorem not_blank_of_getLast?_trim {char : Char} (last : (trim text).getLast? = some char) :
    isBlank char = false := by
  rw [trim, List.getLast?_reverse, trimStart] at last
  simpa [last] using List.head?_dropWhile_not isBlank (trimStart text).reverse

/-- A core without blank characters at its ends is all that trimming leaves. -/
theorem Trimmed.trim_eq (trimmed : Trimmed text core) : trim text = core := by
  rcases trimmed.around with ⟨before, after, blank, blank', rfl⟩
  have backwards : Blank after.reverse := fun char member => blank' char (List.mem_reverse.mp member)
  cases core with
  | nil =>
      have none_left : trimStart (before ++ [] ++ after) = [] := by
        rw [List.append_nil, trimStart_append blank, ← List.append_nil after,
          trimStart_append blank']
        rfl
      rw [trim, none_left]
      rfl
  | cons char rest =>
      have start : trimStart (before ++ (char :: rest) ++ after) = char :: rest ++ after := by
        rw [List.append_assoc, trimStart_append blank]
        exact trimStart_eq_self fun _ first => trimmed.first _ first
      have stop : trimStart (char :: rest).reverse = (char :: rest).reverse := by
        apply trimStart_eq_self
        intro other last
        rw [List.head?_reverse] at last
        exact trimmed.last other last
      rw [trim, start, List.reverse_append, trimStart_append backwards, stop, List.reverse_reverse]

theorem trim_eq_iff : trim text = core ↔ Trimmed text core := by
  refine ⟨?_, Trimmed.trim_eq⟩
  rintro rfl
  exact ⟨exists_blank_around_trim text, fun _ => not_blank_of_head?_trim,
    fun _ => not_blank_of_getLast?_trim⟩

/-! ### Numerals -/

namespace Decimal

variable {limit value number : Nat} {digits : List Char}

/-- The ways to write a number: digits with its value, and at most one plus sign before them. -/
def Denotes (text : List Char) (number : Nat) : Prop :=
  ∃ digits, (text = digits ∨ text = '+' :: digits) ∧ digits ≠ [] ∧
    (∀ char ∈ digits, char.isDigit = true) ∧ Nat.ofDigitChars 10 digits 0 = number

/-- The plain way to write a number: digits with its value, without leading zeros. -/
structure Plain (digits : List Char) (number : Nat) : Prop where
  nonempty : digits ≠ []
  digit : ∀ char ∈ digits, char.isDigit = true
  unpadded : digits.head? = some '0' → digits = ['0']
  value : Nat.ofDigitChars 10 digits 0 = number

theorem plain_toDigits (number : Nat) : Plain (Nat.toDigits 10 number) number where
  nonempty := Nat.toDigits_ne_nil
  digit char member := Nat.isDigit_of_mem_toDigits (by decide) (by decide) member
  unpadded := by
    intro zero
    rcases Nat.eq_zero_or_pos number with rfl | positive
    · rfl
    · exact absurd zero (head?_toDigits positive)
  value := Nat.ofDigitChars_ten_toDigits

theorem readDigits_eq_ok_iff (within : value ≤ limit) :
    readDigits limit value digits = .ok number ↔
      (∀ char ∈ digits, char.isDigit = true) ∧ Nat.ofDigitChars 10 digits value = number ∧
        number ≤ limit := by
  constructor
  · intro success
    have small := readDigits_le within success
    induction digits generalizing value with
    | nil =>
        rw [readDigits, Except.ok.injEq] at success
        exact ⟨by simp, success, small⟩
    | cons char rest ih =>
        simp only [readDigits] at success
        split at success
        · next digit =>
            split at success
            · next longer =>
                rcases ih longer success with ⟨digits, same, -⟩
                exact ⟨List.forall_mem_cons.mpr ⟨digit, digits⟩, same, small⟩
            · cases success
        · cases success
  · rintro ⟨digit, rfl, small⟩
    exact readDigits_eq_ok digit small

/-- What is read as a number is what denotes it. -/
theorem read_eq_ok_iff {text : List Char} :
    read limit text = .ok number ↔ Denotes text number ∧ number ≤ limit := by
  constructor
  · intro success
    unfold read at success
    split at success
    · cases success
    · cases success
    · next digits alone =>
        rcases (readDigits_eq_ok_iff (Nat.zero_le limit)).mp success with ⟨digit, same, small⟩
        refine ⟨⟨digits, .inr rfl, ?_, digit, same⟩, small⟩
        rintro rfl
        exact alone rfl
    · next nonempty _ _ =>
        rcases (readDigits_eq_ok_iff (Nat.zero_le limit)).mp success with ⟨digit, same, small⟩
        exact ⟨⟨text, .inl rfl, nonempty, digit, same⟩, small⟩
  · rintro ⟨⟨digits, written, nonempty, digit, same⟩, small⟩
    have success := (readDigits_eq_ok_iff (Nat.zero_le limit)).mpr ⟨digit, same, small⟩
    rcases written with rfl | rfl
    · rwa [read_of_digits nonempty digit]
    · rwa [read_plus nonempty]

/-- There is no colon in a numeral. -/
theorem Denotes.colon_not_mem {text : List Char} (denotes : Denotes text number) : ':' ∉ text := by
  rcases denotes with ⟨digits, written, -, digit, -⟩
  have absent : ':' ∉ digits := by
    intro member
    exact absurd (digit ':' member) (by decide)
  rcases written with rfl | rfl
  · exact absent
  · simpa using absent

end Decimal

end Text

namespace Address

open Text
open Text.Decimal (Denotes Plain)

variable {input : String} {address : Address}

/-- An address is read from every text that writes its host and port, and from no other. -/
theorem parse_eq_ok_iff :
    parse input = .ok address ↔
      ∃ numeral, Trimmed input.toList (address.host.toList ++ ':' :: numeral) ∧
        Denotes numeral address.port.toNat := by
  constructor
  · intro found
    rcases parts_of_parse found with ⟨numeral, whole, read⟩
    exact ⟨numeral, trim_eq_iff.mp whole, (Decimal.read_eq_ok_iff.mp read).1⟩
  · rintro ⟨numeral, trimmed, denotes⟩
    have cut : splitAtLast? ':' (address.host.toList ++ ':' :: numeral) =
        some (address.host.toList, numeral) :=
      splitAtLast?_eq_some_iff.mpr ⟨rfl, denotes.colon_not_mem⟩
    have port : Decimal.read maxPort numeral = .ok address.port.toNat :=
      Decimal.read_eq_ok_iff.mpr ⟨denotes, Nat.le_of_lt_succ address.port.toNat_lt⟩
    simp [parse, trimmed.trim_eq, cut, port, ofParts, address.host_nonempty]

/-- Some address is read from a text that has a host, a colon and a port. -/
theorem exists_parse_iff :
    (∃ address, parse input = .ok address) ↔
      ∃ host numeral port, Trimmed input.toList (host ++ ':' :: numeral) ∧ host ≠ [] ∧
        ':' ∉ numeral ∧ Denotes numeral port ∧ port ≤ maxPort := by
  constructor
  · rintro ⟨address, found⟩
    rcases parse_eq_ok_iff.mp found with ⟨numeral, trimmed, denotes⟩
    have named : address.host.toList ≠ [] := by
      simpa [String.toList_eq_nil_iff] using address.host_nonempty
    exact ⟨_, numeral, _, trimmed, named, denotes.colon_not_mem, denotes,
      Nat.le_of_lt_succ address.port.toNat_lt⟩
  · rintro ⟨host, numeral, port, trimmed, named, -, denotes, small⟩
    have nonempty : String.ofList host ≠ "" := by
      simpa [String.ofList_eq_empty_iff] using named
    have fits : port < UInt16.size := Nat.lt_succ_of_le small
    refine ⟨⟨String.ofList host, UInt16.ofNat port, nonempty⟩, parse_eq_ok_iff.mpr ⟨numeral, ?_, ?_⟩⟩
    · rwa [String.toList_ofList]
    · rwa [UInt16.toNat_ofNat_of_lt' fits]

theorem parse_text_iff :
    parse address.text = .ok address ↔
      ∀ char, address.host.toList.head? = some char → isBlank char = false :=
  ⟨fun found _ => not_blank_of_parse found, parse_text⟩

theorem ofParts_of_nonempty {host : String} (port : UInt16) (nonempty : host ≠ "") :
    ofParts host port = .ok ⟨host, port, nonempty⟩ := by
  rw [ofParts, dif_pos nonempty]

/--
A text is read as an address exactly if it has, between blank ends, a host that is not empty, a
last colon and a numeral of a port. The text of the address has the plain numeral in its place and
is read as the same address. Of all addresses, those are read back whose hosts do not begin with a
blank character. Addresses are known by their texts, and ordered by the bytes of these.
-/
theorem read_by_form_and_known_by_text :
    (∀ input, (∃ address, parse input = .ok address) ↔
      ∃ host numeral port, Trimmed input.toList (host ++ ':' :: numeral) ∧ host ≠ [] ∧
        ':' ∉ numeral ∧ Denotes numeral port ∧ port ≤ maxPort) ∧
    (∀ input address, parse input = .ok address →
      (∃ numeral, Trimmed input.toList (address.host.toList ++ ':' :: numeral) ∧
        Denotes numeral address.port.toNat) ∧
      (∃ plain, Plain plain address.port.toNat ∧
        address.text.toList = address.host.toList ++ ':' :: plain) ∧
      parse address.text = .ok address) ∧
    (∀ host port, host ≠ "" → ∃ address, ofParts host port = .ok address ∧
      address.host = host ∧ address.port = port ∧
      (parse address.text = .ok address ↔
        ∀ char, host.toList.head? = some char → isBlank char = false)) ∧
    (∀ left right : Address, left = right ↔ left.text = right.text) ∧
    (∀ left right : Address, compare left right = left.compareParts right ∧
      compare left right = compare (utf8 left.text) (utf8 right.text)) := by
  refine ⟨fun _ => exists_parse_iff, ?_, ?_, fun _ _ => text_inj.symm, ?_⟩
  · intro input address found
    refine ⟨parse_eq_ok_iff.mp found, ?_, ?_⟩
    · exact ⟨_, Decimal.plain_toDigits _, toList_text address⟩
    · exact parse_text_iff.mpr fun _ => not_blank_of_parse found
  · intro host port nonempty
    exact ⟨⟨host, port, nonempty⟩, ofParts_of_nonempty port nonempty, rfl, rfl, parse_text_iff⟩
  · intro left right
    have bytes : compare left right = compare (utf8 left.text) (utf8 right.text) := by
      rw [compare_utf8, compare_eq]
    exact ⟨bytes.trans (compareParts_eq left right).symm, bytes⟩

/-- A padded text is read and shortened; a host that begins with a blank is not read back. -/
theorem reads_padded_text_but_no_blank_host :
    (∃ address, parse "\u3000 x::+0080\r\n" = .ok address ∧ address.text = "x::80" ∧
      parse address.text = .ok address) ∧
    ∃ address, ofParts "\u00A0x" 80 = .ok address ∧ parse address.text ≠ .ok address := by
  rcases read_by_form_and_known_by_text with ⟨-, read, made, -, -⟩
  constructor
  · have found : parse "\u3000 x::+0080\r\n" = .ok ⟨"x:", 80, by decide⟩ := by rfl
    exact ⟨_, found, by decide, (read _ _ found).2.2⟩
  · rcases made "\u00A0x" 80 (by decide) with ⟨address, same, -, -, back⟩
    refine ⟨address, same, fun found => ?_⟩
    exact absurd (back.mp found '\u00A0' (by decide)) (by decide)

end Address

end ClusterRing
