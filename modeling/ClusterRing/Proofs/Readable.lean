import ClusterRing.Event.Basic

/-!
# Readable addresses

The text of an address is read as that address if the host does not begin with a
blank character, which the reader would cut off (`parse_text`). An address that
was read from any text has such a host (`not_blank_of_parse`), so its own text
gives it back (`Readable.parse_text`). Events that come from a coordinator name
only addresses that were read.
-/

namespace ClusterRing

namespace Address

open Text

variable {address : Address} {input : String}

/-- Some text is read as this address. -/
def Readable (address : Address) : Prop :=
  ∃ input, parse input = .ok address

theorem eq_of_ofParts {host : String} {port : UInt16} (made : ofParts host port = .ok address) :
    address.host = host ∧ address.port = port := by
  rw [ofParts] at made
  split at made
  · rw [← Except.ok.inj made]
    exact ⟨rfl, rfl⟩
  · exact nomatch made

/-- Between the blanks around it, an address is read from its host and a numeral of its port. -/
theorem parts_of_parse (found : parse input = .ok address) :
    ∃ digits, trim input.toList = address.host.toList ++ ':' :: digits ∧
      Decimal.read maxPort digits = .ok address.port.toNat := by
  simp only [parse] at found
  split at found
  · exact nomatch found
  · next host digits cut =>
      split at found
      · exact nomatch found
      · next port numeral =>
          rcases eq_of_ofParts found with ⟨sameHost, samePort⟩
          have small : port < UInt16.size := Nat.lt_succ_of_le (Decimal.read_le numeral)
          refine ⟨digits, ?_, ?_⟩
          · rw [sameHost, String.toList_ofList]
            exact (eq_of_splitAtLast?_eq_some cut).1
          · rw [samePort, UInt16.toNat_ofNat_of_lt' small]
            exact numeral

/-- What is read begins with the first character that is not blank. -/
theorem not_blank_of_parse {char : Char} (found : parse input = .ok address)
    (first : address.host.toList.head? = some char) : isBlank char = false := by
  rcases parts_of_parse found with ⟨digits, whole, -⟩
  have trimmed : (trim input.toList).head? = some char := by
    rw [whole, List.head?_append, first, Option.some_or]
  exact not_blank_of_head?_trim trimmed

theorem trim_text (solid : ∀ char, address.host.toList.head? = some char → isBlank char = false) :
    trim address.text.toList = address.text.toList := by
  apply trim_eq_self
  · intro char first
    have named : address.host.toList ≠ [] := by
      simpa [String.toList_eq_nil_iff] using address.host_nonempty
    apply solid
    rwa [toList_text, List.head?_append, List.head?_eq_some_head named, Option.some_or,
      ← List.head?_eq_some_head named] at first
  · intro char last
    have numbered : Nat.toDigits 10 address.port.toNat ≠ [] := Nat.toDigits_ne_nil
    rw [toList_text, List.getLast?_append, List.getLast?_cons_of_ne_nil numbered,
      List.getLast?_eq_some_getLast numbered, Option.some_or,
      ← List.getLast?_eq_some_getLast numbered] at last
    exact not_blank_of_isDigit
      (Nat.isDigit_of_mem_toDigits (by decide) (by decide) (List.mem_of_getLast? last))

/-- A host that does not begin with a blank character is read back. -/
theorem parse_text
    (solid : ∀ char, address.host.toList.head? = some char → isBlank char = false) :
    parse address.text = .ok address := by
  have cut : splitAtLast? ':' address.text.toList =
      some (address.host.toList, Nat.toDigits 10 address.port.toNat) :=
    splitAtLast?_eq_some_iff.mpr ⟨toList_text address, colon_not_mem_toDigits _⟩
  have port : Decimal.read maxPort (Nat.toDigits 10 address.port.toNat) = .ok address.port.toNat :=
    Decimal.read_toDigits (Nat.le_of_lt_succ address.port.toNat_lt)
  simp [parse, trim_text solid, cut, port, ofParts, address.host_nonempty]

theorem Readable.parse_text (readable : address.Readable) : parse address.text = .ok address := by
  rcases readable with ⟨input, found⟩
  exact Address.parse_text fun char => not_blank_of_parse found

end Address

namespace Event

/-- The lists of addresses in an event. -/
def addressLists : Event → List (List Address)
  | .topology attached detached => [attached, detached]
  | .prepareMigration _ nodes => [nodes]
  | .rangeApplied .. => []
  | .alterChange attached detached => [attached, detached]

/-- Some text is read as each address of an event. -/
def Readable (event : Event) : Prop :=
  ∀ nodes ∈ event.addressLists, ∀ node ∈ nodes, node.Readable

end Event

end ClusterRing
