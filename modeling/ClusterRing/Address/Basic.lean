import ClusterRing.OrderedSet.Lemmas
import ClusterRing.Text.Decimal
import ClusterRing.Text.Separated

/-!
# Node addresses

A node is known by its host and port. The text `host:port` names it: two
addresses with the same text are equal (`text_injective`), and addresses are
ordered by their texts, which breaks ties between nodes at one point of the
ring.
-/

namespace ClusterRing

open Std

/-- Where a node listens. -/
structure Address where
  host : String
  port : UInt16
  /-- An address names its host. -/
  host_nonempty : host ≠ ""
deriving DecidableEq

namespace Address

/-- The text `host:port`, with the port in decimal. -/
def text (address : Address) : String :=
  address.host ++ ":" ++ toString address.port.toNat

theorem toList_text (address : Address) :
    address.text.toList = address.host.toList ++ ':' :: Nat.toDigits 10 address.port.toNat := by
  simp [text]

theorem colon_not_mem_toDigits (number : Nat) : ':' ∉ Nat.toDigits 10 number :=
  Text.Decimal.not_mem_toDigits (by decide) number

/-- Addresses with the same text are equal. -/
theorem text_injective {left right : Address} (same : left.text = right.text) : left = right := by
  have chars := congrArg String.toList same
  rw [toList_text, toList_text] at chars
  obtain ⟨hosts, ports⟩ :=
    Text.split_unique (colon_not_mem_toDigits _) (colon_not_mem_toDigits _) chars
  have hosts := String.toList_inj.mp hosts
  have ports := UInt16.toNat.inj (Text.Decimal.toDigits_injective ports)
  obtain ⟨host, port, nonempty⟩ := left
  obtain ⟨host', port', nonempty'⟩ := right
  subst hosts ports
  rfl

theorem text_inj {left right : Address} : left.text = right.text ↔ left = right :=
  ⟨text_injective, congrArg text⟩

/-- Addresses are ordered by their texts. -/
instance : Ord Address where
  compare left right := compare left.text right.text

theorem compare_eq (left right : Address) : compare left right = compare left.text right.text :=
  rfl

instance : TransOrd Address :=
  inferInstanceAs (TransCmp (compareOn text))

instance : LawfulEqOrd Address where
  compare_self := compare_self (α := String)
  eq_of_compare same := text_injective (Std.compare_eq_iff_eq.mp same)

theorem text_le_of_isLE {left right : Address} (ordered : (compare left right).isLE = true) :
    left.text ≤ right.text := by
  rcases Ordering.isLE_iff_eq_lt_or_eq_eq.mp ordered with below | same
  · have below : left.text < right.text := compareOfLessAndEq_eq_lt.mp below
    exact String.not_lt.mp (String.lt_asymm below)
  · obtain rfl : left = right := Std.compare_eq_iff_eq.mp same
    exact String.le_refl _

end Address

/-- A set of addresses, in text order. -/
abbrev AddressSet := OrderedSet Address

end ClusterRing
