/-!
# JSON values

The values of the JSON data format, with what a reader needs to tell them apart:
natural numbers stand apart from all other numerals, and a string that holds half
of a surrogate pair is well-formed but stands for no text.
-/

namespace ClusterRing

/-- A numeral. -/
inductive Numeral where
  /-- Digits only: no sign, fraction or exponent. -/
  | natural (value : Nat)
  /-- Any other numeral, as it is written. -/
  | other (literal : String)
deriving DecidableEq

/-- A JSON value. -/
inductive Json where
  | null
  | bool (value : Bool)
  | number (numeral : Numeral)
  /-- A string; `none` if its escapes leave half of a surrogate pair. -/
  | string (content : Option String)
  | array (items : List Json)
  /-- An object, its members in the order of the text; a name may occur more than once. -/
  | object (members : List (Option String × Json))

namespace Json

/-- The number with a natural value. -/
def ofNat (value : Nat) : Json :=
  .number (.natural value)

/-- The string with a text. -/
def ofString (text : String) : Json :=
  .string (some text)

/-- The object with the given members. -/
def ofMembers (members : List (String × Json)) : Json :=
  .object (members.map fun (name, value) => (some name, value))

/-! ### Reading values -/

/-- A natural number up to a limit. -/
def natural? (limit : Nat) : Json → Option Nat
  | .number (.natural value) => if value ≤ limit then some value else none
  | _ => none

/-- The text of a string. -/
def text? : Json → Option String
  | .string content => content
  | _ => none

/-- The items of an array. -/
def items? : Json → Option (List Json)
  | .array items => some items
  | _ => none

/-- The value of a member if it occurs once; `none` if it occurs more than once. -/
def member? (members : List (Option String × Json)) (name : String) : Option (Option Json) :=
  match members.filter fun member => member.1 = some name with
  | [] => some none
  | [member] => some (some member.2)
  | _ => none

/--
The fields of a record, each with its value if there is one. A record is written
as an object, where members with other names are skipped, or as an array of its
fields in order, where fields at the end may be left out.
-/
def record? (fields : List String) : Json → Option (List (Option Json))
  | .object members =>
    if members.all fun member => member.1.isSome then fields.mapM (member? members) else none
  | .array items =>
    if items.length ≤ fields.length then
      some (items.map some ++ List.replicate (fields.length - items.length) none)
    else
      none
  | _ => none

end Json

end ClusterRing
