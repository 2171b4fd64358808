/-!
# Fixed-point numerals and columns

A quotient of natural numbers in decimal with a fixed number of places, rounded
to the nearest numeral, a half to the even neighbour; and text padded to the
width of a column.
-/

namespace ClusterRing.Text

/-- The natural number nearest to a quotient; of two equally near ones the even one. -/
def roundToEven (numerator denominator : Nat) : Nat :=
  let quotient := numerator / denominator
  let twice := 2 * (numerator % denominator)
  if twice < denominator then quotient
  else if denominator < twice then quotient + 1
  else quotient + quotient % 2

/-- The numeral of a quotient with a fixed number of places. -/
def fixed (places numerator denominator : Nat) : String :=
  let unit := Nat.pow 10 places
  let scaled := roundToEven (numerator * unit) denominator
  let fraction := Nat.toDigits 10 (scaled % unit)
  let zeros := List.replicate (places - fraction.length) '0'
  toString (scaled / unit) ++ "." ++ String.ofList (zeros ++ fraction)

/-- A text with blanks after it, up to a width. -/
def padRight (width : Nat) (text : String) : String :=
  text ++ String.ofList (List.replicate (width - text.length) ' ')

/-- A text with blanks before it, up to a width. -/
def padLeft (width : Nat) (text : String) : String :=
  String.ofList (List.replicate (width - text.length) ' ') ++ text

end ClusterRing.Text
