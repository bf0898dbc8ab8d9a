import NodeAssembly.Decimal.Shortest

/-! Decimal forms with a fixed number of places. The exact value of the number
is rounded, and a half goes to the even neighbour. -/

namespace NodeAssembly.Decimal

open NodeAssembly.Text

/-- The whole number nearest to `numerator / denominator`, the even one of two
that are equally near. -/
def roundHalfEven (numerator denominator : Nat) : Nat :=
  let quotient := numerator / denominator
  let twice := 2 * (numerator % denominator)
  if twice < denominator then quotient
  else if denominator < twice then quotient + 1
  else quotient + quotient % 2

/-- A number written with `places` digits after the point. -/
def fixedDigits (places : Nat) (parts : Binary) : List Char :=
  let (numerator, denominator) := parts.ratio (Nat.pow 10 places)
  let scaled := roundHalfEven numerator denominator
  let fraction := decimalNat (scaled % Nat.pow 10 places)
  decimalNat (scaled / Nat.pow 10 places) ++
    '.' :: (List.replicate (places - fraction.length) '0' ++ fraction)

def fixedText (places : Nat) (number : Float32) : String :=
  signedText number (fixedDigits places)

end NodeAssembly.Decimal
