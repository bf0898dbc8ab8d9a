import NodeAssembly.Decimal.Binary
import NodeAssembly.Text.Numeral

/-! The shortest decimal form of a single-precision number: the fewest digits
that round back to it, and of those the nearest to it. The form is positional,
never with an exponent, and a whole number has no point. -/

namespace NodeAssembly.Decimal

open NodeAssembly.Text

/-- The numbers that round to one finite number, as multiples of a quarter of
its last place: the number itself, and the ends of the interval around it,
which belong to the interval if `closed`. -/
structure Interval where
  low : Nat
  middle : Nat
  high : Nat
  closed : Bool
  /-- The power of two of one unit. -/
  unit : Int
deriving DecidableEq

namespace Interval

/-- The interval below a power of two is half as wide. A tie goes to the even
mantissa, so the ends belong to the even one. -/
def ofBinary (parts : Binary) : Interval :=
  let mantissa := parts.mantissa
  let below := if parts.fraction == 0 && 1 < parts.field then 1 else 2
  ⟨4 * mantissa - below, 4 * mantissa, 4 * mantissa + 2, mantissa % 2 == 0, parts.exponent - 2⟩

/-- Whole numbers `(a, b)` such that `c * 10 ^ place` compares with `x` units as
`c * a` with `x * b`. -/
def scales (interval : Interval) (place : Int) : Nat × Nat :=
  (Nat.pow 10 place.toNat * Nat.pow 2 (-interval.unit).toNat,
    Nat.pow 2 interval.unit.toNat * Nat.pow 10 (-place).toNat)

/-- The place of the first digit of the number in the middle, found among the
places that single precision can reach. -/
def firstPlace (interval : Interval) : Int :=
  let places := (List.range 86).map fun n : Nat => 39 - (n : Int)
  let reaches (place : Int) : Bool :=
    let (grid, unit) := interval.scales place
    decide (grid ≤ interval.middle * unit)
  (places.find? reaches).getD (-46)

/-- The multiple of `10 ^ place` in the interval that is nearest to the middle,
the larger one of two that are equally near. -/
def nearest? (interval : Interval) (place : Int) : Option Nat :=
  let (grid, unit) := interval.scales place
  let middle := interval.middle * unit
  let below := middle / grid
  let inside (candidate : Nat) : Bool :=
    let point := candidate * grid
    let low := interval.low * unit
    let high := interval.high * unit
    if interval.closed then decide (low ≤ point) && decide (point ≤ high)
    else decide (low < point) && decide (point < high)
  match inside below, inside (below + 1) with
  | true, true =>
    if middle - below * grid < (below + 1) * grid - middle then some below else some (below + 1)
  | true, false => some below
  | false, true => some (below + 1)
  | false, false => none

/-- The shortest multiple: nine digits always suffice. -/
def shortest (interval : Interval) : Nat × Int :=
  let first := interval.firstPlace
  let places := (List.range 9).map fun n : Nat => first - (n : Int)
  (places.findSome? fun place => (interval.nearest? place).map (·, place)).getD (0, 0)

end Interval

/-- Drops the zeros at the end of a fraction. -/
def trimZeros (fraction : List Char) : List Char :=
  (fraction.reverse.dropWhile (· == '0')).reverse

/-- The positional form of `number * 10 ^ place`. -/
def positional (number : Nat) (place : Int) : List Char :=
  if 0 ≤ place then decimalNat (number * Nat.pow 10 place.toNat)
  else
    let places := (-place).toNat
    let whole := decimalNat (number / Nat.pow 10 places)
    let digits := decimalNat (number % Nat.pow 10 places)
    let fraction := trimZeros (List.replicate (places - digits.length) '0' ++ digits)
    if fraction.isEmpty then whole else whole ++ '.' :: fraction

/-- The text of a number that has no digits, or of one that has, with its
sign. -/
def signedText (number : Float32) (digits : Binary → List Char) : String :=
  let parts := Binary.ofFloat number
  if parts.isNaN then "NaN"
  else
    let size := if parts.isFinite then digits parts else "inf".toList
    String.ofList (if parts.negative then '-' :: size else size)

/-- The shortest positional form that reads back as the same number. -/
def shortestText (number : Float32) : String :=
  signedText number fun parts =>
    if parts.mantissa == 0 then ['0']
    else
      let (number, place) := (Interval.ofBinary parts).shortest
      positional number place

end NodeAssembly.Decimal
