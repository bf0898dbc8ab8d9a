/-! A finite single-precision number is `mantissa * 2 ^ exponent`. The exact
decimal forms and the truncation to an integer are computed from these parts
in whole numbers. -/

namespace NodeAssembly.Decimal

/-- The parts of the bits of a single-precision number. -/
structure Binary where
  negative : Bool
  field : Nat
  fraction : Nat
deriving DecidableEq

namespace Binary

def ofFloat (number : Float32) : Binary :=
  let bits := number.toBits.toNat
  ⟨bits / 0x80000000 == 1, bits / 0x800000 % 0x100, bits % 0x800000⟩

/-- The largest exponent field marks infinities and, with a fraction, the
undefined number. -/
def isFinite (parts : Binary) : Bool :=
  parts.field != 255

def isNaN (parts : Binary) : Bool :=
  parts.field == 255 && parts.fraction != 0

/-- The leading bit of the mantissa is left out of the fraction, except in the
subnormal numbers, which have none. -/
def mantissa (parts : Binary) : Nat :=
  if parts.field == 0 then parts.fraction else parts.fraction + 0x800000

def exponent (parts : Binary) : Int :=
  if parts.field == 0 then -149 else parts.field - 150

/-- The absolute value of a finite number times `scale`, as a fraction of two
whole numbers. -/
def ratio (parts : Binary) (scale : Nat) : Nat × Nat :=
  (parts.mantissa * scale * Nat.pow 2 parts.exponent.toNat, Nat.pow 2 (-parts.exponent).toNat)

/-- The integer part, toward zero, of a finite number. -/
def truncate (parts : Binary) : Int :=
  let (numerator, denominator) := parts.ratio 1
  let whole : Int := (numerator / denominator : Nat)
  if parts.negative then -whole else whole

/-- The integer part brought into the bounds from `least` to `most`. An
infinity goes to its bound, and the undefined number to zero. -/
def saturate (parts : Binary) (least most : Int) : Int :=
  if parts.isNaN then 0
  else if parts.isFinite then max least (min most parts.truncate)
  else if parts.negative then least
  else most

end Binary

/-- The integer nearest to zero that is not past `number`, within 32 bits. -/
def toInt32 (number : Float32) : Int32 :=
  Int32.ofInt ((Binary.ofFloat number).saturate (-0x80000000) 0x7FFFFFFF)

/-- The single-precision number nearest to an integer. -/
def ofInt32 (number : Int32) : Float32 :=
  Float32.ofInt number.toInt

end NodeAssembly.Decimal
