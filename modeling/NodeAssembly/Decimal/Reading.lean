import NodeAssembly.Text.Distance
import NodeAssembly.Text.Numeral

/-! Reading a single-precision number: an optional sign, then digits with an
optional point and an optional exponent, or one of the words `inf`, `infinity`
and `nan` in any case. The result is the nearest number, the even one of two
that are equally near. -/

namespace NodeAssembly.Decimal

open NodeAssembly.Text

/-- A decimal number `digits * 10 ^ exponent` before it is rounded. -/
structure Scientific where
  digits : List Char
  exponent : Int
deriving DecidableEq

namespace Scientific

/-- More digits than any number halfway between two single-precision numbers
has. Beyond these it only matters whether all the rest are zero. -/
def significant : Nat := 200

/-- The same number, or one that rounds like it, with few digits. -/
def shorten (number : Scientific) : Scientific :=
  let digits := number.digits.dropWhile (· == '0')
  let rest := digits.drop significant
  if rest.isEmpty then ⟨digits, number.exponent⟩
  else
    let mark := if rest.all (· == '0') then '0' else '1'
    ⟨digits.take significant ++ [mark], number.exponent + rest.length - 1⟩

/-- The nearest single-precision number. What is too large by far is infinite,
and what is too small by far is zero. -/
def round (number : Scientific) : Float32 :=
  let short := number.shorten
  let size := short.digits.length + short.exponent
  if short.digits.isEmpty || size < -60 then Float32.ofBits 0
  else if size > 60 then Float32.ofBits 0x7F800000
  else
    let mantissa := (readDigits 10 (Nat.pow 10 (significant + 1)) 0 short.digits).getD 0
    Float32.ofScientific mantissa (short.exponent < 0) short.exponent.natAbs

end Scientific

/-- An exponent that has reached this takes in no more digits. -/
def exponentLimit : Nat := 0x10000

/-- Reads the digits of an exponent up to the end. Those after the limit is
reached are passed over. -/
def readExponentDigits : Nat → List Char → Option Nat
  | total, [] => some total
  | total, char :: rest =>
    match digitIn 10 char with
    | some digit =>
      readExponentDigits (if total < exponentLimit then total * 10 + digit else total) rest
    | none => none

/-- Reads an exponent without a sign, which has at least one digit. -/
def readMagnitude (text : List Char) : Option Int :=
  match text with
  | [] => none
  | digits => (readExponentDigits 0 digits).map Int.ofNat

/-- Reads an exponent, which may have a sign. -/
def readSignedExponent (text : List Char) : Option Int :=
  match text with
  | '-' :: digits => (readMagnitude digits).map fun exponent => -exponent
  | '+' :: digits => readMagnitude digits
  | digits => readMagnitude digits

/-- Reads an exponent part up to the end: nothing at all, or the letter `e` and
an exponent. -/
def readExponent (text : List Char) : Option Int :=
  match text with
  | [] => some 0
  | 'e' :: rest => readSignedExponent rest
  | 'E' :: rest => readSignedExponent rest
  | _ => none

/-- Reads an unsigned number up to the end. -/
def readScientific (text : List Char) : Option Scientific :=
  let whole := text.takeWhile isDigit
  let (fraction, rest) :=
    match text.dropWhile isDigit with
    | '.' :: rest => (rest.takeWhile isDigit, rest.dropWhile isDigit)
    | rest => ([], rest)
  if whole.isEmpty && fraction.isEmpty then none
  else (readExponent rest).map fun exponent => ⟨whole ++ fraction, exponent - fraction.length⟩

def readUnsignedFloat (text : List Char) : Option Float32 :=
  let word := lowerCase (text.take 9)
  if word == "inf".toList || word == "infinity".toList then some (Float32.ofBits 0x7F800000)
  else if word == "nan".toList then some (Float32.ofBits 0x7FC00000)
  else (readScientific text).map Scientific.round

/-- Reads a single-precision number up to the end of the text. -/
def readFloat (text : List Char) : Option Float32 :=
  match text with
  | '-' :: rest => (readUnsignedFloat rest).map Float32.neg
  | '+' :: rest => readUnsignedFloat rest
  | rest => readUnsignedFloat rest

end NodeAssembly.Decimal
