/-! Numerals: digits in a base from 2 to 36, an optional sign, and the decimal
form of an integer. -/

namespace NodeAssembly.Text

def isDigit (char : Char) : Bool :=
  '0' ≤ char && char ≤ '9'

def isLetter (char : Char) : Bool :=
  ('a' ≤ char && char ≤ 'z') || ('A' ≤ char && char ≤ 'Z')

/-- Letters, digits and the underscore: what may follow the first letter of a
name. -/
def isWordChar (char : Char) : Bool :=
  isLetter char || isDigit char || char == '_'

/-- The value of a digit; the letters of either case follow the nine. -/
def digitValue (char : Char) : Option Nat :=
  if isDigit char then some (char.toNat - '0'.toNat)
  else if 'a' ≤ char && char ≤ 'z' then some (char.toNat - 'a'.toNat + 10)
  else if 'A' ≤ char && char ≤ 'Z' then some (char.toNat - 'A'.toNat + 10)
  else none

/-- The digit of `base` that `char` is, if it is one. -/
def digitIn (base : Nat) (char : Char) : Option Nat :=
  (digitValue char).filter (· < base)

/-- The number that follows `total` after one more digit, or `limit` if that is
smaller. Cutting off keeps long numerals cheap and never hides that a number
has reached the limit. -/
def appendDigit (base limit : Nat) (total digit : Nat) : Nat :=
  min limit (total * base + digit)

/-- Reads digits of `base` up to the end, counting no further than `limit`. -/
def readDigits (base limit : Nat) : Nat → List Char → Option Nat
  | total, [] => some total
  | total, char :: rest =>
    match digitIn base char with
    | some digit => readDigits base limit (appendDigit base limit total digit) rest
    | none => none

/-- Reads a natural number below `limit`: at least one digit of `base`. -/
def readNatural (base limit : Nat) (text : List Char) : Option Nat :=
  match text with
  | [] => none
  | text => (readDigits base limit 0 text).filter (· < limit)

/-- Reads a natural number below `limit` that may have a plus sign. -/
def readUnsigned (base limit : Nat) (text : List Char) : Option Nat :=
  match text with
  | '+' :: digits => readNatural base limit digits
  | digits => readNatural base limit digits

/-- Reads a 32-bit integer that may have a sign. -/
def readInt32 (base : Nat) (text : List Char) : Option Int32 :=
  match text with
  | '-' :: digits => (readNatural base 0x80000001 digits).map fun n => Int32.ofInt (-n)
  | '+' :: digits => (readNatural base 0x80000000 digits).map fun n => Int32.ofInt n
  | digits => (readNatural base 0x80000000 digits).map fun n => Int32.ofInt n

/-- The decimal form of a natural number. -/
def decimalNat (n : Nat) : List Char :=
  Nat.toDigits 10 n

/-- The decimal form of an integer, with a minus sign if it is negative. -/
def decimal (n : Int) : List Char :=
  if n < 0 then '-' :: decimalNat n.natAbs else decimalNat n.natAbs

def natural (n : Nat) : String :=
  String.ofList (decimalNat n)

def integer (n : Int) : String :=
  String.ofList (decimal n)

end NodeAssembly.Text
