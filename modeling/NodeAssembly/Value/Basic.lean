import NodeAssembly.Decimal.Fixed
import NodeAssembly.Decimal.Reading
import NodeAssembly.Fault
import NodeAssembly.Register.Reference
import NodeAssembly.Text.Blank
import NodeAssembly.Text.Quoted

/-! The values that nodes compute with, and how a value is taken as an integer,
as a number with a fraction, or as text. -/

namespace NodeAssembly

open NodeAssembly.Text

/-- A reference stands for the value that its register will have when it is
read; it is resolved before a value is stored or combined with another. -/
inductive Value where
  | int (number : Int32)
  | float (number : Float32)
  | str (text : String)
  | null
  | ref (register : RegisterRef)
deriving DecidableEq

namespace Value

/-- Whether the value is no reference. -/
def isFlat : Value → Bool
  | .ref _ => false
  | _ => true

def isNull : Value → Bool
  | .null => true
  | _ => false

/-- A text as an integer: the numeral in it, else the code of its only
character, else zero. -/
def integerOfText (text : String) : Int32 :=
  match readInt32 10 (trim text.toList) with
  | some number => number
  | none =>
    match text.toList with
    | [char] => Int32.ofNat char.toNat
    | _ => 0

def toInt : Value → Int32
  | .int number => number
  | .float number => Decimal.toInt32 number
  | .str text => integerOfText text
  | .null => 0
  | .ref _ => 0

def toFloat : Value → Float32
  | .int number => Decimal.ofInt32 number
  | .float number => number
  | .str text => (Decimal.readFloat (trim text.toList)).getD (Float32.ofBits 0)
  | .null => Float32.ofBits 0x7FC00000
  | .ref _ => Float32.ofBits 0

/-- The text that is joined to others and written to tapes. -/
def text : Value → String
  | .int number => integer number.toInt
  | .float number => Decimal.fixedText 8 number
  | .str text => text
  | .null => "null"
  | .ref _ => ""

/-- The value as it is written in an operand. -/
def literal : Value → String
  | .str text => quoted text
  | .ref register => register.text
  | value => value.text

/-- The value with the name of its type. -/
def describe : Value → String
  | .int number => "Int(" ++ integer number.toInt ++ ")"
  | .float number => "Float(" ++ Decimal.shortestText number ++ ")"
  | .str text => "Str(" ++ quoted text ++ ")"
  | .null => "Null"
  | .ref register => "Ref(" ++ register.text ++ ")"

/-- Equality of the same type of value. Numbers with a fraction are equal as
numbers, so the undefined number is unequal to itself. -/
def isEqual : Value → Value → Bool
  | .int first, .int second => first == second
  | .float first, .float second => first == second
  | .str first, .str second => first == second
  | .null, .null => true
  | .ref first, .ref second => first.isSame second
  | _, _ => false

end Value

end NodeAssembly
