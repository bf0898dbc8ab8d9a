import NodeAssembly.Decimal.Shortest
import NodeAssembly.Text.Numeral
import NodeAssembly.Text.Quoted

/-! The tokens of one instruction line. -/

namespace NodeAssembly

open NodeAssembly.Text

inductive Token where
  | int (number : Int32)
  | float (number : Float32)
  | str (text : String)
  /-- A register name after a dollar sign, which declares the register. -/
  | register (name : String)
  /-- A mnemonic, a label, a type or the name of a register that exists. -/
  | word (name : String)
  | positive
  | negative
deriving DecidableEq

namespace Token

/-- Whether the token opens a branch of a test. -/
def isBranch : Token → Bool
  | .positive => true
  | .negative => true
  | _ => false

/-- The token as it is written in error messages. -/
def text : Token → String
  | .int number => integer number.toInt
  | .float number => Decimal.shortestText number
  | .str text => quoted text
  | .register name => "$" ++ name
  | .word name => name
  | .positive => "+"
  | .negative => "-"

end Token

end NodeAssembly
