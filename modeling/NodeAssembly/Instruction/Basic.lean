import NodeAssembly.OpCode
import NodeAssembly.Value.Basic

/-! Instructions with their operands. A test owns two blocks of instructions,
of which it runs at most one. -/

namespace NodeAssembly

open NodeAssembly.Text

mutual

inductive Instruction where
  | noOperation
  | stop
  | move (source : Value) (target : RegisterRef)
  | swap (left right : RegisterRef)
  | jump (label : String)
  | sleep (duration : Value)
  | observe (register : RegisterRef)
  /-- A pulse on a pin, with the ticks it is on and off. -/
  | generate (register : RegisterRef) (on off : Value)
  | add (operand : Value)
  | subtract (operand : Value)
  | multiply (operand : Value)
  | divide (operand : Value)
  | not
  | digit (position : Value)
  | setDigit (position value : Value)
  | cast (kind : Value)
  | increment (register : RegisterRef)
  | decrement (register : RegisterRef)
  | test (kind : TestKind) (left right : Value) (positive negative : Block)

inductive Block where
  | nil
  | cons (head : Instruction) (tail : Block)

end

deriving instance DecidableEq for Instruction
deriving instance DecidableEq for Block

namespace Block

def ofList : List Instruction → Block
  | [] => .nil
  | head :: tail => .cons head (ofList tail)

def toList : Block → List Instruction
  | .nil => []
  | .cons head tail => head :: tail.toList

def length (block : Block) : Nat :=
  block.toList.length

end Block

namespace Instruction

def opcode : Instruction → OpCode
  | .noOperation => .noOperation
  | .stop => .stop
  | .move _ _ => .move
  | .swap _ _ => .swap
  | .jump _ => .jump
  | .sleep _ => .sleep
  | .observe _ => .observe
  | .generate _ _ _ => .generate
  | .add _ => .add
  | .subtract _ => .subtract
  | .multiply _ => .multiply
  | .divide _ => .divide
  | .not => .not
  | .digit _ => .digit
  | .setDigit _ _ => .setDigit
  | .cast _ => .cast
  | .increment _ => .increment
  | .decrement _ => .decrement
  | .test kind _ _ _ _ => .test kind

/-- The operands as they are written. -/
def operands : Instruction → List String
  | .noOperation | .stop | .not => []
  | .move source target => [source.literal, target.text]
  | .swap left right => [left.text, right.text]
  | .jump label => [label]
  | .sleep duration => [duration.literal]
  | .observe register => [register.text]
  | .generate register on off => [register.text, on.literal, off.literal]
  | .add operand | .subtract operand | .multiply operand | .divide operand => [operand.literal]
  | .digit position => [position.literal]
  | .setDigit position value => [position.literal, value.literal]
  | .cast kind => [kind.literal]
  | .increment register | .decrement register => [register.text]
  | .test _ left right _ _ => [left.literal, right.literal]

/-- How many instructions the branches of a test have. -/
def branchCounts : Instruction → String
  | .test _ _ _ positive negative =>
    " (+" ++ natural positive.length ++ " -" ++ natural negative.length ++ ")"
  | _ => ""

/-- The instruction on one line. The branches of a test are only counted. -/
def text (instruction : Instruction) : String :=
  " ".intercalate (instruction.opcode.mnemonic :: instruction.operands) ++ instruction.branchCounts

end Instruction

/-- Which branch a test takes for an order of its operands. -/
def TestKind.branch? : TestKind → Ordering → Option Bool
  | .equal, ordering => some (ordering == .eq)
  | .greater, ordering => some (ordering == .gt)
  | .less, ordering => some (ordering == .lt)
  | .compare, .gt => some true
  | .compare, .lt => some false
  | .compare, .eq => none

end NodeAssembly
