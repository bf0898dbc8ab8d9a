import NodeAssembly.Instruction.Basic
import NodeAssembly.Instruction.Script

/-! The script of each instruction. Every operand is read once, from left to
right, and the accumulator after the operands that do not need it. -/

namespace NodeAssembly

open NodeAssembly.Action

/-- Replaces the accumulator by what an operator makes of it. -/
def accumulate (accumulator : RegisterRef) (operator : Value → Action Value) : Action Unit := do
  let value ← read accumulator
  let result ← operator value
  put accumulator result

/-- Adds to a register, and leaves the sum in the accumulator as well. -/
def stepRegister (accumulator register : RegisterRef) (amount : Int32) : Action Unit := do
  let value ← read register
  let result ← combine Value.add value (.int amount)
  put accumulator result
  put register result

mutual

def Instruction.execute (accumulator : RegisterRef) : Instruction → Action Unit
  | .noOperation => pure ()
  | .stop => Action.stop
  | .move source target => do
    let value ← resolve source
    put target value
  | .swap left right => do
    let first ← read left
    let second ← read right
    put left second
    put right first
  | .jump label => Action.jump label
  | .sleep duration => do
    let ticks ← resolve duration
    Action.sleep ticks.toInt
  | .observe register => Action.observe register
  | .generate register on off => do
    let on ← resolve on
    let off ← resolve off
    put register (.int 100)
    Action.sleep on.toInt
    put register (.int 0)
    Action.sleep off.toInt
  | .add operand => accumulate accumulator fun value => combine Value.add value operand
  | .subtract operand => accumulate accumulator fun value => combine Value.sub value operand
  | .multiply operand => accumulate accumulator fun value => combine Value.mul value operand
  | .divide operand => accumulate accumulator fun value => combine Value.div value operand
  | .not => accumulate accumulator fun value => do return (← resolve value).not
  | .digit position => do
    let position ← resolve position
    accumulate accumulator fun value => do return (← resolve value).digit position.toInt
  | .setDigit position replacement => do
    let position ← resolve position
    let replacement ← resolve replacement
    accumulate accumulator fun value => do
      return (← resolve value).setDigit position.toInt replacement
  | .cast kind => accumulate accumulator fun value => combine Value.cast value kind
  | .increment register => stepRegister accumulator register 1
  | .decrement register => stepRegister accumulator register (-1)
  | .test kind left right positive negative => do
    let ordering ← Action.order left right
    match kind.branch? ordering with
    | some true => positive.execute accumulator
    | some false => negative.execute accumulator
    | none => pure ()

/-- Runs the instructions of a block while the machine is running. -/
def Block.execute (accumulator : RegisterRef) : Block → Action Unit
  | .nil => pure ()
  | .cons head tail => do
    if ← running then
      head.execute accumulator
      tail.execute accumulator

end

end NodeAssembly
