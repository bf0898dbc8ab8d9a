import NodeAssembly.Instruction.Basic
import NodeAssembly.Register.Basic

/-! Programs: instructions in order, labels that say where to jump to, and the
registers by name. -/

namespace NodeAssembly

/-- An instruction of a program, whether it runs only once, and the line it
starts on. -/
structure Entry where
  instruction : Instruction
  once : Bool
  line : Nat
deriving DecidableEq

structure Program where
  entries : Array Entry
  /-- The entry that each label stands before. -/
  labels : List (String × Nat)
  table : RegisterTable
deriving DecidableEq

namespace Program

def size (program : Program) : Nat :=
  program.entries.size

def label? (program : Program) (label : String) : Option Nat :=
  program.labels.lookup label

/-- The program with some labels taken away. -/
def withoutLabels (program : Program) (labels : List String) : Program :=
  { program with labels := program.labels.filter fun label => !labels.contains label.1 }

end Program

/-- The settings that all nodes of a compiler start with: the speed of their
clocks, and how many milliseconds a bus waits for a partner. -/
structure Config where
  clockSpeed : Int32
  timeout : Nat
deriving DecidableEq, Repr

def Config.default : Config :=
  ⟨500, 120000⟩

end NodeAssembly
