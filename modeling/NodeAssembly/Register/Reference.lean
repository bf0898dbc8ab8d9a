/-! References to registers. A node keeps its registers in a file; a reference
says which cell of the file is meant and by what name the register goes. -/

namespace NodeAssembly

/-- Two references mean the same register if they have the same cell. The name
is fixed when the register is made, so it is carried along. -/
structure RegisterRef where
  name : String
  cell : Nat
deriving DecidableEq, Repr

namespace RegisterRef

def isSame (first second : RegisterRef) : Bool :=
  first.cell == second.cell

/-- A reference as it is written in an operand. -/
def text (reference : RegisterRef) : String :=
  "$" ++ reference.name

end RegisterRef

end NodeAssembly
