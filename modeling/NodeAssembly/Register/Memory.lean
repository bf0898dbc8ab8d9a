import NodeAssembly.Value.Basic

/-! Memories are rows of cells with a cursor beside them. The functions here
take the cells and the cursor and give what a read yields or a write leaves,
with the place that the cursor ends up at. -/

namespace NodeAssembly.Memory

/-- The most cells that a memory may have. -/
def cellLimit : Nat := 1048576

abbrev Cells := Array Value

/-- Passes if a memory may have so many cells. -/
def checkCells (cells : Nat) : Except Fault Unit :=
  if cells > cellLimit then .error (.outOfMemory cells cellLimit) else .ok ()

/-- The place that an offset means in a row of `length` cells, counted around
in both directions. The length is taken as an integer of 32 bits. -/
def wrap (offset : Int32) (length : Nat) : Nat :=
  if length = 0 then 0 else (offset.toInt % (Int32.ofNat length).toInt).toNat

/-! A memory of fixed size is a ring: the offset goes around in both
directions. Where there is no cell at the place, the first one is used instead.
With no cells at all the memory drops what is written and reads as nothing. -/

namespace Sized

def read (cells : Cells) (offset : Int32) : Value × Int32 :=
  let place := wrap offset cells.size
  match cells[place]? with
  | some value => (value, Int32.ofNat place)
  | none => ((cells[0]?).getD .null, 0)

def write (cells : Cells) (offset : Int32) (value : Value) : Cells × Int32 :=
  let place := wrap offset cells.size
  if place < cells.size then (cells.setIfInBounds place value, Int32.ofNat place)
  else (cells.setIfInBounds 0 value, 0)

/-- The cells brought to a new size; new ones hold nothing. -/
def resize (cells : Cells) (size : Nat) : Cells :=
  cells.take size ++ Array.replicate (size - cells.size) .null

end Sized

/-! A memory that grows has cells up to the last place written. A negative
offset counts from the end. -/

namespace Growing

/-- The place that a write goes to. -/
def place (cells : Cells) (offset : Int32) : Nat :=
  if offset < 0 then wrap offset cells.size else offset.toInt.toNat

def read (cells : Cells) (offset : Int32) : Value × Int32 :=
  if offset < 0 then
    if cells.isEmpty then (.null, offset)
    else
      let place := wrap offset cells.size
      ((cells[place]?).getD .null, Int32.ofNat place)
  else ((cells[offset.toInt.toNat]?).getD .null, offset)

/-- Enough cells for `place`. -/
def grow (cells : Cells) (place : Nat) : Cells :=
  cells ++ Array.replicate (place + 1 - cells.size) .null

def write (cells : Cells) (offset : Int32) (value : Value) : Except Fault (Cells × Int32) := do
  let place := place cells offset
  if cells.size ≤ place then
    checkCells (place + 1)
  return ((grow cells place).setIfInBounds place value, Int32.ofNat place)

end Growing

end NodeAssembly.Memory
