import NodeAssembly.Random.Generator
import NodeAssembly.Register.Clock
import NodeAssembly.Register.Input
import NodeAssembly.Register.Memory
import NodeAssembly.Register.Tape
import NodeAssembly.Value.Arithmetic

/-! The registers of a node, the file that holds them and the table that finds
them by name. -/

namespace NodeAssembly

/-- The state of a register, by its kind. -/
inductive Register where
  /-- Drops what is written and reads as nothing. -/
  | null
  | plain (value : Value)
  | clock (clock : Clock)
  | random (generator : Random.Generator)
  /-- Passes everything on to a channel. -/
  | pin (kind : PinKind) (channel : Nat)
  /-- The cursor of a memory. -/
  | offset (offset : Int32)
  | sized (cursor : RegisterRef) (cells : Memory.Cells)
  | growing (cursor : RegisterRef) (cells : Memory.Cells)
  | tape (tape : Tape)
  | input (input : Input)

namespace Register

/-- The kind of the pin behind a register. -/
def pinKind? : Register → Option PinKind
  | .pin kind _ => some kind
  | _ => none

end Register

/-- The states of all registers that a node ever had; a register keeps its
cell. -/
abbrev RegisterFile := Array Register

namespace RegisterFile

/-- A cell that was never made behaves like the null register. -/
def state (file : RegisterFile) (register : RegisterRef) : Register :=
  (file[register.cell]?).getD .null

def update (file : RegisterFile) (register : RegisterRef) (state : Register) : RegisterFile :=
  file.setIfInBounds register.cell state

/-- Makes a new register. -/
def create (file : RegisterFile) (name : String) (state : Register) :
    RegisterRef × RegisterFile :=
  (⟨name, file.size⟩, file.push state)

/-- Where a cursor stands. -/
def offset (file : RegisterFile) (cursor : RegisterRef) : Int32 :=
  match file.state cursor with
  | .offset offset => offset
  | _ => 0

/-- The clock in a register. What is no clock counts as one that is off. -/
def clock (file : RegisterFile) (register : RegisterRef) : Clock :=
  match file.state register with
  | .clock clock => clock
  | _ => ⟨Clock.least, false⟩

end RegisterFile

/-- The registers that a node knows by name. The accumulator and the clock are
fixed when the table is made. -/
structure RegisterTable where
  named : List RegisterRef
  accumulator : RegisterRef
  clock : RegisterRef
deriving DecidableEq

namespace RegisterTable

def find? (table : RegisterTable) (name : String) : Option RegisterRef :=
  table.named.find? fun register => register.name == name

def contains (table : RegisterTable) (name : String) : Bool :=
  (table.find? name).isSome

/-- Enters a register under its name, in place of one that had the name. -/
def insert (table : RegisterTable) (register : RegisterRef) : RegisterTable :=
  if table.contains register.name then
    { table with
      named := table.named.map fun other => if other.name == register.name then register else other }
  else { table with named := table.named ++ [register] }

def names (table : RegisterTable) : List String :=
  table.named.map (·.name)

end RegisterTable

/-- The registers that every node has, with their table. -/
def defaultRegisters (clockSpeed : Int32) : RegisterTable × RegisterFile :=
  let file : RegisterFile := #[.null, .clock (.ofSpeed clockSpeed), .plain (.int 0),
    .tape (.ofSink .output), .input (.ofSource (.console [])), .tape (.ofSink .errors),
    .random .unseeded]
  let table : RegisterTable := {
    named := [⟨"null", 0⟩, ⟨"clk", 1⟩, ⟨"acc", 2⟩, ⟨"stdout", 3⟩, ⟨"stdin", 4⟩, ⟨"stderr", 5⟩,
      ⟨"rng", 6⟩]
    accumulator := ⟨"acc", 2⟩
    clock := ⟨"clk", 1⟩ }
  (table, file)

end NodeAssembly
