import NodeAssembly.Program.Basic
import NodeAssembly.Register.Access

/-! Nodes. A node is a program with its registers. It remembers which of its
run-once instructions are spent for as long as it exists, and whether a run of
it is going on. -/

namespace NodeAssembly

structure Node where
  program : Program
  file : RegisterFile
  /-- For each entry whether it is not to run again. -/
  spent : Array Bool
  running : Bool
  logger : Option Logger

namespace Node

def ofProgram (program : Program) (file : RegisterFile) (logger : Option Logger) : Node :=
  ⟨program, file, Array.replicate program.size false, false, logger⟩

def register? (node : Node) (name : String) : Option RegisterRef :=
  node.program.table.find? name

/-- Takes the node for a run, unless one is going on. -/
def claim (node : Node) : Except Fault Node :=
  if node.running then .error .alreadyRunning else .ok { node with running := true }

/-- Asks the run that is going on to stop before its next instruction. -/
def stop (node : Node) : Node :=
  { node with running := false }

def isSpent (node : Node) (position : Nat) : Bool :=
  (node.spent[position]?).getD false

/-- Marks an entry that runs only once as spent. -/
def spend (node : Node) (position : Nat) : Node :=
  match node.program.entries[position]? with
  | some entry =>
    if entry.once then { node with spent := node.spent.setIfInBounds position true } else node
  | none => node

/-- How many nanoseconds so many ticks take, if the clock is on. -/
def nanoseconds? (node : Node) (ticks : Int32) : Option Nat :=
  ((node.file.clock node.program.table.clock).microseconds? ticks).map (· * 1000)

/-- What the node can reach on a board. -/
def site (node : Node) (board : Board) : Site :=
  ⟨node.file, board⟩

end Node

end NodeAssembly
