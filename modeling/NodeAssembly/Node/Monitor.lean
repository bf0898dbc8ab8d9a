import NodeAssembly.Node.Execution

/-! A monitor watches the runs of a node. It notes every event with the values
of some registers, stops the run after a number of instructions, and can be
told to disturb the run: to ask for another run while this one is going on, to
register one more listener, or to break off. -/

namespace NodeAssembly

/-- How a run is watched. Events and instructions are counted from one in each
run. -/
structure RunOptions where
  /-- The instruction after which the run is to stop. -/
  maxSteps : Nat
  /-- The registers that are read at each instruction. -/
  watch : List String
  /-- Whether another run is asked for at the first instruction. -/
  reenter : Bool
  /-- The event at which one more listener is registered. -/
  lateAt : Option Nat
  /-- The event at which the listener breaks off. -/
  breakAt : Option Nat

def RunOptions.default : RunOptions :=
  ⟨200, [], false, none, none⟩

/-- One line of a trace. A watched register that does not exist has no value. -/
inductive TraceEntry where
  | executed (position : Nat) (opcode : OpCode) (accumulator : Except Fault Value)
      (watched : List (Option (Except Fault Value)))
  | skipped (position : Nat)
  | stopped (running : Bool)
  | faulted (fault : Fault) (running : Bool)
  /-- What came of asking for another run directly and in the background, and
  whether the latter was going on, and the node marked as running. -/
  | reentered (direct : Except Fault Unit) (background : Bool) (joined : Except Fault Unit)
      (running : Bool)

/-- The monitor itself, and the listeners that only count events. -/
inductive MonitorListener where
  | recorder
  | counter
deriving DecidableEq

structure Monitor where
  options : RunOptions
  table : RegisterTable
  events : Nat
  executed : Nat
  /-- The trace with the latest line first. -/
  trace : List TraceEntry
  listeners : List MonitorListener
  /-- How many events the counting listeners have received. -/
  late : Nat

namespace Monitor

/-- A monitor at the start of a run. The listeners of earlier runs are still
there. -/
def ofRun (options : RunOptions) (table : RegisterTable) (listeners : List MonitorListener)
    (late : Nat) : Monitor :=
  ⟨options, table, 0, 0, [], listeners, late⟩

def add (monitor : Monitor) (entry : TraceEntry) : Monitor :=
  { monitor with trace := entry :: monitor.trace }

/-- Reads a register by name. -/
def readNamed (table : RegisterTable) (name : String) : Script (Option (Except Fault Value)) :=
  match table.find? name with
  | some register => do return some (← Script.request (.read register))
  | none => return none

/-- What asking for another run leads to. -/
def reentry (running : Bool) : TraceEntry :=
  let result := if running then .error .alreadyRunning else .ok ()
  .reentered result false result running

/-- Notes an event, and what the listener then asks for. -/
def record (running : Bool) (event : Event) (monitor : Monitor) : Script (Monitor × Reaction) :=
  match event with
  | .executed position opcode => do
    let accumulator ← Script.request (.read monitor.table.accumulator)
    let watched ← monitor.options.watch.mapM (readNamed monitor.table)
    let executed := monitor.executed + 1
    let monitor := { monitor with executed := executed }
    let monitor := monitor.add (.executed position opcode accumulator watched)
    let again := monitor.options.reenter && executed == 1
    let monitor := if again then monitor.add (reentry running) else monitor
    return (monitor, ⟨executed == monitor.options.maxSteps, again, false⟩)
  | .skipped position => return (monitor.add (.skipped position), .none)
  | .stopped => return (monitor.add (.stopped running), .none)
  | .faulted fault => return (monitor.add (.faulted fault running), .none)

/-- What a listener does with an event. -/
def handle (running : Bool) (listener : MonitorListener) (event : Event) :
    StateT (Monitor × Reaction) Script (Handled MonitorListener) := do
  let (monitor, reaction) ← get
  match listener with
  | .counter =>
    set ({ monitor with late := monitor.late + 1 }, reaction)
    return ⟨[], false⟩
  | .recorder =>
    let events := monitor.events + 1
    let (monitor, reaction) ← record running event { monitor with events := events }
    let registered := if monitor.options.lateAt == some events then [.counter] else []
    set (monitor, reaction)
    return ⟨registered, monitor.options.breakAt == some events⟩

/-- Sends an event to all listeners of a monitored node. -/
def notify (running : Bool) (event : Event) (monitor : Monitor) : Script (Monitor × Reaction) := do
  let ((listeners, broken), (monitor, reaction)) ←
    (dispatch (handle running) monitor.listeners event).run (monitor, .none)
  return ({ monitor with listeners := listeners }, { reaction with broken := broken })

def audience : Audience Monitor :=
  ⟨notify⟩

end Monitor

end NodeAssembly
