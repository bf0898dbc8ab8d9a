import NodeAssembly.Instruction.Execute
import NodeAssembly.Node.Basic
import NodeAssembly.Node.Event
import NodeAssembly.Node.Timer

/-! One run of a node, in small steps. The run visits the entries of the
program one after the other, starting over after the last one, until it is
stopped, has ended itself, has a fault, or has passed over every entry without
finding one that is not spent.

A step answers one request, or takes the run from one stage to the next. A run
that needs a partner on a bus makes no step until the partner is there, or
until it gives up. A run that sleeps makes a step whenever it looks whether it
is to stop. -/

namespace NodeAssembly

open NodeAssembly.Text

/-- Where a run is. -/
structure Execution where
  node : Node
  /-- The entry being visited. -/
  position : Nat
  /-- How many spent entries were passed over since the last one executed. -/
  skipped : Nat
  /-- Where a jump wants to go on. -/
  pending : Option Nat
  /-- Whether the program has ended itself. -/
  halted : Bool
  /-- The call on a channel that has not been answered yet. -/
  call : Option (Nat × Bus.Call)
  timer : Timer

namespace Execution

def ofNode (node : Node) : Execution :=
  ⟨node, 0, 0, none, false, none, .ofLaps []⟩

def isRunning (execution : Execution) : Bool :=
  !execution.halted && execution.node.running

/-- An instruction begins. -/
def enter (execution : Execution) : Execution :=
  { execution with
    skipped := 0
    timer := execution.timer.begin (execution.node.nanoseconds? 1) }

/-- What comes of a request. -/
inductive Response (α : Type) where
  | answered (answer : α) (execution : Execution) (board : Board)
  /-- A step was made, but the answer is still missing. -/
  | moved (execution : Execution) (board : Board)
  /-- Nothing can be done without a partner. -/
  | blocked

/-- Goes on with an access to a register: begins it, or takes the next step of
the call that it has led to. -/
def access {α : Type} (execution : Execution) (board : Board)
    (start : Site → Access (Except Fault α)) (received : Option Value → α) :
    Response (Except Fault α) :=
  match execution.call with
  | none =>
    match start (execution.node.site board) with
    | .done answer site =>
      .answered answer { execution with node := { execution.node with file := site.file } }
        site.board
    | .call channel call => .moved { execution with call := some (channel, call) } board
  | some (channel, call) =>
    match board.stepCall channel call with
    | .wait => .blocked
    | .proceed board next => .moved { execution with call := some (channel, next) } board
    | .finish board value =>
      .answered (.ok (received value)) { execution with call := none } board

/-- Looks up where a jump leads. -/
def jump (execution : Execution) (label : String) : Except Fault Unit × Execution :=
  match execution.node.program.label? label with
  | some target => (.ok (), { execution with pending := some target })
  | none => (.error (.unknownLabel label), execution)

/-- Goes on with a sleep: begins it, unless the clock is off, or looks whether it
is over. A stop ends it as well. -/
def sleep (execution : Execution) (board : Board) (ticks : Int32) : Response Unit :=
  match execution.timer.deadline with
  | none =>
    match execution.node.nanoseconds? ticks with
    | none => .answered () execution board
    | some duration =>
      .moved { execution with timer := execution.timer.lieDown duration } board
  | some deadline =>
    if execution.node.running then
      let timer := execution.timer.look
      if deadline ≤ timer.now then .answered () { execution with timer := timer.getUp } board
      else .moved { execution with timer := timer.sleepOn deadline } board
    else .answered () { execution with timer := execution.timer.getUp } board

def respond (execution : Execution) (board : Board) (request : Request) :
    Response request.Answer :=
  match request with
  | .read register =>
    execution.access board (·.read register) fun value => value.getD .null
  | .write register value => execution.access board (·.write register value) fun _ => ()
  | .observe register => execution.access board (·.observe register) fun _ => ()
  | .jump label =>
    let (answer, execution) := execution.jump label
    .answered answer execution board
  | .stop => .answered () { execution with halted := true } board
  | .running => .answered execution.isRunning execution board
  | .sleep ticks => execution.sleep board ticks

/-- One step of a script, if it can make one. -/
def stepScript {α : Type} (execution : Execution) (board : Board) :
    Script α → Option (Execution × Board × Script α)
  | .done _ => none
  | .ask request resume =>
    match execution.respond board request with
    | .answered answer execution board => some (execution, board, resume answer)
    | .moved execution board => some (execution, board, .ask request resume)
    | .blocked => none

/-- A fault as the answer to a request, if the request can be answered so. -/
def faultAnswer? (fault : Fault) : (request : Request) → Option request.Answer
  | .read _ => some (.error fault)
  | .write _ _ => some (.error fault)
  | .observe _ => some (.error fault)
  | _ => none

/-- A script that waits for a partner gives up and goes on with a fault. -/
def expireScript {α : Type} (execution : Execution) (board : Board) :
    Script α → Option (Execution × Board × Script α)
  | .done _ => none
  | .ask request resume =>
    match execution.call with
    | none => none
    | some (channel, call) =>
      let (board, fault) := board.expireCall channel call
      (faultAnswer? fault request).map fun answer =>
        ({ execution with call := none }, board, resume answer)

end Execution

/-- What a listener asks of the node while it handles an event. -/
structure Reaction where
  /-- The run is to stop before the next instruction. -/
  stop : Bool
  /-- Another run was asked for. While this one holds the node that is refused;
  a run that is asked for when the node is free is let in by whoever keeps the
  runs of the node, and goes on beside this one. -/
  restart : Bool
  /-- The listener broke the run off. -/
  broken : Bool

def Reaction.none : Reaction :=
  ⟨false, false, false⟩

/-- Those who listen to a run: what they do with an event, given whether the
node is marked as running. Their state changes with the events. -/
structure Audience (σ : Type) where
  notify : Bool → Event → σ → Script (σ × Reaction)

/-- How a run came to its end. -/
inductive Ending where
  | returned (result : Except Fault Unit)
  /-- A listener broke it off. -/
  | broken

/-- The stages of a run. -/
inductive Stage (σ : Type) where
  /-- About to look at the entry at the current position. -/
  | visiting
  | executing (script : Script (Except Fault Unit))
  | notifying (event : Event) (script : Script (σ × Reaction))
  | finished (ending : Ending)

/-- A run with those who listen to it. -/
structure Agent (σ : Type) where
  execution : Execution
  listeners : σ
  stage : Stage σ

namespace Agent

variable {σ : Type}

def log (agent : Agent σ) (board : Board) (level : LogLevel) (message : String)
    (fields : List (String × String)) : Board :=
  board.record agent.execution.node.logger level message fields

/-- The agent for a run of a node that was claimed for it. -/
def start (node : Node) (listeners : σ) (board : Board) : Agent σ × Board :=
  (⟨{ Execution.ofNode node with timer := .ofLaps board.outside.laps }, listeners, .visiting⟩,
    board.record node.logger .debug "node started"
      [("instructions", natural node.program.size)])

/-- Sends an event to the listeners. -/
def send (audience : Audience σ) (agent : Agent σ) (event : Event) : Agent σ :=
  { agent with
    stage := .notifying event
      (audience.notify agent.execution.node.running event agent.listeners) }

/-- Ends the run. The node is free for another one before the listeners hear of
it. -/
def conclude (audience : Audience σ) (agent : Agent σ) (board : Board)
    (result : Except Fault Unit) : Agent σ × Board :=
  let execution := agent.execution
  let agent := { agent with execution := { execution with node := execution.node.stop } }
  match result with
  | .ok () => (agent.send audience .stopped, agent.log board .debug "node stopped" [])
  | .error fault =>
    (agent.send audience (.faulted fault),
      agent.log board .warning "node faulted" [("fault", fault.message)])

/-- Looks at the entry at the current position. -/
def visit (audience : Audience σ) (agent : Agent σ) (board : Board) : Agent σ × Board :=
  let execution := agent.execution
  let program := execution.node.program
  match program.entries[execution.position]? with
  | none => agent.conclude audience board (.ok ())
  | some entry =>
    if !execution.isRunning then agent.conclude audience board (.ok ())
    else if execution.node.isSpent execution.position then
      if execution.skipped = program.size then
        agent.conclude audience (agent.log board .debug "every instruction is spent" []) (.ok ())
      else
        let agent := { agent with execution := { execution with skipped := execution.skipped + 1 } }
        (agent.send audience (.skipped execution.position), board)
    else
      ({ agent with
        execution := execution.enter
        stage := .executing (entry.instruction.execute program.table.accumulator).run }, board)

/-- The entry after a position, starting over after the last one. -/
def following (agent : Agent σ) (position : Nat) : Nat :=
  (position + 1) % agent.execution.node.program.size

/-- Goes on to a position. -/
def moveTo (agent : Agent σ) (position : Nat) : Agent σ :=
  { agent with
    execution := { agent.execution with position := position, pending := none }
    stage := .visiting }

/-- Goes on after the listeners have handled an event. After an instruction the
run waits for the rest of the tick. -/
def resume (agent : Agent σ) (event : Event) : Agent σ :=
  match event with
  | .executed position _ =>
    let execution := agent.execution
    let agent := { agent with
      execution := { execution with
        node := execution.node.spend position
        timer := execution.timer.finishTick } }
    agent.moveTo (execution.pending.getD (agent.following position))
  | .skipped position => agent.moveTo (agent.following position)
  | .stopped => { agent with stage := .finished (.returned (.ok ())) }
  | .faulted fault => { agent with stage := .finished (.returned (.error fault)) }

/-- Takes in what the listeners asked for. -/
def react (agent : Agent σ) (board : Board) (event : Event) (listeners : σ)
    (reaction : Reaction) : Agent σ × Board :=
  let agent := { agent with listeners := listeners }
  let board :=
    if reaction.restart && agent.execution.node.running then
      agent.log board .warning "node is already running" []
    else board
  let execution := agent.execution
  let agent :=
    if reaction.stop then { agent with execution := { execution with node := execution.node.stop } }
    else agent
  if reaction.broken then ({ agent with stage := .finished .broken }, board)
  else (agent.resume event, board)

/-- One step of a run, if it can make one without a partner. -/
def step (audience : Audience σ) (agent : Agent σ) (board : Board) : Option (Agent σ × Board) :=
  match agent.stage with
  | .finished _ => none
  | .visiting => some (agent.visit audience board)
  | .executing (.done (.error fault)) => some (agent.conclude audience board (.error fault))
  | .executing (.done (.ok ())) =>
    let position := agent.execution.position
    match agent.execution.node.program.entries[position]? with
    | some entry => some (agent.send audience (.executed position entry.instruction.opcode), board)
    | none => some (agent.conclude audience board (.ok ()))
  | .executing script =>
    (agent.execution.stepScript board script).map fun (execution, board, script) =>
      ({ agent with execution := execution, stage := .executing script }, board)
  | .notifying event (.done (listeners, reaction)) => some (agent.react board event listeners reaction)
  | .notifying event script =>
    (agent.execution.stepScript board script).map fun (execution, board, script) =>
      ({ agent with execution := execution, stage := .notifying event script }, board)

/-- A run that waits for a partner gives up. -/
def expire (agent : Agent σ) (board : Board) : Option (Agent σ × Board) :=
  match agent.stage with
  | .executing script =>
    (agent.execution.expireScript board script).map fun (execution, board, script) =>
      ({ agent with execution := execution, stage := .executing script }, board)
  | .notifying event script =>
    (agent.execution.expireScript board script).map fun (execution, board, script) =>
      ({ agent with execution := execution, stage := .notifying event script }, board)
  | _ => none

def ending? (agent : Agent σ) : Option Ending :=
  match agent.stage with
  | .finished ending => some ending
  | _ => none

end Agent

end NodeAssembly
