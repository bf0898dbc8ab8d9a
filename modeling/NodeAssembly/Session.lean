import NodeAssembly.Compiler
import NodeAssembly.Node.Ensemble
import NodeAssembly.Node.Monitor

/-! A session is a compiler with the nodes made so far, each of them watched by
a monitor. Nodes are numbered in the order in which they were made. -/

namespace NodeAssembly

/-- A node with the listeners that stay with it from run to run. -/
structure Station where
  node : Node
  listeners : List MonitorListener
  late : Nat

namespace Station

def ofNode (node : Node) : Station :=
  ⟨node, [.recorder], 0⟩

end Station

/-- What a monitored run has led to: how it ended, its trace, how many events
late listeners have received so far, and whether the node is still marked as
running. -/
structure RunReport where
  ending : Ending
  trace : List TraceEntry
  late : Nat
  running : Bool

/-- What came of starting a node and stopping it at once. -/
structure StopReport where
  started : Bool
  result : Except Fault Unit
  running : Bool

structure Session where
  compiler : Compiler
  board : Board
  stations : Array Station

namespace Session

def start (config : Config) (logger : Option Logger) (board : Board) : Session :=
  ⟨.ofConfig config logger, board, #[]⟩

def node? (session : Session) (number : Nat) : Option Node :=
  (session.stations[number]?).map (·.node)

/-! ## Making nodes -/

/-- Takes in a node and gives its number. -/
def enter (session : Session) (node : Node) : Nat × Session :=
  (session.stations.size, { session with stations := session.stations.push (.ofNode node) })

def enterResult (session : Session) (result : Except ParseError Node) :
    Except ParseError Nat × Session :=
  match result with
  | .ok node =>
    let (number, session) := session.enter node
    (.ok number, session)
  | .error error => (.error error, session)

def parse (session : Session) (source : String) :
    Except ParseError (Program × RegisterFile) × Session :=
  let (result, compiler, board) := session.compiler.parse session.board source
  (result, { session with compiler := compiler, board := board })

def compile (session : Session) (source : String) : Except ParseError Nat × Session :=
  let (result, compiler, board) := session.compiler.compile session.board source
  { session with compiler := compiler, board := board }.enterResult result

def standalone (session : Session) (source : String) : Except ParseError Nat × Session :=
  let (result, board) := Node.standalone session.board source
  { session with board := board }.enterResult result

/-- Makes a node without a logger, of a program that has lost some labels. -/
def unlabelled (session : Session) (source : String) (labels : List String) :
    Except ParseError Nat × Session :=
  let (result, session) := session.parse source
  session.enterResult (result.map fun (program, file) =>
    .ofProgram (program.withoutLabels labels) file none)

/-! ## Registers -/

def withNode (session : Session) (number : Nat) (node : Node) : Session :=
  { session with
    stations := session.stations.modify number fun station => { station with node := node } }

/-- The session after something was done at the site of a node while nothing
else runs. -/
def withSite (session : Session) (number : Nat) (node : Node) (site : Site) : Session :=
  { session with board := site.board }.withNode number { node with file := site.file }

/-- Reads a register of a node by its name, if there is one. -/
def read (session : Session) (number : Nat) (name : String) :
    Option (Except Fault Value) × Session :=
  match session.node? number with
  | none => (none, session)
  | some node =>
    match node.register? name with
    | none => (none, session)
    | some register =>
      let (value, site) := (node.site session.board).readAlone register
      (some value, session.withSite number node site)

/-- Puts a value into a register of a node by its name, if there is one. -/
def put (session : Session) (number : Nat) (name : String) (value : Value) :
    Option (Except Fault Unit) × Session :=
  match session.node? number with
  | none => (none, session)
  | some node =>
    match node.register? name with
    | none => (none, session)
    | some register =>
      let (result, site) := (node.site session.board).putAlone register value
      (some result, session.withSite number node site)

/-- Reads registers of a node one after the other. -/
def readAll (session : Session) (number : Nat) :
    List String → List (String × Option (Except Fault Value)) × Session
  | [] => ([], session)
  | name :: rest =>
    let (value, session) := session.read number name
    let (values, session) := session.readAll number rest
    ((name, value) :: values, session)

/-! ## Runs -/

/-- A run that was asked for: refused, or given to an agent. -/
inductive Launch where
  | refused (number : Nat) (fault : Fault)
  | launched (number : Nat) (agent : Agent Monitor)

/-- Claims a node and makes the agent of a run. In the background a refusal is
recorded. -/
def launch (session : Session) (options : RunOptions) (background : Bool) (number : Nat)
    (station : Station) : Launch × Session :=
  match station.node.claim with
  | .error fault =>
    let board :=
      if background then
        session.board.record station.node.logger .warning "node is already running" []
      else session.board
    (.refused number fault, { session with board := board })
  | .ok node =>
    let monitor := Monitor.ofRun options node.program.table station.listeners station.late
    let (agent, board) := Agent.start node monitor session.board
    (.launched number agent, { session with board := board }.withNode number node)

/-- Launches nodes in order. Numbers without a node are passed over. -/
def launchAll (session : Session) (options : RunOptions) (background : Bool) :
    List Nat → List Launch × Session
  | [] => ([], session)
  | number :: rest =>
    match session.stations[number]? with
    | none => session.launchAll options background rest
    | some station =>
      let (launch, session) := session.launch options background number station
      let (launches, session) := session.launchAll options background rest
      (launch :: launches, session)

def Launch.agent? : Launch → Option (Agent Monitor)
  | .launched _ agent => some agent
  | .refused _ _ => none

/-- Puts the state of a finished run back to its station. -/
def restore (session : Session) (number : Nat) (agent : Agent Monitor) : Session :=
  { session with
    stations := session.stations.modify number fun _ =>
      ⟨agent.execution.node, agent.listeners.listeners, agent.listeners.late⟩ }

/-- Pairs launches with the agents that came of them, and puts these back. -/
def restoreAll (session : Session) : List Launch → List (Agent Monitor) → Session
  | .launched number _ :: launches, agent :: agents =>
    (session.restore number agent).restoreAll launches agents
  | .refused _ _ :: launches, agents => session.restoreAll launches agents
  | _, _ => session

/-- The reports on launches, given the agents that came of them. -/
def reports (session : Session) : List Launch → List (Agent Monitor) → List RunReport
  | .launched number _ :: launches, agent :: agents =>
    ⟨agent.ending?.getD .broken, agent.listeners.trace.reverse, agent.listeners.late,
      ((session.node? number).map (·.running)).getD false⟩ :: session.reports launches agents
  | .refused number fault :: launches, agents =>
    let late := ((session.stations[number]?).map (·.late)).getD 0
    let running := ((session.node? number).map (·.running)).getD false
    ⟨.returned (.error fault), [], late, running⟩ :: session.reports launches agents
  | _, _ => []

def execute (session : Session) (options : RunOptions) (background : Bool) (numbers : List Nat) :
    List RunReport × Session :=
  let (launches, session) := session.launchAll options background numbers
  let ensemble : Ensemble Monitor := ⟨launches.filterMap Launch.agent?, session.board⟩
  let ensemble := ensemble.finish Monitor.audience
  let session := { session with board := ensemble.board }.restoreAll launches ensemble.agents
  (session.reports launches ensemble.agents, session)

/-- Runs a node by itself. -/
def run (session : Session) (options : RunOptions) (number : Nat) :
    Option RunReport × Session :=
  let (reports, session) := session.execute options false [number]
  (reports.head?, session)

/-- Runs nodes side by side until all are finished. -/
def runTogether (session : Session) (options : RunOptions) (numbers : List Nat) :
    List RunReport × Session :=
  session.execute options true numbers

/-- Starts a node and stops it before its first instruction. -/
def startAndStop (session : Session) (number : Nat) : Option StopReport × Session :=
  match session.stations[number]? with
  | none => (none, session)
  | some station =>
    match session.launch .default true number station with
    | (.refused _ fault, session) =>
      (some ⟨false, .error fault, station.node.running⟩, session)
    | (.launched _ agent, session) =>
      let execution := agent.execution
      let agent := { agent with execution := { execution with node := execution.node.stop } }
      let ensemble := (Ensemble.mk [agent] session.board).finish Monitor.audience
      let session := { session with board := ensemble.board }.restoreAll [.launched number agent]
        ensemble.agents
      let running := ((session.node? number).map (·.running)).getD false
      (some ⟨true, .ok (), running⟩, session)

/-! ## The board -/

/-- What was written to the console since the last time. -/
def takeOutput (session : Session) : Console × Session :=
  let console := session.board.console
  (console, { session with board := session.board.clearOutput })

/-- What was recorded since the last time, in order. -/
def takeLog (session : Session) : List LogRecord × Session :=
  (session.board.log.reverse, { session with board := { session.board with log := [] } })

/-- Takes the logger of a node away. -/
def mute (session : Session) (number : Nat) : Session :=
  { session with
    stations := session.stations.modify number fun station =>
      { station with node := { station.node with logger := none } } }

end Session

end NodeAssembly
