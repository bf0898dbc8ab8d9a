import NodeAssembly.Compiler
import NodeAssembly.Directory
import NodeAssembly.Node.Ensemble

/-! The command line: it compiles one node for each source file, runs them all
side by side until they have stopped, and reports their faults. -/

namespace NodeAssembly.CommandLine

open NodeAssembly.Text

/-- The arguments: the options as they were written, and the source files. -/
structure Arguments where
  timeout : Option String
  clock : Option String
  sources : List String
deriving DecidableEq, Repr

namespace Arguments

def none : Arguments :=
  ⟨.none, .none, []⟩

/-- Which option an argument is. -/
inductive Flag where
  | timeout
  | clock
deriving DecidableEq, Repr

def set (arguments : Arguments) (flag : Flag) (value : List Char) : Arguments :=
  match flag with
  | .timeout => { arguments with timeout := some (String.ofList value) }
  | .clock => { arguments with clock := some (String.ofList value) }

def Flag.ofName? (name : List Char) : Option Flag :=
  if name = "timeout".toList then some .timeout
  else if name = "clock".toList then some .clock
  else .none

def Flag.ofLetter? : Char → Option Flag
  | 't' => some .timeout
  | 'c' => some .clock
  | _ => .none

/-- A value without the equals signs in front of it. -/
def dropEquals (value : List Char) : List Char :=
  value.dropWhile (· == '=')

/-- The option that an argument names, and the value if it is written in the
same argument. A name has two dashes or more before it and its value after an
equals sign; a letter has one dash before it and its value right after it. -/
def flag? (argument : List Char) : Option (Flag × Option (List Char)) :=
  match argument with
  | '-' :: '-' :: rest =>
    let text := rest.dropWhile (· == '-')
    let value :=
      match text.dropWhile (· != '=') with
      | [] => .none
      | value => some (dropEquals value)
    (Flag.ofName? (text.takeWhile (· != '='))).map (·, value)
  | '-' :: letter :: rest =>
    let value := if rest.isEmpty then .none else some (dropEquals rest)
    (Flag.ofLetter? letter).map (·, value)
  | _ => .none

/-- Reads arguments from the first to the last. After a double dash all of them
are source files. -/
def read (arguments : Arguments) : List String → Arguments
  | [] => arguments
  | "--" :: sources => { arguments with sources := arguments.sources ++ sources }
  | argument :: rest =>
    match flag? argument.toList, rest with
    | some (flag, some value), rest => (arguments.set flag value).read rest
    | some (flag, .none), value :: rest => (arguments.set flag value.toList).read rest
    | some (_, .none), [] => arguments
    | .none, rest => { arguments with sources := arguments.sources ++ [argument] }.read rest

def ofList (arguments : List String) : Arguments :=
  Arguments.none.read arguments

end Arguments

/-- Why the command line ends before the nodes run. -/
inductive Problem where
  | invalidOption (name value : String)
  | unreadable (path : String) (cause : FileProblem)
  | faulty (path : String) (error : ParseError)

namespace Problem

def message : Problem → String
  | .invalidOption name value => "invalid value for --" ++ name ++ ": '" ++ value ++ "'"
  | .unreadable path cause => path ++ ": IO error: " ++ cause.message
  | .faulty path error => path ++ ": parse error " ++ error.message

def exitCode : Problem → Nat
  | .invalidOption _ _ => 2
  | .unreadable _ _ => 1
  | .faulty _ _ => 1

end Problem

/-- The seconds that a bus waits, as milliseconds. -/
def timeoutOption (arguments : Arguments) : Except Problem Nat :=
  match arguments.timeout with
  | none => .ok Config.default.timeout
  | some raw =>
    match readUnsigned 10 0x10000000000000000 raw.toList with
    | some seconds => .ok (seconds * 1000)
    | none => .error (.invalidOption "timeout" raw)

def clockOption (arguments : Arguments) : Except Problem Int32 :=
  match arguments.clock with
  | none => .ok Config.default.clockSpeed
  | some raw =>
    match readInt32 10 raw.toList with
    | some speed => .ok speed
    | none => .error (.invalidOption "clock" raw)

/-- The settings that the options ask for. The first invalid option is
reported. -/
def config (arguments : Arguments) : Except Problem Config := do
  let timeout ← timeoutOption arguments
  let clockSpeed ← clockOption arguments
  return ⟨clockSpeed, timeout⟩

/-- The content of a file, or why it cannot be read. -/
abbrev Files := String → Except FileProblem ByteArray

def source (files : Files) (path : String) : Except Problem String :=
  match files path with
  | .error cause => .error (.unreadable path cause)
  | .ok bytes =>
    match decode? bytes with
    | some text => .ok text
    | none => .error (.unreadable path .notText)

/-- A node with the file it comes from. -/
abbrev Loaded := String × Node

/-- Compiles the source files in order, up to the first problem. -/
def load (files : Files) (compiler : Compiler) (board : Board) :
    List String → Except Problem (List Loaded × Board)
  | [] => .ok ([], board)
  | path :: rest => do
    let text ← source files path
    match compiler.compile board text with
    | (.error error, _, _) => .error (.faulty path error)
    | (.ok node, compiler, board) => do
      let (others, board) ← load files compiler board rest
      return ((path, node) :: others, board)

/-- Nobody listens to the nodes of the command line. -/
def silence : Audience Unit :=
  ⟨fun _ _ _ => .done ((), .none)⟩

/-- Starts all nodes. They are fresh, so all of them can be claimed. -/
def startAll (board : Board) : List Loaded → List (Agent Unit) × Board
  | [] => ([], board)
  | (_, node) :: rest =>
    let (agent, board) := Agent.start { node with running := true } () board
    let (agents, board) := startAll board rest
    (agent :: agents, board)

/-- What is ready to run. -/
structure Prepared where
  paths : List String
  ensemble : Ensemble Unit

/-- Everything that happens before the nodes run. -/
def prepare (files : Files) (arguments : List String) (board : Board) :
    Except Problem Prepared := do
  let arguments := Arguments.ofList arguments
  let config ← config arguments
  let (loaded, board) ← load files (.ofConfig config none) board arguments.sources
  let (agents, board) := startAll board loaded
  return ⟨loaded.map (·.1), ⟨agents, board⟩⟩

/-- The line that reports how a run ended, if it did not end well. -/
def faultLine (path : String) (agent : Agent Unit) : String :=
  match agent.ending? with
  | some (.returned (.ok ())) => ""
  | some (.returned (.error fault)) => path ++ ": " ++ fault.message ++ "\n"
  | some .broken => path ++ ": " ++ Fault.aborted.message ++ "\n"
  | none => ""

/-- The reports on all runs, in the order of the files. -/
def faultLines (paths : List String) (agents : List (Agent Unit)) : String :=
  String.join (List.zipWith faultLine paths agents)

/-- What a run of the command line leaves behind. -/
structure Exit where
  code : Nat
  output : String
  errors : String

def exit (prepared : Prepared) (ensemble : Ensemble Unit) : Exit :=
  let faults := faultLines prepared.paths ensemble.agents
  let console := ensemble.board.console
  ⟨if faults.isEmpty then 0 else 1, console.output, console.errors ++ faults⟩

/-- Runs the command line with the given files and input. -/
def run (files : Files) (arguments : List String) (input : List UInt8) (entropy : UInt64) : Exit :=
  match prepare files arguments (.ofInput input entropy) with
  | .error problem => ⟨problem.exitCode, "", problem.message ++ "\n"⟩
  | .ok prepared => exit prepared (prepared.ensemble.finish silence)

end NodeAssembly.CommandLine
