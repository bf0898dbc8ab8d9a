import NodeAssembly.Instruction.Script
import NodeAssembly.Program.Error
import NodeAssembly.Token.Lexer

/-! A bench holds registers and pins outside of any node, to try them out one
at a time. -/

namespace NodeAssembly

open NodeAssembly.Text

structure Bench where
  table : RegisterTable
  site : Site
  registry : PinRegistry
  /-- The registers that were made on the bench, the latest first. -/
  made : List RegisterRef

namespace Bench

def start (clockSpeed : Int32) (board : Board) : Bench :=
  let (table, file) := defaultRegisters clockSpeed
  ⟨table, ⟨file, board⟩, .empty, []⟩

def perform {α : Type} (bench : Bench) (action : Action α) : Except Fault α × Bench :=
  let (result, site) := bench.site.perform action
  (result, { bench with site := site })

/-- Puts a value into a register. -/
def put (bench : Bench) (register : RegisterRef) (value : Value) : Except Fault Unit × Bench :=
  let (result, site) := bench.site.putAlone register value
  (result, { bench with site := site })

/-! ## Registers -/

/-- Makes a register and enters it under its name. Tells whether the name was
taken. -/
def make (bench : Bench) (name : String) (state : Register) : Bool × RegisterRef × Bench :=
  let (register, file) := bench.site.file.create name state
  (bench.table.contains name, register,
    { bench with
      table := bench.table.insert register
      site := { bench.site with file := file }
      made := register :: bench.made })

/-- The latest register with a name that was made on the bench and is of some
kind. -/
def findMade? {α : Type} (bench : Bench) (name : String) (kind : Register → Option α) :
    Option (RegisterRef × α) :=
  bench.made.findSome? fun register =>
    if register.name == name then
      (kind (bench.site.file.state register)).map (register, ·)
    else none

def update (bench : Bench) (register : RegisterRef) (state : Register) : Bench :=
  { bench with site := bench.site.update register state }

def offset? (bench : Bench) (name : String) : Option (RegisterRef × Int32) :=
  bench.findMade? name fun
    | .offset offset => some offset
    | _ => none

/-- The clock of a name: the latest one made on the bench, else the clock of the
table if it goes by that name. -/
def clock? (bench : Bench) (name : String) : Option Clock :=
  let clock : Register → Option Clock
    | .clock clock => some clock
    | _ => none
  match bench.findMade? name clock with
  | some (_, clock) => some clock
  | none =>
    if name == bench.table.clock.name then clock (bench.site.file.state bench.table.clock)
    else none

/-- A memory of fixed size that was made on the bench, with its cursor. -/
def sized? (bench : Bench) (name : String) :
    Option (RegisterRef × RegisterRef × Memory.Cells) :=
  bench.findMade? name fun
    | .sized cursor cells => some (cursor, cells)
    | _ => none

/-- A growing memory that was made on the bench. -/
def growing? (bench : Bench) (name : String) : Option (RegisterRef × Memory.Cells) :=
  bench.findMade? name fun
    | .growing _ cells => some cells
    | _ => none

/-- How many cells a memory has. -/
inductive MemorySize where
  | fixed (capacity : Nat)
  | growing (length : Nat)

/-- The size of a memory. A name that was given to both kinds means the one of
fixed size. -/
def memorySize? (bench : Bench) (name : String) : Option MemorySize :=
  match bench.sized? name with
  | some (_, _, cells) => some (.fixed cells.size)
  | none => (bench.growing? name).map fun (_, cells) => .growing cells.size

/-- Changes the size of a memory of fixed size. -/
def resize (bench : Bench) (name : String) (size : Nat) : Option (Except Fault Unit) × Bench :=
  match bench.sized? name with
  | some (register, _) =>
    let (result, site) := bench.site.resize register size
    (some result, { bench with site := site })
  | none => (none, bench)

/-- What a writer of its own has accepted from a tape. -/
def sink? (bench : Bench) (name : String) : Option String :=
  (bench.findMade? name fun
    | .tape ⟨⟨.own accepted _, _⟩, _⟩ => some (Console.shown accepted)
    | _ => none).map (·.2)

/-- The register with a name, or a new plain one, and whether it existed. -/
def declare (bench : Bench) (name : String) : Bool × RegisterRef × Bench :=
  match bench.table.find? name with
  | some register => (true, register, bench)
  | none =>
    let (_, register, bench) := bench.make name (.plain (.int 0))
    (false, register, bench)

/-- Reads a single token as a value; the name of a register is a reference to
it. -/
def literal (bench : Bench) (token : String) : Except ErrorKind Value :=
  let named (name : String) : Except ErrorKind Value :=
    match bench.table.find? name with
    | some register => .ok (.ref register)
    | none => .error (.unknownToken token)
  match (Lexeme.scan token.toList).map Lexeme.token with
  | [some (.int number)] => .ok (.int number)
  | [some (.float number)] => .ok (.float number)
  | [some (.str text)] => .ok (.str text)
  | [some (.word name)] => named name
  | [some (.register name)] => named name
  | _ => .error (.unknownToken token)

/-! ## Pins -/

/-- The channel of a pin, or the kind that the pin is bound to. -/
def channel (bench : Bench) (pin : Nat) (kind : PinKind) : Except PinKind Nat × Bench :=
  let board := bench.site.board
  let (result, registry, channels) := bench.registry.channel board.channels pin kind
  let board := { board with channels := channels }
  (result, { bench with registry := registry, site := { bench.site with board := board } })

/-- Makes a register for a pin. -/
def pin (bench : Bench) (pin : Nat) (kind : PinKind) : Except PinKind RegisterRef × Bench :=
  match bench.channel pin kind with
  | (.error bound, bench) => (.error bound, bench)
  | (.ok channel, bench) =>
    let (_, register, bench) := bench.make (kind.registerName pin) (.pin kind channel)
    (.ok register, bench)

/-- A call on a channel with nobody else there. -/
def call (bench : Bench) (channel : Nat) (call : Bus.Call) :
    Except Fault (Option Value) × Bench :=
  let (answer, board) := bench.site.board.callAlone channel call
  (answer, { bench with site := { bench.site with board := board } })

/-- Sends a value on a channel. A power channel takes it as an integer, and a
bus takes it as it is. -/
def send (bench : Bench) (kind : PinKind) (channel : Nat) (value : Value) :
    Except Fault Unit × Bench :=
  match kind with
  | .power =>
    match bench.perform (Action.resolve value) with
    | (.ok value, bench) => (.ok (), { bench with site := bench.site.setLevel channel value.toInt })
    | (.error fault, bench) => (.error fault, bench)
  | .xbus =>
    let (answer, bench) := bench.call channel (.deposit value)
    (answer.map fun _ => (), bench)

def receive (bench : Bench) (kind : PinKind) (channel : Nat) : Except Fault Value × Bench :=
  match kind with
  | .power => (.ok (.int (bench.site.level channel)), bench)
  | .xbus =>
    let (answer, bench) := bench.call channel .receive
    (answer.map fun value => value.getD .null, bench)

/-- Waits for a value on a bus. -/
def observe (bench : Bench) (kind : PinKind) (channel : Nat) : Except Fault Unit × Bench :=
  match kind with
  | .power => (.ok (), bench)
  | .xbus =>
    let (answer, bench) := bench.call channel .observe
    (answer.map fun _ => (), bench)

/-- What came of handing one value over: to the observer if there was one, to
the receiver and to the sender. -/
structure Handover where
  observed : Option (Except Fault Unit)
  received : Except Fault Value
  sent : Except Fault Unit

/-- Hands one value from a sender to a receiver, who may look at the bus first.
The sender leaves the value, the receiver takes it, and the sender hears of
it. -/
def handOver (bench : Bench) (channel : Nat) (observing : Bool) (value : Value) :
    Handover × Bench :=
  let (confirm, board) : Bus.Call × Board :=
    match bench.site.board.stepCall channel (.deposit value) with
    | .proceed board confirm => (confirm, board)
    | _ => (.deposit value, bench.site.board)
  let bench := { bench with site := { bench.site with board := board } }
  let (observed, bench) := bench.observe .xbus channel
  let (received, bench) := bench.receive .xbus channel
  let (sent, bench) := bench.call channel confirm
  (⟨if observing then some observed else none, received, sent.map fun _ => ()⟩, bench)

/-- Hands values over one after the other. -/
def exchange (bench : Bench) (channel : Nat) (observing : Bool) :
    List Value → List Handover × Bench
  | [] => ([], bench)
  | value :: rest =>
    let (first, bench) := bench.handOver channel observing value
    let (others, bench) := bench.exchange channel observing rest
    (first :: others, bench)

/-- What was written to the console since the last time. -/
def takeOutput (bench : Bench) : Console × Bench :=
  let console := bench.site.board.console
  (console, { bench with site := { bench.site with board := bench.site.board.clearOutput } })

end Bench

end NodeAssembly
