import NodeAssembly.Register.Basic

/-! Reading and writing registers. Most accesses are done at once; an access to
a bus is a call that may have to wait for a partner. -/

namespace NodeAssembly

open NodeAssembly.Text

/-- All that one node can reach: its registers and the board. -/
structure Site where
  file : RegisterFile
  board : Board

/-- What comes of an access: an answer, or a call to make on a bus. -/
inductive Access (α : Type) where
  | done (answer : α) (site : Site)
  | call (channel : Nat) (call : Bus.Call)

namespace Site

def update (site : Site) (register : RegisterRef) (state : Register) : Site :=
  { site with file := site.file.update register state }

def withConsole (site : Site) (console : Console) : Site :=
  { site with board := { site.board with console := console } }

/-- The level of a power channel. -/
def level (site : Site) (channel : Nat) : Int32 :=
  match site.board.channels[channel]? with
  | some (.power level) => level
  | _ => 0

def setLevel (site : Site) (channel : Nat) (level : Int32) : Site :=
  { site with
    board := { site.board with
      channels := site.board.channels.setIfInBounds channel (.power level) } }

/-- What a random register yields next. -/
def draw (generator : Random.Generator) (entropy : UInt64) : Value × Random.Generator :=
  let stream := generator.stream.getD (.ofSeed entropy)
  match generator.kind with
  | .number =>
    let (number, stream) := stream.drawNumber
    (.int (Int32.ofNat number), { generator with stream := some stream })
  | .fraction =>
    let (fraction, stream) := stream.drawFraction
    (.float fraction, { generator with stream := some stream })
  | .text =>
    let (chars, stream) := stream.drawCharacters generator.length []
    (.str (String.ofList chars), { generator with stream := some stream })

/-- Reads a register. The value is never a reference unless one was put into
the register's cells or its bus. -/
def read (site : Site) (register : RegisterRef) : Access (Except Fault Value) :=
  match site.file.state register with
  | .null => .done (.ok .null) site
  | .plain value => .done (.ok value) site
  | .clock clock => .done (.ok (.int clock.speed)) site
  | .random generator =>
    let (value, generator) := draw generator site.board.outside.entropy
    .done (.ok value) (site.update register (.random generator))
  | .pin .power channel => .done (.ok (.int (site.level channel))) site
  | .pin .xbus channel => .call channel .receive
  | .offset offset => .done (.ok (.int offset)) site
  | .sized cursor cells =>
    let (value, place) := Memory.Sized.read cells (site.file.offset cursor)
    .done (.ok value) (site.update cursor (.offset place))
  | .growing cursor cells =>
    let (value, place) := Memory.Growing.read cells (site.file.offset cursor)
    .done (.ok value) (site.update cursor (.offset place))
  | .tape tape =>
    let (value, tape) := tape.read
    .done (.ok value) (site.update register (.tape tape))
  | .input input =>
    let (value, input) := input.read
    .done (.ok value) (site.update register (.input input))

/-- How long the texts are that a random register yields after a text seed: the
number in the seed without its sign, or the length of the seed. -/
def seedLength (seed : String) : Nat :=
  match readInt32 10 (trim seed.toList) with
  | some number => number.toInt.natAbs
  | none => seed.length

/-- The state of a random register after a seed was written to it. -/
def seed (generator : Random.Generator) (entropy : UInt64) (value : Value) :
    Except Fault Random.Generator :=
  match value with
  | .int number => .ok (generator.seedWord number .number)
  | .float number =>
    let scaled := Decimal.toInt32 (number * Float32.ofNat 9999)
    .ok (generator.seedWord scaled .fraction)
  | .str text =>
    let length := seedLength text
    if length > textLimit then .error (.outOfMemory length textLimit)
    else .ok (.seedText text length)
  | _ => .ok (generator.reseed entropy)

/-- Writes a resolved value to a register. -/
def write (site : Site) (register : RegisterRef) (value : Value) : Access (Except Fault Unit) :=
  match site.file.state register with
  | .null => .done (.ok ()) site
  | .plain _ => .done (.ok ()) (site.update register (.plain value))
  | .clock _ => .done (.ok ()) (site.update register (.clock (.ofSpeed value.toInt)))
  | .random generator =>
    match seed generator site.board.outside.entropy value with
    | .ok generator => .done (.ok ()) (site.update register (.random generator))
    | .error fault => .done (.error fault) site
  | .pin .power channel => .done (.ok ()) (site.setLevel channel value.toInt)
  | .pin .xbus channel => .call channel (.deposit value)
  | .offset _ => .done (.ok ()) (site.update register (.offset value.toInt))
  | .sized cursor cells =>
    let (cells, place) := Memory.Sized.write cells (site.file.offset cursor) value
    .done (.ok ()) ((site.update register (.sized cursor cells)).update cursor (.offset place))
  | .growing cursor cells =>
    match Memory.Growing.write cells (site.file.offset cursor) value with
    | .ok (cells, place) =>
      .done (.ok ())
        ((site.update register (.growing cursor cells)).update cursor (.offset place))
    | .error fault => .done (.error fault) site
  | .tape tape =>
    let (result, tape, console) :=
      tape.write site.board.outside.writers site.board.console value.text
    .done result ((site.update register (.tape tape)).withConsole console)
  | .input input =>
    let (input, console) := input.prepare site.board.console value
    .done (.ok ()) ((site.update register (.input input)).withConsole console)

/-- Changes the size of a memory of fixed size. -/
def resize (site : Site) (register : RegisterRef) (size : Nat) : Except Fault Unit × Site :=
  match site.file.state register with
  | .sized cursor cells =>
    match Memory.checkCells size with
    | .ok _ => (.ok (), site.update register (.sized cursor (Memory.Sized.resize cells size)))
    | .error fault => (.error fault, site)
  | _ => (.ok (), site)

/-- Waits for a value on the bus behind a register. There is nothing to wait
for on any other register. -/
def observe (site : Site) (register : RegisterRef) : Access (Except Fault Unit) :=
  match site.file.state register with
  | .pin .xbus channel => .call channel .observe
  | _ => .done (.ok ()) site

end Site

end NodeAssembly
