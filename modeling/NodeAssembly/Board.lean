import NodeAssembly.Channel.Pins
import NodeAssembly.Log
import NodeAssembly.Writer

/-! The board is what the nodes have in common: the channels between them, the
console they read from and write to, the log, and what comes from outside. -/

namespace NodeAssembly

open NodeAssembly.Text

/-- The bytes that nobody has read yet, and those that were written since it was
last looked at. -/
structure Console where
  input : List UInt8
  printed : ByteArray
  reported : ByteArray
deriving DecidableEq

namespace Console

def ofInput (input : List UInt8) : Console :=
  ⟨input, .empty, .empty⟩

/-- Bytes as they are shown. -/
def shown (bytes : ByteArray) : String :=
  (decode? bytes).getD (String.ofList (decode bytes.toList))

def output (console : Console) : String :=
  Console.shown console.printed

def errors (console : Console) : String :=
  Console.shown console.reported

end Console

/-- What comes from outside and is the same as long as the nodes run. -/
structure Outside where
  /-- The seed of random registers that are not given one. -/
  entropy : UInt64
  writers : Writers
  /-- How much time passes before each look that a run takes at it, in
  nanoseconds. -/
  laps : List Nat

/-- Nothing outside gets in the way. -/
def Outside.ofEntropy (entropy : UInt64) : Outside :=
  ⟨entropy, .plain, []⟩

structure Board where
  channels : Channels
  console : Console
  log : Log
  outside : Outside

namespace Board

/-- A board without channels. -/
def facing (outside : Outside) (input : List UInt8) : Board :=
  ⟨#[], .ofInput input, [], outside⟩

def ofInput (input : List UInt8) (entropy : UInt64) : Board :=
  facing (.ofEntropy entropy) input

/-- The board with one more record, if there is a logger for it. -/
def record (board : Board) (logger : Option Logger) (level : LogLevel) (message : String)
    (fields : List (String × String)) : Board :=
  { board with log := board.log.add logger level message fields }

/-- The board after its output was looked at. -/
def clearOutput (board : Board) : Board :=
  { board with console := { board.console with printed := .empty, reported := .empty } }

def withSlot (board : Board) (channel pin : Nat) (slot : Bus.Slot) : Board :=
  { board with channels := board.channels.setIfInBounds channel (.xbus pin slot) }

/-- The pin and the slot of a bus. -/
def bus? (board : Board) (channel : Nat) : Option (Nat × Bus.Slot) :=
  match board.channels[channel]? with
  | some (.xbus pin slot) => some (pin, slot)
  | _ => none

/-- What came of one step of a call on a channel. -/
inductive Exchange where
  | wait
  | proceed (board : Board) (call : Bus.Call)
  | finish (board : Board) (received : Option Value)

/-- One step of a call. Something that is no bus answers at once. -/
def stepCall (board : Board) (channel : Nat) (call : Bus.Call) : Exchange :=
  match board.bus? channel with
  | none => .finish board none
  | some (pin, slot) =>
    match slot.step call with
    | .wait => .wait
    | .proceed slot next => .proceed (board.withSlot channel pin slot) next
    | .finish slot received => .finish (board.withSlot channel pin slot) received

/-- A call that has waited too long gives up with a fault. -/
def expireCall (board : Board) (channel : Nat) (call : Bus.Call) : Board × Fault :=
  match board.bus? channel with
  | none => (board, .desynchronized 0 call.operation)
  | some (pin, slot) =>
    (board.withSlot channel pin (slot.giveUp call), .desynchronized pin call.operation)

/-- A call with nobody else at the bus. -/
def callAlone (board : Board) (channel : Nat) (call : Bus.Call) :
    Except Fault (Option Value) × Board :=
  match board.bus? channel with
  | none => (.ok none, board)
  | some (pin, slot) =>
    match slot.alone call with
    | (slot, some received) => (.ok received, board.withSlot channel pin slot)
    | (slot, none) =>
      (.error (.desynchronized pin call.operation), board.withSlot channel pin slot)

end Board

end NodeAssembly
