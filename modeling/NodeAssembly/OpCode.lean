import NodeAssembly.Text.Distance

/-! The instructions of the language by name, and the name that was probably
meant by a misspelled one. -/

namespace NodeAssembly

open NodeAssembly.Text

/-- What a test instruction asks of its operands. -/
inductive TestKind where
  | equal
  | greater
  | less
  /-- Greater, less or neither. -/
  | compare
deriving DecidableEq, Repr

inductive OpCode where
  | noOperation
  | stop
  | move
  | swap
  | jump
  | sleep
  | observe
  | generate
  | add
  | subtract
  | multiply
  | divide
  | not
  | digit
  | setDigit
  | cast
  | increment
  | decrement
  | test (kind : TestKind)
deriving DecidableEq, Repr

namespace OpCode

def all : List OpCode :=
  [.noOperation, .stop, .move, .swap, .jump, .sleep, .observe, .generate, .add, .subtract,
    .multiply, .divide, .not, .digit, .setDigit, .cast, .increment, .decrement, .test .equal,
    .test .greater, .test .less, .test .compare]

def mnemonic : OpCode → String
  | .noOperation => "nop"
  | .stop => "end"
  | .move => "mov"
  | .swap => "swp"
  | .jump => "jmp"
  | .sleep => "slp"
  | .observe => "slx"
  | .generate => "gen"
  | .add => "add"
  | .subtract => "sub"
  | .multiply => "mul"
  | .divide => "div"
  | .not => "not"
  | .digit => "dgt"
  | .setDigit => "dst"
  | .cast => "cst"
  | .increment => "inc"
  | .decrement => "dec"
  | .test .equal => "teq"
  | .test .greater => "tgt"
  | .test .less => "tlt"
  | .test .compare => "tcp"

/-- How many operands the instruction takes, branches aside. -/
def operandCount : OpCode → Nat
  | .noOperation | .stop | .not => 0
  | .jump | .sleep | .observe | .add | .subtract | .multiply | .divide | .digit | .cast
  | .increment | .decrement => 1
  | .move | .swap | .setDigit | .test _ => 2
  | .generate => 3

/-- The instruction with this mnemonic in any case. -/
def ofMnemonic? (word : String) : Option OpCode :=
  let lowered := lowerCase word.toList
  all.find? fun opcode => opcode.mnemonic.toList == lowered

/-- The better one of two suggestions: the nearer one, or the first in the
alphabet. -/
def better (first second : Nat × String) : Nat × String :=
  if second.1 < first.1 || (second.1 == first.1 && decide (second.2 < first.2)) then second
  else first

/-- The mnemonic nearest to `word`, if it is within two edits. -/
def suggest? (word : String) : Option String :=
  let lowered := lowerCase word.toList
  let near := (all.map fun opcode => (distance lowered opcode.mnemonic.toList, opcode.mnemonic)).filter
    fun candidate => candidate.1 ≤ 2
  match near with
  | [] => none
  | first :: rest => some (rest.foldl better first).2

end OpCode

end NodeAssembly
