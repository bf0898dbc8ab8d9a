import NodeAssembly.Program.Basic
import NodeAssembly.Program.Error
import NodeAssembly.Source.Item
import NodeAssembly.Value.Cast

/-! Assembling a program from the items of its source. Declarations are carried
out and names looked up in the order in which they are written. Pins are bound
in a registry that other programs share, and stay bound even if the program
turns out to be faulty. -/

namespace NodeAssembly

open NodeAssembly.Text

/-- A place that names a label. -/
structure LabelSite where
  label : String
  line : Nat
  raw : List Char
deriving DecidableEq

/-- A program in the making. Entries, labels and jumps are kept with the latest
first. -/
structure Assembler where
  registry : PinRegistry
  board : Board
  table : RegisterTable
  file : RegisterFile
  entries : List Entry
  labels : List (LabelSite × Nat)
  jumps : List LabelSite
  logger : Option Logger

/-- A step of assembling. What was declared before an error stays declared. -/
abbrev Assembly (α : Type) := ExceptT ParseError (StateM Assembler) α

namespace Assembler

def start (registry : PinRegistry) (board : Board) (config : Config) (logger : Option Logger) :
    Assembler :=
  let (table, file) := defaultRegisters config.clockSpeed
  ⟨registry, board, table, file, [], [], [], logger⟩

/-- Enters a new register. -/
def create (assembler : Assembler) (name : String) (state : Register) :
    RegisterRef × Assembler :=
  let (register, file) := assembler.file.create name state
  (register, { assembler with table := assembler.table.insert register, file := file })

def findLabel? (assembler : Assembler) (label : String) : Option (LabelSite × Nat) :=
  assembler.labels.find? fun site => site.1.label == label

end Assembler

namespace Assembly

def fail {α : Type} (line : Line) (kind : ErrorKind) : Assembly α :=
  throw (.ofLine line.number line.raw kind)

/-- Notes in an error which part it was found in. -/
def within {α : Type} (context : ErrorContext) (step : Assembly α) : Assembly α :=
  ExceptT.adapt (·.within context) step

def create (name : String) (state : Register) : Assembly RegisterRef := do
  let (register, assembler) := (← get).create name state
  set assembler
  return register

/-! ## Declarations -/

/-- The register of a pin. A name that the program already uses keeps its
register. -/
def declarePin (line : Line) (kind : PinKind) (pin : Nat) : Assembly RegisterRef := do
  let assembler ← get
  let name := kind.registerName pin
  match assembler.table.find? name with
  | some register => return register
  | none =>
    match assembler.registry.channel assembler.board.channels pin kind with
    | (.error bound, _, _) => fail line (.pinConflict pin bound)
    | (.ok channel, registry, channels) =>
      let board := { assembler.board with channels := channels }
      let board := board.record assembler.logger .debug "bind pin"
        [("pin", natural pin), ("kind", kind.text)]
      set { assembler with registry := registry, board := board }
      create name (.pin kind channel)

/-- The register with a name: a pin if the name is that of one, else the one
that has the name, else a new plain register. -/
def declareRegister (line : Line) (name : String) : Assembly RegisterRef := do
  match pinOfName? name.toList with
  | some (kind, pin) => declarePin line kind pin
  | none =>
    match (← get).table.find? name with
    | some register => return register
    | none => create name (.plain (.int 0))

/-- Fails if a name is taken. -/
def checkFree (line : Line) (name : String) : Assembly Unit := do
  if (← get).table.contains name then
    fail line (.duplicateRegister name)

/-- A memory and the cursor beside it, which has the name of the memory with
`_i` after it. -/
def declareMemory (line : Line) (name : String) (size : Option Nat) : Assembly Unit := do
  let cursorName := name ++ "_i"
  checkFree line name
  checkFree line cursorName
  let cursor ← create cursorName (.offset 0)
  match size with
  | some size => let _ ← create name (.sized cursor (Array.replicate size .null))
  | none => let _ ← create name (.growing cursor #[])

/-- A label stands before the entry that comes next. -/
def declareLabel (line : Line) (label : String) : Assembly Unit := do
  let assembler ← get
  if (assembler.findLabel? label).isSome then
    fail line (.duplicateLabel label)
  let site : LabelSite := ⟨label, line.number, line.raw⟩
  set { assembler with labels := (site, assembler.entries.length) :: assembler.labels }

def declare (line : Line) : Declaration → Assembly Unit
  | .pin kind pin => do let _ ← declarePin line kind pin
  | .register name => do let _ ← declareRegister line name
  | .memory name size => declareMemory line name size
  | .label name => declareLabel line name

/-! ## Operands -/

def value (line : Line) (token : Token) : Assembly Value := do
  match token with
  | .int number => return .int number
  | .float number => return .float number
  | .str text => return .str text
  | .register name => return .ref (← declareRegister line name)
  | .word name =>
    match (← get).table.find? name with
    | some register => return .ref register
    | none => fail line (.unknownToken name)
  | token => fail line (.unknownToken token.text)

def register (line : Line) (index : Nat) (token : Token) : Assembly RegisterRef := do
  match ← value line token with
  | .ref register => return register
  | _ => fail line (.invalidOperand index .notRegister)

/-- The kind of the pin behind a register. -/
def pinKind? (register : RegisterRef) : Assembly (Option PinKind) := do
  return ((← get).file.state register).pinKind?

/-- A register with a pin of any kind behind it. -/
def pin (line : Line) (index : Nat) (token : Token) : Assembly RegisterRef := do
  let register ← register line index token
  match ← pinKind? register with
  | some _ => return register
  | none => fail line (.invalidOperand index .notPin)

/-- A register with a bus behind it. -/
def bus (line : Line) (index : Nat) (token : Token) : Assembly RegisterRef := do
  let register ← register line index token
  match ← pinKind? register with
  | some .xbus => return register
  | _ => fail line (.invalidOperand index .notBus)

def castType (line : Line) (name : String) : Assembly Value := do
  if CastType.isName name then return .str name
  else fail line (.invalidOperand 0 .notType)

/-- The operand of a cast: a word that is no register is the name of a type. -/
def castOperand (line : Line) (token : Token) : Assembly Value := do
  match token with
  | .word name =>
    if (← get).table.contains name then value line token else castType line name
  | .str name => castType line name
  | token => value line token

/-- The label of a jump, which is noted to be looked up at the end. -/
def jumpLabel (line : Line) (token : Token) : Assembly String := do
  match token with
  | .word label =>
    modify fun assembler =>
      { assembler with jumps := ⟨label, line.number, line.raw⟩ :: assembler.jumps }
    return label
  | _ => fail line (.invalidOperand 0 .notLabel)

/-! ## Instructions -/

/-- The instruction that a line starts with, and its operands. -/
def mnemonic (line : Line) (tokens : List Token) : Assembly (OpCode × List Token) := do
  match tokens with
  | .word word :: operands =>
    match OpCode.ofMnemonic? word with
    | some opcode => return (opcode, operands)
    | none => fail line (.unknownInstruction word (OpCode.suggest? word))
  | token :: _ => fail line (.unknownInstruction token.text none)
  | [] => fail line (.unknownInstruction "" none)

def wrongCount {α : Type} (line : Line) (opcode : OpCode) (operands : List Token) : Assembly α :=
  fail line (.operandCount opcode.mnemonic opcode.operandCount operands.length)

/-- An instruction that is no test. The number of operands is checked before
any of them is looked at. -/
def plainInstruction (line : Line) : OpCode → List Token → Assembly Instruction
  | .noOperation, [] => return .noOperation
  | .stop, [] => return .stop
  | .not, [] => return .not
  | .move, [source, target] => do
    let source ← value line source
    let target ← register line 1 target
    return .move source target
  | .swap, [left, right] => do
    let left ← register line 0 left
    let right ← register line 1 right
    return .swap left right
  | .jump, [label] => do return .jump (← jumpLabel line label)
  | .sleep, [duration] => do return .sleep (← value line duration)
  | .observe, [bus] => do return .observe (← Assembly.bus line 0 bus)
  | .generate, [pin, on, off] => do
    let pin ← Assembly.pin line 0 pin
    let on ← value line on
    let off ← value line off
    return .generate pin on off
  | .add, [operand] => do return .add (← value line operand)
  | .subtract, [operand] => do return .subtract (← value line operand)
  | .multiply, [operand] => do return .multiply (← value line operand)
  | .divide, [operand] => do return .divide (← value line operand)
  | .digit, [position] => do return .digit (← value line position)
  | .setDigit, [position, replacement] => do
    let position ← value line position
    let replacement ← value line replacement
    return .setDigit position replacement
  | .cast, [kind] => do return .cast (← castOperand line kind)
  | .increment, [target] => do return .increment (← register line 0 target)
  | .decrement, [target] => do return .decrement (← register line 0 target)
  | opcode, operands => wrongCount line opcode operands

end Assembly

mutual

def Statement.assemble : Statement → Assembly Instruction
  | .illegible line slice => Assembly.fail line (.unknownToken slice)
  | .stray line => Assembly.fail line .strayBranch
  | .instruction line tokens branches => do
    match ← Assembly.mnemonic line tokens with
    | (.test kind, [left, right]) =>
      let left ← Assembly.value line left
      let right ← Assembly.value line right
      let (positive, negative) ← branches.assemble
      return .test kind left right positive negative
    | (opcode, operands) => Assembly.plainInstruction line opcode operands

/-- The blocks of a test, whose branches are assembled in the order in which
they are written. -/
def Branches.assemble : Branches → Assembly (Block × Block)
  | .nil => return (.nil, .nil)
  | .cons sign statement rest => do
    let instruction ← Assembly.within .branch statement.assemble
    let (positive, negative) ← rest.assemble
    match sign with
    | .positive => return (.cons instruction positive, negative)
    | .negative => return (positive, .cons instruction negative)

end

namespace Assembly

def item (item : Item) : Assembly Unit := do
  item.declarations.forM fun declaration => within .declaration (declare item.line declaration)
  match item.body with
  | .blank => return ()
  | .malformed construct => fail item.line (.malformedDeclaration construct)
  | .stray => fail item.line .strayBranch
  | .entry once statement =>
    let instruction ← within .instruction statement.assemble
    modify fun assembler =>
      { assembler with entries := ⟨instruction, once, item.line.number⟩ :: assembler.entries }

/-- Every jump needs its label, and every label an entry after it. -/
def checkLabels : Assembly Unit := do
  let assembler ← get
  assembler.jumps.reverse.forM fun jump => do
    if (assembler.findLabel? jump.label).isNone then
      throw (ParseError.ofLine jump.line jump.raw (.unknownLabel jump.label))
  assembler.labels.reverse.forM fun (site, target) => do
    if assembler.entries.length ≤ target then
      throw (ParseError.ofLine site.line site.raw (.trailingLabel site.label))

def logProgram : Assembly Unit :=
  modify fun assembler =>
    { assembler with
      board := assembler.board.record assembler.logger .debug "parsed program"
        [("instructions", natural assembler.entries.length),
          ("labels", natural assembler.labels.length),
          ("registers", natural assembler.table.named.length)] }

/-- Assembles the program of some items. -/
def program (items : List Item) : Assembly Program := do
  items.forM item
  checkLabels
  logProgram
  let assembler ← get
  return {
    entries := assembler.entries.reverse.toArray
    labels := (assembler.labels.map fun label => (label.1.label, label.2)).reverse
    table := assembler.table }

end Assembly

/-- What parsing a source text leaves behind: the program with its registers, or
an error, and in both cases the pins and the board. -/
structure Parsed where
  result : Except ParseError (Program × RegisterFile)
  registry : PinRegistry
  board : Board

namespace Program

/-- Parses a source text against a registry of pins. -/
def parse (registry : PinRegistry) (board : Board) (config : Config) (logger : Option Logger)
    (source : String) : Parsed :=
  let start := Assembler.start registry board config (logger.map (·.within "stage" "parsing"))
  let (result, final) := ((Assembly.program (Item.ofSource source)).run).run start
  ⟨result.map fun program => (program, final.file), final.registry, final.board⟩

end Program

end NodeAssembly
