import NodeAssembly.Source.Declaration
import NodeAssembly.Source.Line

/-! Why a source text is no program, and where. -/

namespace NodeAssembly

open NodeAssembly.Text

/-- What is wrong with an operand. -/
inductive OperandProblem where
  | notRegister
  | notPin
  | notBus
  | notLabel
  | notType
deriving DecidableEq, Repr

def OperandProblem.text : OperandProblem → String
  | .notRegister => "expected a register"
  | .notPin => "expected a pin"
  | .notBus => "expected an xbus pin"
  | .notLabel => "expected a label"
  | .notType => "unknown cast type"

inductive ErrorKind where
  | unknownInstruction (mnemonic : String) (suggestion : Option String)
  | operandCount (mnemonic : String) (expected got : Nat)
  /-- Operands are counted from zero. -/
  | invalidOperand (index : Nat) (problem : OperandProblem)
  | unknownToken (token : String)
  | unknownLabel (label : String)
  | duplicateLabel (label : String)
  /-- No instruction follows the label. -/
  | trailingLabel (label : String)
  | malformedDeclaration (construct : Construct)
  | duplicateRegister (name : String)
  /-- The pin is bound to another kind of channel. -/
  | pinConflict (pin : Nat) (bound : PinKind)
  | strayBranch
deriving DecidableEq, Repr

def ErrorKind.message : ErrorKind → String
  | .unknownInstruction mnemonic (some suggestion) =>
    "unknown instruction '" ++ mnemonic ++ "', did you mean '" ++ suggestion ++ "'?"
  | .unknownInstruction mnemonic none => "unknown instruction '" ++ mnemonic ++ "'"
  | .operandCount mnemonic expected got =>
    "'" ++ mnemonic ++ "' takes " ++ natural expected ++ " operand(s), got " ++ natural got
  | .invalidOperand index problem =>
    "invalid operand " ++ natural (index + 1) ++ ": " ++ problem.text
  | .unknownToken token => "unknown token '" ++ token ++ "'"
  | .unknownLabel label => "unknown label '" ++ label ++ "'"
  | .duplicateLabel label => "label '" ++ label ++ "' already defined"
  | .trailingLabel label => "label '" ++ label ++ "' has no instruction to land on"
  | .malformedDeclaration construct => "malformed " ++ construct.text
  | .duplicateRegister name => "register '" ++ name ++ "' already declared"
  | .pinConflict pin bound =>
    "pin " ++ natural pin ++ " is already bound to a " ++ bound.text ++ " channel"
  | .strayBranch => "branch line without a test instruction"

/-- The part of a program that an error was found in. -/
inductive ErrorContext where
  | declaration
  | instruction
  | branch
deriving DecidableEq, Repr

def ErrorContext.text : ErrorContext → String
  | .declaration => "declaration"
  | .instruction => "instruction"
  | .branch => "branch"

/-- An error with its line, and the parts it was found in from the outermost
on. -/
structure ParseError where
  line : Nat
  source : String
  kind : ErrorKind
  context : List ErrorContext
deriving DecidableEq, Repr

namespace ParseError

/-- An error on a line as it was written. -/
def ofLine (number : Nat) (raw : List Char) (kind : ErrorKind) : ParseError :=
  ⟨number, String.ofList (trim raw), kind, []⟩

def within (error : ParseError) (context : ErrorContext) : ParseError :=
  { error with context := context :: error.context }

/-- How much of the source line a message shows. -/
def shownCharacters : Nat := 40

def message (error : ParseError) : String :=
  let parts := error.context.map ErrorContext.text ++ [error.kind.message]
  "at line " ++ natural error.line ++ ": " ++ ": ".intercalate parts ++ ", at '" ++
    String.ofList (error.source.toList.take shownCharacters) ++ "'"

end ParseError

end NodeAssembly
