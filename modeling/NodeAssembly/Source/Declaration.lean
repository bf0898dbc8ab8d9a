import NodeAssembly.Channel.Pins
import NodeAssembly.Text.Blank
import NodeAssembly.Text.Numeral
import NodeAssembly.Register.Memory

/-! Declarations stand at the start of a line: pins, registers, memories and
labels. -/

namespace NodeAssembly

open NodeAssembly.Text

inductive Declaration where
  | pin (kind : PinKind) (number : Nat)
  | register (name : String)
  /-- A memory of fixed size, or one that grows if there is no size. -/
  | memory (name : String) (size : Option Nat)
  | label (name : String)
deriving DecidableEq

/-- What a line starts to declare. -/
inductive Construct where
  | register
  | memory
deriving DecidableEq, Repr

def Construct.text : Construct → String
  | .register => "register declaration"
  | .memory => "memory declaration"

/-- The number of a pin, which has 32 bits. -/
def pinNumber? (digits : List Char) : Option Nat :=
  readNatural 10 0x100000000 digits

/-- The pin that a register name stands for: the letter of a kind and the
number of the pin, up to the end of the name. -/
def pinOfName? (name : List Char) : Option (PinKind × Nat) :=
  match name with
  | 'p' :: digits => (pinNumber? digits).map (.power, ·)
  | 'x' :: digits => (pinNumber? digits).map (.xbus, ·)
  | _ => none

/-- How many characters a name at the start of the text has: a letter, and then
letters, digits and underscores. -/
def nameLength (text : List Char) : Nat :=
  match text with
  | letter :: rest => if isLetter letter then (rest.takeWhile isWordChar).length + 1 else 0
  | [] => 0

namespace Declaration

/-- What stands where a declaration may. The extent counts the characters after
the first one. -/
inductive Reading where
  | absent
  | malformed (construct : Construct)
  | found (declaration : Declaration) (extent : Nat)
deriving DecidableEq

/-- The kind of pin that a declaration starts with. -/
def readKind? : Char → Option PinKind
  | 'p' => some .power
  | 'x' => some .xbus
  | _ => none

/-- A pin after its dollar sign, with the extent: the letter of a kind and as many
digits as there are, which have to be a number of 32 bits. No letter or
underscore may follow. -/
def readPin? (rest : List Char) : Option (Declaration × Nat) :=
  match rest with
  | [] => none
  | letter :: tail => do
    let kind ← readKind? letter
    let digits := tail.takeWhile isDigit
    let number ← readUnsigned 10 0x100000000 digits
    if (tail.drop digits.length).head?.any isWordChar then none
    else return (.pin kind number, digits.length + 1)

/-- A register after its dollar sign. -/
def readRegister (rest : List Char) : Reading :=
  match readPin? rest with
  | some (declaration, extent) => .found declaration extent
  | none =>
    match nameLength rest with
    | 0 => .malformed .register
    | length => .found (.register (String.ofList (rest.take length))) length

/-- The size of a memory in brackets, with the extent. -/
def readSize? (rest : List Char) : Option (Nat × Nat) :=
  match rest with
  | '[' :: tail =>
    let digits := tail.takeWhile isDigit
    match tail.drop digits.length, readNatural 10 (Memory.cellLimit + 1) digits with
    | ']' :: _, some size => if size = 0 then none else some (size, digits.length + 2)
    | _, _ => none
  | _ => none

/-- A memory of fixed size after its star. -/
def readSized (rest : List Char) : Reading :=
  match nameLength rest with
  | 0 => .malformed .memory
  | length =>
    match readSize? (rest.drop length) with
    | some (size, extent) =>
      .found (.memory (String.ofList (rest.take length)) (some size)) (length + extent)
    | none => .malformed .memory

/-- A growing memory after its ampersand. -/
def readGrowing (rest : List Char) : Reading :=
  match nameLength rest with
  | 0 => .malformed .memory
  | length => .found (.memory (String.ofList (rest.take length)) none) length

/-- A label, which is a name with a colon. -/
def readLabel (char : Char) (rest : List Char) : Reading :=
  match nameLength (char :: rest) with
  | 0 => .absent
  | length + 1 =>
    match rest.drop length with
    | ':' :: _ => .found (.label (String.ofList (char :: rest.take length))) (length + 1)
    | _ => .absent

def readAt (char : Char) (rest : List Char) : Reading :=
  match char with
  | '$' => readRegister rest
  | '*' => readSized rest
  | '&' => readGrowing rest
  | char => readLabel char rest

end Declaration

/-- The declarations at the start of a line, and what follows them unless a
declaration is malformed. -/
structure Heading where
  declarations : List Declaration
  rest : Except Construct (List Char)

namespace Heading

def read (text : List Char) : Heading :=
  match text with
  | [] => ⟨[], .ok []⟩
  | char :: tail =>
    match Declaration.readAt char tail with
    | .absent => ⟨[], .ok (char :: tail)⟩
    | .malformed construct => ⟨[], .error construct⟩
    | .found declaration extent =>
      let next := read (trimStart (tail.drop extent))
      ⟨declaration :: next.declarations, next.rest⟩
termination_by text.length
decreasing_by
  have shorter := (List.dropWhile_suffix isBlank (l := tail.drop extent)).length_le
  simp only [trimStart, List.length_cons]
  simp only [List.length_drop] at shorter
  omega

end Heading

end NodeAssembly
