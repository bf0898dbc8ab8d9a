import NodeAssembly.Text.Blank
import NodeAssembly.Text.Lines

/-! The lines of a source text. A line ends at its comment, and blanks around
it do not matter. A line that starts with a sign belongs to a test above it. -/

namespace NodeAssembly

open NodeAssembly.Text

/-- Which branch of a test a line belongs to. -/
inductive Sign where
  | positive
  | negative
deriving DecidableEq, Repr

namespace Sign

def opposite : Sign → Sign
  | .positive => .negative
  | .negative => .positive

def ofChar? : Char → Option Sign
  | '+' => some .positive
  | '-' => some .negative
  | _ => none

end Sign

/-- Whether a place in a line is inside a text in quotes, and whether the
character there is escaped. -/
inductive Quotation where
  | outside
  | inside (quote : Char)
  | escaped (quote : Char)
deriving DecidableEq

namespace Quotation

/-- Where the place after a character is. -/
def after (quotation : Quotation) (char : Char) : Quotation :=
  match quotation with
  | .outside => if char == '"' || char == '\'' then .inside char else .outside
  | .inside quote =>
    if char == '\\' then .escaped quote
    else if char == quote then .outside
    else .inside quote
  | .escaped quote => .inside quote

end Quotation

def isCommentMark (char : Char) : Bool :=
  char == '#' || char == ';'

/-- The text up to the first comment mark that is not inside quotes. -/
def stripCommentFrom (quotation : Quotation) : List Char → List Char
  | [] => []
  | char :: rest =>
    if quotation = .outside ∧ isCommentMark char then []
    else char :: stripCommentFrom (quotation.after char) rest

def stripComment (line : List Char) : List Char :=
  stripCommentFrom .outside line

/-- A line with its number, as it was written, and what is left to be read of
it. -/
structure Line where
  number : Nat
  raw : List Char
  text : List Char
deriving DecidableEq

namespace Line

def ofRaw (number : Nat) (raw : List Char) : Line :=
  ⟨number, raw, trim (stripComment raw)⟩

def sign? (line : Line) : Option Sign :=
  line.text.head?.bind Sign.ofChar?

/-- The line without its sign. -/
def unsigned (line : Line) : Line :=
  { line with text := trimStart line.text.tail }

/-- The lines numbered from `first` on. -/
def numberFrom (first : Nat) : List (List Char) → List Line
  | [] => []
  | raw :: rest => .ofRaw first raw :: numberFrom (first + 1) rest

/-- The lines of a source text. -/
def ofSource (source : String) : List Line :=
  numberFrom 1 (lines source.toList)

end Line

end NodeAssembly
