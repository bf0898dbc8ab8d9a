import NodeAssembly.Decimal.Reading
import NodeAssembly.Token.Basic

/-! Splitting a line into tokens. At each place the longest match is taken; what
matches nothing becomes a lexeme without a token, and the scan goes on behind
it. Only separators stand between two lexemes. -/

namespace NodeAssembly

open NodeAssembly.Text

/-- A piece of the source, and the token it is unless it is faulty. -/
structure Lexeme where
  slice : List Char
  token : Option Token
deriving DecidableEq

namespace Lexeme

def isSeparator (char : Char) : Bool :=
  char == ' ' || char == '\t' || char == '\r' || char == '\n' || char == '\x0c' || char == ','

/-- What the characters at a place turn out to be. -/
inductive Shape where
  | integer
  | decimal
  | quoted
  | unclosed
  | register
  | word
  | positive
  | negative
  | stray
deriving DecidableEq

/-- How many characters at the start of the text satisfy `condition`. -/
def run (condition : Char → Bool) (text : List Char) : Nat :=
  (text.takeWhile condition).length

/-- A number after its first digit: more digits, and perhaps a point and the
digits of a fraction. -/
def number (rest : List Char) : Shape × Nat :=
  let digits := run isDigit rest
  match rest.drop digits with
  | '.' :: fraction => (.decimal, digits + 1 + run isDigit fraction)
  | _ => (.integer, digits)

/-- A fraction after its point, or `otherwise` if no digit follows. -/
def fraction (otherwise : Shape) (rest : List Char) : Shape × Nat :=
  match run isDigit rest with
  | 0 => (otherwise, 0)
  | digits => (.decimal, digits)

/-- How far a text in quotes reaches after its opening quote, and whether it is
closed there. A backslash and the character after it belong together, unless
that is a line feed. -/
def quotedExtent (quote : Char) : List Char → Nat × Bool
  | [] => (0, false)
  | ['\\'] => (0, false)
  | '\\' :: '\n' :: _ => (0, false)
  | '\\' :: _ :: rest =>
    let (extent, closed) := quotedExtent quote rest
    (extent + 2, closed)
  | char :: rest =>
    if char = quote then (1, true)
    else
      let (extent, closed) := quotedExtent quote rest
      (extent + 1, closed)

def quotedShape (quote : Char) (rest : List Char) : Shape × Nat :=
  let (extent, closed) := quotedExtent quote rest
  (if closed then .quoted else .unclosed, extent)

/-- A minus sign starts a number if a digit follows, or a point and a digit. -/
def minus (rest : List Char) : Shape × Nat :=
  match rest with
  | '.' :: digits =>
    match fraction .negative digits with
    | (.decimal, extent) => (.decimal, extent + 1)
    | other => other
  | digit :: tail =>
    if isDigit digit then
      let (shape, extent) := number tail
      (shape, extent + 1)
    else (.negative, 0)
  | [] => (.negative, 0)

/-- The shape of the longest match at a place, and how many characters after
the first one belong to it. -/
def shapeAt (char : Char) (rest : List Char) : Shape × Nat :=
  if isDigit char then number rest
  else if isLetter char then (.word, run isWordChar rest)
  else
    match char with
    | '-' => minus rest
    | '.' => fraction .stray rest
    | '+' => (.positive, 0)
    | '"' => quotedShape '"' rest
    | '\'' => quotedShape '\'' rest
    | '$' =>
      match rest with
      | letter :: tail =>
        if isLetter letter then (.register, run isWordChar tail + 1) else (.stray, 0)
      | [] => (.stray, 0)
    | _ => (.stray, 0)

/-- The character that an escape stands for. -/
def unescapeChar : Char → Char
  | 'n' => '\n'
  | 't' => '\t'
  | 'r' => '\r'
  | '0' => '\x00'
  | char => char

def unescape : List Char → List Char
  | [] => []
  | ['\\'] => ['\\']
  | '\\' :: char :: rest => unescapeChar char :: unescape rest
  | char :: rest => char :: unescape rest

/-- The token that a slice of a given shape is. An integer that does not fit in
32 bits is none. -/
def Shape.token? (shape : Shape) (slice : List Char) : Option Token :=
  match shape with
  | .integer => (readInt32 10 slice).map .int
  | .decimal => (Decimal.readFloat slice).map .float
  | .quoted => some (.str (String.ofList (unescape slice.tail.dropLast)))
  | .unclosed => none
  | .register => some (.register (String.ofList slice.tail))
  | .word => some (.word (String.ofList slice))
  | .positive => some .positive
  | .negative => some .negative
  | .stray => none

/-- The lexeme at a place. -/
def found (char : Char) (rest : List Char) : Lexeme :=
  let (shape, extent) := shapeAt char rest
  let slice := char :: rest.take extent
  ⟨slice, shape.token? slice⟩

/-- The lexemes of a text. -/
def scan : List Char → List Lexeme
  | [] => []
  | char :: rest =>
    if isSeparator char then scan rest
    else found char rest :: scan (rest.drop (shapeAt char rest).2)
termination_by text => text.length
decreasing_by
  · simp
  · simp only [List.length_drop, List.length_cons]
    omega

end Lexeme

/-- The tokens of a text up to its first fault, which is given by its slice. -/
def Token.scan (text : List Char) : Except String (List Token) :=
  (Lexeme.scan text).mapM fun lexeme =>
    match lexeme.token with
    | some token => .ok token
    | none => .error (String.ofList lexeme.slice)

end NodeAssembly
