import NodeAssembly.Board
import NodeAssembly.Text.Blank
import NodeAssembly.Text.Utf8

/-! Input registers. Writing to one makes it read: up to a delimiter, or so many
bytes. What was read waits there until the register itself is read. -/

namespace NodeAssembly

open NodeAssembly.Text

/-- Where an input register gets its bytes: from the console, of which it takes
whole blocks ahead, or from bytes of its own. -/
inductive InputSource where
  | console (ahead : List UInt8)
  | bytes (rest : List UInt8)
deriving DecidableEq

namespace InputSource

/-- How many bytes are taken from the console at a time. -/
def blockSize : Nat := 8192

/-- All bytes that can still be read. -/
def remaining (source : InputSource) (console : Console) : List UInt8 :=
  match source with
  | .console ahead => ahead ++ console.input
  | .bytes rest => rest

/-- The source and the console after `count` bytes were read. -/
def consume (source : InputSource) (console : Console) (count : Nat) : InputSource × Console :=
  match source with
  | .console ahead =>
    let missing := count - ahead.length
    let taken := (missing + blockSize - 1) / blockSize * blockSize
    (.console ((ahead ++ console.input.take taken).drop count),
      { console with input := console.input.drop taken })
  | .bytes rest => (.bytes (rest.drop count), console)

end InputSource

/-- What came of reading up to a delimiter. -/
structure Scratch where
  /-- The bytes before the delimiter. -/
  bytes : List UInt8
  /-- How many bytes were read. -/
  count : Nat
  /-- Whether the source ended first. -/
  closed : Bool
deriving DecidableEq

/-- Reads byte after byte until those that were read end with the delimiter,
which is then taken off them. The bytes that were read are kept with the latest
first. -/
def Scratch.read (delimiter : List UInt8) (scratch : List UInt8) : List UInt8 → Scratch
  | [] => ⟨scratch.reverse, scratch.length, true⟩
  | byte :: rest =>
    let scratch := byte :: scratch
    if delimiter.reverse.isPrefixOf scratch then
      ⟨(scratch.drop delimiter.length).reverse, scratch.length, false⟩
    else read delimiter scratch rest

/-- An input register: the text that waits to be read, and whether the source
has ended. -/
structure Input where
  source : InputSource
  waiting : String
  closed : Bool
deriving DecidableEq

namespace Input

def ofSource (source : InputSource) : Input :=
  ⟨source, "", false⟩

/-- Takes in some bytes as text, after `count` bytes were read. -/
def accept (input : Input) (console : Console) (bytes : List UInt8) (count : Nat)
    (closed : Bool) : Input × Console :=
  let (source, console) := input.source.consume console count
  (⟨source, input.waiting ++ String.ofList (decode bytes), closed⟩, console)

/-- Reads up to the delimiter, which is dropped, or to the end. -/
def readTo (input : Input) (console : Console) (delimiter : List UInt8) : Input × Console :=
  let scratch := Scratch.read delimiter [] (input.source.remaining console)
  input.accept console scratch.bytes scratch.count scratch.closed

/-- Reads so many bytes, or to the end if there are fewer. -/
def readCount (input : Input) (console : Console) (count : Nat) : Input × Console :=
  let bytes := (input.source.remaining console).take count
  input.accept console bytes bytes.length (bytes.length < count)

/-- What writing a value to the register does: a text is a delimiter, and
anything else a count. An empty text reads nothing. After the end of the source
nothing happens. -/
def prepare (input : Input) (console : Console) (request : Value) : Input × Console :=
  if input.closed then (input, console)
  else
    match request with
    | .str delimiter =>
      if delimiter.isEmpty then input.readCount console 0
      else input.readTo console (encode delimiter)
    | other => input.readCount console other.toInt.toInt.toNat

/-- What reading the register yields: the text that waits there, or nothing if
the source has ended and only blanks are left. -/
def read (input : Input) : Value × Input :=
  if input.closed && isAllBlank input.waiting.toList then (.null, input)
  else (.str input.waiting, { input with waiting := "" })

end Input

end NodeAssembly
