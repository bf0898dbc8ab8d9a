import NodeAssembly.Board

/-! Tapes. What is written to a tape goes to its writer and is kept; reading
takes back the latest text. -/

namespace NodeAssembly

/-- The texts on a tape are kept with the latest first. -/
structure Tape where
  sink : Sink
  texts : List String
deriving DecidableEq

/-- The writer, and the console with it, after a text was written of which it
accepted some bytes. -/
def Sink.accept (sink : Sink) (console : Console) (text : String) (bytes : ByteArray) :
    Sink × Console :=
  let given := text :: sink.given
  match sink.outlet with
  | .output => (⟨.output, given⟩, { console with printed := console.printed ++ bytes })
  | .errors => (⟨.errors, given⟩, { console with reported := console.reported ++ bytes })
  | .own accepted capacity => (⟨.own (accepted ++ bytes) capacity, given⟩, console)

namespace Tape

def ofSink (sink : Sink) : Tape :=
  ⟨sink, []⟩

/-- The tape after its writer was given a text of which it accepted some bytes. -/
def accept (tape : Tape) (console : Console) (text : String) (bytes : ByteArray) :
    Tape × Console :=
  let (sink, console) := tape.sink.accept console text bytes
  ({ tape with sink := sink }, console)

/-- Puts a text on the tape. -/
def keep (tape : Tape) (text : String) : Tape :=
  { tape with texts := text :: tape.texts }

/-- Writes a text. It is kept once it is written and flushed. -/
def write (writers : Writers) (tape : Tape) (console : Console) (text : String) :
    Except Fault Unit × Tape × Console :=
  let bytes := text.toUTF8
  match writers tape.sink text with
  | .cut count message =>
    (.error (.stream message), tape.accept console text (bytes.extract 0 count))
  | .unflushed message => (.error (.stream message), tape.accept console text bytes)
  | .taken =>
    let (tape, console) := tape.accept console text bytes
    (.ok (), tape.keep text, console)

/-- An empty tape yields an empty text. -/
def read (tape : Tape) : Value × Tape :=
  match tape.texts with
  | text :: texts => (.str text, { tape with texts := texts })
  | [] => (.str "", tape)

end Tape

end NodeAssembly
