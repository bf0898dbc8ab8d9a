import NodeAssembly.CommandLine

/-! The program: it reads the source files and the standard input, runs the
nodes, and writes what they write as they go on. -/

namespace NodeAssembly.CommandLine

/-- Why a file cannot be read. A directory can be opened, and only reading it
fails, so that the error names no file. -/
def problem : IO.Error → FileProblem
  | .noFileOrDirectory _ _ _ => .missing
  | .permissionDenied _ _ _ => .denied
  | .inappropriateType none _ _ => .isDirectory
  | .inappropriateType (some _) _ _ => .notDirectory
  | .invalidArgument (some _) _ _ => .nameTooLong
  | error => .other (toString error)

/-- The content of the files that the arguments name. -/
def readFiles : List String → IO Files
  | [] => return fun _ => .error .missing
  | path :: rest => do
    let files ← readFiles rest
    let content : Except FileProblem ByteArray ←
      try
        let bytes ← IO.FS.readBinFile path
        pure (.ok bytes)
      catch error =>
        pure (.error (problem error))
    return fun name => if name == path then content else files name

/-- Reads all that is left of a stream. -/
partial def readAll (stream : IO.FS.Stream) (bytes : ByteArray) : IO ByteArray := do
  let chunk ← stream.read 65536
  if chunk.isEmpty then return bytes else readAll stream (bytes ++ chunk)

/-- Whether a file mentions the input register, so that there is input to be
read. -/
def mentionsInput (files : Files) (path : String) : Bool :=
  match source files path with
  | .ok text => (text.splitOn "stdin").length > 1
  | .error _ => false

/-- Writes what is on the console. -/
def flush (board : Board) : IO Board := do
  unless board.console.output.isEmpty do
    (← IO.getStdout).putStr board.console.output
    (← IO.getStdout).flush
  unless board.console.errors.isEmpty do
    (← IO.getStderr).putStr board.console.errors
  return board.clearOutput

partial def runAll (ensemble : Ensemble Unit) : IO (Ensemble Unit) := do
  let board ← flush ensemble.board
  match { ensemble with board := board }.step silence with
  | some next => runAll next
  | none => return { ensemble with board := board }

end NodeAssembly.CommandLine

open NodeAssembly NodeAssembly.CommandLine in
def main (arguments : List String) : IO UInt32 := do
  let sources := (Arguments.ofList arguments).sources
  if sources.isEmpty then
    (← IO.getStderr).putStrLn "usage: [--timeout SECONDS] [--clock HZ] SOURCE..."
    return 1
  let files ← readFiles sources
  let input ←
    if sources.any (mentionsInput files) then readAll (← IO.getStdin) .empty else pure .empty
  let entropy ← IO.monoNanosNow
  match prepare files arguments (.ofInput input.toList (UInt64.ofNat entropy)) with
  | .error problem =>
    (← IO.getStderr).putStrLn problem.message
    return UInt32.ofNat problem.exitCode
  | .ok prepared =>
    let exit := exit prepared (← runAll prepared.ensemble)
    (← IO.getStderr).putStr exit.errors
    return UInt32.ofNat exit.code
