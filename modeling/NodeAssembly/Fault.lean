import NodeAssembly.Text.Numeral

/-! What can go wrong while a node runs. A fault ends the run that raised it
and nothing else. -/

namespace NodeAssembly

open NodeAssembly.Text

/-- What a node can wait for on a bus. -/
inductive BusOperation where
  | send
  | receive
  | observe
deriving DecidableEq, Repr

def BusOperation.text : BusOperation → String
  | .send => "send"
  | .receive => "receive"
  | .observe => "observe activity"

inductive Fault where
  | divisionByZero
  | invalidCast (type : String)
  /-- No partner came before the bus gave up waiting. -/
  | desynchronized (pin : Nat) (operation : BusOperation)
  | unknownLabel (label : String)
  /-- A stream register could not be read or written. -/
  | stream (cause : String)
  /-- A text or a memory would have grown past its limit. -/
  | outOfMemory (requested limit : Nat)
  /-- The run was broken off from inside a listener. -/
  | aborted
  | alreadyRunning
deriving DecidableEq, Repr

def Fault.message : Fault → String
  | .divisionByZero => "division by zero"
  | .invalidCast type => "invalid cast: '" ++ type ++ "'"
  | .desynchronized pin operation =>
    "xbus " ++ natural pin ++ " desynchronized while waiting to " ++ operation.text
  | .unknownLabel label => "jump to unknown label '" ++ label ++ "'"
  | .stream cause => "io error: " ++ cause
  | .outOfMemory requested limit =>
    "out of memory: " ++ natural requested ++ " requested, limit is " ++ natural limit
  | .aborted => "node aborted"
  | .alreadyRunning => "node is already running"

end NodeAssembly
