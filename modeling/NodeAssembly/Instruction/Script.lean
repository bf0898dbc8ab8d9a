import NodeAssembly.Register.Access
import NodeAssembly.Value.Cast
import NodeAssembly.Value.Order

/-! What an instruction does, as a script of requests to the machine that runs
it. A script is resumed with the answer to each request, so it can be put aside
while a request has to wait. -/

namespace NodeAssembly

inductive Request where
  | read (register : RegisterRef)
  | write (register : RegisterRef) (value : Value)
  /-- Wait for a value on the bus of a register. -/
  | observe (register : RegisterRef)
  /-- Go on at a label after the current instruction. -/
  | jump (label : String)
  /-- Stop after the current instruction. -/
  | stop
  /-- Ask whether the machine is still running. -/
  | running
  | sleep (ticks : Int32)
deriving DecidableEq

abbrev Request.Answer : Request → Type
  | .read _ => Except Fault Value
  | .write _ _ => Except Fault Unit
  | .observe _ => Except Fault Unit
  | .jump _ => Except Fault Unit
  | .stop => Unit
  | .running => Bool
  | .sleep _ => Unit

inductive Script (α : Type) where
  | done (result : α)
  | ask (request : Request) (resume : request.Answer → Script α)

namespace Script

def bind {α β : Type} (script : Script α) (next : α → Script β) : Script β :=
  match script with
  | .done result => next result
  | .ask request resume => .ask request fun answer => (resume answer).bind next

instance : Monad Script where
  pure := .done
  bind := Script.bind

def request (request : Request) : Script request.Answer :=
  .ask request .done

/-- Runs a script by answering its requests from a state. -/
def runWith {σ α : Type} (answer : (request : Request) → σ → request.Answer × σ) :
    Script α → σ → α × σ
  | .done result, state => (result, state)
  | .ask request resume, state =>
    let (reply, state) := answer request state
    (resume reply).runWith answer state

end Script

/-- A script that may end with a fault. -/
abbrev Action (α : Type) := ExceptT Fault Script α

namespace Action

def read (register : RegisterRef) : Action Value :=
  ExceptT.mk (Script.request (.read register))

def write (register : RegisterRef) (value : Value) : Action Unit :=
  ExceptT.mk (Script.request (.write register value))

def observe (register : RegisterRef) : Action Unit :=
  ExceptT.mk (Script.request (.observe register))

def jump (label : String) : Action Unit :=
  ExceptT.mk (Script.request (.jump label))

def stop : Action Unit :=
  ExceptT.lift (Script.request .stop)

def running : Action Bool :=
  ExceptT.lift (Script.request .running)

def sleep (ticks : Int32) : Action Unit :=
  ExceptT.lift (Script.request (.sleep ticks))

/-- The value itself, or what the register holds that it refers to. -/
def resolve : Value → Action Value
  | .ref register => read register
  | value => pure value

/-- Resolves a value and writes it to a register. -/
def put (register : RegisterRef) (value : Value) : Action Unit := do
  write register (← resolve value)

/-- Combines two operands, which are resolved from left to right. -/
def combine (operator : Value → Value → Except Fault Value) (left right : Value) :
    Action Value := do
  let left ← resolve left
  let right ← resolve right
  liftM (operator left right)

def order (left right : Value) : Action Ordering := do
  let left ← resolve left
  let right ← resolve right
  return left.order right

end Action

/-! A site answers requests to registers by itself when no other node is there.
A call on a bus then gives up as soon as it would have to wait. -/

namespace Access

def alone {α : Type} (access : Access (Except Fault α)) (site : Site)
    (received : Option Value → α) : Except Fault α × Site :=
  match access with
  | .done answer site => (answer, site)
  | .call channel pending =>
    let (answer, board) := site.board.callAlone channel pending
    (answer.map received, { site with board := board })

end Access

namespace Site

def readAlone (site : Site) (register : RegisterRef) : Except Fault Value × Site :=
  (site.read register).alone site fun received => received.getD .null

def writeAlone (site : Site) (register : RegisterRef) (value : Value) :
    Except Fault Unit × Site :=
  (site.write register value).alone site fun _ => ()

def observeAlone (site : Site) (register : RegisterRef) : Except Fault Unit × Site :=
  (site.observe register).alone site fun _ => ()

/-- Answers a request where there is no program to steer: jumps succeed, and
nothing ever stops. -/
def answerAlone (request : Request) (site : Site) : request.Answer × Site :=
  match request with
  | .read register => site.readAlone register
  | .write register value => site.writeAlone register value
  | .observe register => site.observeAlone register
  | .jump _ => (.ok (), site)
  | .stop => ((), site)
  | .running => (true, site)
  | .sleep _ => ((), site)

/-- Carries out an action with no other node there. -/
def perform {α : Type} (site : Site) (action : Action α) : Except Fault α × Site :=
  action.run.runWith answerAlone site

/-- Puts a value, which may be a reference, into a register. A register that
drops what is written does not resolve it. -/
def putAlone (site : Site) (register : RegisterRef) (value : Value) : Except Fault Unit × Site :=
  match site.file.state register with
  | .null => (.ok (), site)
  | _ => site.perform (Action.put register value)

end Site

end NodeAssembly
