import NodeAssembly.Node.Execution
import NodeAssembly.Proofs.Instruction.Terms
import NodeAssembly.Proofs.Register.Access

/-! What one step of a run can do. An access to a register is done at once, or
starts a call, or takes the call one step further, and a sleep goes on from look
to look; all other requests of a script are answered at once. A run goes from
stage to stage, and at two of them it follows a script. -/

namespace NodeAssembly

namespace Bus.Slot

inductive Looks (slot : Slot) : Call → Bus.Step → Prop
  | full {value other : Value} (waiting : slot.value = some other) :
      Looks slot (.deposit value) .wait
  | deposits {value : Value} (free : slot.value = none) :
      Looks slot (.deposit value)
        (.proceed { slot with value := some value, deposited := slot.deposited + 1 }
          (.confirm (slot.deposited + 1)))
  | early {ticket : Nat} (missing : slot.taken < ticket) : Looks slot (.confirm ticket) .wait
  | confirms {ticket : Nat} (taken : ticket ≤ slot.taken) :
      Looks slot (.confirm ticket) (.finish slot none)
  | lacks (free : slot.value = none) : Looks slot .receive .wait
  | receives {value : Value} (waiting : slot.value = some value) :
      Looks slot .receive
        (.finish { slot with value := none, taken := slot.taken + 1 } (some value))
  | misses (free : slot.value = none) : Looks slot .observe .wait
  | observes {value : Value} (waiting : slot.value = some value) :
      Looks slot .observe (.finish slot none)

theorem step_looks (slot : Slot) (call : Call) : slot.Looks call (slot.step call) := by
  cases call with
  | deposit value =>
      simp only [step]
      split
      next waiting => exact .full waiting
      next free => exact .deposits free
  | confirm ticket =>
      simp only [step]
      split
      next missing => exact .early missing
      next taken => exact .confirms (Nat.le_of_not_lt taken)
  | receive =>
      simp only [step]
      split
      next waiting => exact .receives waiting
      next free => exact .lacks free
  | observe =>
      simp only [step]
      split
      next waiting => exact .observes waiting
      next free => exact .misses free

end Bus.Slot

namespace Node

theorem claim_eq_ok {node after : Node} (claimed : node.claim = .ok after) :
    node.running = false ∧ after = { node with running := true } := by
  unfold claim at claimed
  split at claimed
  · cases claimed
  next free =>
    cases claimed
    exact ⟨eq_false_of_ne_true free, rfl⟩

theorem claim_eq_error_iff (node : Node) :
    node.claim = .error .alreadyRunning ↔ node.running = true := by
  unfold claim
  split
  next running => simp [running]
  next free => simp [free]

theorem size_spend (node : Node) (position : Nat) :
    (node.spend position).spent.size = node.spent.size := by
  unfold spend
  split
  · split
    · exact Array.size_setIfInBounds
    · rfl
  · rfl

theorem program_spend (node : Node) (position : Nat) :
    (node.spend position).program = node.program := by
  unfold spend
  split
  · split <;> rfl
  · rfl

theorem running_spend (node : Node) (position : Nat) :
    (node.spend position).running = node.running := by
  unfold spend
  split
  · split <;> rfl
  · rfl

theorem file_spend (node : Node) (position : Nat) : (node.spend position).file = node.file := by
  unfold spend
  split
  · split <;> rfl
  · rfl

end Node

namespace Execution

/-- The run with another register file. -/
def withFile (execution : Execution) (file : RegisterFile) : Execution :=
  { execution with node := { execution.node with file := file } }

/-- The run with another call under way. -/
def withCall (execution : Execution) (call : Option (Nat × Bus.Call)) : Execution :=
  { execution with call := call }

/-- The run at another time. -/
def withTimer (execution : Execution) (timer : Timer) : Execution :=
  { execution with timer := timer }

variable {α : Type} {execution after : Execution} {board boardAfter : Board}

/-- How an access to a register can go on. -/
inductive Proceeds (execution : Execution) (board : Board) (start : Site → Access (Except Fault α))
    (received : Option Value → α) : Response (Except Fault α) → Prop
  | done (free : execution.call = none) {answer : Except Fault α} {site : Site}
      (accessed : start (execution.node.site board) = .done answer site) :
      Proceeds execution board start received
        (.answered answer (execution.withFile site.file) site.board)
  | called (free : execution.call = none) {channel : Nat} {call : Bus.Call}
      (accessed : start (execution.node.site board) = .call channel call) :
      Proceeds execution board start received
        (.moved (execution.withCall (some (channel, call))) board)
  | waits {channel : Nat} {call : Bus.Call} (calling : execution.call = some (channel, call))
      (waiting : board.stepCall channel call = .wait) :
      Proceeds execution board start received .blocked
  | proceeds {channel : Nat} {call next : Bus.Call} {boardAfter : Board}
      (calling : execution.call = some (channel, call))
      (step : board.stepCall channel call = .proceed boardAfter next) :
      Proceeds execution board start received
        (.moved (execution.withCall (some (channel, next))) boardAfter)
  | finishes {channel : Nat} {call : Bus.Call} {boardAfter : Board} {value : Option Value}
      (calling : execution.call = some (channel, call))
      (step : board.stepCall channel call = .finish boardAfter value) :
      Proceeds execution board start received
        (.answered (.ok (received value)) (execution.withCall none) boardAfter)

theorem access_proceeds (execution : Execution) (board : Board)
    (start : Site → Access (Except Fault α)) (received : Option Value → α) :
    Proceeds execution board start received (execution.access board start received) := by
  unfold access
  split
  next calling =>
    split
    next accessed => exact .done calling accessed
    next accessed => exact .called calling accessed
  next calling =>
    split
    next step => exact .waits calling step
    next step => exact .proceeds calling step
    next step => exact .finishes calling step

/-- How a sleep can go on. Nothing but the time changes. -/
inductive Dozes (execution : Execution) (board : Board) (ticks : Int32) : Response Unit → Prop
  | skips (awake : execution.timer.deadline = none)
      (off : execution.node.nanoseconds? ticks = none) :
      Dozes execution board ticks (.answered () (execution.withTimer execution.timer) board)
  | begins {duration : Nat} (awake : execution.timer.deadline = none)
      (on : execution.node.nanoseconds? ticks = some duration) :
      Dozes execution board ticks
        (.moved (execution.withTimer (execution.timer.lieDown duration)) board)
  | stopped {deadline : Nat} (asleep : execution.timer.deadline = some deadline)
      (stopped : execution.node.running = false) :
      Dozes execution board ticks (.answered () (execution.withTimer execution.timer.getUp) board)
  | wakes {deadline : Nat} (asleep : execution.timer.deadline = some deadline)
      (running : execution.node.running = true) (past : deadline ≤ execution.timer.look.now) :
      Dozes execution board ticks
        (.answered () (execution.withTimer execution.timer.look.getUp) board)
  | goesOn {deadline : Nat} (asleep : execution.timer.deadline = some deadline)
      (running : execution.node.running = true) (early : execution.timer.look.now < deadline) :
      Dozes execution board ticks
        (.moved (execution.withTimer (execution.timer.look.sleepOn deadline)) board)

theorem sleep_dozes (execution : Execution) (board : Board) (ticks : Int32) :
    Dozes execution board ticks (execution.sleep board ticks) := by
  unfold sleep
  split
  next awake =>
    split
    next off => exact .skips awake off
    next on => exact .begins awake on
  next asleep =>
    split
    next running =>
      simp only
      split
      next past => exact .wakes asleep running past
      next early => exact .goesOn asleep running (Nat.lt_of_not_le early)
    next stopped => exact .stopped asleep (eq_false_of_ne_true stopped)

theorem respond_sleep (execution : Execution) (board : Board) (ticks : Int32) :
    execution.respond board (.sleep ticks) = execution.sleep board ticks := rfl

theorem withTimer_of_sleep_answered {ticks : Int32} {answer : Unit}
    (responds : execution.sleep board ticks = .answered answer after boardAfter) :
    ∃ timer, after = execution.withTimer timer ∧ boardAfter = board := by
  have dozes := sleep_dozes execution board ticks
  rw [responds] at dozes
  cases dozes <;> exact ⟨_, rfl, rfl⟩

theorem withTimer_of_sleep_moved {ticks : Int32}
    (responds : execution.sleep board ticks = .moved after boardAfter) :
    ∃ timer, after = execution.withTimer timer ∧ boardAfter = board := by
  have dozes := sleep_dozes execution board ticks
  rw [responds] at dozes
  cases dozes <;> exact ⟨_, rfl, rfl⟩

theorem respond_read (execution : Execution) (board : Board) (register : RegisterRef) :
    execution.respond board (.read register) =
      execution.access board (·.read register) (·.getD .null) := rfl

theorem respond_write (execution : Execution) (board : Board) (register : RegisterRef)
    (value : Value) : execution.respond board (.write register value) =
      execution.access board (·.write register value) fun _ => () := rfl

theorem respond_observe (execution : Execution) (board : Board) (register : RegisterRef) :
    execution.respond board (.observe register) =
      execution.access board (·.observe register) fun _ => () := rfl

/-- A step of a script answers its request or leaves it to be asked again. -/
theorem stepScript_cases {script next : Script α}
    (step : execution.stepScript board script = some (after, boardAfter, next)) :
    ∃ request resume, script = .ask request resume ∧
      ((∃ answer, execution.respond board request = .answered answer after boardAfter ∧
          next = resume answer) ∨
        (execution.respond board request = .moved after boardAfter ∧ next = script)) := by
  cases script with
  | done result => cases step
  | ask request resume =>
      refine ⟨request, resume, rfl, ?_⟩
      simp only [stepScript] at step
      cases response : execution.respond board request with
      | answered answer execution board =>
          rw [response] at step
          cases step
          exact .inl ⟨answer, rfl, rfl⟩
      | moved execution board =>
          rw [response] at step
          cases step
          exact .inr ⟨rfl, rfl⟩
      | blocked =>
          rw [response] at step
          cases step

/-- A script that gives up goes on with the fault of the bus. -/
theorem expireScript_cases {script next : Script α}
    (step : execution.expireScript board script = some (after, boardAfter, next)) :
    ∃ request resume channel call answer, script = .ask request resume ∧
      execution.call = some (channel, call) ∧ after = execution.withCall none ∧
      boardAfter = (board.expireCall channel call).1 ∧
      faultAnswer? (board.expireCall channel call).2 request = some answer ∧
      next = resume answer := by
  cases script with
  | done result => cases step
  | ask request resume =>
      simp only [expireScript] at step
      cases calling : execution.call with
      | none =>
          rw [calling] at step
          cases step
      | some called =>
          rw [calling] at step
          rcases called with ⟨channel, call⟩
          rcases Option.map_eq_some_iff.mp step with ⟨answer, answered, equal⟩
          cases equal
          exact ⟨request, resume, channel, call, answer, rfl, rfl, rfl, rfl, answered, rfl⟩

/-- What a request leaves as it is. Of the node it changes nothing but the
registers, it does not move the run, and only one kind of request ends it. -/
structure Carries (request : Request) (before after : Execution) : Prop where
  node : ∃ file, after.node = { before.node with file := file }
  position : after.position = before.position
  skipped : after.skipped = before.skipped
  halted : request ≠ .stop → after.halted = before.halted

theorem Carries.running {request : Request} (carries : Carries request execution after) :
    after.node.running = execution.node.running := by
  rcases carries.node with ⟨file, same⟩
  rw [same]

theorem carries_withFile (request : Request) (execution : Execution) (file : RegisterFile) :
    Carries request execution (execution.withFile file) :=
  ⟨⟨file, rfl⟩, rfl, rfl, fun _ => rfl⟩

theorem carries_withCall (request : Request) (execution : Execution)
    (call : Option (Nat × Bus.Call)) : Carries request execution (execution.withCall call) :=
  ⟨⟨execution.node.file, rfl⟩, rfl, rfl, fun _ => rfl⟩

theorem carries_withTimer (request : Request) (execution : Execution) (timer : Timer) :
    Carries request execution (execution.withTimer timer) :=
  ⟨⟨execution.node.file, rfl⟩, rfl, rfl, fun _ => rfl⟩

theorem Proceeds.carries {start : Site → Access (Except Fault α)} {received : Option Value → α}
    {response : Response (Except Fault α)}
    (proceeds : Proceeds execution board start received response) (request : Request) :
    (∀ answer after boardAfter, response = .answered answer after boardAfter →
      Carries request execution after) ∧
    ∀ after boardAfter, response = .moved after boardAfter → Carries request execution after := by
  cases proceeds
  all_goals
    refine ⟨fun answer after boardAfter equal => ?_, fun after boardAfter equal => ?_⟩
    all_goals cases equal
  · exact carries_withFile request execution _
  · exact carries_withCall request execution _
  · exact carries_withCall request execution _
  · exact carries_withCall request execution none

theorem carries_of_moved {request : Request}
    (responds : execution.respond board request = .moved after boardAfter) :
    Carries request execution after := by
  cases request with
  | read register =>
      exact (access_proceeds execution board (·.read register) _).carries _ |>.2 _ _ responds
  | write register value =>
      exact (access_proceeds execution board (·.write register value) _).carries _ |>.2 _ _ responds
  | observe register =>
      exact (access_proceeds execution board (·.observe register) _).carries _ |>.2 _ _ responds
  | sleep ticks =>
      rcases withTimer_of_sleep_moved responds with ⟨timer, rfl, rfl⟩
      exact carries_withTimer _ execution timer
  | _ => cases responds

theorem carries_of_answered {request : Request} {answer : request.Answer}
    (responds : execution.respond board request = .answered answer after boardAfter) :
    Carries request execution after := by
  cases request with
  | read register =>
      exact (access_proceeds execution board (·.read register) _).carries _ |>.1 _ _ _ responds
  | write register value =>
      exact (access_proceeds execution board (·.write register value) _).carries _ |>.1 _ _ _ responds
  | observe register =>
      exact (access_proceeds execution board (·.observe register) _).carries _ |>.1 _ _ _ responds
  | jump label =>
      simp only [respond, jump] at responds
      split at responds
      all_goals
        cases responds
        exact ⟨⟨execution.node.file, rfl⟩, rfl, rfl, fun _ => rfl⟩
  | stop =>
      cases responds
      exact ⟨⟨execution.node.file, rfl⟩, rfl, rfl, fun other => absurd rfl other⟩
  | running =>
      cases responds
      exact ⟨⟨execution.node.file, rfl⟩, rfl, rfl, fun _ => rfl⟩
  | sleep ticks =>
      rcases withTimer_of_sleep_answered responds with ⟨timer, rfl, rfl⟩
      exact carries_withTimer _ execution timer

theorem stepScript_carries {script next : Script α}
    (step : execution.stepScript board script = some (after, boardAfter, next)) :
    ∃ request resume, script = .ask request resume ∧ Carries request execution after := by
  rcases stepScript_cases step with ⟨request, resume, rfl, ⟨answer, responds, _⟩ | ⟨responds, _⟩⟩
  · exact ⟨request, resume, rfl, carries_of_answered responds⟩
  · exact ⟨request, resume, rfl, carries_of_moved responds⟩

theorem expireScript_carries {script next : Script α}
    (step : execution.expireScript board script = some (after, boardAfter, next)) :
    ∃ request resume, script = .ask request resume ∧ Carries request execution after := by
  rcases expireScript_cases step with
    ⟨request, resume, channel, call, answer, rfl, calling, rfl, rfl, answered, rfl⟩
  exact ⟨request, resume, rfl, carries_withCall request execution none⟩

end Execution

/-- The stage of a run without the script that it follows there. -/
inductive Phase where
  | visiting
  | executing
  | notifying (event : Event)
  | finished (ending : Ending)

def Stage.phase {σ : Type} : Stage σ → Phase
  | .visiting => .visiting
  | .executing _ => .executing
  | .notifying event _ => .notifying event
  | .finished ending => .finished ending

/-- Whether the run has not left its loop. -/
def Phase.isLooping : Phase → Bool
  | .visiting => true
  | .executing => true
  | .notifying (.executed _ _) => true
  | .notifying (.skipped _) => true
  | .notifying .stopped => false
  | .notifying (.faulted _) => false
  | .finished _ => false

namespace Agent

variable {σ : Type} {audience : Audience σ} {agent : Agent σ} {board : Board}
  {result : Agent σ × Board}

def phase (agent : Agent σ) : Phase :=
  agent.stage.phase

/-- Whether the listeners are about to ask the node to stop. -/
def asksStop (agent : Agent σ) : Bool :=
  match agent.stage with
  | .notifying _ (.done (_, reaction)) => reaction.stop
  | _ => false

inductive Moves (audience : Audience σ) (agent : Agent σ) (board : Board) :
    Agent σ × Board → Prop
  | visits (stage : agent.stage = .visiting) :
      Moves audience agent board (agent.visit audience board)
  | faults {fault : Fault} (stage : agent.stage = .executing (.done (.error fault))) :
      Moves audience agent board (agent.conclude audience board (.error fault))
  | completes {entry : Entry} (stage : agent.stage = .executing (.done (.ok ())))
      (found : agent.execution.node.program.entries[agent.execution.position]? = some entry) :
      Moves audience agent board (agent.send audience
        (.executed agent.execution.position entry.instruction.opcode), board)
  | leaves (stage : agent.stage = .executing (.done (.ok ())))
      (missing : agent.execution.node.program.entries[agent.execution.position]? = none) :
      Moves audience agent board (agent.conclude audience board (.ok ()))
  | executes {script next : Script (Except Fault Unit)} {execution : Execution} {after : Board}
      (stage : agent.stage = .executing script)
      (step : agent.execution.stepScript board script = some (execution, after, next)) :
      Moves audience agent board
        ({ agent with execution := execution, stage := .executing next }, after)
  | reacts {event : Event} {listeners : σ} {reaction : Reaction}
      (stage : agent.stage = .notifying event (.done (listeners, reaction))) :
      Moves audience agent board (agent.react board event listeners reaction)
  | notifies {event : Event} {script next : Script (σ × Reaction)} {execution : Execution}
      {after : Board} (stage : agent.stage = .notifying event script)
      (step : agent.execution.stepScript board script = some (execution, after, next)) :
      Moves audience agent board
        ({ agent with execution := execution, stage := .notifying event next }, after)

theorem step_moves (step : agent.step audience board = some result) :
    Moves audience agent board result := by
  unfold Agent.step at step
  split at step
  next => cases step
  next stage =>
    rw [← Option.some.inj step]
    exact .visits stage
  next stage =>
    rw [← Option.some.inj step]
    exact .faults stage
  next stage =>
    simp only at step
    split at step
    next found =>
      rw [← Option.some.inj step]
      exact .completes stage found
    next missing =>
      rw [← Option.some.inj step]
      exact .leaves stage missing
  next stage =>
    rcases Option.map_eq_some_iff.mp step with ⟨⟨execution, after, next⟩, scriptStep, rfl⟩
    exact .executes stage scriptStep
  next stage =>
    rw [← Option.some.inj step]
    exact .reacts stage
  next stage =>
    rcases Option.map_eq_some_iff.mp step with ⟨⟨execution, after, next⟩, scriptStep, rfl⟩
    exact .notifies stage scriptStep

/-- What a run can find when it looks at an entry. -/
inductive Finds (audience : Audience σ) (agent : Agent σ) (board : Board) :
    Agent σ × Board → Prop
  | nothing
      (missing : agent.execution.node.program.entries[agent.execution.position]? = none) :
      Finds audience agent board (agent.conclude audience board (.ok ()))
  | stopped {entry : Entry}
      (found : agent.execution.node.program.entries[agent.execution.position]? = some entry)
      (stopped : agent.execution.isRunning = false) :
      Finds audience agent board (agent.conclude audience board (.ok ()))
  | exhausted {entry : Entry}
      (found : agent.execution.node.program.entries[agent.execution.position]? = some entry)
      (running : agent.execution.isRunning = true)
      (spent : agent.execution.node.isSpent agent.execution.position = true)
      (full : agent.execution.skipped = agent.execution.node.program.size) :
      Finds audience agent board
        (agent.conclude audience (agent.log board .debug "every instruction is spent" []) (.ok ()))
  | spent {entry : Entry}
      (found : agent.execution.node.program.entries[agent.execution.position]? = some entry)
      (running : agent.execution.isRunning = true)
      (spent : agent.execution.node.isSpent agent.execution.position = true)
      (lacking : agent.execution.skipped ≠ agent.execution.node.program.size) :
      Finds audience agent board
        (({ agent with execution :=
            { agent.execution with skipped := agent.execution.skipped + 1 } } : Agent σ).send
          audience (.skipped agent.execution.position), board)
  | fresh {entry : Entry}
      (found : agent.execution.node.program.entries[agent.execution.position]? = some entry)
      (running : agent.execution.isRunning = true)
      (fresh : agent.execution.node.isSpent agent.execution.position = false) :
      Finds audience agent board
        ({ agent with
          execution := agent.execution.enter
          stage := .executing
            (entry.instruction.execute agent.execution.node.program.table.accumulator).run }, board)

theorem visit_finds (audience : Audience σ) (agent : Agent σ) (board : Board) :
    Finds audience agent board (agent.visit audience board) := by
  unfold visit
  simp only
  split
  next missing => exact .nothing missing
  next found =>
    split
    next stopped => exact .stopped found (by simpa using stopped)
    next running =>
      replace running : agent.execution.isRunning = true := by simpa using running
      split
      next spent =>
        split
        next full => exact .exhausted found running spent full
        next lacking => exact .spent found running spent lacking
      next fresh => exact .fresh found running (eq_false_of_ne_true fresh)

/-- The run after it has taken in what the listeners asked for. -/
def heed (agent : Agent σ) (listeners : σ) (reaction : Reaction) : Agent σ :=
  { agent with
    listeners := listeners
    execution := { agent.execution with
      node := if reaction.stop then agent.execution.node.stop else agent.execution.node } }

theorem react_of_unbroken {listeners : σ} {reaction : Reaction}
    (unbroken : reaction.broken = false) (event : Event) :
    (agent.react board event listeners reaction).1 =
      (agent.heed listeners reaction).resume event := by
  rcases reaction with ⟨stop, restart, broken⟩
  cases unbroken
  cases stop <;> rfl

inductive GivesUp (agent : Agent σ) (board : Board) : Agent σ × Board → Prop
  | executes {script next : Script (Except Fault Unit)} {execution : Execution} {after : Board}
      (stage : agent.stage = .executing script)
      (step : agent.execution.expireScript board script = some (execution, after, next)) :
      GivesUp agent board ({ agent with execution := execution, stage := .executing next }, after)
  | notifies {event : Event} {script next : Script (σ × Reaction)} {execution : Execution}
      {after : Board} (stage : agent.stage = .notifying event script)
      (step : agent.execution.expireScript board script = some (execution, after, next)) :
      GivesUp agent board
        ({ agent with execution := execution, stage := .notifying event next }, after)

theorem expire_givesUp (step : agent.expire board = some result) : GivesUp agent board result := by
  unfold expire at step
  split at step
  next stage =>
    rcases Option.map_eq_some_iff.mp step with ⟨⟨execution, after, next⟩, scriptStep, rfl⟩
    exact .executes stage scriptStep
  next stage =>
    rcases Option.map_eq_some_iff.mp step with ⟨⟨execution, after, next⟩, scriptStep, rfl⟩
    exact .notifies stage scriptStep
  next => cases step

end Agent

end NodeAssembly
