import NodeAssembly.Proofs.Node.Listeners
import NodeAssembly.Proofs.Node.References
import NodeAssembly.Proofs.Node.Solo

/-! The speed of the clock does not matter to what a node does. The clock says how
long a tick is, for which a run waits after every instruction, and how long a run
sleeps. But how much time has passed is nothing that an instruction can tell. So
two runs of a node alone that start with different speeds, on boards where time
passes differently and that offer different seeds, do the same, as long as nobody
looks at the clock or draws from a random register without a seed. -/

namespace NodeAssembly

/-- The node with its clock set to a speed. -/
def Node.paced (node : Node) (speed : Int32) : Node :=
  { node with file := node.file.update node.program.table.clock (.clock (.ofSpeed speed)) }

/-- Whether the random register of a cell was never given a seed. -/
def RegisterFile.unseeded (file : RegisterFile) (cell : Nat) : Bool :=
  match file[cell]? with
  | some (.random generator) => generator.stream.isNone
  | _ => false

/-- The run with other registers and at another time. -/
def Agent.elsewhere {σ : Type} (agent : Agent σ) (file : RegisterFile) (timer : Timer) : Agent σ :=
  { agent with execution := (agent.execution.withFile file).withTimer timer }

namespace Solo

variable {σ : Type}

def start (node : Node) (listeners : σ) (board : Board) : Solo σ :=
  let (agent, board) := Agent.start { node with running := true } listeners board
  ⟨agent, board, node.file.unseeded⟩

/-- Whether a random register without a seed is about to be read. -/
def guesses (solo : Solo σ) : Bool :=
  match solo.agent.request? with
  | some (.read register) =>
    match solo.file.state register with
    | .random _ => solo.unseeded register.cell
    | _ => false
  | _ => false

end Solo

/-- Those who listen do not look at the clock and write no references, now and
after whatever they hear of. -/
def Audience.Untimed {σ : Type} (audience : Audience σ) (clock : RegisterRef) (listeners : σ) :
    Prop :=
  ∃ fine : σ → Prop, fine listeners ∧ ∀ running event current, fine current →
    (audience.notify running event current).Keeps (.untimed clock) fun result => fine result.1

theorem Audience.Untimed.notify {σ : Type} {audience : Audience σ} {clock : RegisterRef}
    {listeners : σ} (untimed : audience.Untimed clock listeners) (running : Bool) (event : Event) :
    (audience.notify running event listeners).Keeps (.untimed clock)
      fun result => audience.Untimed clock result.1 := by
  rcases untimed with ⟨fine, now, further⟩
  exact (further running event listeners now).imp fun result later => ⟨fine, later, further⟩

/-! ## Steps that ask for nothing -/

theorem Node.spend_withFile (node : Node) (file : RegisterFile) (position : Nat) :
    ({ node with file := file } : Node).spend position =
      { node.spend position with file := file } := by
  unfold spend
  simp only
  split
  · split <;> rfl
  · rfl

namespace Agent

variable {σ : Type} (audience : Audience σ) (agent : Agent σ) (board : Board)
  (file : RegisterFile) (timer : Timer) (outside : Outside)

/-- The outcome of a step with other registers, at another time and with something
else outside. -/
def relocate (outcome : Agent σ × Board) : Agent σ × Board :=
  (outcome.1.elsewhere file timer, outcome.2.withOutside outside)

theorem visit_of_finds {result : Agent σ × Board} (finds : Finds audience agent board result) :
    agent.visit audience board = result := by
  unfold visit
  cases finds with
  | nothing missing => simp only [missing]
  | stopped found stopped => simp only [found, stopped, Bool.not_false, if_true]
  | exhausted found running spent full =>
      simp only [found, running, spent, full, Bool.not_true, Bool.false_eq_true, if_true, if_false]
  | spent found running spent lacking =>
      simp only [found, running, spent, lacking, Bool.not_true, Bool.false_eq_true, if_true,
        if_false]
  | fresh found running fresh =>
      simp only [found, running, fresh, Bool.not_true, Bool.false_eq_true, if_false]

/-- When an instruction begins the run looks at the time, but goes on all the same. -/
theorem visit_elsewhere : ∃ later,
    (agent.elsewhere file timer).visit audience (board.withOutside outside) =
      relocate file later outside (agent.visit audience board) := by
  have finds := visit_finds audience agent board
  generalize agent.visit audience board = result at finds
  cases finds with
  | nothing missing => exact ⟨timer, visit_of_finds audience _ _ (.nothing missing)⟩
  | stopped found stopped => exact ⟨timer, visit_of_finds audience _ _ (.stopped found stopped)⟩
  | exhausted found running spent full =>
      exact ⟨timer, visit_of_finds audience _ _ (.exhausted found running spent full)⟩
  | spent found running spent lacking =>
      exact ⟨timer, visit_of_finds audience _ _ (.spent found running spent lacking)⟩
  | fresh found running fresh =>
      exact ⟨_, visit_of_finds audience _ _ (.fresh found running fresh)⟩

/-- After an instruction the run waits for the rest of the tick. -/
theorem resume_elsewhere (event : Event) : ∃ later,
    (agent.elsewhere file timer).resume event = (agent.resume event).elsewhere file later := by
  cases event with
  | executed position opcode =>
      refine ⟨timer.finishTick, ?_⟩
      simp only [resume, elsewhere, Execution.withFile, Execution.withTimer, Node.spend_withFile]
      rfl
  | _ => exact ⟨timer, rfl⟩

theorem heed_elsewhere (listeners : σ) (reaction : Reaction) :
    (agent.elsewhere file timer).heed listeners reaction =
      (agent.heed listeners reaction).elsewhere file timer := by
  rcases reaction with ⟨stop, restart, broken⟩
  cases stop <;> rfl

theorem react_eq (event : Event) (listeners : σ) (reaction : Reaction) :
    agent.react board event listeners reaction =
      (if reaction.broken then { agent.heed listeners reaction with stage := .finished .broken }
        else (agent.heed listeners reaction).resume event,
      if reaction.restart && agent.execution.node.running then
        agent.log board .warning "node is already running" []
      else board) := by
  rcases reaction with ⟨stop, restart, broken⟩
  cases stop <;> cases broken <;> rfl

theorem react_elsewhere (event : Event) (listeners : σ) (reaction : Reaction) : ∃ later,
    (agent.elsewhere file timer).react (board.withOutside outside) event listeners reaction =
      relocate file later outside (agent.react board event listeners reaction) := by
  rw [react_eq, react_eq, heed_elsewhere]
  have noted : (if reaction.restart && (agent.elsewhere file timer).execution.node.running then
      (agent.elsewhere file timer).log (board.withOutside outside) .warning
        "node is already running" [] else board.withOutside outside) =
      (if reaction.restart && agent.execution.node.running then
        agent.log board .warning "node is already running" [] else board).withOutside outside := by
    have same : (agent.elsewhere file timer).execution.node.running =
        agent.execution.node.running := rfl
    rw [same]
    cases reaction.restart && agent.execution.node.running <;> rfl
  cases reaction.broken with
  | true => exact ⟨timer, Prod.ext rfl noted⟩
  | false =>
      rcases (agent.heed listeners reaction).resume_elsewhere file timer event with ⟨later, resumed⟩
      exact ⟨later, Prod.ext resumed noted⟩

/-- A step that asks for nothing does not depend on the registers, the time or what
is outside. -/
theorem step_elsewhere (idle : agent.request? = none) : ∃ later,
    (agent.elsewhere file timer).step audience (board.withOutside outside) =
      (agent.step audience board).map (relocate file later outside) := by
  rcases agent with ⟨execution, listeners, stage⟩
  cases stage with
  | visiting =>
      rcases visit_elsewhere audience ⟨execution, listeners, .visiting⟩ board file timer outside with
        ⟨later, visited⟩
      exact ⟨later, congrArg some visited⟩
  | finished ending => exact ⟨timer, rfl⟩
  | executing script =>
      cases script with
      | ask request resume => cases idle
      | done result =>
          refine ⟨timer, ?_⟩
          cases result with
          | error fault => rfl
          | ok result =>
              simp only [step, elsewhere, Execution.withFile, Execution.withTimer]
              cases execution.node.program.entries[execution.position]? <;> rfl
  | notifying event script =>
      cases script with
      | ask request resume => cases idle
      | done result =>
          rcases react_elsewhere ⟨execution, listeners, .notifying event (.done result)⟩ board file
            timer outside event result.1 result.2 with ⟨later, reacted⟩
          exact ⟨later, congrArg some reacted⟩

/-- Such a step changes neither the registers nor what is outside. -/
theorem step_of_idle (idle : agent.request? = none) {result : Agent σ × Board}
    (step : agent.step audience board = some result) :
    result.1.execution.node.file = agent.execution.node.file ∧
      result.2.outside = board.outside := by
  -- The registers, the time and what is outside may be replaced by themselves.
  rcases step_elsewhere audience agent board agent.execution.node.file agent.execution.timer
    board.outside idle with ⟨later, same⟩
  have again : (agent.elsewhere agent.execution.node.file agent.execution.timer).step audience
      (board.withOutside board.outside) = some result := step
  rw [again, step] at same
  have equal := Option.some.inj same
  rw [equal]
  exact ⟨rfl, rfl⟩

end Agent

/-! ## Programs that do not look at the clock -/

/-- No operand of the program is the clock. -/
def Program.Untimed (program : Program) : Prop :=
  ∀ register ∈ program.footprint.sources, register.isSame program.table.clock = false

instance (program : Program) : Decidable program.Untimed :=
  inferInstanceAs (Decidable (∀ register ∈ program.footprint.sources,
    register.isSame program.table.clock = false))

theorem Program.Untimed.allows {program : Program} (untimed : program.Untimed) :
    (Terms.untimed program.table.clock).Allows program.footprint where
  reads := untimed
  writes _ _ _ flat := flat
  observes _ _ := trivial
  jumps _ _ := trivial

/-- Whatever is left of the scripts of a stage does not look at the clock. -/
def Stage.Untimed {σ : Type} (audience : Audience σ) (clock : RegisterRef) : Stage σ → Prop
  | .executing script => Action.Keeps (.untimed clock) (fun _ => True) script
  | .notifying _ script =>
    script.Keeps (.untimed clock) fun result => audience.Untimed clock result.1
  | _ => True

namespace Agent

variable {σ : Type}

/-- The invariant of a run alone. -/
structure Untimed (audience : Audience σ) (program : Program) (agent : Agent σ) : Prop where
  solitary : agent.execution.Solitary program
  listens : audience.Untimed program.table.clock agent.listeners
  stage : agent.stage.Untimed audience program.table.clock

variable {audience : Audience σ} {program : Program} {agent : Agent σ} {board : Board}

theorem untimed_send (solitary : agent.execution.Solitary program)
    (listens : audience.Untimed program.table.clock agent.listeners) (event : Event) :
    (agent.send audience event).Untimed audience program :=
  ⟨solitary, listens, listens.notify _ event⟩

theorem untimed_conclude (solitary : agent.execution.Solitary program)
    (listens : audience.Untimed program.table.clock agent.listeners)
    (result : Except Fault Unit) :
    (agent.conclude audience board result).1.Untimed audience program := by
  have stopped : Execution.Solitary program
      { agent.execution with node := agent.execution.node.stop } :=
    ⟨solitary.runs, solitary.flat, solitary.noBus, solitary.free⟩
  cases result with
  | ok result => exact ⟨stopped, listens, listens.notify _ _⟩
  | error fault => exact ⟨stopped, listens, listens.notify _ _⟩

theorem untimed_visit (untimed : program.Untimed) (solitary : agent.execution.Solitary program)
    (listens : audience.Untimed program.table.clock agent.listeners) :
    (agent.visit audience board).1.Untimed audience program := by
  have finds := visit_finds audience agent board
  generalize agent.visit audience board = result at finds
  cases finds with
  | spent found running spent lacking =>
      exact ⟨⟨solitary.runs, solitary.flat, solitary.noBus, solitary.free⟩, listens,
        listens.notify _ _⟩
  | fresh found running fresh =>
      refine ⟨⟨solitary.runs, solitary.flat, solitary.noBus, solitary.free⟩, listens, ?_⟩
      rw [solitary.runs] at found ⊢
      have allows := Program.allows_entry untimed.allows (Array.mem_of_getElem? found)
      exact Instruction.execute_keeps (Terms.untimed_fair _) _ allows
  | _ => exact untimed_conclude solitary listens _

theorem untimed_resume (solitary : agent.execution.Solitary program)
    (listens : audience.Untimed program.table.clock agent.listeners) (event : Event) :
    (agent.resume event).Untimed audience program := by
  cases event with
  | executed position opcode =>
      have same := Node.file_spend agent.execution.node position
      refine ⟨⟨(Node.program_spend _ _).trans solitary.runs, ?_, ?_, solitary.free⟩, listens,
        trivial⟩
      · exact same.symm ▸ solitary.flat
      · exact same.symm ▸ solitary.noBus
  | skipped position =>
      exact ⟨⟨solitary.runs, solitary.flat, solitary.noBus, solitary.free⟩, listens, trivial⟩
  | stopped => exact ⟨solitary, listens, trivial⟩
  | faulted fault => exact ⟨solitary, listens, trivial⟩

theorem untimed_react (solitary : agent.execution.Solitary program) (event : Event) {listeners : σ}
    (listens : audience.Untimed program.table.clock listeners) (reaction : Reaction) :
    (agent.react board event listeners reaction).1.Untimed audience program := by
  have heeded : (agent.heed listeners reaction).execution.Solitary program := by
    rcases reaction with ⟨stop, restart, broken⟩
    cases stop <;> exact ⟨solitary.runs, solitary.flat, solitary.noBus, solitary.free⟩
  rw [react_eq]
  cases reaction.broken with
  | true => exact ⟨heeded, listens, trivial⟩
  | false => exact untimed_resume heeded listens event

theorem untimed_of_idle (allUntimed : program.Untimed) (untimed : agent.Untimed audience program)
    (idle : agent.request? = none) {result : Agent σ × Board}
    (step : agent.step audience board = some result) : result.1.Untimed audience program := by
  have solitary := untimed.solitary
  have listens := untimed.listens
  have stageUntimed := untimed.stage
  cases step_moves step with
  | visits stage => exact untimed_visit allUntimed solitary listens
  | faults stage => exact untimed_conclude solitary listens _
  | completes stage found => exact untimed_send solitary listens _
  | leaves stage missing => exact untimed_conclude solitary listens _
  | reacts stage =>
      rw [stage] at stageUntimed
      exact untimed_react solitary _ stageUntimed _
  | executes stage scriptStep =>
      rcases Execution.stepScript_cases scriptStep with ⟨request, resume, rfl, _⟩
      rw [request?, stage] at idle
      cases idle
  | notifies stage scriptStep =>
      rcases Execution.stepScript_cases scriptStep with ⟨request, resume, rfl, _⟩
      rw [request?, stage] at idle
      cases idle

end Agent

/-- The stage that follows a request keeps from the clock if the answer does. -/
theorem Stage.Untimed.of_asks {σ : Type} {audience : Audience σ} {clock : RegisterRef}
    {stage : Stage σ} {request : Request} {next : request.Answer → Stage σ}
    (untimed : stage.Untimed audience clock) (asks : stage.Asks request next) :
    (Terms.untimed clock).asks request ∧
      ∀ answer, (Terms.untimed clock).Admits request answer →
        (next answer).Untimed audience clock := by
  cases asks with
  | executing request resume => exact ⟨untimed.1, untimed.2⟩
  | notifying event request resume => exact ⟨untimed.1, untimed.2⟩

/-! ## Two runs -/

/-- The runs are at the same point, on boards that are the same but for what is
outside. Every register but the clock is the same, apart from random registers
without a seed if the boards offer different ones. -/
structure Solo.Alike {σ : Type} (clock : RegisterRef) (outside : Outside) (first second : Solo σ) :
    Prop where
  event : first.event? = second.event?
  sleep : first.sleep? = second.sleep?
  ending : first.agent.ending? = second.agent.ending?
  board : second.board = first.board.withOutside outside
  registers : ∀ register : RegisterRef, register.isSame clock = false →
    first.file.state register = second.file.state register ∨
      first.board.outside.entropy ≠ outside.entropy ∧ first.unseeded register.cell = true ∧
        ∃ left right, first.file.state register = .random left ∧
          second.file.state register = .random right

/-- What is kept of two runs. -/
structure Solo.Lockstep {σ : Type} (audience : Audience σ) (program : Program) (outside : Outside)
    (differ : Prop) (first second : Solo σ) : Prop where
  untimed : first.agent.Untimed audience program
  agent : second.agent = first.agent.elsewhere second.file second.agent.execution.timer
  board : second.board = first.board.withOutside outside
  writers : first.board.outside.writers = outside.writers
  entropies : differ ↔ first.board.outside.entropy ≠ outside.entropy
  files : first.file.Resembles program.table.clock differ first.unseeded second.file

namespace Solo

variable {σ : Type} {audience : Audience σ} {program : Program} {outside : Outside} {differ : Prop}
  {first second : Solo σ}

theorem Lockstep.request (lockstep : Lockstep audience program outside differ first second) :
    second.agent.request? = first.agent.request? := by
  rw [lockstep.agent]
  rfl

theorem Lockstep.stage (lockstep : Lockstep audience program outside differ first second) :
    second.agent.stage = first.agent.stage := by
  rw [lockstep.agent]
  rfl

theorem Lockstep.outsides (lockstep : Lockstep audience program outside differ first second) :
    first.board.outside.Resembles differ outside :=
  ⟨lockstep.writers, by rw [lockstep.entropies]; exact ne_or_eq _ _⟩

/-- While one run sleeps on the other one may stay where it is. -/
theorem Lockstep.doze (lockstep : Lockstep audience program outside differ first second)
    (dozes : first.dozes audience = true) :
    Lockstep audience program outside differ (first.step audience) second := by
  rcases step_of_dozes dozes with ⟨timer, step, _⟩
  rw [step]
  have solitary := lockstep.untimed.solitary
  exact {
    untimed := ⟨⟨solitary.runs, solitary.flat, solitary.noBus, solitary.free⟩,
      lockstep.untimed.listens, lockstep.untimed.stage⟩
    agent := lockstep.agent
    board := lockstep.board
    writers := lockstep.writers
    entropies := lockstep.entropies
    files := lockstep.files }

theorem Lockstep.dozeToo (lockstep : Lockstep audience program outside differ first second)
    (dozes : second.dozes audience = true) :
    Lockstep audience program outside differ first (second.step audience) := by
  rcases step_of_dozes dozes with ⟨timer, step, _⟩
  rw [step]
  exact {
    untimed := lockstep.untimed
    agent := congrArg (Agent.withTimer · timer) lockstep.agent
    board := lockstep.board
    writers := lockstep.writers
    entropies := lockstep.entropies
    files := lockstep.files }

theorem Lockstep.idle (untimed : program.Untimed)
    (lockstep : Lockstep audience program outside differ first second)
    (idle : first.agent.request? = none) :
    Lockstep audience program outside differ (first.step audience) (second.step audience) := by
  have secondIdle : second.agent.request? = none := lockstep.request.trans idle
  rcases Agent.step_elsewhere audience first.agent first.board second.file
    second.agent.execution.timer outside idle with ⟨later, steps⟩
  rw [← lockstep.agent, ← lockstep.board] at steps
  cases step : first.agent.step audience first.board with
  | none =>
      rw [step] at steps
      have firstStays : first.step audience = first := by rw [Solo.step, step]
      have secondStays : second.step audience = second := by
        rw [Solo.step, steps]
        rfl
      rw [firstStays, secondStays]
      exact lockstep
  | some result =>
      rcases result with ⟨agent, board⟩
      rw [step] at steps
      rcases Agent.step_of_idle audience first.agent first.board idle step with ⟨file, kept⟩
      rw [step_of_some step, step_of_some steps, idle, secondIdle]
      exact {
        untimed := Agent.untimed_of_idle untimed lockstep.untimed idle step
        agent := rfl
        board := rfl
        writers := (congrArg Outside.writers kept).trans lockstep.writers
        entropies := by
          rw [kept]
          exact lockstep.entropies
        files := by
          have same : Solo.file ⟨agent, board, first.unseeded⟩ = first.file := file
          rw [same]
          exact lockstep.files }

/-- Both runs wake up. -/
theorem Lockstep.wake (lockstep : Lockstep audience program outside differ first second)
    {ticks : Int32} (asks : first.agent.request? = some (.sleep ticks))
    (awake : first.dozes audience = false) (awakeToo : second.dozes audience = false) :
    Lockstep audience program outside differ (first.step audience) (second.step audience) := by
  rcases Agent.exists_asks asks with ⟨next, stage⟩
  rcases step_of_sleep stage asks with ⟨dozes, _⟩ | ⟨_, timer, step⟩
  · rw [awake] at dozes
    cases dozes
  rcases step_of_sleep (lockstep.stage ▸ stage) (lockstep.request.trans asks) with
    ⟨dozes, _⟩ | ⟨_, timerToo, stepToo⟩
  · rw [awakeToo] at dozes
    cases dozes
  rw [step, stepToo]
  have solitary := lockstep.untimed.solitary
  have nextUntimed := (lockstep.untimed.stage.of_asks stage).2 () trivial
  exact {
    untimed := ⟨⟨solitary.runs, solitary.flat, solitary.noBus, solitary.free⟩,
      lockstep.untimed.listens, nextUntimed⟩
    agent := congrArg (fun agent : Agent σ => { agent.withTimer timerToo with stage := next () })
      lockstep.agent
    board := lockstep.board
    writers := lockstep.writers
    entropies := lockstep.entropies
    files := lockstep.files }

/-- Both runs get the same answer in this step, because nothing has to wait. -/
theorem Lockstep.asking (lockstep : Lockstep audience program outside differ first second)
    (sure : differ → first.guesses = false) {request : Request}
    (asks : first.agent.request? = some request) (awake : ∀ ticks, request ≠ .sleep ticks) :
    Lockstep audience program outside differ (first.step audience) (second.step audience) := by
  have secondAsks : second.agent.request? = some request := lockstep.request.trans asks
  rcases Agent.exists_asks asks with ⟨next, stage⟩
  rcases lockstep.untimed.stage.of_asks stage with ⟨asked, nextUntimed⟩
  have surely : differ → ∀ register generator, request = .read register →
      first.file.state register = .random generator → first.unseeded register.cell = false := by
    rintro differs register generator rfl state
    have seeded := sure differs
    simp only [guesses, asks, state] at seeded
    exact seeded
  have steps := Agent.step_of_asks stage audience first.board
  have stageToo : second.agent.stage.Asks request next := lockstep.stage ▸ stage
  have stepsToo := Agent.step_of_asks stageToo audience second.board
  rw [lockstep.board] at stepsToo
  have matching := Execution.respond_matches lockstep.untimed.solitary lockstep.files
    lockstep.outsides asked awake surely second.agent.execution.timer
  have execution : second.agent.execution =
      (first.agent.execution.withFile second.file).withTimer second.agent.execution.timer :=
    congrArg Agent.execution lockstep.agent
  rw [← execution] at matching
  generalize responds : first.agent.execution.respond first.board request = response at matching
  generalize respondsToo : second.agent.execution.respond (first.board.withOutside outside)
    request = responseToo at matching
  cases matching with
  | @answered answer after board other related =>
      rw [responds] at steps
      rw [respondsToo, ← lockstep.board] at stepsToo
      rcases lockstep.untimed.solitary.respond asked responds with ⟨solitary, admitted⟩
      have kept := ((Agent.step_local audience first.agent).frame steps).outside
      have listeners : second.agent.listeners = first.agent.listeners := by
        rw [lockstep.agent]
        rfl
      rw [step_of_some steps, step_of_some stepsToo, asks, secondAsks, listeners]
      exact {
        untimed := ⟨solitary, lockstep.untimed.listens, nextUntimed answer admitted⟩
        agent := rfl
        board := rfl
        writers := (congrArg Outside.writers kept).symm.trans lockstep.writers
        entropies := by
          rw [← kept]
          exact lockstep.entropies
        files := related }

/-- One step of both runs, unless a seed is missed that the boards offer
differently. -/
theorem Lockstep.step (untimed : program.Untimed)
    (lockstep : Lockstep audience program outside differ first second)
    (sure : differ → first.guesses = false) (awake : first.dozes audience = false)
    (awakeToo : second.dozes audience = false) :
    Lockstep audience program outside differ (first.step audience) (second.step audience) := by
  cases asks : first.agent.request? with
  | none => exact lockstep.idle untimed asks
  | some request =>
      cases request with
      | sleep ticks => exact lockstep.wake asks awake awakeToo
      | _ => exact lockstep.asking sure asks nofun

theorem Lockstep.run (untimed : program.Untimed)
    (lockstep : Lockstep audience program outside differ first second)
    (sure : differ → ∀ index, (first.run audience index).guesses = false) {index other : Nat}
    (paired : Paired audience first second index other) :
    Lockstep audience program outside differ (first.run audience index)
      (second.run audience other) := by
  induction paired with
  | start => exact lockstep
  | left _ dozes induction => exact induction.doze dozes
  | right _ dozes induction => exact induction.dozeToo dozes
  | @both index _ _ awake awakeToo induction =>
      exact induction.step untimed (fun differs => sure differs index) awake awakeToo

theorem Lockstep.alike (lockstep : Lockstep audience program outside differ first second) :
    Alike program.table.clock outside first second where
  event := by
    unfold event? Agent.report?
    rw [lockstep.stage]
    split <;> rfl
  sleep := by
    rw [sleep?, sleep?, lockstep.request]
  ending := by
    unfold Agent.ending?
    rw [lockstep.stage]
  board := lockstep.board
  registers register apart := by
    have states := lockstep.files.states register
    generalize left : first.file.state register = one at states
    generalize right : second.file.state register = other at states
    cases states with
    | same => exact .inl rfl
    | clock timed => exact absurd timed (ne_true_of_eq_false apart)
    | random loose generator twin =>
        exact .inr ⟨lockstep.entropies.mp loose.1, loose.2, generator, twin, rfl, rfl⟩

/-- So many steps of one run and so many of the other have the same events, are done
with the same sleeps, and lead to the same point. -/
structure Level (audience : Audience σ) (clock : RegisterRef) (outside : Outside)
    (first second : Solo σ) (index other : Nat) : Prop where
  events : first.events audience index = second.events audience other
  sleeps : first.sleeps audience index = second.sleeps audience other
  alike : Alike clock outside (first.run audience index) (second.run audience other)

theorem Lockstep.level (untimed : program.Untimed)
    (lockstep : Lockstep audience program outside differ first second)
    (sure : differ → ∀ index, (first.run audience index).guesses = false) {index other : Nat}
    (paired : Paired audience first second index other) :
    Level audience program.table.clock outside first second index other where
  events := by
    refine Paired.trace_eq (fun _ => event_of_dozes) (fun before _ _ => ?_) paired
    exact (lockstep.run untimed sure before).alike.event
  sleeps := by
    refine Paired.trace_eq (fun _ dozes => if_pos dozes) (fun before awake awakeToo => ?_) paired
    rw [slept?, slept?, awake, awakeToo]
    exact (lockstep.run untimed sure before).alike.sleep
  alike := (lockstep.run untimed sure paired).alike

end Solo

theorem RegisterFile.stream_of_seeded {file : RegisterFile} {register : RegisterRef}
    {generator : Random.Generator} (state : file.state register = .random generator)
    (seeded : file.unseeded register.cell = false) : generator.stream.isSome = true := by
  rw [RegisterFile.state] at state
  rw [unseeded] at seeded
  cases found : file[register.cell]? with
  | none =>
      rw [found] at state
      cases state
  | some known =>
      rw [found] at state seeded
      cases state
      rw [← Option.not_isNone, Bool.not_eq_true']
      exact seeded

theorem RegisterFile.resembles_clock (file : RegisterFile) (clock : RegisterRef) (differ : Prop)
    (first second : Clock) :
    (file.update clock (.clock first)).Resembles clock differ
      (file.update clock (.clock first)).unseeded (file.update clock (.clock second)) where
  size := by
    rw [update, update, Array.size_setIfInBounds, Array.size_setIfInBounds]
  states := by
    intro register
    rw [state_update_eq, state_update_eq]
    split
    next here =>
      apply Register.Resembles.clock
      rw [RegisterRef.isSame, here.1]
      exact beq_self_eq_true _
    next => exact .same _
  streams := by
    intro register generator state seeded
    exact stream_of_seeded state seeded

theorem Node.solitary_paced (node : Node) (flat : node.file.Flat)
    (noBus : ∀ state ∈ node.file, state.pinKind? ≠ some .xbus) (speed : Int32) :
    (Execution.ofNode { node.paced speed with running := true }).Solitary node.program := by
  have settles : node.file.Settles (node.paced speed).file :=
    RegisterFile.settles_unwired (fun _ => trivial) rfl
  refine ⟨rfl, settles.flat flat, fun register channel wired => ?_, rfl⟩
  have before := settles.wires register _ wired
  rw [RegisterFile.wire?, RegisterFile.state] at before
  cases found : node.file[register.cell]? with
  | none =>
      rw [found] at before
      cases before
  | some state =>
      have kind := noBus state (Array.mem_of_getElem? found)
      rw [found] at before
      cases state with
      | pin own index =>
          cases before
          exact kind rfl
      | input input =>
          rw [Option.getD_some, Register.wire?] at before
          split at before <;> cases before
      | _ => cases before

/-- A node runs alone at two speeds, from states that are the same otherwise,
whatever was compiled and done before, and time may pass differently. If it has no
bus, and neither its program nor those who listen look at the clock, then wherever
one of the runs has come to, the other one comes to as well: with the same events
and the same sleeps before, the same request for a sleep or the same end, and the
same in every register but the clock. The boards may even offer different seeds, as
long as no random register is read without a seed of its own. -/
theorem pacing_irrelevant {σ : Type} (config : Config) (logger : Option Logger)
    (before : Outside) (input : List UInt8) (moves : List World.Move) {node : Node}
    (made : node ∈ ((World.facing config logger before input).run moves).nodes)
    (noBus : ∀ state ∈ node.file, state.pinKind? ≠ some .xbus) (untimed : node.program.Untimed)
    (spent : Array Bool) {audience : Audience σ} {listeners : σ}
    (listens : audience.Untimed node.program.table.clock listeners) (board : Board)
    (outside : Outside) (writers : board.outside.writers = outside.writers)
    (speed other : Int32) :
    let start (speed : Int32) (board : Board) :=
      Solo.start ({ node with spent := spent }.paced speed) listeners board
    let first := start speed board
    let second := start other (board.withOutside outside)
    let level := Solo.Level audience node.program.table.clock outside first second
    (board.outside.entropy ≠ outside.entropy →
      ∀ index, (first.run audience index).guesses = false) →
    (∀ index, ∃ other, level index other) ∧ ∀ other, ∃ index, level index other := by
  intro start first second level sure
  have clean := (World.clean_facing config logger before input).run moves
  have solitary := Node.solitary_paced { node with spent := spent } (clean.nodes node made) noBus
    speed
  have lockstep : Solo.Lockstep audience node.program outside
      (board.outside.entropy ≠ outside.entropy) first second := {
    untimed := ⟨⟨solitary.runs, solitary.flat, solitary.noBus, solitary.free⟩, listens, trivial⟩
    agent := rfl
    board := rfl
    writers := writers
    entropies := Iff.rfl
    files := node.file.resembles_clock node.program.table.clock _ _ _ }
  constructor
  · intro index
    rcases Solo.Paired.exists_other audience first second index with ⟨other, paired⟩
    exact ⟨other, lockstep.level untimed sure paired⟩
  · intro other
    rcases Solo.Paired.exists_other audience second first other with ⟨index, paired⟩
    exact ⟨index, lockstep.level untimed sure paired.symm⟩

theorem Audience.silent_untimed (clock : RegisterRef) (listeners : Unit) :
    silent.Untimed clock listeners :=
  ⟨fun _ => True, trivial, fun _ _ _ _ => trivial⟩

/-- A node whose clock is off, and the same node at full speed on a board with
another seed, where some instructions take longer than a tick. -/
theorem pacing_irrelevant_seeded :
    let world := (World.facing .default none (.ofEntropy 0) []).run
      [.compile "mov 5 $rng\nadd $rng\nslp 3\nmov 250 $clk\nend"]
    let board := Board.ofInput [] 1
    let outside : Outside := ⟨2, .plain, [0, 12000000, 0, 3000000, 0, 1000000, 25000000]⟩
    let events := [.executed 0 .move, .executed 1 .add, .executed 2 .sleep, .executed 3 .move,
      .executed 4 .stop, .stopped]
    world.nodes.length = 1 ∧ ∀ node ∈ world.nodes,
      let first := Solo.start (node.paced (-1)) () board
      let second := Solo.start (node.paced 6000) () (board.withOutside outside)
      (first.run .silent 40).agent.ending?.isSome = true ∧ first.events .silent 40 = events ∧
        first.sleeps .silent 40 = [3] ∧
        ∃ other, second.events .silent other = events ∧ second.sleeps .silent other = [3] ∧
          Solo.Alike node.program.table.clock outside (first.run .silent 40)
            (second.run .silent other) := by
  intro world board outside events
  have single : world.nodes.length = 1 := by decide +kernel
  have noBus : ∀ node ∈ world.nodes, ∀ state ∈ node.file, state.pinKind? ≠ some .xbus := by
    decide +kernel
  have untimed : ∀ node ∈ world.nodes, node.program.Untimed := by decide +kernel
  have seen : ∀ node ∈ world.nodes,
      let first := Solo.start (node.paced (-1)) () board
      (first.run .silent 40).agent.ending?.isSome = true ∧ first.events .silent 40 = events ∧
        first.sleeps .silent 40 = [3] := by
    decide +kernel
  have seeded : ∀ node ∈ world.nodes, ∀ index ∈ List.range 41,
      ((Solo.start (node.paced (-1)) () board).run .silent index).guesses = false := by
    decide +kernel
  refine ⟨single, fun node member => ?_⟩
  intro first second
  rcases seen node member with ⟨ended, sameEvents, sameSleeps⟩
  have sure : ∀ index, (first.run .silent index).guesses = false := by
    intro index
    rcases Nat.lt_or_ge index 41 with early | late
    · exact seeded node member index (List.mem_range.mpr early)
    · rw [Solo.run_of_ended ended (Nat.le_of_succ_le late)]
      exact seeded node member 40 (List.mem_range.mpr (by decide))
  rcases (pacing_irrelevant .default none (.ofEntropy 0) [] _ member (noBus node member)
    (untimed node member) node.spent (Audience.silent_untimed _ ()) board outside rfl (-1) 6000
    fun _ => sure).1 40 with ⟨other, level⟩
  exact ⟨ended, sameEvents, sameSleeps, other, level.events.symm.trans sameEvents,
    level.sleeps.symm.trans sameSleeps, level.alike⟩

end NodeAssembly
