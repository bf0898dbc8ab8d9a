import NodeAssembly.Proofs.Node.Monitoring
import NodeAssembly.Proofs.Node.Steps
import NodeAssembly.Proofs.Program.Labels

/-! The flow of control in the runs of a node. A run is watched together with
the last jump that was made since an entry was last visited. Between two looks
at it the run makes a step on whatever board the other nodes have left, gives
up waiting, is stopped from outside, finds its registers changed, or, once it
is finished, is followed by another run of the same node. -/

namespace NodeAssembly

/-- The terms of a script that jumps only to labels that are known. -/
def Terms.steering (known : String → Prop) : Terms where
  asks
    | .jump label => known label
    | _ => True
  values _ := True
  faults fault := ∀ label, fault ≠ .unknownLabel label

theorem Terms.steering_fair (known : String → Prop) : (steering known).Fair where
  stop := trivial
  running := trivial
  sleep _ := trivial
  flat _ _ := trivial
  readable _ _ := trivial
  computed := by
    rintro fault computed label rfl
    cases computed

theorem Terms.steering_allows {known : String → Prop} {footprint : Footprint}
    (jumps : ∀ label ∈ footprint.labels, known label) : (steering known).Allows footprint where
  reads _ _ := trivial
  writes _ _ _ _ := trivial
  observes _ _ := trivial
  jumps := jumps

/-- Listeners look at a run and may stop it, but do not steer it. -/
def Audience.Bystanders {σ : Type} (audience : Audience σ) : Prop :=
  ∀ running event listeners, (audience.notify running event listeners).Keeps
    (.steering fun _ => False) fun _ => True

namespace Execution

/-- The run stays at the same entry with the same jump before it. -/
structure Stays (before after : Execution) : Prop where
  program : after.node.program = before.node.program
  spent : after.node.spent = before.node.spent
  position : after.position = before.position
  pending : after.pending = before.pending

variable {α : Type} {execution after : Execution} {board boardAfter : Board}
  {known : String → Prop}

/-- What a request leads to as far as the flow of control is concerned: only a
jump changes where the run goes on. -/
def Course (execution : Execution) (request : Request) (after : Execution) : Prop :=
  match request with
  | .jump label => after = { execution with pending := execution.node.program.label? label } ∧
      (execution.node.program.label? label).isSome
  | _ => execution.Stays after

theorem Proceeds.stays {start : Site → Access (Except Fault α)} {received : Option Value → α}
    {response : Response (Except Fault α)}
    (proceeds : Proceeds execution board start received response) :
    (∀ answer after boardAfter, response = .answered answer after boardAfter →
      execution.Stays after) ∧
    ∀ after boardAfter, response = .moved after boardAfter → execution.Stays after := by
  cases proceeds
  all_goals
    refine ⟨fun answer after boardAfter equal => ?_, fun after boardAfter equal => ?_⟩
    all_goals cases equal
    all_goals exact ⟨rfl, rfl, rfl, rfl⟩

theorem faults_of_isStorage {fault : Fault} (storage : fault.isStorage) :
    (Terms.steering known).faults fault := by
  rintro label rfl
  cases storage

theorem respond_answered {request : Request} {answer : request.Answer}
    (knows : ∀ label, known label → (execution.node.program.label? label).isSome)
    (asked : (Terms.steering known).asks request)
    (responds : execution.respond board request = .answered answer after boardAfter) :
    execution.Course request after ∧ (Terms.steering known).Admits request answer := by
  cases request with
  | read register =>
      have proceeds := access_proceeds execution board (·.read register) (·.getD .null)
      refine ⟨proceeds.stays.1 _ _ _ responds, ?_⟩
      rw [respond_read] at responds
      rw [responds] at proceeds
      cases proceeds with
      | done free accessed =>
          rcases (Site.read_done accessed).1 with ⟨value, rfl, _⟩
          trivial
      | finishes calling step => trivial
  | write register value =>
      have proceeds := access_proceeds execution board (·.write register value) fun _ => ()
      refine ⟨proceeds.stays.1 _ _ _ responds, ?_⟩
      rw [respond_write] at responds
      rw [responds] at proceeds
      cases proceeds with
      | done free accessed =>
          cases answer with
          | ok result => trivial
          | error fault => exact faults_of_isStorage ((Site.write_done accessed).1 fault rfl)
      | finishes calling step => trivial
  | observe register =>
      have proceeds := access_proceeds execution board (·.observe register) fun _ => ()
      refine ⟨proceeds.stays.1 _ _ _ responds, ?_⟩
      rw [respond_observe] at responds
      rw [responds] at proceeds
      cases proceeds with
      | done free accessed =>
          rw [(Site.observe_done accessed).1]
          trivial
      | finishes calling step => trivial
  | jump label =>
      have found := knows label asked
      simp only [respond, jump] at responds
      rcases Option.isSome_iff_exists.mp found with ⟨target, leads⟩
      rw [leads] at responds
      cases responds
      refine ⟨⟨?_, found⟩, trivial⟩
      rw [leads]
  | stop =>
      cases responds
      exact ⟨⟨rfl, rfl, rfl, rfl⟩, trivial⟩
  | running =>
      cases responds
      exact ⟨⟨rfl, rfl, rfl, rfl⟩, trivial⟩
  | sleep ticks =>
      rcases withTimer_of_sleep_answered responds with ⟨timer, rfl, rfl⟩
      exact ⟨⟨rfl, rfl, rfl, rfl⟩, trivial⟩

theorem respond_moved {request : Request}
    (responds : execution.respond board request = .moved after boardAfter) :
    execution.Stays after := by
  cases request with
  | read register =>
      exact (access_proceeds execution board (·.read register) _).stays.2 _ _ responds
  | write register value =>
      exact (access_proceeds execution board (·.write register value) _).stays.2 _ _ responds
  | observe register =>
      exact (access_proceeds execution board (·.observe register) _).stays.2 _ _ responds
  | sleep ticks =>
      rcases withTimer_of_sleep_moved responds with ⟨timer, rfl, rfl⟩
      exact ⟨rfl, rfl, rfl, rfl⟩
  | _ => cases responds

theorem stepScript_course {script next : Script α} {ends : α → Prop}
    (knows : ∀ label, known label → (execution.node.program.label? label).isSome)
    (keeps : script.Keeps (.steering known) ends)
    (step : execution.stepScript board script = some (after, boardAfter, next)) :
    next.Keeps (.steering known) ends ∧ ∃ request resume, script = .ask request resume ∧
      (Terms.steering known).asks request ∧ execution.Course request after := by
  rcases stepScript_cases step with ⟨request, resume, rfl, ⟨answer, responds, rfl⟩ | ⟨responds, rfl⟩⟩
  · rcases respond_answered knows keeps.1 responds with ⟨course, admitted⟩
    exact ⟨keeps.2 answer admitted, request, resume, rfl, keeps.1, course⟩
  · refine ⟨keeps, request, resume, rfl, keeps.1, ?_⟩
    have stays := respond_moved responds
    cases request with
    | jump label => cases responds
    | _ => exact stays

theorem expireScript_course {script next : Script α} {ends : α → Prop}
    (keeps : script.Keeps (.steering known) ends)
    (step : execution.expireScript board script = some (after, boardAfter, next)) :
    next.Keeps (.steering known) ends ∧ execution.Stays after := by
  rcases expireScript_cases step with
    ⟨request, resume, channel, call, answer, rfl, calling, rfl, rfl, answered, rfl⟩
  refine ⟨keeps.2 answer ?_, rfl, rfl, rfl, rfl⟩
  have harmless : (Terms.steering known).faults (board.expireCall channel call).2 := by
    intro label
    unfold Board.expireCall
    split <;> exact nofun
  cases request with
  | read register =>
      cases answered
      exact harmless
  | write register value =>
      cases answered
      exact harmless
  | observe register =>
      cases answered
      exact harmless
  | _ => cases answered

/-- The run is at an entry of the program, unless the program has none. -/
structure Bears (program : Program) (execution : Execution) : Prop where
  runs : execution.node.program = program
  spent : execution.node.spent.size = program.size
  position : program.size ≠ 0 → execution.position < program.size

variable {program : Program}

theorem Bears.of_stays (bears : execution.Bears program) (stays : execution.Stays after) :
    after.Bears program where
  runs := stays.program.trans bears.runs
  spent := by rw [stays.spent, bears.spent]
  position := by
    rw [stays.position]
    exact bears.position

theorem Bears.of_course {request : Request} (bears : execution.Bears program)
    (course : execution.Course request after) : after.Bears program := by
  cases request with
  | jump label =>
      rw [course.1]
      exact ⟨bears.runs, bears.spent, bears.position⟩
  | _ => exact bears.of_stays course

end Execution

/-- Whether the run is about to look at an entry. -/
def Agent.isVisiting {σ : Type} (agent : Agent σ) : Bool :=
  match agent.stage with
  | .visiting => true
  | _ => false

/-- A run, and the label of the last jump since an entry was last visited. -/
structure Watch (σ : Type) where
  agent : Agent σ
  jumped : Option String

/-- What can happen to a run from one look at it to the next. -/
inductive Turn (σ : Type) where
  | step (board : Board)
  | expire (board : Board)
  | stop
  | overwrite (file : RegisterFile)
  | restart (listeners : σ) (board : Board)

namespace Watch

variable {σ : Type}

/-- A node before its first run, as if one had just ended. -/
def resting (node : Node) (listeners : σ) : Watch σ :=
  ⟨⟨.ofNode node, listeners, .finished (.returned (.ok ()))⟩, none⟩

/-- The last jump once the run has made its next step. -/
def nextJump (watch : Watch σ) : Option String :=
  match watch.agent.stage with
  | .visiting => none
  | .executing (.ask (.jump label) _) => some label
  | _ => watch.jumped

def withNode (watch : Watch σ) (node : Node) : Watch σ :=
  { watch with agent := { watch.agent with execution := { watch.agent.execution with node := node } } }

def turn (audience : Audience σ) (watch : Watch σ) : Turn σ → Watch σ
  | .step board =>
    match watch.agent.step audience board with
    | some (agent, _) => ⟨agent, watch.nextJump⟩
    | none => watch
  | .expire board =>
    match watch.agent.expire board with
    | some (agent, _) => { watch with agent := agent }
    | none => watch
  | .stop => watch.withNode watch.agent.execution.node.stop
  | .overwrite file => watch.withNode { watch.agent.execution.node with file := file }
  | .restart listeners board =>
    match watch.agent.ending?, watch.agent.execution.node.claim with
    | some _, .ok node => ⟨(Agent.start node listeners board).1, none⟩
    | _, _ => watch

def run (audience : Audience σ) (watch : Watch σ) (turns : List (Turn σ)) : Watch σ :=
  turns.foldl (turn audience) watch

/-- The jump that the run will make is the last one that was asked for. -/
structure Agrees (program : Program) (watch : Watch σ) : Prop where
  pending : watch.agent.execution.pending = watch.jumped.bind program.label?
  known : ∀ label, watch.jumped = some label → (program.label? label).isSome

/-- What holds at the stages of a run. -/
def OnCourse (program : Program) (watch : Watch σ) : Prop :=
  match watch.agent.stage with
  | .visiting => watch.agent.execution.pending = none ∧ ∀ label, watch.jumped = some label →
      program.label? label = some watch.agent.execution.position
  | .executing script => watch.Agrees program ∧
      Action.Keeps (.steering fun label => (program.label? label).isSome) (fun _ => True) script
  | .notifying event script => script.Keeps (.steering fun _ => False) (fun _ => True) ∧
      match event with
      | .executed _ _ => watch.Agrees program
      | .skipped _ => watch.jumped = none
      | .stopped => True
      | .faulted fault => ∀ label, fault ≠ .unknownLabel label
  | .finished ending => ∀ label, ending ≠ .returned (.error (.unknownLabel label))

/-- The invariant of all runs of a node. -/
structure Sound (program : Program) (watch : Watch σ) : Prop where
  bears : watch.agent.execution.Bears program
  onCourse : watch.OnCourse program

variable {program : Program} {audience : Audience σ} {watch : Watch σ} {agent : Agent σ}
  {board : Board} {jumped : Option String}

theorem sound_resting (program : Program) (file : RegisterFile) (logger : Option Logger)
    (listeners : σ) : (resting (.ofProgram program file logger) listeners).Sound program where
  bears := ⟨rfl, Array.size_replicate, Nat.pos_of_ne_zero⟩
  onCourse := nofun

/-! ## Stages -/

theorem sound_conclude (bystanders : audience.Bystanders) (bears : agent.execution.Bears program)
    (result : Except Fault Unit)
    (harmless : ∀ fault, result = .error fault → ∀ label, fault ≠ .unknownLabel label) :
    Sound program ⟨(agent.conclude audience board result).1, jumped⟩ := by
  cases result with
  | ok result => exact ⟨⟨bears.runs, bears.spent, bears.position⟩, bystanders _ _ _, trivial⟩
  | error fault =>
      exact ⟨⟨bears.runs, bears.spent, bears.position⟩, bystanders _ _ _, harmless fault rfl⟩

theorem sound_visit (closed : program.Closed) (bystanders : audience.Bystanders)
    (bears : agent.execution.Bears program) (free : agent.execution.pending = none) :
    Sound program ⟨(agent.visit audience board).1, none⟩ := by
  unfold Agent.visit
  simp only
  split
  · exact sound_conclude bystanders bears _ nofun
  next entry found =>
    split
    · exact sound_conclude bystanders bears _ nofun
    · split
      · split
        · exact sound_conclude bystanders bears _ nofun
        · exact ⟨⟨bears.runs, bears.spent, bears.position⟩, bystanders _ _ _, rfl⟩
      · refine ⟨⟨bears.runs, bears.spent, bears.position⟩, ⟨free, nofun⟩, ?_⟩
        rw [bears.runs] at found ⊢
        have jumps := closed.jumps entry (Array.mem_of_getElem? found)
        exact entry.instruction.execute_keeps (Terms.steering_fair _)
          (Terms.steering_allows jumps)

theorem following_lt (runs : agent.execution.node.program = program) (position : Nat)
    (nonempty : program.size ≠ 0) : agent.following position < program.size := by
  rw [Agent.following, runs]
  exact Nat.mod_lt _ (Nat.pos_of_ne_zero nonempty)

theorem sound_moveTo {position : Nat} (bears : agent.execution.Bears program)
    (inside : program.size ≠ 0 → position < program.size)
    (jumps : ∀ label, jumped = some label → program.label? label = some position) :
    Sound program ⟨agent.moveTo position, jumped⟩ :=
  ⟨⟨bears.runs, bears.spent, inside⟩, rfl, jumps⟩

theorem bears_spend (bears : agent.execution.Bears program) (position : Nat) :
    Execution.Bears program
      { agent.execution with
        node := agent.execution.node.spend position
        timer := agent.execution.timer.finishTick } where
  runs := (Node.program_spend _ _).trans bears.runs
  spent := (Node.size_spend _ _).trans bears.spent
  position := bears.position

/-- After an entry was executed the run goes on at the label of the last jump,
or at the next entry. -/
theorem sound_resume_executed (closed : program.Closed) (bears : agent.execution.Bears program)
    (agrees : Agrees program ⟨agent, jumped⟩) (position : Nat) (opcode : OpCode) :
    Sound program ⟨agent.resume (.executed position opcode), jumped⟩ := by
  have pending : agent.execution.pending = jumped.bind program.label? := agrees.pending
  have spent := bears_spend bears position
  apply sound_moveTo spent
  · intro nonempty
    rw [pending]
    cases jumped with
    | none => exact following_lt spent.runs position nonempty
    | some label =>
        rcases Option.isSome_iff_exists.mp (agrees.known label rfl) with ⟨target, leads⟩
        rw [Option.bind_some, leads]
        exact closed.targets label target leads
  · rintro label rfl
    rcases Option.isSome_iff_exists.mp (agrees.known label rfl) with ⟨target, leads⟩
    rw [pending, Option.bind_some, leads]
    rfl

theorem sound_resume (closed : program.Closed) (bears : agent.execution.Bears program)
    {event : Event} (onCourse : match event with
      | .executed _ _ => Agrees program ⟨agent, jumped⟩
      | .skipped _ => jumped = none
      | .stopped => True
      | .faulted fault => ∀ label, fault ≠ .unknownLabel label) :
    Sound program ⟨agent.resume event, jumped⟩ := by
  cases event with
  | executed position opcode => exact sound_resume_executed closed bears onCourse position opcode
  | skipped position =>
      apply sound_moveTo bears
      · exact following_lt bears.runs position
      · intro label equal
        rw [show jumped = none from onCourse] at equal
        cases equal
  | stopped => exact ⟨bears, nofun⟩
  | faulted fault =>
      refine ⟨bears, fun label equal => ?_⟩
      cases equal
      exact onCourse label rfl

theorem sound_react (closed : program.Closed) (bears : agent.execution.Bears program)
    {event : Event} (listeners : σ) (reaction : Reaction) (onCourse : match event with
      | .executed _ _ => Agrees program ⟨agent, jumped⟩
      | .skipped _ => jumped = none
      | .stopped => True
      | .faulted fault => ∀ label, fault ≠ .unknownLabel label) :
    Sound program ⟨(agent.react board event listeners reaction).1, jumped⟩ := by
  unfold Agent.react
  simp only
  -- Stopping the node and a new state of the listeners are of no concern here.
  generalize changed : (if reaction.stop = true then _ else _ : Agent σ) = next
  have same : next.execution.Bears program ∧ next.execution.pending = agent.execution.pending := by
    rw [← changed]
    split
    · exact ⟨⟨bears.runs, bears.spent, bears.position⟩, rfl⟩
    · exact ⟨bears, rfl⟩
  split
  · exact ⟨same.1, nofun⟩
  · apply sound_resume closed same.1
    cases event with
    | executed position opcode => exact ⟨same.2.trans onCourse.pending, onCourse.known⟩
    | _ => exact onCourse

/-! ## Turns -/

theorem sound_executing (sound : watch.Sound program) {script : Script (Except Fault Unit)}
    (stage : watch.agent.stage = .executing script) {execution : Execution} {after : Board}
    {next : Script (Except Fault Unit)}
    (step : watch.agent.execution.stepScript board script = some (execution, after, next)) :
    Sound program ⟨{ watch.agent with execution := execution, stage := .executing next },
      watch.nextJump⟩ := by
  have onCourse := sound.onCourse
  simp only [OnCourse, stage] at onCourse
  rcases onCourse with ⟨agrees, keeps⟩
  have knows : ∀ label, (program.label? label).isSome →
      (watch.agent.execution.node.program.label? label).isSome := by
    rw [sound.bears.runs]
    exact fun _ => id
  rcases Execution.stepScript_course knows keeps step with
    ⟨nextKeeps, request, resume, rfl, asked, course⟩
  refine ⟨sound.bears.of_course course, ?_, nextKeeps⟩
  cases request with
  | jump label =>
      have jump : watch.nextJump = some label := by simp only [nextJump, stage]
      rw [jump]
      constructor
      · rw [course.1, sound.bears.runs]
        rfl
      · rintro other equal
        cases equal
        exact asked
  | _ =>
      have unchanged : watch.nextJump = watch.jumped := by simp only [nextJump, stage]
      rw [unchanged]
      exact ⟨course.pending.trans agrees.pending, agrees.known⟩

theorem sound_notifying (sound : watch.Sound program) {event : Event} {script : Script (σ × Reaction)}
    (stage : watch.agent.stage = .notifying event script) {execution : Execution}
    {next : Script (σ × Reaction)} (nextKeeps : next.Keeps (.steering fun _ => False) fun _ => True)
    (stays : watch.agent.execution.Stays execution) :
    Sound program ⟨{ watch.agent with execution := execution, stage := .notifying event next },
      watch.jumped⟩ := by
  have onCourse := sound.onCourse
  simp only [OnCourse, stage] at onCourse
  refine ⟨sound.bears.of_stays stays, nextKeeps, ?_⟩
  cases event with
  | executed position opcode =>
      exact ⟨stays.pending.trans onCourse.2.pending, onCourse.2.known⟩
  | _ => exact onCourse.2

theorem sound_step (closed : program.Closed) (bystanders : audience.Bystanders)
    (sound : watch.Sound program) {result : Agent σ × Board}
    (step : watch.agent.step audience board = some result) :
    Sound program ⟨result.1, watch.nextJump⟩ := by
  have onCourse := sound.onCourse
  have bears := sound.bears
  have unchanged : watch.agent.stage ≠ .visiting →
      (∀ label resume, watch.agent.stage ≠ .executing (.ask (.jump label) resume)) →
      watch.nextJump = watch.jumped := by
    intro visiting jumping
    unfold nextJump
    split
    · exact absurd ‹_› visiting
    · exact absurd ‹_› (jumping _ _)
    · rfl
  cases Agent.step_moves step with
  | visits stage =>
      -- A new visit forgets the jump before it.
      simp only [OnCourse, stage] at onCourse
      have forgotten : watch.nextJump = none := by simp only [nextJump, stage]
      rw [forgotten]
      exact sound_visit closed bystanders bears onCourse.1
  | faults stage =>
      simp only [OnCourse, stage] at onCourse
      apply sound_conclude bystanders bears
      intro other equal
      cases equal
      exact onCourse.2
  | completes stage found =>
      simp only [OnCourse, stage] at onCourse
      rw [unchanged (by rw [stage]; exact nofun) (by rw [stage]; exact nofun)]
      exact ⟨bears, bystanders _ _ _, onCourse.1.pending, onCourse.1.known⟩
  | leaves stage missing => exact sound_conclude bystanders bears _ nofun
  | executes stage scriptStep => exact sound_executing sound stage scriptStep
  | reacts stage =>
      simp only [OnCourse, stage] at onCourse
      rw [unchanged (by rw [stage]; exact nofun) (by rw [stage]; exact nofun)]
      exact sound_react closed bears _ _ onCourse.2
  | notifies stage scriptStep =>
      simp only [OnCourse, stage] at onCourse
      rw [unchanged (by rw [stage]; exact nofun) (by rw [stage]; exact nofun)]
      rcases Execution.stepScript_course nofun onCourse.1 scriptStep with
        ⟨nextKeeps, request, resume, rfl, asked, course⟩
      apply sound_notifying sound stage nextKeeps
      cases request with
      | jump label => cases asked
      | _ => exact course

theorem sound_expire (sound : watch.Sound program) {result : Agent σ × Board}
    (step : watch.agent.expire board = some result) :
    Sound program { watch with agent := result.1 } := by
  have onCourse := sound.onCourse
  cases Agent.expire_givesUp step with
  | executes stage scriptStep =>
      simp only [OnCourse, stage] at onCourse
      rcases Execution.expireScript_course onCourse.2 scriptStep with ⟨nextKeeps, stays⟩
      exact ⟨sound.bears.of_stays stays,
        ⟨stays.pending.trans onCourse.1.pending, onCourse.1.known⟩, nextKeeps⟩
  | notifies stage scriptStep =>
      simp only [OnCourse, stage] at onCourse
      rcases Execution.expireScript_course onCourse.1 scriptStep with ⟨nextKeeps, stays⟩
      exact sound_notifying sound stage nextKeeps stays

theorem sound_withNode (sound : watch.Sound program) {node : Node}
    (runs : node.program = watch.agent.execution.node.program)
    (spent : node.spent = watch.agent.execution.node.spent) :
    (watch.withNode node).Sound program := by
  rcases watch with ⟨⟨execution, listeners, stage⟩, jumped⟩
  refine ⟨⟨runs.trans sound.bears.runs, ?_, sound.bears.position⟩, ?_⟩
  · exact (congrArg Array.size spent).trans sound.bears.spent
  · have onCourse := sound.onCourse
    cases stage with
    | visiting => exact onCourse
    | executing script => exact ⟨⟨onCourse.1.pending, onCourse.1.known⟩, onCourse.2⟩
    | notifying event script =>
        refine ⟨onCourse.1, ?_⟩
        cases event with
        | executed position opcode => exact ⟨onCourse.2.pending, onCourse.2.known⟩
        | _ => exact onCourse.2
    | finished ending => exact onCourse

theorem sound_turn (closed : program.Closed) (bystanders : audience.Bystanders)
    (sound : watch.Sound program) (next : Turn σ) : (watch.turn audience next).Sound program := by
  cases next with
  | step board =>
      simp only [turn]
      split
      next step => exact sound_step closed bystanders sound step
      next => exact sound
  | expire board =>
      simp only [turn]
      split
      next step => exact sound_expire sound step
      next => exact sound
  | stop => exact sound_withNode sound rfl rfl
  | overwrite file => exact sound_withNode sound rfl rfl
  | restart listeners board =>
      simp only [turn]
      split
      next node _ claimed =>
        have same : node.program = watch.agent.execution.node.program ∧
            node.spent = watch.agent.execution.node.spent := by
          unfold Node.claim at claimed
          split at claimed
          · cases claimed
          · cases claimed
            exact ⟨rfl, rfl⟩
        refine ⟨⟨same.1.trans sound.bears.runs, ?_, Nat.pos_of_ne_zero⟩, rfl, nofun⟩
        exact (congrArg Array.size same.2).trans sound.bears.spent
      next => exact sound

theorem sound_run (closed : program.Closed) (bystanders : audience.Bystanders)
    (sound : watch.Sound program) (turns : List (Turn σ)) :
    (watch.run audience turns).Sound program := by
  induction turns generalizing watch with
  | nil => exact sound
  | cons next turns induction => exact induction (sound_turn closed bystanders sound next)

end Watch

/-- A monitor reads registers and nothing else. -/
theorem Monitor.audience_bystanders : Monitor.audience.Bystanders := by
  intro running event monitor
  have keeps : (notify running event monitor).Keeps (.steering fun _ => False)
      fun result => result.1.registers = monitor.registers :=
    keeps_notify (fun _ _ => trivial) running event
  exact keeps.imp fun _ _ => trivial

/-! ## Programs -/

/-- Control stays within an accepted program. Whatever happens to the runs of
its node, the position is that of an entry, no run ends for want of a label,
and after a jump the run goes on at the entry that follows the declaration of
the label in the source text. -/
theorem control_flow_closed {σ : Type} {registry : PinRegistry} {board : Board} {config : Config}
    {logger : Option Logger} {source : String} {program : Program} {file : RegisterFile}
    (parsed : (Program.parse registry board config logger source).result = .ok (program, file))
    {audience : Audience σ} (bystanders : audience.Bystanders) (nodeLogger : Option Logger)
    (listeners : σ) (turns : List (Turn σ)) {watch : Watch σ}
    (reached : (Watch.resting (.ofProgram program file nodeLogger) listeners).run audience turns =
      watch) :
    (program.size ≠ 0 →
      watch.agent.execution.position < watch.agent.execution.node.program.entries.size ∧
      watch.agent.execution.position < watch.agent.execution.node.spent.size) ∧
    (∀ label, watch.agent.ending? ≠ some (.returned (.error (.unknownLabel label)))) ∧
    (∀ label, watch.agent.isVisiting → watch.jumped = some label →
      ∀ count, LabelAt source label count ↔ count = watch.agent.execution.position) := by
  have sound : watch.Sound program := by
    rw [← reached]
    exact Watch.sound_run (Program.closed_of_parse parsed) bystanders
      (Watch.sound_resting program file nodeLogger listeners) turns
  have onCourse := sound.onCourse
  refine ⟨fun nonempty => ?_, fun label ending => ?_, fun label visiting jumped count => ?_⟩
  · rw [sound.bears.runs, sound.bears.spent]
    exact ⟨sound.bears.position nonempty, sound.bears.position nonempty⟩
  · unfold Agent.ending? at ending
    split at ending
    next stage =>
      simp only [Watch.OnCourse, stage] at onCourse
      cases ending
      exact onCourse label rfl
    next => cases ending
  · unfold Agent.isVisiting at visiting
    split at visiting
    next stage =>
      simp only [Watch.OnCourse, stage] at onCourse
      have leads := onCourse.2 label jumped
      rw [← Program.label?_iff_labelAt parsed, leads]
      exact ⟨fun equal => (Option.some.inj equal).symm, fun equal => by rw [equal]⟩
    next => cases visiting

/-- A jump two branches deep, back to the second of three entries. -/
theorem control_flow_closed_nested :
    let source := "nop\nl: nop\nteq 0 0\n+ teq 1 1\n+ + jmp l"
    let board := Board.ofInput [] 0
    let table := (defaultRegisters 500).1
    let file := (defaultRegisters 500).2
    let inner := Instruction.test .equal (.int 1) (.int 1) (.ofList [.jump "l"]) .nil
    let outer := Instruction.test .equal (.int 0) (.int 0) (.ofList [inner]) .nil
    let program : Program := ⟨#[⟨.noOperation, false, 1⟩, ⟨.noOperation, false, 2⟩,
      ⟨outer, false, 3⟩], [("l", 1)], table⟩
    let monitor := Monitor.ofRun .default table [.recorder] 0
    let turns := .restart monitor board :: List.replicate 15 (.step board)
    let watch := (Watch.resting (.ofProgram program file none) monitor).run Monitor.audience turns
    (Program.parse .empty board .default none source).result = .ok (program, file) ∧
      watch.agent.execution.position = 1 ∧ watch.jumped = some "l" ∧ LabelAt source "l" 1 := by
  intro source board table file inner outer program monitor turns watch
  have parsed : (Program.parse .empty board .default none source).result =
      .ok (program, file) := by
    decide +kernel
  have jumped : watch.jumped = some "l" := by decide +kernel
  have position : watch.agent.execution.position = 1 := by decide +kernel
  have visiting : watch.agent.isVisiting := by decide +kernel
  have reached : (Watch.resting (.ofProgram program file none) monitor).run Monitor.audience turns =
      watch := rfl
  have closed := control_flow_closed parsed Monitor.audience_bystanders none monitor turns reached
  exact ⟨parsed, position, jumped, (closed.2.2 "l" visiting jumped 1).mpr position.symm⟩

end NodeAssembly
