import NodeAssembly.Proofs.Node.Company

/-! Nothing runs after the end. Once a machine is not running any more, because
an instruction has ended the program or because someone has stopped it, only the
instruction in progress is brought to its end. No other instruction begins, in
whatever branches the one in progress stands, and the run is over as soon as its
listeners have heard of the entry. -/

namespace NodeAssembly

/-! ## Machines -/

/-- The host of a machine that can be stopped: once the machine is not running it
stays so and says so. -/
structure Host.Heeds {σ : Type} (host : Host σ) (running : σ → Bool) : Prop where
  stays : ∀ {request state answer after}, host request state answer after →
    running state = false → running after = false
  reports : ∀ {state answer after}, host .running state answer after →
    running state = false → answer = false
  stops : ∀ {state answer after}, host .stop state answer after → running after = false

theorem Host.Heeds.stays_log {σ : Type} {host : Host σ} {running : σ → Bool}
    (heeds : host.Heeds running) {log : List Answered} {state last : σ}
    (gives : host.Gives state log last) (stopped : running state = false) :
    running last = false := by
  induction gives with
  | none => exact stopped
  | next answers further ih => exact ih (heeds.stays answers stopped)

/-- A machine that was told to stop is not running. -/
theorem Host.Heeds.stopped_of_mem {σ : Type} {host : Host σ} {running : σ → Bool}
    (heeds : host.Heeds running) {log : List Answered} {state last : σ}
    (gives : host.Gives state log last) (told : ⟨.stop, ()⟩ ∈ log) : running last = false := by
  induction gives with
  | none => cases told
  | next answers further ih =>
      rcases List.mem_cons.mp told with now | later
      · cases now
        exact heeds.stays_log further (heeds.stops answers)
      · exact ih later

/-- A machine that is not running lets nothing begin. -/
theorem Host.Heeds.quiet {σ : Type} {host : Host σ} {running : σ → Bool}
    (heeds : host.Heeds running) {course : List Occurrence} {state last : σ}
    (gives : host.Gives state (course.map Occurrence.answered) last)
    (stopped : running state = false) : ∀ occurrence ∈ course, occurrence.began? = none := by
  induction course generalizing state with
  | nil => exact List.forall_mem_nil _
  | cons occurrence course ih =>
      rcases gives_cons.mp gives with ⟨after, answers, further⟩
      refine List.forall_mem_cons.mpr ⟨?_, ih further (heeds.stays answers stopped)⟩
      cases occurrence with
      | began instruction => cases heeds.reports answers stopped
      | asked answered => rfl
      | left => rfl

namespace Moment

variable {accumulator : RegisterRef} {moment next last : Moment}

/-- What is left to do belongs to what the instruction in progress does itself,
unless a block was left after it. -/
def Continues (accumulator : RegisterRef) (moment : Moment) : Prop :=
  moment.own = .done (.ok .nil) ∨
    ∃ log, (moment.instruction.own accumulator).run.Reaches log moment.own

theorem Continues.step {occurrence : Occurrence} (continues : moment.Continues accumulator)
    (step : Step accumulator moment occurrence next) : next.Continues accumulator := by
  cases step with
  | asks answer =>
      rcases continues with finished | ⟨log, reaches⟩
      · cases finished
      · exact .inr ⟨_, reaches.trans (.ask .here)⟩
  | begins next => exact .inr ⟨[], .here⟩
  | leaves next => exact .inl rfl

theorem Continues.run {course : List Occurrence} (continues : moment.Continues accumulator)
    (run : Run accumulator moment course last) : last.Continues accumulator := by
  induction run with
  | here => exact continues
  | step first further ih => exact ih (continues.step first)

theorem continues_start (accumulator : RegisterRef) (instruction : Instruction) :
    (start accumulator instruction).Continues accumulator :=
  .inr ⟨[], .here⟩

/-- To end the program never fails. -/
theorem Continues.unfailing (continues : moment.Continues accumulator)
    (ending : moment.instruction = .stop) (asked : List Answered) (fault : Fault) :
    ¬ moment.own.Reaches asked (.done (.error fault)) := by
  intro fails
  rcases continues with finished | ⟨log, reaches⟩
  · rw [finished] at fails
    cases fails
  · rw [ending] at reaches
    have whole := reaches.trans fails
    generalize log ++ asked = all at whole
    cases whole with
    | ask further => cases further

/-- What can still happen at a moment when nothing begins any more. The
instruction in progress goes on with its own work, and then the rests of blocks
are left. The execution succeeds unless that instruction fails. -/
def Closes (moment : Moment) (log : List Answered) (later : Script (Except Fault Unit)) : Prop :=
  ∃ asked count own, log = asked ++ List.replicate count ⟨.running, false⟩ ∧
    moment.own.Reaches asked own ∧ (count ≠ 0 → ∃ block, own = .done (.ok block)) ∧
    ∀ outcome, later = .done outcome →
      outcome = .ok () ∨ ∃ fault, outcome = .error fault ∧ own = .done (.error fault)

theorem Run.closes {course : List Occurrence} (run : Run accumulator moment course last)
    (quiet : ∀ occurrence ∈ course, occurrence.began? = none) :
    moment.Closes (course.map Occurrence.answered) (last.script accumulator) := by
  induction run with
  | @here moment =>
      refine ⟨[], 0, moment.own, rfl, .here, nofun, fun outcome done => ?_⟩
      rcases own_of_script_done done with ⟨_, _, succeeded⟩ | ⟨fault, failed, isFault⟩
      · exact .inl succeeded
      · exact .inr ⟨fault, isFault, failed⟩
  | @step moment between last occurrence course first further ih =>
      rcases List.forall_mem_cons.mp quiet with ⟨quietFirst, quietFurther⟩
      rcases ih quietFurther with ⟨asked, count, own, logged, reaches, left, ends⟩
      cases first with
      | asks answer =>
          refine ⟨_ :: asked, count, own, ?_, .ask reaches, left, ends⟩
          rw [List.map_cons, logged]
          rfl
      | begins next => cases quietFirst
      | @leaves instruction head block tail waiting rest next =>
          rcases reaches.of_done with ⟨rfl, rfl⟩
          refine ⟨[], count + 1, .done (.ok block), ?_, .here, fun _ => ⟨block, rfl⟩,
            fun outcome done => ?_⟩
          · rw [List.map_cons, logged]
            rfl
          · rcases ends outcome done with succeeded | ⟨fault, _, failed⟩
            · exact .inl succeeded
            · cases failed

end Moment

/-! ## Runs -/

namespace Execution

variable {α : Type} {execution after : Execution} {board boardAfter : Board} {request : Request}

theorem isRunning_of_carries (carries : Carries request execution after)
    (kind : request ≠ .stop) : after.isRunning = execution.isRunning := by
  rw [isRunning, isRunning, carries.halted kind, carries.running]

theorem stopped_of_answered {answer : request.Answer}
    (responds : execution.respond board request = .answered answer after boardAfter)
    (stopped : execution.isRunning = false) : after.isRunning = false := by
  by_cases kind : request = .stop
  · subst kind
    cases responds
    rfl
  · exact (isRunning_of_carries (carries_of_answered responds) kind).trans stopped

theorem stopped_of_moved (responds : execution.respond board request = .moved after boardAfter)
    (stopped : execution.isRunning = false) : after.isRunning = false := by
  by_cases kind : request = .stop
  · subst kind
    cases responds
  · exact (isRunning_of_carries (carries_of_moved responds) kind).trans stopped

theorem stopped_of_stepScript {script next : Script α}
    (step : execution.stepScript board script = some (after, boardAfter, next))
    (stopped : execution.isRunning = false) : after.isRunning = false := by
  rcases stepScript_cases step with ⟨_, _, _, ⟨_, responds, _⟩ | ⟨responds, _⟩⟩
  · exact stopped_of_answered responds stopped
  · exact stopped_of_moved responds stopped

theorem stopped_of_expireScript {script next : Script α}
    (step : execution.expireScript board script = some (after, boardAfter, next))
    (stopped : execution.isRunning = false) : after.isRunning = false := by
  rcases expireScript_cases step with ⟨_, _, _, _, _, _, _, rfl, _⟩
  exact stopped

end Execution

namespace Scene

/-- A run is the host of a machine that can be stopped, in company that does not
set it going again. -/
theorem heeds_host {others : Company} (quiet : ∀ before after, others before after →
      before.execution.isRunning = false → after.execution.isRunning = false) :
    (host others).Heeds (·.execution.isRunning) where
  stays := by
    intro request scene answer last answers stopped
    induction answers with
    | answered responds => exact Execution.stopped_of_answered responds stopped
    | moved responds further ih => exact ih (Execution.stopped_of_moved responds stopped)
    | expired calling faulted => exact stopped
    | interrupted act further ih => exact ih (quiet _ _ act stopped)
  reports := by
    intro scene answer last answers stopped
    induction answers with
    | answered responds =>
        cases responds
        exact stopped
    | moved responds further ih => cases responds
    | expired calling faulted => cases faulted
    | interrupted act further ih => exact ih (quiet _ _ act stopped)
  stops := by
    intro scene answer last answers
    induction answers with
    | answered responds =>
        cases responds
        rfl
    | moved responds further ih => cases responds
    | expired calling faulted => cases faulted
    | interrupted act further ih => exact ih

end Scene

/-! ## Stages -/

namespace Agent

variable {σ : Type} {audience : Audience σ} {agent after : Agent σ} {board boardAfter : Board}
  {entry : Entry} {moment : Moment}

/-- What the run still has to do for an entry belongs to the course of its
instruction. -/
structure Underway (agent : Agent σ) (accumulator : RegisterRef) (entry : Entry)
    (moment : Moment) : Prop where
  fixed : agent.execution.node.program.table.accumulator = accumulator
  stage : agent.stage = .executing (moment.script accumulator)
  found : agent.execution.node.program.entries[agent.execution.position]? = some entry
  course : ∃ course, Moment.Run accumulator (.start accumulator entry.instruction) course moment

variable {accumulator : RegisterRef}

/-- The run goes on with an instruction, and begins none unless it is running. -/
structure Pursues (accumulator : RegisterRef) (entry : Entry) (moment : Moment)
    (agent after : Agent σ) (later : Moment) (course : List Occurrence) : Prop where
  underway : after.Underway accumulator entry later
  run : Moment.Run accumulator moment course later
  stopped : agent.execution.isRunning = false →
    after.execution.isRunning = false ∧ ∀ occurrence ∈ course, occurrence.began? = none

theorem Underway.of_alike (underway : agent.Underway accumulator entry moment)
    (alike : agent.Alike after) {later : Moment} {course : List Occurrence}
    (stage : after.stage = .executing (later.script accumulator))
    (run : Moment.Run accumulator moment course later) :
    after.Underway accumulator entry later := by
  rcases underway.course with ⟨earlier, began⟩
  refine ⟨?_, stage, ?_, earlier ++ course, began.trans run⟩
  · rw [alike.program, underway.fixed]
  · rw [alike.program, alike.position, underway.found]

theorem Underway.alike (underway : agent.Underway accumulator entry moment) {request : Request}
    {execution : Execution} (carries : Execution.Carries request agent.execution execution)
    (script : Script (Except Fault Unit)) :
    agent.Alike { agent with execution := execution, stage := .executing script } :=
  .of_carries carries (congrArg Stage.phase underway.stage).symm

theorem Underway.answered {request : Request}
    {resume : request.Answer → Script (Except Fault Unit)} {answer : request.Answer}
    {execution : Execution} (underway : agent.Underway accumulator entry moment)
    (asks : moment.script accumulator = .ask request resume)
    (carries : Execution.Carries request agent.execution execution)
    (answers : Scene.host Scene.solitude request ⟨agent.execution, board⟩ answer
      ⟨execution, boardAfter⟩) :
    ∃ later course, Pursues accumulator entry moment agent
      { agent with execution := execution, stage := .executing (resume answer) } later course := by
  rcases Moment.exists_step asks answer with ⟨occurrence, later, step, answered, onward⟩
  have run : Moment.Run accumulator moment [occurrence] later := .step step .here
  refine ⟨later, [occurrence], underway.of_alike (underway.alike carries _) ?_ run, run,
    fun stopped => ?_⟩
  · rw [onward]
  · have heeds : (Scene.host Scene.solitude).Heeds (·.execution.isRunning) :=
      Scene.heeds_host fun _ _ act => act.elim
    have gives : (Scene.host Scene.solitude).Gives ⟨agent.execution, board⟩
        ([occurrence].map Occurrence.answered) ⟨execution, boardAfter⟩ := by
      rw [List.map_singleton, answered]
      exact .next answers .none
    exact ⟨heeds.stays answers stopped, heeds.quiet gives stopped⟩

/-- A step of the script answers its request or leaves it to be asked again. -/
theorem Underway.steps {request : Request}
    {resume : request.Answer → Script (Except Fault Unit)} {execution : Execution}
    {next : Script (Except Fault Unit)} (underway : agent.Underway accumulator entry moment)
    (asks : moment.script accumulator = .ask request resume)
    (step : agent.execution.stepScript board (.ask request resume) =
      some (execution, boardAfter, next)) :
    ∃ later course, Pursues accumulator entry moment agent
      { agent with execution := execution, stage := .executing next } later course := by
  rcases Execution.stepScript_cases step with
    ⟨_, _, same, ⟨answer, responds, rfl⟩ | ⟨responds, rfl⟩⟩
  · cases same
    exact underway.answered asks (Execution.carries_of_answered responds) (.answered responds)
  · cases same
    have carries := Execution.carries_of_moved responds
    refine ⟨moment, [], underway.of_alike (underway.alike carries _) ?_ .here, .here,
      fun stopped => ⟨Execution.stopped_of_moved responds stopped, List.forall_mem_nil _⟩⟩
    rw [asks]

theorem Underway.expires {request : Request}
    {resume : request.Answer → Script (Except Fault Unit)} {execution : Execution}
    {next : Script (Except Fault Unit)} (underway : agent.Underway accumulator entry moment)
    (asks : moment.script accumulator = .ask request resume)
    (step : agent.execution.expireScript board (.ask request resume) =
      some (execution, boardAfter, next)) :
    ∃ later course, Pursues accumulator entry moment agent
      { agent with execution := execution, stage := .executing next } later course := by
  rcases Execution.expireScript_cases step with
    ⟨_, _, channel, call, answer, same, calling, rfl, rfl, faulted, rfl⟩
  cases same
  exact underway.answered asks (Execution.carries_withCall request agent.execution none)
    (.expired calling faulted)

/-- A run that executes has come to its script by the course of an entry's
instruction. -/
def Working (agent : Agent σ) : Prop :=
  ∀ script, agent.stage = .executing script →
    ∃ entry moment, agent.Underway agent.execution.node.program.table.accumulator entry moment

theorem working_of_phase (idle : agent.phase ≠ .executing) : agent.Working :=
  fun _ stage => absurd (congrArg Stage.phase stage) idle

theorem Pursues.working {later : Moment} {course : List Occurrence}
    (pursues : Pursues accumulator entry moment agent after later course) : after.Working := by
  intro script _
  rw [pursues.underway.fixed]
  exact ⟨entry, later, pursues.underway⟩

theorem working_visit (audience : Audience σ) (agent : Agent σ) (board : Board) :
    (agent.visit audience board).1.Working := by
  have finds := visit_finds audience agent board
  generalize agent.visit audience board = result at finds ⊢
  cases finds with
  | fresh found running fresh =>
      intro script _
      refine ⟨_, _, rfl, ?_, found, [], .here⟩
      rw [Moment.script_start]
      rfl
  | spent found running spent lacking => exact working_of_phase nofun
  | _ => exact working_of_phase nofun

theorem phase_react_ne (agent : Agent σ) (board : Board) (event : Event) (listeners : σ)
    (reaction : Reaction) : (agent.react board event listeners reaction).1.phase ≠ .executing := by
  simp only [react]
  split
  · exact nofun
  · cases event <;> exact nofun

theorem working_step (working : agent.Working) {result : Agent σ × Board}
    (step : agent.step audience board = some result) : result.1.Working := by
  cases step_moves step with
  | visits stage => exact working_visit audience agent board
  | executes stage scriptStep =>
      rcases working _ stage with ⟨entry, moment, underway⟩
      cases underway.stage.symm.trans stage
      cases asks : moment.script agent.execution.node.program.table.accumulator with
      | done outcome =>
          rw [asks] at scriptStep
          cases scriptStep
      | ask request resume =>
          rw [asks] at scriptStep
          rcases underway.steps asks scriptStep with ⟨later, course, pursues⟩
          exact pursues.working
  | reacts stage => exact working_of_phase (phase_react_ne agent board _ _ _)
  | faults stage => exact working_of_phase nofun
  | completes stage found => exact working_of_phase nofun
  | leaves stage missing => exact working_of_phase nofun
  | notifies stage scriptStep => exact working_of_phase nofun

theorem working_expire (working : agent.Working) {result : Agent σ × Board}
    (step : agent.expire board = some result) : result.1.Working := by
  cases expire_givesUp step with
  | executes stage scriptStep =>
      rcases working _ stage with ⟨entry, moment, underway⟩
      cases underway.stage.symm.trans stage
      cases asks : moment.script agent.execution.node.program.table.accumulator with
      | done outcome =>
          rw [asks] at scriptStep
          cases scriptStep
      | ask request resume =>
          rw [asks] at scriptStep
          rcases underway.expires asks scriptStep with ⟨later, course, pursues⟩
          exact pursues.working
  | notifies stage scriptStep => exact working_of_phase nofun

/-- When an instruction is over, the listeners hear something. -/
theorem news_of_executed {outcome : Except Fault Unit}
    (stage : agent.stage = .executing (.done outcome)) {result : Agent σ × Board}
    (step : agent.step audience board = some result) :
    ∃ event, agent.news result.1 = [.heard event] := by
  have phase : agent.phase = .executing := congrArg Stage.phase stage
  have hears (event : Event) (heard : result.1.phase = .notifying event) :
      ∃ event, agent.news result.1 = [.heard event] := by
    refine ⟨event, ?_⟩
    rw [news, phase, heard]
  cases step_moves step with
  | faults faulted => exact hears _ rfl
  | completes completed found => exact hears _ rfl
  | leaves completed missing => exact hears _ rfl
  | visits visiting => cases stage.symm.trans visiting
  | executes executing scriptStep =>
      cases stage.symm.trans executing
      cases scriptStep
  | reacts notifying => cases stage.symm.trans notifying
  | notifies notifying scriptStep => cases stage.symm.trans notifying

theorem visit_of_stopped (stopped : agent.execution.isRunning = false) :
    agent.visit audience board = agent.conclude audience board (.ok ()) := by
  unfold visit
  simp only
  split
  · rfl
  · rw [stopped, Bool.not_false, if_pos rfl]

theorem Working.touched (working : agent.Working) (file : RegisterFile) (running : Bool) :
    (agent.touched file running).Working := by
  intro script stage
  rcases working script stage with ⟨entry, moment, underway⟩
  exact ⟨entry, moment, rfl, underway.stage, underway.found, underway.course⟩

end Agent

namespace Watch

variable {σ : Type} {audience : Audience σ} {watch : Watch σ}

theorem working_turn (working : watch.agent.Working) (next : Turn σ) :
    (watch.turn audience next).agent.Working := by
  cases next with
  | step board =>
      simp only [turn]
      split
      next step => exact Agent.working_step working step
      next => exact working
  | expire board =>
      simp only [turn]
      split
      next expires => exact Agent.working_expire working expires
      next => exact working
  | stop => exact working.touched _ _
  | overwrite file => exact working.touched _ _
  | restart listeners board =>
      simp only [turn]
      split
      · apply Agent.working_of_phase
        intro phase
        cases phase
      · exact working

theorem working_run (working : watch.agent.Working) (turns : List (Turn σ)) :
    (watch.run audience turns).agent.Working := by
  induction turns generalizing watch with
  | nil => exact working
  | cons next turns ih => exact ih (working_turn working next)

end Watch

/-! ## The end of a run -/

namespace Diary

variable {σ : Type} {program : Program} {audience : Audience σ} {diary after : Diary σ}
  {board : Board}

/-- Others do not set a run going again. -/
theorem stopped_touched {agent : Agent σ} (file : RegisterFile) {running : Bool}
    (quiet : agent.execution.node.running = false → running = false)
    (stopped : agent.execution.isRunning = false) :
    (agent.touched file running).execution.isRunning = false := by
  rcases Bool.and_eq_false_iff.mp stopped with halted | free
  · exact Bool.and_eq_false_iff.mpr (.inl halted)
  · exact Bool.and_eq_false_iff.mpr (.inr (quiet free))

theorem Scripted.stopped_next {α : Type} {wrap : Script α → Stage σ}
    (scripted : Scripted audience wrap) {request : Request} {resume : request.Answer → Script α}
    (stage : diary.agent.stage = wrap (.ask request resume))
    (next : Next audience board diary after)
    (stopped : diary.agent.execution.isRunning = false) :
    after.agent.execution.isRunning = false := by
  rcases next_cases (scripted.ending stage) next with
    ⟨file, running, boardAfter, moves, _, quiet⟩
  have before := stopped_touched file quiet stopped
  have touched : (diary.agent.touched file running).stage = wrap (.ask request resume) := stage
  rcases moves with steps | expires
  · rw [scripted.step _ _ _ _ touched] at steps
    rcases Option.map_eq_some_iff.mp steps with ⟨⟨execution, boardNext, script⟩, scriptStep, result⟩
    have moved : execution = after.agent.execution := congrArg (·.1.execution) result
    rw [← moved]
    exact Execution.stopped_of_stepScript scriptStep before
  · rw [scripted.expire _ _ _ _ touched] at expires
    rcases Option.map_eq_some_iff.mp expires with
      ⟨⟨execution, boardNext, script⟩, scriptStep, result⟩
    have moved : execution = after.agent.execution := congrArg (·.1.execution) result
    rw [← moved]
    exact Execution.stopped_of_expireScript scriptStep before

/-- What a run that waits for nobody does next. -/
theorem next_ready (ready : diary.agent.stage.Ready) (next : Next audience board diary after) :
    ∃ file running boardAfter, let before := diary.agent.touched file running
      before.step audience board = some (after.agent, boardAfter) ∧
      after.notes = before.news after.agent ++ diary.notes ∧
      (diary.agent.execution.isRunning = false → before.execution.isRunning = false) := by
  rcases next_cases (Agent.ending_of_ready ready) next with
    ⟨file, running, boardAfter, moves, noted, quiet⟩
  refine ⟨file, running, boardAfter, moves.resolve_right fun expires => ?_, noted,
    stopped_touched file quiet⟩
  have touchedReady : (diary.agent.touched file running).stage.Ready := ready
  rw [Agent.expire_of_ready touchedReady] at expires
  cases expires

theorem stopped_heed {agent : Agent σ} (stopped : agent.execution.isRunning = false)
    (listeners : σ) (reaction : Reaction) :
    (agent.heed listeners reaction).execution.isRunning = false := by
  rcases reaction with ⟨stop, restart, broken⟩
  cases stop with
  | true => exact Bool.and_false _
  | false => exact stopped

theorem stopped_resume {agent : Agent σ} (stopped : agent.execution.isRunning = false)
    {position : Nat} {opcode : OpCode} :
    (agent.resume (.executed position opcode)).execution.isRunning = false := by
  refine Eq.trans ?_ stopped
  exact congrArg (!agent.execution.halted && ·) (Node.running_spend _ _)

/-- After the listeners have handled an event, the run goes on. -/
theorem next_notified {event : Event} {listeners : σ} {reaction : Reaction}
    (kept : diary.IsKept program)
    (stage : diary.agent.stage = .notifying event (.done (listeners, reaction)))
    (next : Next audience board diary after) :
    ∃ before : Agent σ, after.agent = before.resume event ∧ after.notes = diary.notes ∧
      (diary.agent.execution.isRunning = false → before.execution.isRunning = false) := by
  rcases next_ready (stage ▸ .notified event (listeners, reaction)) next with
    ⟨file, running, boardAfter, step, noted, quiet⟩
  have touched : (diary.agent.touched file running).stage =
      .notifying event (.done (listeners, reaction)) := stage
  have unbroken := Agent.attended_of_notifying kept.attended stage
  have reacted : (diary.agent.touched file running).react board event listeners reaction =
      (after.agent, boardAfter) := by
    rw [Agent.step, touched] at step
    exact Option.some.inj step
  refine ⟨(diary.agent.touched file running).heed listeners reaction, ?_, ?_, fun stopped =>
    stopped_heed (quiet stopped) listeners reaction⟩
  · exact (congrArg Prod.fst reacted).symm.trans (Agent.react_of_unbroken unbroken event)
  · rw [noted, Agent.news_of_notifying (congrArg Stage.phase touched), List.nil_append]

/-- The run is over with a result, and these are all notes. -/
def Over (result : Except Fault Unit) (notes : List Note) (diary : Diary σ) : Prop :=
  diary.agent.ending? = some (.returned result) ∧ diary.notes = notes

/-- When the listeners hear of its end, a run is over. -/
theorem inevitable_of_closing (steady : audience.Steady) (kept : diary.IsKept program)
    {result : Except Fault Unit} {script : Script (σ × Reaction)}
    (stage : diary.agent.stage = .notifying (closing result) script) :
    Inevitable audience (Over result diary.notes) diary := by
  refine (scripted_notifying audience _).inevitable steady kept stage ?_
  rintro later ⟨listeners, reaction⟩ laterKept _ notes laterStage
  refine .ahead (able_of_ready (laterStage ▸ .notified _ (listeners, reaction)))
    fun board after next => .reached ?_
  rcases next_notified laterKept laterStage next with ⟨before, resumed, unnoted, _⟩
  refine ⟨?_, unnoted.trans notes⟩
  rw [resumed]
  rcases result with fault | ⟨⟩ <;> rfl

/-- A run that is not running visits no other entry. -/
theorem inevitable_of_visiting (steady : audience.Steady) (kept : diary.IsKept program)
    (stage : diary.agent.stage = .visiting)
    (stopped : diary.agent.execution.isRunning = false) :
    Inevitable audience (Over (.ok ()) (.heard .stopped :: diary.notes)) diary := by
  refine .ahead (able_of_ready (stage ▸ .visiting)) fun board after next => ?_
  rcases next_ready (stage ▸ .visiting) next with ⟨file, running, boardAfter, step, noted, quiet⟩
  have touched : (diary.agent.touched file running).stage = .visiting := stage
  have concluded : ((diary.agent.touched file running).conclude audience board (.ok ())).1 =
      after.agent := by
    rw [Agent.step, touched] at step
    rw [← Agent.visit_of_stopped (quiet stopped), Option.some.inj step]
  have outside : (diary.agent.touched file running).isEntering = false := by
    rw [Agent.isEntering, quiet stopped, Bool.false_and]
  have notes : after.notes = .heard .stopped :: diary.notes := by
    rw [noted, ← concluded, Agent.news_conclude_visiting (congrArg Stage.phase touched),
      if_neg (ne_true_of_eq_false outside)]
    rfl
  rw [← notes]
  exact inevitable_of_closing steady (isKept_next steady kept next)
    (congrArg Agent.stage concluded).symm

/-- A run that is not running has nothing to do once its listeners have heard of
the entry. -/
theorem inevitable_of_executed (steady : audience.Steady) (kept : diary.IsKept program)
    {position : Nat} {opcode : OpCode} {script : Script (σ × Reaction)}
    (stage : diary.agent.stage = .notifying (.executed position opcode) script)
    (stopped : diary.agent.execution.isRunning = false) :
    Inevitable audience (Over (.ok ()) (.heard .stopped :: diary.notes)) diary := by
  have scripted := scripted_notifying audience (.executed position opcode)
  apply scripted.inevitable_keeping
    (fun later => later.IsKept program ∧ later.agent.execution.isRunning = false ∧
      later.notes = diary.notes) ⟨kept, stopped, rfl⟩ stage
  · rintro before board after request resume ⟨keptBefore, stoppedBefore, notes⟩ asking next
    exact ⟨isKept_next steady keptBefore next, scripted.stopped_next asking next stoppedBefore,
      (scripted.next asking next).2.1.trans notes⟩
  · rintro later ⟨listeners, reaction⟩ ⟨keptLater, stoppedLater, notes⟩ laterStage
    refine .ahead (able_of_ready (laterStage ▸ .notified _ (listeners, reaction)))
      fun board after next => ?_
    rcases next_notified keptLater laterStage next with ⟨before, resumed, unnoted, quiet⟩
    rw [← notes, ← unnoted]
    apply inevitable_of_visiting steady (isKept_next steady keptLater next)
    · rw [resumed]
      rfl
    · rw [resumed]
      exact stopped_resume (quiet stoppedLater)

/-- A run that executes goes on with the instruction of its entry. -/
theorem next_underway {accumulator : RegisterRef} {entry : Entry} {moment : Moment}
    (underway : diary.agent.Underway accumulator entry moment) {request : Request}
    {resume : request.Answer → Script (Except Fault Unit)}
    (asks : moment.script accumulator = .ask request resume)
    (next : Next audience board diary after) :
    ∃ later course, after.agent.Underway accumulator entry later ∧
      Moment.Run accumulator moment course later ∧
      (diary.agent.execution.isRunning = false →
        ∀ occurrence ∈ course, occurrence.began? = none) := by
  have scripted := scripted_executing audience
  have stage : diary.agent.stage = .executing (.ask request resume) := asks ▸ underway.stage
  rcases next_cases (scripted.ending stage) next with
    ⟨file, running, boardAfter, moves, _, quiet⟩
  have touched : (diary.agent.touched file running).Underway accumulator entry moment :=
    ⟨underway.fixed, underway.stage, underway.found, underway.course⟩
  have touchedStage : (diary.agent.touched file running).stage =
      .executing (.ask request resume) := stage
  have pursued {agent : Agent σ} (moved : agent = after.agent)
      (pursues : ∃ later course, Agent.Pursues accumulator entry moment
        (diary.agent.touched file running) agent later course) :
      ∃ later course, after.agent.Underway accumulator entry later ∧
        Moment.Run accumulator moment course later ∧
        (diary.agent.execution.isRunning = false →
          ∀ occurrence ∈ course, occurrence.began? = none) := by
    rcases pursues with ⟨later, course, pursues⟩
    rw [← moved]
    exact ⟨later, course, pursues.underway, pursues.run, fun stopped =>
      (pursues.stopped (stopped_touched file quiet stopped)).2⟩
  rcases moves with steps | expires
  · rw [scripted.step _ _ _ _ touchedStage] at steps
    rcases Option.map_eq_some_iff.mp steps with ⟨⟨execution, boardNext, script⟩, scriptStep, result⟩
    exact pursued (congrArg Prod.fst result) (touched.steps asks scriptStep)
  · rw [scripted.expire _ _ _ _ touchedStage] at expires
    rcases Option.map_eq_some_iff.mp expires with
      ⟨⟨execution, boardNext, script⟩, scriptStep, result⟩
    exact pursued (congrArg Prod.fst result) (touched.expires asks scriptStep)

theorem inevitable_of_fault (steady : audience.Steady) (kept : diary.IsKept program)
    {fault : Fault} (stage : diary.agent.stage = .executing (.done (.error fault))) :
    Inevitable audience (Over (.error fault) (.heard (.faulted fault) :: diary.notes)) diary := by
  refine .ahead (able_of_ready (stage ▸ .executed _)) fun board after next => ?_
  rcases next_ready (stage ▸ .executed _) next with ⟨file, running, boardAfter, step, noted, _⟩
  have touched : (diary.agent.touched file running).stage = .executing (.done (.error fault)) :=
    stage
  have concluded : ((diary.agent.touched file running).conclude audience board (.error fault)).1 =
      after.agent := by
    rw [Agent.step, touched] at step
    exact congrArg Prod.fst (Option.some.inj step)
  have notes : after.notes = .heard (.faulted fault) :: diary.notes := by
    rw [noted, ← concluded, Agent.news, Agent.phase, touched]
    rfl
  rw [← notes]
  exact inevitable_of_closing steady (isKept_next steady kept next)
    (congrArg Agent.stage concluded).symm

/-- A run that is not running tells of the entry that it has executed, and
ends. -/
theorem inevitable_of_success (steady : audience.Steady) (kept : diary.IsKept program)
    {entry : Entry} (stage : diary.agent.stage = .executing (.done (.ok ())))
    (found : diary.agent.execution.node.program.entries[diary.agent.execution.position]? =
      some entry)
    (stopped : diary.agent.execution.isRunning = false) :
    Inevitable audience (Over (.ok ()) (.heard .stopped ::
      .heard (.executed diary.agent.execution.position entry.instruction.opcode) ::
        diary.notes)) diary := by
  refine .ahead (able_of_ready (stage ▸ .executed _)) fun board after next => ?_
  rcases next_ready (stage ▸ .executed _) next with ⟨file, running, boardAfter, step, noted, quiet⟩
  have touched : (diary.agent.touched file running).stage = .executing (.done (.ok ())) := stage
  have sent : (diary.agent.touched file running).send audience
      (.executed diary.agent.execution.position entry.instruction.opcode) = after.agent := by
    have foundTouched : (diary.agent.touched file running).execution.node.program.entries[
        (diary.agent.touched file running).execution.position]? = some entry := found
    rw [Agent.step, touched] at step
    simp only [foundTouched] at step
    exact congrArg Prod.fst (Option.some.inj step)
  have notes : after.notes =
      .heard (.executed diary.agent.execution.position entry.instruction.opcode) ::
        diary.notes := by
    rw [noted, ← sent, Agent.news, Agent.phase, touched]
    rfl
  have stoppedAfter : after.agent.execution.isRunning = false := by
    rw [← sent]
    exact quiet stopped
  rw [← notes]
  exact inevitable_of_executed steady (isKept_next steady kept next)
    (congrArg Agent.stage sent).symm stoppedAfter

theorem length_notes_le (diary : Diary σ) (audience : Audience σ) (turns : List (Turn σ)) :
    diary.notes.length ≤ (diary.run audience turns).notes.length := by
  induction turns generalizing diary with
  | nil => exact Nat.le_refl _
  | cons next turns ih =>
      refine Nat.le_trans ?_ (ih (diary.turn audience next))
      exact List.length_append ▸ Nat.le_add_left _ _

/-- What comes of a run that is not running as long as an instruction is in
progress: nothing is noted, and nothing begins. -/
structure Fading (program : Program) (accumulator : RegisterRef) (entry : Entry) (moment : Moment)
    (origin later : Diary σ) : Prop where
  kept : later.IsKept program
  stopped : later.agent.execution.isRunning = false
  alike : origin.agent.Alike later.agent
  notes : later.notes = origin.notes
  course : ∃ last course, later.agent.Underway accumulator entry last ∧
    Moment.Run accumulator moment course last ∧ ∀ occurrence ∈ course, occurrence.began? = none

section Fading

variable {accumulator : RegisterRef} {entry : Entry} {moment : Moment} {origin : Diary σ}

theorem fading_of_underway (kept : diary.IsKept program)
    (underway : diary.agent.Underway accumulator entry moment)
    (stopped : diary.agent.execution.isRunning = false) :
    Fading program accumulator entry moment diary diary :=
  ⟨kept, stopped, ⟨rfl, rfl, rfl, rfl, rfl⟩, rfl, moment, [], underway, .here,
    List.forall_mem_nil _⟩

theorem Fading.next (steady : audience.Steady)
    (fading : Fading program accumulator entry moment origin diary) {request : Request}
    {resume : request.Answer → Script (Except Fault Unit)}
    (asking : diary.agent.stage = .executing (.ask request resume))
    (next : Next audience board diary after) :
    Fading program accumulator entry moment origin after := by
  have scripted := scripted_executing audience
  rcases scripted.next asking next with ⟨alikeAfter, unnoted, _⟩
  rcases fading.course with ⟨last, course, underway, run, quiet⟩
  have asks : last.script accumulator = .ask request resume :=
    Stage.executing.inj (underway.stage.symm.trans asking)
  rcases next_underway underway asks next with ⟨later, more, underwayAfter, onward, quietAfter⟩
  refine ⟨isKept_next steady fading.kept next, scripted.stopped_next asking next fading.stopped,
    fading.alike.trans alikeAfter, unnoted.trans fading.notes, later, course ++ more,
    underwayAfter, run.trans onward, fun occurrence member => ?_⟩
  rcases List.mem_append.mp member with early | late
  · exact quiet occurrence early
  · exact quietAfter fading.stopped occurrence late

theorem Fading.of_agent (fading : Fading program accumulator entry moment origin diary)
    (kept : after.IsKept program) {file : RegisterFile} {running : Bool}
    (touched : after.agent = diary.agent.touched file running)
    (quiet : diary.agent.execution.node.running = false → running = false)
    (notes : after.notes = diary.notes) :
    Fading program accumulator entry moment origin after := by
  rcases fading.course with ⟨last, course, underway, run, begun⟩
  refine ⟨kept, ?_, ?_, notes.trans fading.notes, last, course, ?_, run, begun⟩
  · rw [touched]
    exact stopped_touched file quiet fading.stopped
  · rw [touched]
    exact fading.alike.trans (diary.agent.alike_touched file running)
  · rw [touched]
    exact ⟨underway.fixed, underway.stage, underway.found, underway.course⟩

theorem Fading.unmoved (fading : Fading program accumulator entry moment origin diary)
    (kept : after.IsKept program) (same : after.agent = diary.agent)
    (noted : after.notes = diary.agent.news after.agent ++ diary.notes) :
    Fading program accumulator entry moment origin after := by
  refine fading.of_agent kept (same : after.agent = diary.agent.touched _ _) id ?_
  rw [noted, same, Agent.news_of_phase rfl, List.nil_append]

/-- A turn leaves the instruction in progress, or something is noted. -/
theorem Fading.turn (steady : audience.Steady)
    (fading : Fading program accumulator entry moment origin diary) (next : Turn σ) :
    Fading program accumulator entry moment origin (diary.turn audience next) ∨
      origin.notes.length < (diary.turn audience next).notes.length := by
  have kept := isKept_turn steady fading.kept next
  rcases fading.course with ⟨last, course, underway, _⟩
  have scripted := scripted_executing audience
  have outsider (outside : next.isOutside = true) :
      Fading program accumulator entry moment origin (diary.turn audience next) := by
    have persists := turn_outside audience (scripted.ending underway.stage) outside
    rcases persists.agent with ⟨file, running, touched⟩
    have quiet := persists.stopped
    rw [touched] at quiet
    exact fading.of_agent kept touched quiet persists.notes
  cases next with
  | step board =>
      cases step : diary.watch.agent.step audience board with
      | none =>
          have same : (diary.turn audience (.step board)).agent = diary.agent := by
            simp only [Diary.agent, Diary.turn, Watch.turn, step]
          exact .inl (fading.unmoved kept same rfl)
      | some result =>
          cases script : last.script accumulator with
          | ask request resume =>
              exact .inl (fading.next steady (script ▸ underway.stage)
                (.step (List.forall_mem_nil _) step))
          | done outcome =>
              rcases Agent.news_of_executed (script ▸ underway.stage) step with ⟨event, news⟩
              have noted : (diary.turn audience (.step board)).notes =
                  .heard event :: origin.notes := by
                rw [(turn_step step).2, ← fading.notes]
                exact congrArg (· ++ diary.notes) news
              refine .inr ?_
              rw [noted]
              exact Nat.lt_succ_self _
  | expire board =>
      cases expires : diary.watch.agent.expire board with
      | none =>
          have same : (diary.turn audience (.expire board)).agent = diary.agent := by
            simp only [Diary.agent, Diary.turn, Watch.turn, expires]
          exact .inl (fading.unmoved kept same rfl)
      | some result =>
          cases script : last.script accumulator with
          | ask request resume =>
              exact .inl (fading.next steady (script ▸ underway.stage)
                (.expire (List.forall_mem_nil _) expires))
          | done outcome =>
              have stage : diary.agent.stage = .executing (.done outcome) :=
                script ▸ underway.stage
              have ready : diary.agent.stage.Ready := stage ▸ .executed outcome
              cases (Agent.expire_of_ready ready board).symm.trans expires
  | stop => exact .inl (outsider rfl)
  | overwrite file => exact .inl (outsider rfl)
  | restart listeners board => exact .inl (outsider rfl)

/-- As long as nothing is noted, the same instruction is in progress. -/
theorem Fading.run (steady : audience.Steady)
    (fading : Fading program accumulator entry moment origin diary) {turns : List (Turn σ)}
    (unnoted : (diary.run audience turns).notes = origin.notes) :
    Fading program accumulator entry moment origin (diary.run audience turns) := by
  induction turns generalizing diary with
  | nil => exact fading
  | cons next turns ih =>
      rcases fading.turn steady next with further | noted
      · exact ih further unnoted
      · have grown := (diary.turn audience next).length_notes_le audience turns
        have whole : ((diary.turn audience next).run audience turns).notes = origin.notes := unnoted
        rw [whole] at grown
        exact absurd grown (Nat.not_le.mpr noted)

/-- The instruction in progress succeeds, or it fails itself. -/
theorem Fading.outcome (fading : Fading program accumulator entry moment origin diary)
    {outcome : Except Fault Unit} (ended : diary.agent.stage = .executing (.done outcome)) :
    outcome = .ok () ∨ ∃ fault asked, outcome = .error fault ∧
      moment.own.Reaches asked (.done (.error fault)) := by
  rcases fading.course with ⟨last, course, underway, run, quiet⟩
  have done : last.script accumulator = .done outcome :=
    Stage.executing.inj (underway.stage.symm.trans ended)
  rcases run.closes quiet with ⟨asked, count, own, _, reaches, _, ends⟩
  rcases ends outcome done with succeeded | ⟨fault, failed, isFault⟩
  · exact .inl succeeded
  · exact .inr ⟨fault, asked, failed, isFault ▸ reaches⟩

/-- A run that is not running brings the instruction in progress to its end, and
is over. -/
theorem inevitable_of_underway (steady : audience.Steady) (kept : diary.IsKept program)
    (underway : diary.agent.Underway accumulator entry moment)
    (stopped : diary.agent.execution.isRunning = false) :
    Inevitable audience (fun later =>
      Over (.ok ()) (.heard .stopped ::
        .heard (.executed diary.agent.execution.position entry.instruction.opcode) ::
          diary.notes) later ∨
      ∃ fault asked, moment.own.Reaches asked (.done (.error fault)) ∧
        Over (.error fault) (.heard (.faulted fault) :: diary.notes) later) diary := by
  have start := fading_of_underway kept underway stopped
  apply (scripted_executing audience).inevitable_keeping
    (Fading program accumulator entry moment diary) start underway.stage
  · intro before board after request resume fading asking next
    exact fading.next steady asking next
  · intro later outcome fading ended
    rcases fading.outcome ended with rfl | ⟨fault, asked, rfl, fails⟩
    · rcases fading.course with ⟨last, _, lastUnderway, _⟩
      rw [← fading.notes, ← fading.alike.position]
      exact (inevitable_of_success steady fading.kept ended lastUnderway.found
        fading.stopped).imp fun _ => .inl
    · rw [← fading.notes]
      exact (inevitable_of_fault steady fading.kept ended).imp fun _ isOver =>
        .inr ⟨fault, asked, fails, isOver⟩

end Fading

end Diary

/-- A machine that is not running executes an instruction to its end, and begins
none. -/
theorem Host.Heeds.closes {σ : Type} {host : Host σ} {running : σ → Bool} (ready : host.Ready)
    (heeds : host.Heeds running) {accumulator : RegisterRef} {moment : Moment} {state : σ}
    (stopped : running state = false) :
    (∃ log outcome last, (moment.script accumulator).Reaches log (.done outcome) ∧
      host.Gives state log last) ∧
    ∀ log later last, (moment.script accumulator).Reaches log later →
      host.Gives state log last → moment.Closes log later := by
  refine ⟨ready.exists_done _ state, fun log later last reaches gives => ?_⟩
  rcases Moment.exists_run reaches with ⟨course, final, run, rfl, rfl⟩
  exact run.closes (heeds.quiet gives stopped)

/-- Nothing runs after the end. From the moment when a machine is not running,
because an instruction has ended the program or for another reason, the
execution of an instruction comes to its end in every case; until then the
instruction in progress does what it does itself, and all that is asked besides
is whether the machine is running. The execution succeeds unless that instruction
fails, and to end the program never does. A node is such a machine. If one of its
runs is not running any more while it executes an entry, nothing begins until
something is noted; and whatever happens, the listeners hear that the entry was
executed and that the run has stopped, or of the fault, and nothing else is noted
of the run. -/
theorem nothing_runs_after_end :
    (∀ accumulator instruction course moment,
      Moment.Run accumulator (.start accumulator instruction) course moment →
      moment.Continues accumulator ∧ (moment.instruction = .stop → ∀ asked fault,
        ¬ moment.own.Reaches asked (.done (.error fault)))) ∧
    (∀ {σ : Type} (host : Host σ) (running : σ → Bool), host.Ready → host.Heeds running →
      ∀ accumulator instruction before early rest state,
        (instruction.execute accumulator).run.Reaches early rest →
        host.Gives before early state → running state = false ∨ ⟨.stop, ()⟩ ∈ early →
        ∃ course moment, Moment.Run accumulator (.start accumulator instruction) course moment ∧
          course.map Occurrence.answered = early ∧ moment.script accumulator = rest ∧
          (∃ log outcome last, rest.Reaches log (.done outcome) ∧ host.Gives state log last) ∧
          ∀ log later last, rest.Reaches log later → host.Gives state log last →
            moment.Closes log later) ∧
    (∀ others : Scene.Company, (∀ before after, others before after →
        before.execution.isRunning = false → after.execution.isRunning = false) →
      (Scene.host others).Ready ∧ (Scene.host others).Heeds (·.execution.isRunning)) ∧
    ∀ {σ : Type} (audience : Audience σ), audience.Steady →
      ∀ program file logger listeners turns diary,
        (Diary.resting (.ofProgram program file logger) listeners).run audience turns = diary →
        ∀ script, diary.agent.stage = .executing script →
        diary.agent.execution.isRunning = false →
        ∃ entry moment, diary.agent.Underway program.table.accumulator entry moment ∧
          (∀ more later, diary.run audience more = later → later.notes = diary.notes →
            ∃ last course, later.agent.Underway program.table.accumulator entry last ∧
              Moment.Run program.table.accumulator moment course last ∧
              ∀ occurrence ∈ course, occurrence.began? = none) ∧
          Diary.Inevitable audience (fun later =>
            Diary.Over (.ok ()) (.heard .stopped ::
              .heard (.executed diary.agent.execution.position entry.instruction.opcode) ::
                diary.notes) later ∨
            ∃ fault asked, moment.own.Reaches asked (.done (.error fault)) ∧
              Diary.Over (.error fault) (.heard (.faulted fault) :: diary.notes) later) diary := by
  refine ⟨fun accumulator instruction course moment run => ?_,
    fun host running ready heeds accumulator instruction before early rest state reaches gives
      stopped => ?_, fun others quiet => ⟨Scene.ready_host others, Scene.heeds_host quiet⟩,
    fun audience steady program file logger listeners turns diary reached script stage
      stopped => ?_⟩
  · have continues := (Moment.continues_start accumulator instruction).run run
    exact ⟨continues, continues.unfailing⟩
  · rw [← Moment.script_start] at reaches
    rcases Moment.exists_run reaches with ⟨course, moment, run, answered, rfl⟩
    have notRunning := stopped.elim id (heeds.stopped_of_mem gives)
    exact ⟨course, moment, run, answered, rfl, heeds.closes ready notRunning⟩
  · have kept : diary.IsKept program := by
      rw [← reached]
      exact Diary.isKept_run steady (Diary.kept_resting program file logger listeners) turns
    have working : diary.agent.Working := by
      have idle : (Watch.resting (.ofProgram program file logger) listeners).agent.phase ≠
          .executing := nofun
      rw [← reached, Diary.agent, Diary.watch_run]
      exact Watch.working_run (Agent.working_of_phase idle) turns
    rcases working script stage with ⟨entry, moment, underway⟩
    rw [kept.runs] at underway
    have fading := Diary.fading_of_underway kept underway stopped
    refine ⟨entry, moment, underway, ?_,
      Diary.inevitable_of_underway steady kept underway stopped⟩
    rintro more later rfl unnoted
    exact (fading.run steady unnoted).course

/-- The end of the program two branches deep, with instructions after it in both
branches and in the program. -/
theorem nothing_runs_after_end_nested :
    let board := Board.ofInput [] 0
    let table := (defaultRegisters 500).1
    let file := (defaultRegisters 500).2
    let inner := Instruction.test .equal (.int 1) (.int 1) (.ofList [.stop, .add (.int 1)]) .nil
    let outer := Instruction.test .equal (.int 0) (.int 0) (.ofList [inner, .add (.int 2)]) .nil
    let program : Program := ⟨#[⟨outer, false, 1⟩, ⟨.add (.int 3), false, 6⟩], [], table⟩
    let execution := Execution.ofNode { Node.ofProgram program file none with running := true }
    let early : List Answered := [⟨.running, true⟩, ⟨.running, true⟩, ⟨.stop, ()⟩]
    let turns := .restart () board :: List.replicate 4 (.step board)
    let diary := (Diary.resting (.ofProgram program file none) ()).run Audience.silent turns
    (∃ rest, (outer.execute table.accumulator).run.Reaches early rest ∧ ∃ course moment,
      Moment.Run table.accumulator (.start table.accumulator outer) course moment ∧
      course.map Occurrence.answered = early ∧ ∀ log later last, rest.Reaches log later →
        (Scene.host Scene.solitude).Gives ⟨{ execution with halted := true }, board⟩ log last →
        moment.Closes log later) ∧
    diary.agent.execution.isRunning = false ∧
    diary.notes = [.visited 0 .undertaken, .began] ∧
    ∃ entry moment, diary.agent.Underway table.accumulator entry moment ∧
      Diary.Inevitable Audience.silent (fun later =>
        Diary.Over (.ok ()) (.heard .stopped ::
          .heard (.executed 0 entry.instruction.opcode) :: diary.notes) later ∨
        ∃ fault asked, moment.own.Reaches asked (.done (.error fault)) ∧
          Diary.Over (.error fault) (.heard (.faulted fault) :: diary.notes) later) diary := by
  intro board table file inner outer program execution early turns diary
  rcases nothing_runs_after_end with ⟨_, machines, nodes, runs⟩
  have stopped : diary.agent.execution.isRunning = false := by decide +kernel
  refine ⟨⟨_, .ask (.ask (.ask .here)), ?_⟩, stopped, by decide +kernel, ?_⟩
  · rcases nodes Scene.solitude fun _ _ act => act.elim with ⟨ready, heeds⟩
    have running : Scene.host Scene.solitude .running ⟨execution, board⟩ true
        ⟨execution, board⟩ := .answered rfl
    have stopping : Scene.host Scene.solitude .stop ⟨execution, board⟩ ()
        ⟨{ execution with halted := true }, board⟩ := .answered rfl
    rcases machines (Scene.host Scene.solitude) (·.execution.isRunning) ready heeds
      table.accumulator outer ⟨execution, board⟩ early _ _ (.ask (.ask (.ask .here)))
      (.next running (.next running (.next stopping .none))) (.inr (by simp [early])) with
      ⟨course, moment, run, answered, _, _, closes⟩
    exact ⟨course, moment, run, answered, closes⟩
  · have executing : (diary.agent.stage matches .executing _) = true := by decide +kernel
    have position : diary.agent.execution.position = 0 := by decide +kernel
    cases stage : diary.agent.stage with
    | executing script =>
        rcases runs Audience.silent Audience.silent_steady program file none () turns diary rfl
          script stage stopped with ⟨entry, moment, underway, _, inevitable⟩
        rw [position] at inevitable
        exact ⟨entry, moment, underway, inevitable⟩
    | _ =>
        rw [stage] at executing
        cases executing

end NodeAssembly
