import NodeAssembly.Proofs.Node.Diary

/-! The logbook of a node. It has what the diary has, and besides the jumps that
are made during a visit, the stops that are asked for while the listeners handle
an event, and whether the node is running when they hear of it. Each mark is
determined by those before it and by the program. -/

namespace NodeAssembly

/-- Whether a run ends with the event. -/
def Event.isFinal : Event → Bool
  | .executed _ _ => false
  | .skipped _ => false
  | .stopped => true
  | .faulted _ => true

/-- A mark in the logbook of a node. -/
inductive Mark where
  | began
  | visited (position : Nat)
  | jumped (label : String)
  /-- The listeners hear of an event, and whether the node is running. -/
  | heard (event : Event) (running : Bool)
  /-- The node is asked to stop while the listeners handle an event. -/
  | asked
deriving DecidableEq

namespace Mark

def ofNote (running : Bool) : Note → Mark
  | .began => .began
  | .visited position _ => .visited position
  | .heard event => .heard event running

/-! What the marks say about the run that is going on. Marks stand with the
latest first. -/

/-- The events of the run, the latest first. -/
def events : List Mark → List Event
  | [] => []
  | .began :: _ => []
  | .heard event _ :: earlier => event :: events earlier
  | _ :: earlier => events earlier

/-- Whether the run was asked to stop while an event was handled. -/
def isAsked : List Mark → Bool
  | [] => false
  | .began :: _ => false
  | .asked :: _ => true
  | _ :: earlier => isAsked earlier

/-- The entry whose visit is not over. -/
def visiting? : List Mark → Option Nat
  | .visited position :: _ => some position
  | .jumped _ :: earlier => visiting? earlier
  | _ => none

/-- The label of the last jump since an entry was last visited. -/
def jump? : List Mark → Option String
  | [] => none
  | .began :: _ => none
  | .visited _ :: _ => none
  | .jumped label :: _ => some label
  | _ :: earlier => jump? earlier

/-- No event has ended the run. -/
def Underway (marks : List Mark) : Prop :=
  ∀ event ∈ events marks, event.isFinal = false

/-- The run goes on at a position. -/
def Leads (program : Program) (earlier : List Mark) (position : Nat) : Prop :=
  match (events earlier).head? with
  | none => position = 0
  | some (.skipped last) => position = (last + 1) % program.size
  | some (.executed last _) =>
    match jump? earlier with
    | some label => program.label? label = some position
    | none => position = (last + 1) % program.size
  | some _ => False

/-- What the earlier marks have to be for a mark. -/
def Follows (program : Program) (earlier : List Mark) : Mark → Prop
  | .began => True
  | .visited position => Leads program earlier position ∧ visiting? earlier = none ∧
      isAsked earlier = false
  | .jumped label => (visiting? earlier).isSome ∧ (program.label? label).isSome
  | .heard event running => Underway earlier ∧ (isAsked earlier = true → event = .stopped) ∧
    match event with
    | .executed position opcode => visiting? earlier = some position ∧
        program.entries[position]?.map (·.instruction.opcode) = some opcode
    | .skipped position => visiting? earlier = some position
    | .stopped => running = false
    | .faulted _ => running = false
  | .asked => True

/-- Marks that follow one another. -/
def Regular (program : Program) (marks : List Mark) : Prop :=
  ∀ mark earlier, mark :: earlier <:+ marks → Follows program earlier mark

variable {program : Program} {marks : List Mark} {mark : Mark} {event : Event}

theorem regular_cons (regular : Regular program marks) (follows : Follows program marks mark) :
    Regular program (mark :: marks) := by
  intro latest earlier suffix
  rcases List.suffix_cons_iff.mp suffix with same | suffix
  · cases same
    exact follows
  · exact regular latest earlier suffix

theorem underway_of_head (latest : (events marks).head? = some event)
    (goesOn : event.isFinal = false)
    (before : ∀ other ∈ (events marks).tail, other.isFinal = false) : Underway marks := by
  rcases List.head?_eq_some_iff.mp latest with ⟨loop, all⟩
  intro other member
  rw [all] at member before
  rcases List.mem_cons.mp member with rfl | member
  · exact goesOn
  · exact before other member

end Mark

namespace Agent

variable {σ : Type}

/-- What is marked when a run goes from one phase to another. -/
def marks (before after : Agent σ) : List Mark :=
  (before.news after).map (.ofNote after.execution.node.running)

/-- What is marked when a run takes a step without leaving its visit. -/
def deeds (agent : Agent σ) : List Mark :=
  match agent.stage with
  | .executing (.ask (.jump label) _) => [.jumped label]
  | .notifying _ (.done (_, reaction)) => if reaction.stop then [.asked] else []
  | _ => []

/-- Whether the listeners are handling an event. -/
def isNotifying (agent : Agent σ) : Bool :=
  match agent.stage with
  | .notifying _ _ => true
  | _ => false

theorem marks_of_phase {before after : Agent σ} (same : after.phase = before.phase) :
    before.marks after = [] := by
  rw [marks, news_of_phase same, List.map_nil]

end Agent

/-- A node's runs with the marks about them. -/
structure Logbook (σ : Type) where
  watch : Watch σ
  /-- All marks, the latest first. -/
  marks : List Mark

namespace Logbook

variable {σ : Type}

def agent (logbook : Logbook σ) : Agent σ :=
  logbook.watch.agent

def resting (node : Node) (listeners : σ) : Logbook σ :=
  ⟨.resting node listeners, []⟩

def deeds (audience : Audience σ) (logbook : Logbook σ) : Turn σ → List Mark
  | .step board => if (logbook.agent.step audience board).isSome then logbook.agent.deeds else []
  | .stop => if logbook.agent.isNotifying then [.asked] else []
  | _ => []

def turn (audience : Audience σ) (logbook : Logbook σ) (next : Turn σ) : Logbook σ :=
  let watch := logbook.watch.turn audience next
  ⟨watch, logbook.agent.marks watch.agent ++ (logbook.deeds audience next ++ logbook.marks)⟩

def run (audience : Audience σ) (logbook : Logbook σ) (turns : List (Turn σ)) : Logbook σ :=
  turns.foldl (turn audience) logbook

/-- How a run agrees with the marks. -/
def Abreast (program : Program) (watch : Watch σ) (marks : List Mark) : Prop :=
  match watch.agent.phase with
  | .visiting => Mark.Underway marks ∧ Mark.visiting? marks = none ∧
      Mark.Leads program marks watch.agent.execution.position
  | .executing => Mark.Underway marks ∧ Mark.isAsked marks = false ∧
      Mark.visiting? marks = some watch.agent.execution.position ∧ Mark.jump? marks = watch.jumped
  | .notifying event => Mark.visiting? marks = none ∧
      (Mark.events marks).head? = some event ∧
      (∀ other ∈ (Mark.events marks).tail, other.isFinal = false) ∧
      match event with
      | .executed _ _ => Mark.jump? marks = watch.jumped
      | _ => True
  | .finished ending => marks ≠ [] → ∃ result, ending = .returned result ∧
      (Mark.events marks).head? = some (Diary.closing result) ∧
      ∀ other ∈ (Mark.events marks).tail, other.isFinal = false

structure Told (program : Program) (watch : Watch σ) (marks : List Mark) : Prop where
  regular : Mark.Regular program marks
  abreast : Abreast program watch marks
  obeyed : watch.agent.execution.node.running = true → Mark.isAsked marks = false

variable {program : Program} {audience : Audience σ} {agent : Agent σ} {watch after : Watch σ}
  {board : Board} {marks : List Mark} {jumped : Option String}

theorem told_of_same (told : Told program watch marks)
    (phase : after.agent.phase = watch.agent.phase)
    (position : after.agent.execution.position = watch.agent.execution.position)
    (jumped : after.jumped = watch.jumped)
    (running : after.agent.execution.node.running = true →
      watch.agent.execution.node.running = true) : Told program after marks where
  regular := told.regular
  abreast := by
    have abreast := told.abreast
    unfold Abreast at abreast ⊢
    rwa [phase, position, jumped]
  obeyed active := told.obeyed (running active)

theorem told_conclude (regular : Mark.Regular program marks) (underway : Mark.Underway marks)
    {result : Except Fault Unit}
    (heeded : Mark.isAsked marks = true → Diary.closing result = .stopped) :
    Told program ⟨(agent.conclude audience board result).1, jumped⟩
      (.heard (Diary.closing result) false :: marks) := by
  rcases result with fault | ⟨⟩
  all_goals
    refine ⟨Mark.regular_cons regular ⟨underway, heeded, rfl⟩, ⟨rfl, rfl, underway, trivial⟩, ?_⟩
    exact nofun

/-- A run that is not to stop may visit the entry at its position. -/
theorem Told.visited (told : Told program watch marks) (phase : watch.agent.phase = .visiting)
    (active : watch.agent.execution.isRunning = true) : Mark.isAsked marks = false ∧
      Mark.Regular program (.visited watch.agent.execution.position :: marks) := by
  have abreast := told.abreast
  simp only [Abreast, phase] at abreast
  have unasked := told.obeyed ((Bool.and_eq_true _ _).mp active).2
  have follows : Mark.Follows program marks (.visited watch.agent.execution.position) :=
    ⟨abreast.2.2, abreast.2.1, unasked⟩
  exact ⟨unasked, Mark.regular_cons told.regular follows⟩

/-- A run that has no entry to execute ends. -/
theorem told_leave (told : Told program watch marks) (phase : watch.agent.phase = .visiting)
    (underway : Mark.Underway marks) :
    Told program ⟨(watch.agent.conclude audience board (.ok ())).1, jumped⟩
      (watch.agent.marks (watch.agent.conclude audience board (.ok ())).1 ++ marks) := by
  rw [Agent.marks, Agent.news_conclude_visiting phase]
  split
  next entering =>
    have active : watch.agent.execution.isRunning = true := ((Bool.and_eq_true _ _).mp entering).1
    exact told_conclude (told.visited phase active).2 underway fun _ => rfl
  next => exact told_conclude told.regular underway fun _ => rfl

theorem told_visit (told : Told program watch marks) (stage : watch.agent.stage = .visiting) :
    Told program ⟨(watch.agent.visit audience board).1, none⟩
      (watch.agent.marks (watch.agent.visit audience board).1 ++ marks) := by
  have phase : watch.agent.phase = .visiting := congrArg Stage.phase stage
  have underway : Mark.Underway marks := by
    have abreast := told.abreast
    simp only [Abreast, phase] at abreast
    exact abreast.1
  have finds := watch.agent.visit_finds audience board
  generalize watch.agent.visit audience board = result at finds ⊢
  cases finds with
  | nothing missing => exact told_leave told phase underway
  | stopped found stopped => exact told_leave told phase underway
  | exhausted found running spent full => exact told_leave told phase underway
  | spent found running spent lacking =>
      rcases told.visited phase running with ⟨unasked, regular⟩
      have heeded : Mark.isAsked (.visited watch.agent.execution.position :: marks) = true →
          Event.skipped watch.agent.execution.position = .stopped := by
        intro asked
        cases unasked.symm.trans asked
      rw [Agent.marks, Agent.news, phase]
      exact ⟨Mark.regular_cons regular ⟨underway, heeded, rfl⟩, ⟨rfl, rfl, underway, trivial⟩,
        fun _ => unasked⟩
  | fresh found running fresh =>
      rcases told.visited phase running with ⟨unasked, regular⟩
      rw [Agent.marks, Agent.news, phase]
      exact ⟨regular, ⟨underway, unasked, rfl, rfl⟩, fun _ => unasked⟩

/-- The node is asked to stop while the listeners handle an event. -/
theorem told_ask (told : Told program watch marks) {event : Event}
    (phase : watch.agent.phase = .notifying event)
    (same : after.agent.phase = watch.agent.phase) (jumped : after.jumped = watch.jumped)
    (stopped : after.agent.execution.node.running = false) :
    Told program after (.asked :: marks) where
  regular := Mark.regular_cons told.regular trivial
  abreast := by
    have abreast := told.abreast
    unfold Abreast at abreast ⊢
    rw [same]
    rw [phase] at abreast ⊢
    rw [jumped]
    exact ⟨rfl, abreast.2⟩
  obeyed active := by
    cases stopped.symm.trans active

theorem told_heed (told : Told program ⟨agent, jumped⟩ marks) {event : Event}
    (phase : agent.phase = .notifying event) (listeners : σ) (reaction : Reaction) :
    Told program ⟨agent.heed listeners reaction, jumped⟩
      ((if reaction.stop then [.asked] else []) ++ marks) := by
  cases stop : reaction.stop with
  | true =>
      have stopped : (agent.heed listeners reaction).execution.node.running = false := by
        simp only [Agent.heed, stop, if_true]
        rfl
      have asked : Told program ⟨agent.heed listeners reaction, jumped⟩ (.asked :: marks) :=
        told_ask told phase rfl rfl stopped
      exact asked
  | false =>
      have same : Told program ⟨agent.heed listeners reaction, jumped⟩ marks := by
        refine told_of_same told rfl rfl rfl ?_
        simp only [Agent.heed, stop, Bool.false_eq_true, if_false]
        exact id
      exact same

theorem told_resume (told : Told program ⟨agent, jumped⟩ marks)
    (runs : agent.execution.node.program = program) {event : Event}
    (phase : agent.phase = .notifying event)
    (agrees : ∀ position opcode, event = .executed position opcode →
      Watch.Agrees program ⟨agent, jumped⟩) :
    Told program ⟨agent.resume event, jumped⟩ marks := by
  have abreast := told.abreast
  simp only [Abreast, phase] at abreast
  rcases abreast with ⟨free, latest, before, jumps⟩
  cases event with
  | executed position opcode =>
      have agrees := agrees position opcode rfl
      have pending : agent.execution.pending = jumped.bind program.label? := agrees.pending
      have size : (agent.execution.node.spend position).program.size = program.size := by
        rw [Node.program_spend, runs]
      have leads : Mark.Leads program marks (agent.execution.pending.getD
          ((position + 1) % (agent.execution.node.spend position).program.size)) := by
        rw [Mark.Leads, latest, size, pending]
        simp only at jumps ⊢
        rw [jumps]
        cases jumped with
        | none => rfl
        | some label =>
            rcases Option.isSome_iff_exists.mp (agrees.known label rfl) with ⟨target, found⟩
            simp only [Option.bind_some, found, Option.getD_some]
      refine ⟨told.regular, ⟨Mark.underway_of_head latest rfl before, free, leads⟩, ?_⟩
      intro active
      exact told.obeyed ((Node.running_spend _ _).symm.trans active)
  | skipped position =>
      have leads : Mark.Leads program marks
          ((position + 1) % agent.execution.node.program.size) := by
        rw [Mark.Leads, latest, runs]
      exact ⟨told.regular, ⟨Mark.underway_of_head latest rfl before, free, leads⟩, told.obeyed⟩
  | stopped => exact ⟨told.regular, fun _ => ⟨.ok (), rfl, latest, before⟩, told.obeyed⟩
  | faulted fault => exact ⟨told.regular, fun _ => ⟨.error fault, rfl, latest, before⟩, told.obeyed⟩

theorem told_of_carries (told : Told program ⟨agent, jumped⟩ marks) {request : Request}
    {execution : Execution} {stage : Stage σ}
    (carries : Execution.Carries request agent.execution execution)
    (phase : stage.phase = agent.phase) :
    Told program ⟨{ agent with execution := execution, stage := stage }, jumped⟩
      (agent.marks { agent with execution := execution, stage := stage } ++ marks) := by
  have unmarked : agent.marks { agent with execution := execution, stage := stage } = [] :=
    Agent.marks_of_phase phase
  rw [unmarked]
  refine told_of_same told phase carries.position rfl fun active => ?_
  exact carries.running.symm.trans active

/-- A jump during a visit is marked, and nothing else is. -/
theorem told_execute (told : Told program watch marks) {script next : Script (Except Fault Unit)}
    (stage : watch.agent.stage = .executing script) {execution : Execution} {after : Board}
    (step : watch.agent.execution.stepScript board script = some (execution, after, next))
    (sound : Watch.Sound program
      ⟨{ watch.agent with execution := execution, stage := .executing next }, watch.nextJump⟩) :
    Told program ⟨{ watch.agent with execution := execution, stage := .executing next },
      watch.nextJump⟩
      (watch.agent.marks { watch.agent with execution := execution, stage := .executing next } ++
        (watch.agent.deeds ++ marks)) := by
  have phase : watch.agent.phase = .executing := congrArg Stage.phase stage
  rcases Execution.stepScript_carries step with ⟨request, resume, rfl, carries⟩
  cases request with
  | jump label =>
      have deeds : watch.agent.deeds = [.jumped label] := by rw [Agent.deeds, stage]
      have jump : watch.nextJump = some label := by rw [Watch.nextJump, stage]
      have known : (program.label? label).isSome := sound.onCourse.1.known label jump
      have abreast := told.abreast
      simp only [Abreast, phase] at abreast
      rcases abreast with ⟨underway, unasked, visits, jumps⟩
      have follows : Mark.Follows program marks (.jumped label) :=
        ⟨Option.isSome_of_eq_some visits, known⟩
      have unmarked : watch.agent.marks
          { watch.agent with execution := execution, stage := .executing next } = [] :=
        Agent.marks_of_phase phase.symm
      rw [deeds, jump, unmarked]
      refine ⟨Mark.regular_cons told.regular follows, ⟨underway, unasked, ?_, rfl⟩, fun _ => unasked⟩
      rw [carries.position]
      exact visits
  | _ =>
      have deeds : watch.agent.deeds = [] := by rw [Agent.deeds, stage]
      have jump : watch.nextJump = watch.jumped := by rw [Watch.nextJump, stage]
      rw [deeds, jump]
      exact told_of_carries told carries phase.symm

/-- The listeners hear that the entry was executed with the jump that was made. -/
theorem told_complete (sound : watch.Sound program) (told : Told program watch marks)
    (phase : watch.agent.phase = .executing) {entry : Entry}
    (found : watch.agent.execution.node.program.entries[watch.agent.execution.position]? =
      some entry) :
    let event := Event.executed watch.agent.execution.position entry.instruction.opcode
    Told program ⟨watch.agent.send audience event, watch.jumped⟩
      (watch.agent.marks (watch.agent.send audience event) ++ marks) := by
  intro event
  have abreast := told.abreast
  simp only [Abreast, phase] at abreast
  rcases abreast with ⟨underway, unasked, visits, jumps⟩
  have heeded : Mark.isAsked marks = true → event = .stopped := by
    intro asked
    cases unasked.symm.trans asked
  have opcode : program.entries[watch.agent.execution.position]?.map (·.instruction.opcode) =
      some entry.instruction.opcode := by
    rw [← sound.bears.runs, found, Option.map_some]
  rw [Agent.marks, Agent.news, phase]
  exact ⟨Mark.regular_cons told.regular ⟨underway, heeded, visits, opcode⟩,
    ⟨rfl, rfl, underway, jumps⟩, fun _ => unasked⟩

theorem told_react (sound : watch.Sound program) (told : Told program watch marks) {event : Event}
    {listeners : σ} {reaction : Reaction} (unbroken : reaction.broken = false)
    (stage : watch.agent.stage = .notifying event (.done (listeners, reaction))) :
    let result := (watch.agent.react board event listeners reaction).1
    Told program ⟨result, watch.jumped⟩
      (watch.agent.marks result ++ ((if reaction.stop then [.asked] else []) ++ marks)) := by
  have phase : watch.agent.phase = .notifying event := congrArg Stage.phase stage
  have onCourse := sound.onCourse
  simp only [Watch.OnCourse, stage] at onCourse
  intro result
  rw [Agent.marks, Agent.news_of_notifying phase]
  unfold result
  rw [Agent.react_of_unbroken unbroken]
  refine told_resume (told_heed told phase listeners reaction) ?_ phase ?_
  · exact (watch.agent.alike_heed listeners reaction).program.trans sound.bears.runs
  · rintro position opcode rfl
    exact ⟨onCourse.2.pending, onCourse.2.known⟩

theorem told_step (sound : watch.Sound program)
    (attended : watch.agent.Attended) (told : Told program watch marks)
    {result : Agent σ × Board} (step : watch.agent.step audience board = some result)
    (soundAfter : Watch.Sound program ⟨result.1, watch.nextJump⟩) :
    Told program ⟨result.1, watch.nextJump⟩
      (watch.agent.marks result.1 ++ (watch.agent.deeds ++ marks)) := by
  have abreast := told.abreast
  unfold Abreast at abreast
  cases Agent.step_moves step with
  | visits stage =>
      have deeds : watch.agent.deeds = [] := by rw [Agent.deeds, stage]
      have jump : watch.nextJump = none := by rw [Watch.nextJump, stage]
      rw [deeds, jump]
      exact told_visit told stage
  | @faults fault stage =>
      have phase : watch.agent.phase = .executing := congrArg Stage.phase stage
      have deeds : watch.agent.deeds = [] := by rw [Agent.deeds, stage]
      rw [phase] at abreast
      rw [deeds, Agent.marks, Agent.news, phase]
      -- A run that was asked to stop executes nothing that could have a fault.
      apply told_conclude told.regular abreast.1
      intro asked
      cases abreast.2.1.symm.trans asked
  | completes stage found =>
      have deeds : watch.agent.deeds = [] := by rw [Agent.deeds, stage]
      have jump : watch.nextJump = watch.jumped := by rw [Watch.nextJump, stage]
      rw [deeds, jump]
      exact told_complete sound told (congrArg Stage.phase stage) found
  | leaves stage missing =>
      have phase : watch.agent.phase = .executing := congrArg Stage.phase stage
      have deeds : watch.agent.deeds = [] := by rw [Agent.deeds, stage]
      rw [phase] at abreast
      rw [deeds, Agent.marks, Agent.news, phase]
      exact told_conclude told.regular abreast.1 fun _ => rfl
  | executes stage scriptStep => exact told_execute told stage scriptStep soundAfter
  | @reacts event listeners reaction stage =>
      have deeds : watch.agent.deeds = if reaction.stop then [.asked] else [] := by
        rw [Agent.deeds, stage]
      have jump : watch.nextJump = watch.jumped := by rw [Watch.nextJump, stage]
      rw [deeds, jump]
      exact told_react sound told (Agent.attended_of_notifying attended stage) stage
  | @notifies event script next execution boardNext stage scriptStep =>
      have phase : watch.agent.phase = .notifying event := congrArg Stage.phase stage
      rcases Execution.stepScript_carries scriptStep with ⟨request, resume, rfl, carries⟩
      have deeds : watch.agent.deeds = [] := by rw [Agent.deeds, stage]
      have jump : watch.nextJump = watch.jumped := by rw [Watch.nextJump, stage]
      rw [deeds, jump]
      exact told_of_carries told carries phase.symm

theorem told_expire (told : Told program watch marks) {result : Agent σ × Board}
    (expires : watch.agent.expire board = some result) :
    Told program { watch with agent := result.1 } (watch.agent.marks result.1 ++ marks) := by
  cases Agent.expire_givesUp expires with
  | executes stage scriptStep =>
      rcases Execution.expireScript_carries scriptStep with ⟨_, _, _, carries⟩
      exact told_of_carries told carries (congrArg Stage.phase stage).symm
  | @notifies event script next execution boardNext stage scriptStep =>
      have phase : watch.agent.phase = .notifying event := congrArg Stage.phase stage
      rcases Execution.expireScript_carries scriptStep with ⟨_, _, _, carries⟩
      exact told_of_carries told carries phase.symm

/-- The invariant of a logbook. -/
structure Kept (program : Program) (logbook : Logbook σ) : Prop where
  sound : logbook.watch.Sound program
  attended : logbook.agent.Attended
  told : Told program logbook.watch logbook.marks

variable {logbook : Logbook σ}

theorem kept_resting (program : Program) (file : RegisterFile) (logger : Option Logger)
    (listeners : σ) : (resting (.ofProgram program file logger) listeners).Kept program where
  sound := Watch.sound_resting program file logger listeners
  attended := trivial
  told := by
    refine ⟨fun mark earlier suffix => ?_, fun marked => absurd rfl marked, fun _ => rfl⟩
    cases List.suffix_nil.mp suffix

theorem told_same (told : Told program watch marks) :
    Told program watch (watch.agent.marks watch.agent ++ marks) := by
  rw [Agent.marks_of_phase rfl]
  exact told

theorem told_start (told : Told program watch marks) {ending : Ending} {node : Node}
    (finished : watch.agent.ending? = some ending) (listeners : σ) (board : Board) :
    let agent := (Agent.start node listeners board).1
    Told program ⟨agent, none⟩ (watch.agent.marks agent ++ marks) := by
  intro agent
  have began : watch.agent.marks agent = [.began] := by
    rw [Agent.marks, Agent.news, Agent.phase_of_ending finished]
    rfl
  rw [began]
  have underway : Mark.Underway (.began :: marks) :=
    fun _ member => absurd member List.not_mem_nil
  exact ⟨Mark.regular_cons told.regular trivial, ⟨underway, rfl, rfl⟩, fun _ => rfl⟩

theorem marks_withNode (logbook : Logbook σ) (node : Node) :
    logbook.agent.marks (logbook.watch.withNode node).agent = [] :=
  Agent.marks_of_phase rfl

theorem told_stop (told : Told program watch marks) :
    Told program (watch.withNode watch.agent.execution.node.stop)
      ((if watch.agent.isNotifying then [.asked] else []) ++ marks) := by
  split
  next notifying =>
    unfold Agent.isNotifying at notifying
    split at notifying
    next event script stage =>
      have phase : watch.agent.phase = .notifying event := congrArg Stage.phase stage
      exact told_ask told phase rfl rfl rfl
    next => cases notifying
  next => exact told_of_same told rfl rfl rfl nofun

theorem kept_turn (closed : program.Closed) (steady : audience.Steady)
    (kept : logbook.Kept program) (next : Turn σ) : (logbook.turn audience next).Kept program := by
  have sound := Watch.sound_turn closed steady.bystanders kept.sound next
  have told := kept.told
  cases next with
  | step board =>
      simp only [turn, Watch.turn, deeds] at sound ⊢
      split
      next after boardAfter step =>
        have made : (logbook.agent.step audience board).isSome := Option.isSome_of_eq_some step
        rw [if_pos made]
        simp only [step] at sound
        exact ⟨sound, Agent.attended_step steady kept.attended step,
          told_step kept.sound kept.attended told step sound⟩
      next blocked =>
        have made : ¬ (logbook.agent.step audience board).isSome := by
          simp only [agent, blocked, Option.isSome_none, Bool.false_eq_true, not_false_eq_true]
        rw [if_neg made]
        exact ⟨kept.sound, kept.attended, told_same told⟩
  | expire board =>
      simp only [turn, Watch.turn, deeds] at sound ⊢
      split
      next after boardAfter expires =>
        simp only [expires] at sound
        exact ⟨sound, Agent.attended_expire kept.attended expires, told_expire told expires⟩
      next => exact ⟨kept.sound, kept.attended, told_same told⟩
  | stop =>
      refine ⟨sound, kept.attended, ?_⟩
      simp only [turn, Watch.turn, deeds]
      rw [marks_withNode]
      exact told_stop told
  | overwrite file =>
      refine ⟨sound, kept.attended, ?_⟩
      simp only [turn, Watch.turn, deeds]
      rw [marks_withNode]
      exact told_of_same told rfl rfl rfl id
  | restart listeners board =>
      simp only [turn, Watch.turn, deeds] at sound ⊢
      split
      next node finished claimed =>
        simp only [finished, claimed] at sound
        exact ⟨sound, trivial, told_start told finished listeners board⟩
      next => exact ⟨kept.sound, kept.attended, told_same told⟩

theorem kept_run (closed : program.Closed) (steady : audience.Steady)
    (kept : logbook.Kept program) (turns : List (Turn σ)) :
    (logbook.run audience turns).Kept program := by
  induction turns generalizing logbook with
  | nil => exact kept
  | cons next turns induction => exact induction (kept_turn closed steady kept next)

end Logbook

/-- Each run follows the program. Its first visit is to the first entry. After
an entry was passed over, the next one is visited; after an entry was executed,
the one that the last jump of its execution leads to, and the next one if there
was no jump. The run tells of each entry, and ends with a single event that
tells what it returns, when the node is no longer running; once it was asked to
stop while an event was handled, this is the only event left. -/
theorem run_follows_program {σ : Type} {registry : PinRegistry} {board : Board} {config : Config}
    {logger : Option Logger} {source : String} {program : Program} {file : RegisterFile}
    (parsed : (Program.parse registry board config logger source).result = .ok (program, file))
    {audience : Audience σ} (steady : audience.Steady) (nodeLogger : Option Logger)
    (listeners : σ) (turns : List (Turn σ)) {logbook : Logbook σ}
    (reached : (Logbook.resting (.ofProgram program file nodeLogger) listeners).run audience turns =
      logbook) :
    (∀ position earlier, .visited position :: earlier <:+ logbook.marks →
      Mark.visiting? earlier = none ∧ Mark.Leads program earlier position) ∧
    (∀ label earlier, .jumped label :: earlier <:+ logbook.marks →
      (Mark.visiting? earlier).isSome ∧ (program.label? label).isSome) ∧
    (∀ event running earlier, .heard event running :: earlier <:+ logbook.marks →
      (∀ other ∈ Mark.events earlier, other.isFinal = false) ∧
      (∀ position opcode, event = .executed position opcode →
        Mark.visiting? earlier = some position ∧
        program.entries[position]?.map (·.instruction.opcode) = some opcode) ∧
      (∀ position, event = .skipped position → Mark.visiting? earlier = some position) ∧
      (event.isFinal = true → running = false) ∧
      (Mark.isAsked earlier = true → event = .stopped)) ∧
    (∀ ending, logbook.marks ≠ [] → logbook.agent.ending? = some ending →
      ∃ result loop, ending = .returned result ∧
        Mark.events logbook.marks = Diary.closing result :: loop ∧
        ∀ event ∈ loop, event.isFinal = false) := by
  have kept : logbook.Kept program := by
    rw [← reached]
    exact Logbook.kept_run (Program.closed_of_parse parsed) steady
      (Logbook.kept_resting program file nodeLogger listeners) turns
  have regular := kept.told.regular
  refine ⟨fun position earlier suffix => ?_, fun label earlier suffix => ?_,
    fun event running earlier suffix => ?_, fun ending marked finished => ?_⟩
  · have follows := regular _ _ suffix
    exact ⟨follows.2.1, follows.1⟩
  · exact regular _ _ suffix
  · rcases regular _ _ suffix with ⟨underway, heeded, matching⟩
    refine ⟨underway, ?_, ?_, ?_, heeded⟩
    · rintro position opcode rfl
      exact matching
    · rintro position rfl
      exact matching
    · intro final
      cases event with
      | executed position opcode => cases final
      | skipped position => cases final
      | stopped => exact matching
      | faulted fault => exact matching
  · have abreast := kept.told.abreast
    unfold Logbook.Abreast at abreast
    rw [show logbook.watch.agent.phase = .finished ending from Agent.phase_of_ending finished]
      at abreast
    rcases abreast marked with ⟨result, returned, latest, before⟩
    rcases List.head?_eq_some_iff.mp latest with ⟨loop, all⟩
    rw [all] at before
    exact ⟨result, loop, returned, all, before⟩

/-- Two runs over an entry that runs only once, with a jump two branches deep
that is not the end of its instruction. -/
theorem run_follows_program_nested :
    let source := "@jmp start\nback: end\nstart: teq 0 0\n+ teq 1 1\n+ + jmp back\n+ nop"
    let board := Board.ofInput [] 0
    let table := (defaultRegisters 500).1
    let file := (defaultRegisters 500).2
    let inner := Instruction.test .equal (.int 1) (.int 1) (.ofList [.jump "back"]) .nil
    let outer := Instruction.test .equal (.int 0) (.int 0) (.ofList [inner, .noOperation]) .nil
    let program : Program := ⟨#[⟨.jump "start", true, 1⟩, ⟨.stop, false, 2⟩,
      ⟨outer, false, 3⟩], [("back", 1), ("start", 2)], table⟩
    let lap : List (Turn Unit) := .restart () board :: List.replicate 25 (.step board)
    let logbook := (Logbook.resting (.ofProgram program file none) ()).run Audience.silent
      (lap ++ lap)
    let events := Mark.events logbook.marks
    (Program.parse .empty board .default none source).result = .ok (program, file) ∧
      logbook.marks.reverse =
        [.began, .visited 0, .jumped "start", .heard (.executed 0 .jump) true,
          .visited 2, .jumped "back", .heard (.executed 2 (.test .equal)) true,
          .visited 1, .heard (.executed 1 .stop) true, .heard .stopped false,
          .began, .visited 0, .heard (.skipped 0) true,
          .visited 1, .heard (.executed 1 .stop) true, .heard .stopped false] ∧
      ∃ result loop, events = Diary.closing result :: loop ∧ ∀ event ∈ loop, event.isFinal = false := by
  intro source board table file inner outer program lap logbook events
  have parsed : (Program.parse .empty board .default none source).result =
      .ok (program, file) := by
    decide +kernel
  have marked : logbook.marks.reverse =
      [.began, .visited 0, .jumped "start", .heard (.executed 0 .jump) true,
        .visited 2, .jumped "back", .heard (.executed 2 (.test .equal)) true,
        .visited 1, .heard (.executed 1 .stop) true, .heard .stopped false,
        .began, .visited 0, .heard (.skipped 0) true,
        .visited 1, .heard (.executed 1 .stop) true, .heard .stopped false] := by
    decide +kernel
  have nonempty : logbook.marks ≠ [] := by
    decide +kernel
  have finished : logbook.agent.ending?.isSome = true := by
    decide +kernel
  rcases Option.isSome_iff_exists.mp finished with ⟨ending, finished⟩
  have follows := run_follows_program parsed Audience.silent_steady none () (lap ++ lap) rfl
  rcases follows.2.2.2 ending nonempty finished with ⟨result, loop, _, all, before⟩
  exact ⟨parsed, marked, result, loop, all, before⟩

end NodeAssembly
