import NodeAssembly.Proofs.Node.Listeners

/-! The diary of a node. Beside all runs of a node a diary is kept of the visits
to its entries and of the events that its listeners hear. The notes follow one
another by rules that do not mention the node: what a visit comes to depends on
the earlier notes alone. -/

namespace NodeAssembly

/-- What a visit to an entry comes to. -/
inductive Visit where
  /-- The instruction is executed. -/
  | undertaken
  /-- The entry is spent and is passed over. -/
  | passed
  /-- So many entries were passed over that the run ends. -/
  | exhausted
deriving DecidableEq

/-- A note in the diary of a node. -/
inductive Note where
  | began
  | visited (position : Nat) (visit : Visit)
  | heard (event : Event)
deriving DecidableEq

/-- Whether an entry is there and runs only once. -/
def Program.isOnce (program : Program) (position : Nat) : Bool :=
  program.entries[position]?.any Entry.once

theorem Node.isSpent_spend {node : Node} {position : Nat} (inside : position < node.spent.size)
    (other : Nat) : (node.spend position).isSpent other =
      (node.isSpent other || (position == other && node.program.isOnce position)) := by
  unfold spend Program.isOnce
  cases found : node.program.entries[position]? with
  | none => simp
  | some entry =>
      cases once : entry.once with
      | false => simp [once]
      | true =>
          by_cases same : position = other
          · subst same
            simp [isSpent, once, inside]
          · simp [isSpent, once, same]

namespace Note

/-- Whether the note says that an entry was executed. -/
def isExecution (position : Nat) : Note → Bool
  | .heard (.executed other _) => other == position
  | _ => false

/-- Whether an entry runs only once and was executed. Notes stand with the
latest first. -/
def isUsed (program : Program) (notes : List Note) (position : Nat) : Bool :=
  program.isOnce position && notes.any (isExecution position)

theorem isUsed_executed (program : Program) (notes : List Note) (position : Nat) (opcode : OpCode)
    (other : Nat) : isUsed program (.heard (.executed position opcode) :: notes) other =
      (isUsed program notes other || (position == other && program.isOnce position)) := by
  by_cases same : position = other
  · subst same
    cases once : program.isOnce position <;> simp [isUsed, isExecution, once]
  · have different : (position == other) = false := beq_false_of_ne same
    simp [isUsed, isExecution, different]

/-- The entries that were passed over since the last one executed, or since the
run began, the latest first. -/
def skips : List Note → List Nat
  | [] => []
  | .began :: _ => []
  | .heard (.executed _ _) :: _ => []
  | .heard (.skipped position) :: earlier => position :: skips earlier
  | _ :: earlier => skips earlier

/-- Whether nothing has to follow from the latest note. -/
def isRested : List Note → Bool
  | .visited _ _ :: _ => false
  | _ => true

/-- What the earlier notes have to be for a note. -/
def Follows (program : Program) (earlier : List Note) : Note → Prop
  | .began => isRested earlier = true
  | .visited position visit => isRested earlier = true ∧ position < program.size ∧
    match visit with
    | .undertaken => isUsed program earlier position = false
    | .passed => isUsed program earlier position = true ∧ (skips earlier).length < program.size ∧
        ∀ latest ∈ (skips earlier).head?, position = (latest + 1) % program.size
    | .exhausted => isUsed program earlier position = true ∧
        (skips earlier).length = program.size
  | .heard (.executed position _) => earlier.head? = some (.visited position .undertaken)
  | .heard (.skipped position) => earlier.head? = some (.visited position .passed)
  | .heard .stopped => isRested earlier = true ∨
      ∃ position, earlier.head? = some (.visited position .exhausted)
  | .heard (.faulted _) => ∃ position, earlier.head? = some (.visited position .undertaken)

/-- Notes that follow one another. -/
def Regular (program : Program) : List Note → Prop
  | [] => True
  | note :: earlier => Follows program earlier note ∧ Regular program earlier

/-- An entry is passed over right after it was visited. -/
theorem skips_of_skipped {program : Program} {earlier : List Note} {position : Nat}
    (regular : Regular program (.heard (.skipped position) :: earlier)) :
    ∃ before, earlier = .visited position .passed :: before ∧ skips earlier = skips before ∧
      Follows program before (.visited position .passed) ∧ Regular program before := by
  rcases regular with ⟨follows, regular⟩
  rcases List.head?_eq_some_iff.mp follows with ⟨before, rfl⟩
  exact ⟨before, rfl, rfl, regular⟩

theorem length_skips_le {program : Program} {notes : List Note} (regular : Regular program notes) :
    (skips notes).length ≤ program.size := by
  induction notes with
  | nil => exact Nat.zero_le _
  | cons note earlier induction =>
      cases note with
      | began => exact Nat.zero_le _
      | visited position visit => exact induction regular.2
      | heard event =>
          cases event with
          | executed position opcode => exact Nat.zero_le _
          | skipped position =>
              rcases skips_of_skipped regular with ⟨before, _, same, follows, _⟩
              rw [skips, List.length_cons, same]
              exact follows.2.2.2.1
          | stopped => exact induction regular.2
          | faulted fault => exact induction regular.2

end Note

namespace Agent

variable {σ : Type}

/-- Whether the run is going to visit the entry at its position. -/
def isEntering (agent : Agent σ) : Bool :=
  agent.execution.isRunning &&
    agent.execution.position < agent.execution.node.program.size

/-- What is noted when a run goes from one phase to another. -/
def news (before after : Agent σ) : List Note :=
  let position := before.execution.position
  match before.phase, after.phase with
  | .visiting, .executing => [.visited position .undertaken]
  | .visiting, .notifying (.skipped other) =>
    [.heard (.skipped other), .visited position .passed]
  | .visiting, .notifying event =>
    if before.isEntering then [.heard event, .visited position .exhausted] else [.heard event]
  | .executing, .notifying event => [.heard event]
  | .finished _, .visiting => [.began]
  | _, _ => []

/-- The run differs in nothing that the diary depends on. -/
structure Alike (before after : Agent σ) : Prop where
  phase : after.phase = before.phase
  program : after.execution.node.program = before.execution.node.program
  spent : after.execution.node.spent = before.execution.node.spent
  position : after.execution.position = before.execution.position
  skipped : after.execution.skipped = before.execution.skipped

theorem news_of_phase {before after : Agent σ} (same : after.phase = before.phase) :
    news before after = [] := by
  unfold news
  rw [same]
  cases before.phase with
  | notifying event => cases event <;> rfl
  | _ => rfl

theorem Alike.of_carries {agent : Agent σ} {request : Request} {execution : Execution}
    {stage : Stage σ} (carries : Execution.Carries request agent.execution execution)
    (phase : stage.phase = agent.phase) :
    agent.Alike { agent with execution := execution, stage := stage } where
  phase := phase
  program := by
    rcases carries.node with ⟨file, same⟩
    rw [same]
  spent := by
    rcases carries.node with ⟨file, same⟩
    rw [same]
  position := carries.position
  skipped := carries.skipped

theorem alike_heed (agent : Agent σ) (listeners : σ) (reaction : Reaction) :
    agent.Alike (agent.heed listeners reaction) := by
  cases stop : reaction.stop with
  | true =>
      simp only [heed, stop, if_true]
      exact ⟨rfl, rfl, rfl, rfl, rfl⟩
  | false =>
      simp only [heed, stop, Bool.false_eq_true, if_false]
      exact ⟨rfl, rfl, rfl, rfl, rfl⟩

theorem news_of_notifying {before : Agent σ} {event : Event}
    (phase : before.phase = .notifying event) (after : Agent σ) : news before after = [] := by
  unfold news
  rw [phase]

theorem phase_of_ending {agent : Agent σ} {ending : Ending}
    (finished : agent.ending? = some ending) : agent.phase = .finished ending := by
  unfold ending? at finished
  split at finished
  next stage =>
    cases finished
    exact congrArg Stage.phase stage
  next => cases finished

theorem news_conclude_visiting {agent : Agent σ} (phase : agent.phase = .visiting)
    (audience : Audience σ) (board : Board) :
    agent.news (agent.conclude audience board (.ok ())).1 =
      if agent.isEntering then
        [.heard .stopped, .visited agent.execution.position .exhausted]
      else [.heard .stopped] := by
  rw [news, phase]
  rfl

theorem position_lt {agent : Agent σ} {entry : Entry}
    (found : agent.execution.node.program.entries[agent.execution.position]? = some entry) :
    agent.execution.position < agent.execution.node.program.size :=
  (Array.getElem?_eq_some_iff.mp found).1

theorem isEntering_of_running {agent : Agent σ} {entry : Entry}
    (found : agent.execution.node.program.entries[agent.execution.position]? = some entry)
    (running : agent.execution.isRunning = true) : agent.isEntering = true := by
  rw [isEntering, running, decide_eq_true (position_lt found), Bool.and_true]

end Agent

/-- A node's runs with the notes about them. -/
structure Diary (σ : Type) where
  watch : Watch σ
  /-- All notes, the latest first. -/
  notes : List Note
  /-- Whether a stop was asked for since the run began. -/
  disturbed : Bool

namespace Diary

variable {σ : Type}

def agent (diary : Diary σ) : Agent σ :=
  diary.watch.agent

def resting (node : Node) (listeners : σ) : Diary σ :=
  ⟨.resting node listeners, [], false⟩

/-- Whether a stop has been asked for once the next turn is over. -/
def nextDisturbed (diary : Diary σ) (after : Agent σ) : Turn σ → Bool
  | .stop => true
  | .step _ => diary.disturbed || diary.agent.asksStop
  | .restart _ _ => diary.disturbed && (diary.agent.ending?.isNone || after.ending?.isSome)
  | _ => diary.disturbed

def turn (audience : Audience σ) (diary : Diary σ) (next : Turn σ) : Diary σ :=
  let watch := diary.watch.turn audience next
  ⟨watch, diary.agent.news watch.agent ++ diary.notes, diary.nextDisturbed watch.agent next⟩

def run (audience : Audience σ) (diary : Diary σ) (turns : List (Turn σ)) : Diary σ :=
  turns.foldl (turn audience) diary

theorem watch_run (audience : Audience σ) (diary : Diary σ) (turns : List (Turn σ)) :
    (diary.run audience turns).watch = diary.watch.run audience turns := by
  induction turns generalizing diary with
  | nil => rfl
  | cons next turns induction => exact induction (diary.turn audience next)

/-- The notes that the node has taken in. An entry is marked as spent after the
listeners have heard that it was executed. -/
def settled (phase : Phase) (notes : List Note) : List Note :=
  match phase with
  | .notifying (.executed _ _) => notes.tail
  | _ => notes

/-- How the position of a run, and the count of the entries that it passed
over, agree with the notes. -/
def Abreast (program : Program) (position skipped : Nat) (notes : List Note) : Phase → Prop
  | .visiting => Note.isRested notes = true ∧ skipped = (Note.skips notes).length ∧
      ∀ latest ∈ (Note.skips notes).head?, position = (latest + 1) % program.size
  | .executing => notes.head? = some (.visited position .undertaken) ∧ skipped = 0
  | .notifying event => notes.head? = some (.heard event) ∧
    match event with
    | .executed _ _ => skipped = 0
    | .skipped _ => skipped = (Note.skips notes).length
    | _ => True
  | .finished _ => Note.isRested notes = true

/-- The invariant of a diary. -/
structure Kept (program : Program) (agent : Agent σ) (notes : List Note) (disturbed : Bool) :
    Prop where
  attended : agent.Attended
  runs : agent.execution.node.program = program
  size : agent.execution.node.spent.size = program.size
  remembers : ∀ position, agent.execution.node.isSpent position =
    Note.isUsed program (settled agent.phase notes) position
  regular : Note.Regular program notes
  abreast : Abreast program agent.execution.position agent.execution.skipped notes agent.phase
  calm : agent.phase.isLooping = true → disturbed = false → agent.execution.node.running = true

variable {program : Program} {audience : Audience σ} {agent after : Agent σ} {board : Board}
  {notes : List Note} {disturbed disturbedAfter : Bool}

theorem kept_resting (program : Program) (file : RegisterFile) (logger : Option Logger)
    (listeners : σ) : let diary := resting (.ofProgram program file logger) listeners
    Kept program diary.agent diary.notes diary.disturbed where
  attended := trivial
  runs := rfl
  size := Array.size_replicate
  remembers position := by
    have fresh : ((Array.replicate program.size false)[position]?).getD false = false := by
      rw [Array.getElem?_replicate]
      split <;> rfl
    exact fresh.trans (Bool.and_false _).symm
  regular := trivial
  abreast := rfl
  calm := nofun

/-- A stop that comes too late for the run changes nothing. -/
theorem Kept.disturb (kept : Kept program agent notes disturbed) (more : Bool) :
    Kept program agent notes (disturbed || more) :=
  ⟨kept.attended, kept.runs, kept.size, kept.remembers, kept.regular, kept.abreast,
    fun looping calm => kept.calm looping (Bool.or_eq_false_iff.mp calm).1⟩

/-- Nothing is noted as long as the run stays in its phase. -/
theorem kept_of_alike (kept : Kept program agent notes disturbed) (alike : agent.Alike after)
    (attended : after.Attended)
    (calm : after.phase.isLooping = true → disturbedAfter = false →
      after.execution.node.running = true) :
    Kept program after (agent.news after ++ notes) disturbedAfter := by
  rw [Agent.news_of_phase alike.phase, List.nil_append]
  refine ⟨attended, alike.program.trans kept.runs, ?_, fun position => ?_, kept.regular, ?_, calm⟩
  · exact (congrArg Array.size alike.spent).trans kept.size
  · rw [alike.phase, ← kept.remembers position, Node.isSpent, Node.isSpent, alike.spent]
  · rw [alike.phase, alike.position, alike.skipped]
    exact kept.abreast

/-- The event with which a run ends. -/
def closing : Except Fault Unit → Event
  | .ok () => .stopped
  | .error fault => .faulted fault

theorem kept_conclude (steady : audience.Steady) (runs : agent.execution.node.program = program)
    (size : agent.execution.node.spent.size = program.size)
    (remembers : ∀ position,
      agent.execution.node.isSpent position = Note.isUsed program notes position)
    (regular : Note.Regular program notes) {result : Except Fault Unit}
    (follows : Note.Follows program notes (.heard (closing result))) :
    Kept program (agent.conclude audience board result).1 (.heard (closing result) :: notes)
      disturbed := by
  rcases result with fault | ⟨⟩
  all_goals
    exact ⟨steady _ _ _, runs, size, remembers, ⟨follows, regular⟩, ⟨rfl, trivial⟩, nofun⟩

theorem kept_visit (steady : audience.Steady) (kept : Kept program agent notes disturbed)
    (stage : agent.stage = .visiting) :
    Kept program (agent.visit audience board).1
      (agent.news (agent.visit audience board).1 ++ notes) disturbed := by
  have phase : agent.phase = .visiting := congrArg Stage.phase stage
  have remembers := kept.remembers
  have abreast := kept.abreast
  have calm := kept.calm
  rw [phase] at remembers abreast calm
  rcases abreast with ⟨rested, skipped, next⟩
  have leaves (board : Board) (outside : agent.isEntering = false) :
      Kept program (agent.conclude audience board (.ok ())).1
        (agent.news (agent.conclude audience board (.ok ())).1 ++ notes) disturbed := by
    rw [Agent.news_conclude_visiting phase, if_neg (ne_true_of_eq_false outside)]
    exact kept_conclude steady kept.runs kept.size remembers kept.regular (.inl rested)
  have finds := agent.visit_finds audience board
  generalize agent.visit audience board = result at finds ⊢
  cases finds with
  | nothing missing =>
      apply leaves
      have beyond : agent.execution.node.program.size ≤ agent.execution.position :=
        Array.getElem?_eq_none_iff.mp missing
      rw [Agent.isEntering, decide_eq_false (Nat.not_lt.mpr beyond), Bool.and_false]
  | stopped found stopped =>
      apply leaves
      rw [Agent.isEntering, stopped, Bool.false_and]
  | exhausted found running spent full =>
      have inside := Agent.position_lt found
      rw [kept.runs] at inside full
      rw [Agent.news_conclude_visiting phase, if_pos (Agent.isEntering_of_running found running)]
      have regular : Note.Regular program (.visited agent.execution.position .exhausted :: notes) :=
        ⟨⟨rested, inside, (remembers _).symm.trans spent, skipped.symm.trans full⟩, kept.regular⟩
      refine kept_conclude steady kept.runs kept.size ?_ regular (.inr ⟨_, rfl⟩)
      exact remembers
  | spent found running spent lacking =>
      have inside := Agent.position_lt found
      rw [kept.runs] at inside lacking
      have room : (Note.skips notes).length < program.size := by
        have most := Note.length_skips_le kept.regular
        omega
      rw [Agent.news, phase]
      exact ⟨steady _ _ _, kept.runs, kept.size, remembers,
        ⟨rfl, ⟨rested, inside, (remembers _).symm.trans spent, room, next⟩, kept.regular⟩,
        ⟨rfl, congrArg (· + 1) skipped⟩, calm⟩
  | fresh found running fresh =>
      have inside := Agent.position_lt found
      rw [kept.runs] at inside
      rw [Agent.news, phase]
      exact ⟨trivial, kept.runs, kept.size, remembers,
        ⟨⟨rested, inside, (remembers _).symm.trans fresh⟩, kept.regular⟩, ⟨rfl, rfl⟩, calm⟩

theorem kept_heed (kept : Kept program agent notes disturbed) (listeners : σ)
    (reaction : Reaction) :
    Kept program (agent.heed listeners reaction) notes (disturbed || reaction.stop) := by
  have attended : (agent.heed listeners reaction).Attended := kept.attended
  have unnoted : agent.news (agent.heed listeners reaction) = [] := Agent.news_of_phase rfl
  rw [← List.nil_append notes, ← unnoted]
  refine kept_of_alike kept (agent.alike_heed listeners reaction) attended fun looping calm => ?_
  rcases Bool.or_eq_false_iff.mp calm with ⟨calm, unasked⟩
  simp only [Agent.heed, unasked, Bool.false_eq_true, if_false]
  exact kept.calm looping calm

theorem kept_resume (kept : Kept program agent notes disturbed) {event : Event}
    (phase : agent.phase = .notifying event) :
    Kept program (agent.resume event) notes disturbed := by
  have remembers := kept.remembers
  have abreast := kept.abreast
  have calm := kept.calm
  rw [phase] at remembers abreast calm
  rcases List.head?_eq_some_iff.mp abreast.1 with ⟨earlier, rfl⟩
  cases event with
  | executed position opcode =>
      rcases List.head?_eq_some_iff.mp kept.regular.1 with ⟨before, rfl⟩
      have inside : position < program.size := kept.regular.2.1.2.1
      refine ⟨trivial, (Node.program_spend _ _).trans kept.runs,
        (Node.size_spend _ _).trans kept.size, fun other => ?_, kept.regular,
        ⟨rfl, abreast.2, nofun⟩, fun looping calmly => ?_⟩
      · refine (Node.isSpent_spend (kept.size.symm ▸ inside) other).trans ?_
        rw [remembers other, kept.runs]
        exact (Note.isUsed_executed program _ position opcode other).symm
      · exact (Node.running_spend _ _).trans (calm looping calmly)
  | skipped position =>
      refine ⟨trivial, kept.runs, kept.size, remembers, kept.regular,
        ⟨rfl, abreast.2, fun latest head => ?_⟩, calm⟩
      cases head
      exact congrArg ((position + 1) % ·.size) kept.runs
  | stopped => exact ⟨trivial, kept.runs, kept.size, remembers, kept.regular, rfl, nofun⟩
  | faulted fault => exact ⟨trivial, kept.runs, kept.size, remembers, kept.regular, rfl, nofun⟩

theorem kept_of_carries (kept : Kept program agent notes disturbed) {request : Request}
    {execution : Execution} {stage : Stage σ}
    (carries : Execution.Carries request agent.execution execution)
    (phase : stage.phase = agent.phase)
    (attended : ({ agent with execution := execution, stage := stage } : Agent σ).Attended) :
    Kept program { agent with execution := execution, stage := stage }
      (agent.news { agent with execution := execution, stage := stage } ++ notes) disturbed := by
  refine kept_of_alike kept (.of_carries carries phase) attended fun looping calm => ?_
  rw [Agent.phase, phase] at looping
  exact carries.running.trans (kept.calm looping calm)

theorem kept_step (steady : audience.Steady) (kept : Kept program agent notes disturbed)
    {result : Agent σ × Board} (step : agent.step audience board = some result) :
    Kept program result.1 (agent.news result.1 ++ notes) (disturbed || agent.asksStop) := by
  have attended := Agent.attended_step steady kept.attended step
  have remembers := kept.remembers
  have abreast := kept.abreast
  cases Agent.step_moves step with
  | visits stage => exact (kept_visit steady kept stage).disturb _
  | @faults fault stage =>
      have phase : agent.phase = .executing := congrArg Stage.phase stage
      rw [phase] at remembers abreast
      rw [Agent.news, phase]
      have follows : Note.Follows program notes (.heard (closing (.error fault))) := ⟨_, abreast.1⟩
      refine Kept.disturb ?_ _
      exact kept_conclude steady kept.runs kept.size remembers kept.regular follows
  | completes stage found =>
      have phase : agent.phase = .executing := congrArg Stage.phase stage
      rw [phase] at remembers abreast
      rw [Agent.news, phase]
      refine Kept.disturb ?_ _
      exact ⟨attended, kept.runs, kept.size, remembers, ⟨abreast.1, kept.regular⟩,
        ⟨rfl, abreast.2⟩, fun _ => kept.calm (congrArg Phase.isLooping phase)⟩
  | leaves stage missing =>
      -- The entry was there when it was visited.
      have phase : agent.phase = .executing := congrArg Stage.phase stage
      rw [phase] at abreast
      rcases List.head?_eq_some_iff.mp abreast.1 with ⟨earlier, rfl⟩
      have inside : agent.execution.position < program.size := kept.regular.1.2.1
      rw [kept.runs, Array.getElem?_eq_none_iff] at missing
      exact absurd inside (Nat.not_lt.mpr missing)
  | executes stage scriptStep =>
      have phase : agent.phase = .executing := congrArg Stage.phase stage
      rcases Execution.stepScript_carries scriptStep with ⟨_, _, _, carries⟩
      refine Kept.disturb ?_ _
      exact kept_of_carries kept carries phase.symm attended
  | @reacts event listeners reaction stage =>
      have phase : agent.phase = .notifying event := congrArg Stage.phase stage
      have asks : agent.asksStop = reaction.stop := by simp only [Agent.asksStop, stage]
      rw [Agent.news_of_notifying phase, asks,
        Agent.react_of_unbroken (Agent.attended_of_notifying kept.attended stage)]
      exact kept_resume (kept_heed kept _ _) phase
  | @notifies event script next execution boardNext stage scriptStep =>
      have phase : agent.phase = .notifying event := congrArg Stage.phase stage
      rcases Execution.stepScript_carries scriptStep with ⟨_, _, _, carries⟩
      refine Kept.disturb ?_ _
      exact kept_of_carries kept carries phase.symm attended

theorem kept_expire (kept : Kept program agent notes disturbed)
    {result : Agent σ × Board} (expires : agent.expire board = some result) :
    Kept program result.1 (agent.news result.1 ++ notes) disturbed := by
  have attended := Agent.attended_expire kept.attended expires
  cases Agent.expire_givesUp expires with
  | executes stage scriptStep =>
      have phase : agent.phase = .executing := congrArg Stage.phase stage
      rcases Execution.expireScript_carries scriptStep with ⟨_, _, _, carries⟩
      exact kept_of_carries kept carries phase.symm attended
  | @notifies event script next execution boardNext stage scriptStep =>
      have phase : agent.phase = .notifying event := congrArg Stage.phase stage
      rcases Execution.expireScript_carries scriptStep with ⟨_, _, _, carries⟩
      exact kept_of_carries kept carries phase.symm attended

variable {diary : Diary σ}

/-- The diary agrees with the runs. -/
def IsKept (program : Program) (diary : Diary σ) : Prop :=
  Kept program diary.agent diary.notes diary.disturbed

theorem isKept_withNode (kept : diary.IsKept program) {node : Node}
    (runs : node.program = diary.agent.execution.node.program)
    (spent : node.spent = diary.agent.execution.node.spent)
    (calm : diary.agent.phase.isLooping = true → disturbed = false → node.running = true) :
    IsKept program ⟨diary.watch.withNode node,
      diary.agent.news (diary.watch.withNode node).agent ++ diary.notes, disturbed⟩ :=
  kept_of_alike kept ⟨rfl, runs, spent, rfl, rfl⟩ kept.attended calm

theorem isKept_same (kept : diary.IsKept program) :
    IsKept program ⟨diary.watch, diary.agent.news diary.agent ++ diary.notes, diary.disturbed⟩ :=
  kept_of_alike kept ⟨rfl, rfl, rfl, rfl, rfl⟩ kept.attended kept.calm

theorem isKept_start (kept : diary.IsKept program) {ending : Ending} {node : Node}
    (finished : diary.agent.ending? = some ending)
    (claimed : diary.agent.execution.node.claim = .ok node) {listeners : σ} {board : Board}
    {jumped : Option String} :
    let agent := (Agent.start node listeners board).1
    IsKept program ⟨⟨agent, jumped⟩, diary.agent.news agent ++ diary.notes, disturbed⟩ := by
  rcases Node.claim_eq_ok claimed with ⟨free, rfl⟩
  have phase := Agent.phase_of_ending finished
  have remembers := kept.remembers
  have abreast := kept.abreast
  rw [phase] at remembers abreast
  intro agent
  have began : diary.agent.news agent = [.began] := by
    rw [Agent.news, phase]
    rfl
  rw [began]
  exact ⟨trivial, kept.runs, kept.size, remembers, ⟨abreast, kept.regular⟩, ⟨rfl, rfl, nofun⟩,
    fun _ _ => rfl⟩

theorem isKept_turn (steady : audience.Steady) (kept : diary.IsKept program) (next : Turn σ) :
    (diary.turn audience next).IsKept program := by
  cases next with
  | step board =>
      simp only [turn, Watch.turn, nextDisturbed]
      split
      next after boardAfter step => exact kept_step steady kept step
      next => exact (isKept_same kept).disturb _
  | expire board =>
      simp only [turn, Watch.turn, nextDisturbed]
      split
      next after boardAfter expires => exact kept_expire kept expires
      next => exact isKept_same kept
  | stop =>
      refine isKept_withNode kept rfl rfl fun _ calm => ?_
      cases calm
  | overwrite file => exact isKept_withNode kept rfl rfl kept.calm
  | restart listeners board =>
      simp only [turn, Watch.turn, nextDisturbed]
      split
      next node finished claimed => exact isKept_start kept finished claimed
      next =>
        have unchanged : (diary.disturbed &&
            (diary.agent.ending?.isNone || diary.watch.agent.ending?.isSome)) =
            diary.disturbed := by
          change (diary.disturbed &&
            (diary.agent.ending?.isNone || diary.agent.ending?.isSome)) = diary.disturbed
          cases diary.agent.ending? <;> exact Bool.and_true _
        rw [unchanged]
        exact isKept_same kept

theorem isKept_run (steady : audience.Steady) (kept : diary.IsKept program)
    (turns : List (Turn σ)) : (diary.run audience turns).IsKept program := by
  induction turns generalizing diary with
  | nil => exact kept
  | cons next turns induction => exact induction (isKept_turn steady kept next)

end Diary

end NodeAssembly
