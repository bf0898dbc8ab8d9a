import Mathlib.Data.Prod.Lex
import NodeAssembly.Proofs.Node.Diary

/-! What a run comes to sooner or later. A run that is not finished can make a
step on every board, if need be by giving up, and every script that it follows
comes to its end after finitely many steps. Meanwhile the run may be stopped
from outside and find its registers changed. -/

namespace NodeAssembly

/-- How often a call has to look at its slot at most, apart from waiting. -/
def Bus.Call.looks : Bus.Call → Nat
  | .deposit _ => 2
  | _ => 1

theorem Bus.Call.looks_lt_three (call : Bus.Call) : call.looks < 3 := by
  cases call <;> simp only [looks, Nat.reduceLT]

theorem Board.looks_lt_of_proceed {board after : Board} {channel : Nat} {call next : Bus.Call}
    (step : board.stepCall channel call = .proceed after next) : next.looks < call.looks := by
  unfold stepCall at step
  split at step
  · cases step
  next pin slot _ =>
    have looks := slot.step_looks call
    generalize slot.step call = outcome at looks step
    cases looks
    all_goals cases step
    exact Nat.one_lt_two

/-- What is left of the sleep that is going on. -/
def Timer.rest (timer : Timer) : Nat :=
  timer.deadline.getD 0 - timer.now

/-- A run that sleeps on is closer to the end of its sleep, also if no time has
passed since it last looked. -/
theorem Timer.rest_sleepOn_lt {timer : Timer} {deadline : Nat}
    (asleep : timer.deadline = some deadline) (early : timer.look.now < deadline) :
    (timer.look.sleepOn deadline).rest < timer.rest := by
  have later : timer.now ≤ timer.look.now := Nat.le_add_right ..
  have slept : timer.look.now < (timer.look.sleepOn deadline).now := by
    simp only [sleepOn, slice]
    omega
  have same : (timer.look.sleepOn deadline).deadline = some deadline := asleep
  rw [rest, rest, same, asleep, Option.getD_some]
  omega

namespace Execution

variable {α : Type} {execution after : Execution} {board boardAfter : Board} {request : Request}
  {resume : request.Answer → Script α} {next : Script α}

/-- How often a request has to look at a slot at most, or to lie down. -/
def looks (execution : Execution) : Nat :=
  (match execution.call with
    | none => 3
    | some (_, call) => call.looks) +
  if execution.timer.deadline.isNone then 1 else 0

/-- How long a request can take before it is answered. -/
def patience (execution : Execution) : Nat ×ₗ Nat :=
  toLex (execution.looks, execution.timer.rest)

theorem patience_lt_of_looks (fewer : after.looks < execution.looks) :
    after.patience < execution.patience :=
  Prod.Lex.toLex_lt_toLex.mpr (.inl fewer)

theorem Proceeds.patience_lt {β : Type} {start : Site → Access (Except Fault β)}
    {received : Option Value → β}
    (proceeds : Proceeds execution board start received (.moved after boardAfter)) :
    after.patience < execution.patience := by
  generalize outcome : Response.moved after boardAfter = response at proceeds
  cases proceeds with
  | done free accessed => cases outcome
  | called free accessed =>
      cases outcome
      apply patience_lt_of_looks
      simp only [looks, withCall, free]
      exact Nat.add_lt_add_right (Bus.Call.looks_lt_three _) _
  | waits calling waiting => cases outcome
  | proceeds calling step =>
      cases outcome
      apply patience_lt_of_looks
      simp only [looks, withCall, calling]
      exact Nat.add_lt_add_right (Board.looks_lt_of_proceed step) _
  | finishes calling step => cases outcome

theorem Dozes.patience_lt {ticks : Int32}
    (dozes : Dozes execution board ticks (.moved after boardAfter)) :
    after.patience < execution.patience := by
  cases dozes with
  | begins awake on =>
      apply patience_lt_of_looks
      simp only [looks, withTimer, awake, Timer.lieDown, Option.isNone_none, Option.isNone_some,
        if_true, Bool.false_eq_true, if_false]
      exact Nat.lt_succ_self _
  | goesOn asleep running early =>
      exact Prod.Lex.toLex_lt_toLex.mpr (.inr ⟨rfl, Timer.rest_sleepOn_lt asleep early⟩)

theorem patience_lt_of_moved
    (responds : execution.respond board request = .moved after boardAfter) :
    after.patience < execution.patience := by
  cases request with
  | read register =>
      have proceeds := access_proceeds execution board (·.read register) (·.getD .null)
      rw [← respond_read, responds] at proceeds
      exact proceeds.patience_lt
  | write register value =>
      have proceeds := access_proceeds execution board (·.write register value) fun _ => ()
      rw [← respond_write, responds] at proceeds
      exact proceeds.patience_lt
  | observe register =>
      have proceeds := access_proceeds execution board (·.observe register) fun _ => ()
      rw [← respond_observe, responds] at proceeds
      exact proceeds.patience_lt
  | sleep ticks =>
      have dozes := sleep_dozes execution board ticks
      rw [← respond_sleep, responds] at dozes
      exact dozes.patience_lt
  | _ => cases responds

/-- A step of a script brings it closer to its end. -/
theorem stepScript_shortens
    (step : execution.stepScript board (.ask request resume) = some (after, boardAfter, next)) :
    (∃ answer, next = resume answer) ∨
      (next = .ask request resume ∧ after.patience < execution.patience) := by
  rcases stepScript_cases step with ⟨_, _, same, ⟨answer, _, rfl⟩ | ⟨responds, rfl⟩⟩
  · cases same
    exact .inl ⟨answer, rfl⟩
  · cases same
    exact .inr ⟨rfl, patience_lt_of_moved responds⟩

theorem expireScript_shortens
    (step : execution.expireScript board (.ask request resume) = some (after, boardAfter, next)) :
    ∃ answer, next = resume answer := by
  rcases expireScript_cases step with ⟨_, _, _, _, answer, same, _, _, _, _, rfl⟩
  cases same
  exact ⟨answer, rfl⟩

/-- A request that is not answered at once waits for a partner. -/
theorem expires_of_blocked (blocked : execution.respond board request = .blocked) (fault : Fault) :
    execution.call.isSome ∧ (faultAnswer? fault request).isSome := by
  have waits {β : Type} {start : Site → Access (Except Fault β)} {received : Option Value → β}
      (proceeds : Proceeds execution board start received .blocked) : execution.call.isSome := by
    cases proceeds with
    | waits calling waiting => rw [calling, Option.isSome_some]
  cases request with
  | read register =>
      have proceeds := access_proceeds execution board (·.read register) (·.getD .null)
      rw [← respond_read, blocked] at proceeds
      exact ⟨waits proceeds, rfl⟩
  | write register value =>
      have proceeds := access_proceeds execution board (·.write register value) fun _ => ()
      rw [← respond_write, blocked] at proceeds
      exact ⟨waits proceeds, rfl⟩
  | observe register =>
      have proceeds := access_proceeds execution board (·.observe register) fun _ => ()
      rw [← respond_observe, blocked] at proceeds
      exact ⟨waits proceeds, rfl⟩
  | sleep ticks =>
      have dozes := sleep_dozes execution board ticks
      rw [← respond_sleep, blocked] at dozes
      cases dozes
  | _ => cases blocked

/-- A script that can make no step can give up. -/
theorem exists_stepScript_or_expireScript (execution : Execution) (board : Board)
    (resume : request.Answer → Script α) :
    (∃ result, execution.stepScript board (.ask request resume) = some result) ∨
      ∃ result, execution.expireScript board (.ask request resume) = some result := by
  simp only [stepScript]
  cases responds : execution.respond board request with
  | answered answer after boardAfter => exact .inl ⟨_, rfl⟩
  | moved after boardAfter => exact .inl ⟨_, rfl⟩
  | blocked =>
      refine .inr ?_
      rcases Option.isSome_iff_exists.mp (expires_of_blocked responds .aborted).1 with
        ⟨⟨channel, call⟩, calling⟩
      rcases Option.isSome_iff_exists.mp
        (expires_of_blocked responds (board.expireCall channel call).2).2 with ⟨answer, answered⟩
      refine ⟨(execution.withCall none, (board.expireCall channel call).1, resume answer), ?_⟩
      simp only [expireScript, calling, answered, Option.map_some, withCall]

end Execution

/-- Whether a turn is made by others than the run itself. -/
def Turn.isOutside {σ : Type} : Turn σ → Bool
  | .step _ => false
  | .expire _ => false
  | _ => true

/-- The stages at which a run waits for nobody. -/
inductive Stage.Ready {σ : Type} : Stage σ → Prop
  | visiting : Ready .visiting
  | executed (result : Except Fault Unit) : Ready (.executing (.done result))
  | notified (event : Event) (result : σ × Reaction) : Ready (.notifying event (.done result))

namespace Agent

variable {σ : Type}

theorem step_of_ready {agent : Agent σ} (ready : agent.stage.Ready) (audience : Audience σ)
    (board : Board) : ∃ result, agent.step audience board = some result := by
  rcases agent with ⟨execution, listeners, stage⟩
  cases ready with
  | visiting => exact ⟨_, rfl⟩
  | executed result =>
      rcases result with fault | ⟨⟩
      · exact ⟨_, rfl⟩
      · simp only [step]
        split <;> exact ⟨_, rfl⟩
  | notified event result => exact ⟨_, rfl⟩

theorem expire_of_ready {agent : Agent σ} (ready : agent.stage.Ready) (board : Board) :
    agent.expire board = none := by
  rcases agent with ⟨execution, listeners, stage⟩
  cases ready <;> rfl

theorem ending_of_ready {agent : Agent σ} (ready : agent.stage.Ready) : agent.ending? = none := by
  rcases agent with ⟨execution, listeners, stage⟩
  cases ready <;> rfl

/-- The run as others may leave it. -/
def touched (agent : Agent σ) (file : RegisterFile) (running : Bool) : Agent σ :=
  { agent with execution := { agent.execution with
      node := { agent.execution.node with file := file, running := running } } }

theorem alike_touched (agent : Agent σ) (file : RegisterFile) (running : Bool) :
    agent.Alike (agent.touched file running) :=
  ⟨rfl, rfl, rfl, rfl, rfl⟩

theorem Alike.trans {first second third : Agent σ} (before : first.Alike second)
    (after : second.Alike third) : first.Alike third where
  phase := after.phase.trans before.phase
  program := after.program.trans before.program
  spent := after.spent.trans before.spent
  position := after.position.trans before.position
  skipped := after.skipped.trans before.skipped

end Agent

namespace Diary

variable {σ : Type} {program : Program} {audience : Audience σ} {diary after : Diary σ}
  {board boardAfter : Board} {turns : List (Turn σ)} {agent : Agent σ}

theorem turn_step (step : diary.agent.step audience board = some (agent, boardAfter)) :
    (diary.turn audience (.step board)).agent = agent ∧
      (diary.turn audience (.step board)).notes = diary.agent.news agent ++ diary.notes := by
  have moved : (diary.watch.turn audience (.step board)).agent = agent := by
    simp only [Watch.turn]
    rw [show diary.watch.agent.step audience board = _ from step]
  exact ⟨moved, congrArg (diary.agent.news · ++ diary.notes) moved⟩

theorem turn_expire (audience : Audience σ)
    (expires : diary.agent.expire board = some (agent, boardAfter)) :
    (diary.turn audience (.expire board)).agent = agent ∧
      (diary.turn audience (.expire board)).notes = diary.agent.news agent ++ diary.notes := by
  have moved : (diary.watch.turn audience (.expire board)).agent = agent := by
    simp only [Watch.turn]
    rw [show diary.watch.agent.expire board = _ from expires]
  exact ⟨moved, congrArg (diary.agent.news · ++ diary.notes) moved⟩

/-- Others leave a run in its phase and the notes as they are. -/
structure Persists (diary after : Diary σ) : Prop where
  agent : ∃ file running, after.agent = diary.agent.touched file running
  notes : after.notes = diary.notes
  disturbed : diary.disturbed = true → after.disturbed = true
  stopped : diary.agent.execution.node.running = false →
    after.agent.execution.node.running = false

theorem turn_outside (audience : Audience σ) (unfinished : diary.agent.ending? = none)
    {next : Turn σ} (outside : next.isOutside = true) :
    diary.Persists (diary.turn audience next) := by
  have touches {file : RegisterFile} {running : Bool}
      (touched : (diary.watch.turn audience next).agent = diary.agent.touched file running)
      (disturbed : diary.disturbed = true → (diary.turn audience next).disturbed = true)
      (stopped : diary.agent.execution.node.running = false → running = false) :
      diary.Persists (diary.turn audience next) := by
    refine ⟨⟨file, running, touched⟩, ?_, disturbed, fun before => ?_⟩
    · have unnoted : diary.agent.news (diary.watch.turn audience next).agent = [] := by
        rw [touched]
        exact Agent.news_of_phase rfl
      exact congrArg (· ++ diary.notes) unnoted
    · rw [show (diary.turn audience next).agent = diary.agent.touched file running from touched]
      exact stopped before
  cases next with
  | step board => cases outside
  | expire board => cases outside
  | stop => exact touches rfl (fun _ => rfl) fun _ => rfl
  | overwrite file => exact touches rfl id id
  | restart listeners board =>
      have unfinishedWatch : diary.watch.agent.ending? = none := unfinished
      have same : (diary.watch.turn audience (.restart listeners board)).agent =
          diary.agent.touched diary.agent.execution.node.file
            diary.agent.execution.node.running := by
        simp only [Watch.turn, unfinishedWatch]
        rfl
      refine touches same (fun disturbed => ?_) id
      simp only [turn, nextDisturbed, unfinished, disturbed, Option.isNone_none, Bool.true_or,
        Bool.and_true]

theorem run_outside (audience : Audience σ) (unfinished : diary.agent.ending? = none)
    (outside : ∀ next ∈ turns, next.isOutside = true) :
    diary.Persists (diary.run audience turns) := by
  induction turns generalizing diary with
  | nil =>
      exact ⟨⟨diary.agent.execution.node.file, diary.agent.execution.node.running, rfl⟩, rfl, id,
        id⟩
  | cons next turns induction =>
      have first := turn_outside audience unfinished (outside next List.mem_cons_self)
      rcases first.agent with ⟨file, running, touched⟩
      have still : (diary.turn audience next).agent.ending? = none := by
        rw [touched]
        exact unfinished
      have rest := induction still fun other member =>
        outside other (List.mem_cons_of_mem next member)
      rcases rest.agent with ⟨laterFile, laterRunning, later⟩
      rw [touched] at later
      exact ⟨⟨laterFile, laterRunning, later⟩, rest.notes.trans first.notes,
        fun disturbed => rest.disturbed (first.disturbed disturbed),
        fun stopped => rest.stopped (first.stopped stopped)⟩

/-- What the run makes of the diary next, on a board, after others have had
their turns. -/
inductive Next (audience : Audience σ) (board : Board) (diary : Diary σ) : Diary σ → Prop
  | step {turns : List (Turn σ)} (outside : ∀ next ∈ turns, next.isOutside = true)
      {agent : Agent σ} {boardAfter : Board}
      (steps : (diary.run audience turns).agent.step audience board = some (agent, boardAfter)) :
      Next audience board diary ((diary.run audience turns).turn audience (.step board))
  | expire {turns : List (Turn σ)} (outside : ∀ next ∈ turns, next.isOutside = true)
      {agent : Agent σ} {boardAfter : Board}
      (expires : (diary.run audience turns).agent.expire board = some (agent, boardAfter)) :
      Next audience board diary ((diary.run audience turns).turn audience (.expire board))

/-- Whatever happens, the run comes to a state of some kind. -/
inductive Inevitable (audience : Audience σ) (goal : Diary σ → Prop) : Diary σ → Prop
  | reached {diary : Diary σ} (holds : goal diary) : Inevitable audience goal diary
  | ahead {diary : Diary σ} (able : ∀ board, ∃ after, Next audience board diary after)
      (onward : ∀ board after, Next audience board diary after → Inevitable audience goal after) :
      Inevitable audience goal diary

variable {goal : Diary σ → Prop}

theorem Inevitable.imp {weaker : Diary σ → Prop} (inevitable : Inevitable audience goal diary)
    (implies : ∀ later, goal later → weaker later) : Inevitable audience weaker diary := by
  induction inevitable with
  | reached holds => exact .reached (implies _ holds)
  | ahead able _ induction => exact .ahead able induction

/-- What every step preserves still holds in the end. -/
theorem Inevitable.keeping (inevitable : Inevitable audience goal diary)
    (holds : Diary σ → Prop) (start : holds diary)
    (steps : ∀ diary board after, ¬ goal diary → holds diary → Next audience board diary after →
      holds after) : Inevitable audience (fun later => goal later ∧ holds later) diary := by
  induction inevitable with
  | reached holds => exact .reached ⟨holds, start⟩
  | @ahead diary able onward induction =>
      by_cases reached : goal diary
      · exact .reached ⟨reached, start⟩
      · exact .ahead able fun board after next =>
          induction board after next (steps diary board after reached start next)

theorem isKept_next (steady : audience.Steady) (kept : diary.IsKept program)
    (next : Next audience board diary after) : after.IsKept program := by
  cases next with
  | step outside steps => exact isKept_turn steady (isKept_run steady kept _) _
  | expire outside expires => exact isKept_turn steady (isKept_run steady kept _) _

/-- The run itself makes its move on what others have left. -/
theorem next_cases (unfinished : diary.agent.ending? = none)
    (next : Next audience board diary after) :
    ∃ file running boardAfter, let before := diary.agent.touched file running
      (before.step audience board = some (after.agent, boardAfter) ∨
        before.expire board = some (after.agent, boardAfter)) ∧
      after.notes = before.news after.agent ++ diary.notes ∧
      (diary.agent.execution.node.running = false → running = false) := by
  cases next with
  | @step turns outside agent boardAfter steps =>
      have persists := run_outside audience unfinished outside
      rcases persists.agent with ⟨file, running, touched⟩
      have stopped := persists.stopped
      rw [touched] at stopped
      rcases turn_step steps with ⟨moved, noted⟩
      refine ⟨file, running, boardAfter, .inl ?_, ?_, stopped⟩
      · rw [moved, ← touched]
        exact steps
      · rw [noted, moved, touched, persists.notes]
  | @expire turns outside agent boardAfter expires =>
      have persists := run_outside audience unfinished outside
      rcases persists.agent with ⟨file, running, touched⟩
      have stopped := persists.stopped
      rw [touched] at stopped
      rcases turn_expire audience expires with ⟨moved, noted⟩
      refine ⟨file, running, boardAfter, .inr ?_, ?_, stopped⟩
      · rw [moved, ← touched]
        exact expires
      · rw [noted, moved, touched, persists.notes]

theorem exists_next_of_step (steps : diary.agent.step audience board = some (agent, boardAfter)) :
    ∃ after, Next audience board diary after :=
  ⟨_, .step (List.forall_mem_nil _) steps⟩

theorem exists_next_of_expire (audience : Audience σ)
    (expires : diary.agent.expire board = some (agent, boardAfter)) :
    ∃ after, Next audience board diary after :=
  ⟨_, .expire (List.forall_mem_nil _) expires⟩

/-- A kind of stage at which a run follows a script. -/
structure Scripted (audience : Audience σ) {α : Type} (wrap : Script α → Stage σ) : Prop where
  step : ∀ (agent : Agent σ) board request resume, agent.stage = wrap (.ask request resume) →
    agent.step audience board =
      (agent.execution.stepScript board (.ask request resume)).map
        fun (execution, board, script) => ({ agent with execution := execution, stage := wrap script }, board)
  expire : ∀ (agent : Agent σ) board request resume, agent.stage = wrap (.ask request resume) →
    agent.expire board =
      (agent.execution.expireScript board (.ask request resume)).map
        fun (execution, board, script) => ({ agent with execution := execution, stage := wrap script }, board)
  phase : ∀ script other, (wrap script).phase = (wrap other).phase
  unfinished : ∀ script ending, wrap script ≠ .finished ending

theorem scripted_executing (audience : Audience σ) : Scripted audience .executing where
  step agent board request resume stage := by rw [Agent.step, stage]
  expire agent board request resume stage := by rw [Agent.expire, stage]
  phase _ _ := rfl
  unfinished := nofun

theorem scripted_notifying (audience : Audience σ) (event : Event) :
    Scripted audience (.notifying event) where
  step agent board request resume stage := by rw [Agent.step, stage]
  expire agent board request resume stage := by rw [Agent.expire, stage]
  phase _ _ := rfl
  unfinished := nofun

theorem Scripted.ending {α : Type} {wrap : Script α → Stage σ} (scripted : Scripted audience wrap)
    {script : Script α} (stage : agent.stage = wrap script) : agent.ending? = none := by
  unfold Agent.ending?
  split
  next ended => exact absurd (stage.symm.trans ended) (scripted.unfinished _ _)
  next => rfl

/-- What a run that follows a script can do next: it does not leave its phase,
and the script gets shorter or its request gets closer to an answer. -/
theorem Scripted.next {α : Type} {wrap : Script α → Stage σ} (scripted : Scripted audience wrap)
    {request : Request} {resume : request.Answer → Script α}
    (stage : diary.agent.stage = wrap (.ask request resume))
    (next : Next audience board diary after) :
    diary.agent.Alike after.agent ∧ after.notes = diary.notes ∧
      ((∃ answer, after.agent.stage = wrap (resume answer)) ∨
        (after.agent.stage = wrap (.ask request resume) ∧
          after.agent.execution.patience < diary.agent.execution.patience)) := by
  rcases next_cases (scripted.ending stage) next with
    ⟨file, running, boardAfter, moves, noted, _⟩
  have touched : (diary.agent.touched file running).stage = wrap (.ask request resume) := stage
  have stays {execution : Execution} {script : Script α} {request : Request}
      (carries : Execution.Carries request (diary.agent.touched file running).execution execution)
      (moved : after.agent =
        { diary.agent.touched file running with execution := execution, stage := wrap script }) :
      diary.agent.Alike after.agent ∧ after.notes = diary.notes := by
    have phase : (wrap script).phase = (diary.agent.touched file running).phase := by
      rw [Agent.phase, touched]
      exact scripted.phase _ _
    have alike : (diary.agent.touched file running).Alike after.agent := by
      rw [moved]
      exact .of_carries carries phase
    rw [Agent.news_of_phase alike.phase, List.nil_append] at noted
    exact ⟨(diary.agent.alike_touched file running).trans alike, noted⟩
  rcases moves with steps | expires
  · rw [scripted.step _ _ _ _ touched] at steps
    rcases Option.map_eq_some_iff.mp steps with ⟨⟨execution, boardNext, script⟩, scriptStep, result⟩
    have moved := (congrArg Prod.fst result).symm
    rcases Execution.stepScript_carries scriptStep with ⟨_, _, _, carries⟩
    rcases stays carries moved with ⟨alike, unnoted⟩
    refine ⟨alike, unnoted, ?_⟩
    rcases Execution.stepScript_shortens scriptStep with ⟨answer, rfl⟩ | ⟨rfl, shorter⟩
    · exact .inl ⟨answer, congrArg Agent.stage moved⟩
    · have patience : after.agent.execution.patience = execution.patience :=
        congrArg (·.execution.patience) moved
      exact .inr ⟨congrArg Agent.stage moved, patience ▸ shorter⟩
  · rw [scripted.expire _ _ _ _ touched] at expires
    rcases Option.map_eq_some_iff.mp expires with
      ⟨⟨execution, boardNext, script⟩, scriptStep, result⟩
    have moved := (congrArg Prod.fst result).symm
    rcases Execution.expireScript_carries scriptStep with ⟨_, _, _, carries⟩
    rcases stays carries moved with ⟨alike, unnoted⟩
    rcases Execution.expireScript_shortens scriptStep with ⟨answer, rfl⟩
    exact ⟨alike, unnoted, .inl ⟨answer, congrArg Agent.stage moved⟩⟩

theorem Scripted.able {α : Type} {wrap : Script α → Stage σ} (scripted : Scripted audience wrap)
    {request : Request} {resume : request.Answer → Script α}
    (stage : diary.agent.stage = wrap (.ask request resume)) (board : Board) :
    ∃ after, Next audience board diary after := by
  rcases diary.agent.execution.exists_stepScript_or_expireScript board resume with
    ⟨result, steps⟩ | ⟨result, expires⟩
  · apply exists_next_of_step
    rw [scripted.step _ _ _ _ stage, steps]
    rfl
  · apply exists_next_of_expire
    rw [scripted.expire _ _ _ _ stage, expires]
    rfl

/-- A script comes to its end, whatever it is answered. Until then holds what
every step preserves. -/
theorem Scripted.inevitable_keeping {α : Type} {wrap : Script α → Stage σ}
    (scripted : Scripted audience wrap) {script : Script α} (holds : Diary σ → Prop)
    (start : holds diary) (stage : diary.agent.stage = wrap script)
    (steps : ∀ before board after request resume, holds before →
      before.agent.stage = wrap (.ask request resume) → Next audience board before after →
      holds after)
    (done : ∀ later result, holds later → later.agent.stage = wrap (.done result) →
      Inevitable audience goal later) : Inevitable audience goal diary := by
  induction script generalizing diary with
  | done result => exact done diary result start stage
  | ask request resume shorter =>
      -- As long as the request is not answered, the run gets less patient.
      generalize patience : diary.agent.execution.patience = bound
      induction bound using WellFoundedLT.induction generalizing diary with
      | ind bound sooner =>
          refine .ahead (scripted.able stage) fun board after next => ?_
          have holdsAfter := steps diary board after request resume start stage next
          rcases (scripted.next stage next).2.2 with
            ⟨answer, stageAfter⟩ | ⟨stageAfter, lessPatient⟩
          · exact shorter answer holdsAfter stageAfter
          · exact sooner _ (patience ▸ lessPatient) holdsAfter stageAfter rfl

theorem Scripted.inevitable (steady : audience.Steady) {α : Type} {wrap : Script α → Stage σ}
    (scripted : Scripted audience wrap) {script : Script α} (kept : diary.IsKept program)
    (stage : diary.agent.stage = wrap script)
    (done : ∀ (later : Diary σ) result, later.IsKept program → diary.agent.Alike later.agent →
      later.notes = diary.notes → later.agent.stage = wrap (.done result) →
      Inevitable audience goal later) : Inevitable audience goal diary := by
  apply scripted.inevitable_keeping
    (fun later => later.IsKept program ∧ diary.agent.Alike later.agent ∧
      later.notes = diary.notes) ⟨kept, ⟨rfl, rfl, rfl, rfl, rfl⟩, rfl⟩ stage
  · rintro before board after request resume ⟨keptBefore, alike, notes⟩ asking next
    rcases scripted.next asking next with ⟨alikeAfter, unnoted, _⟩
    exact ⟨isKept_next steady keptBefore next, alike.trans alikeAfter, unnoted.trans notes⟩
  · rintro later result ⟨keptLater, alike, notes⟩ ended
    exact done later result keptLater alike notes ended

theorem able_of_ready (ready : diary.agent.stage.Ready) (board : Board) :
    ∃ after, Next audience board diary after := by
  rcases Agent.step_of_ready ready audience board with ⟨⟨agent, boardAfter⟩, steps⟩
  exact exists_next_of_step steps

/-- A run that waits for nobody makes a step. -/
theorem next_of_ready (ready : diary.agent.stage.Ready)
    (next : Next audience board diary after) :
    ∃ file running boardAfter, (diary.agent.touched file running).step audience board =
      some (after.agent, boardAfter) := by
  rcases next_cases (Agent.ending_of_ready ready) next with
    ⟨file, running, boardAfter, moves, _⟩
  refine ⟨file, running, boardAfter, moves.resolve_right fun expires => ?_⟩
  have touchedReady : (diary.agent.touched file running).stage.Ready := ready
  rw [Agent.expire_of_ready touchedReady] at expires
  cases expires

end Diary

end NodeAssembly
