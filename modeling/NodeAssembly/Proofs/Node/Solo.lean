import NodeAssembly.Proofs.Node.Confluence
import NodeAssembly.Proofs.Node.Progress
import NodeAssembly.Proofs.Node.Resemblance

/-! A node that runs alone, step by step. How many steps it takes over a sleep
depends on how time passes, and so does where two runs of a node are after as many
steps. Their steps can still be paired: as long as one of the runs is in a sleep
that its next step does not end, the other one stays where it is. -/

namespace NodeAssembly

namespace Execution

/-- A step of a sleep ends it, or the run sleeps on and is closer to the end. -/
theorem sleep_cases (execution : Execution) (board : Board) (ticks : Int32) :
    ∃ timer, (execution.sleep board ticks = .answered () (execution.withTimer timer) board ∧
        timer.deadline = none) ∨
      (execution.sleep board ticks = .moved (execution.withTimer timer) board ∧
        timer.deadline.isSome = true ∧
        (execution.withTimer timer).patience < execution.patience) := by
  have dozes := sleep_dozes execution board ticks
  generalize responds : execution.sleep board ticks = response at dozes
  rw [← respond_sleep] at responds
  cases dozes with
  | skips awake off => exact ⟨_, .inl ⟨rfl, awake⟩⟩
  | begins awake on => exact ⟨_, .inr ⟨rfl, rfl, patience_lt_of_moved responds⟩⟩
  | stopped asleep stopped => exact ⟨_, .inl ⟨rfl, rfl⟩⟩
  | wakes asleep running past => exact ⟨_, .inl ⟨rfl, rfl⟩⟩
  | goesOn asleep running early =>
      exact ⟨_, .inr ⟨rfl, Option.isSome_of_eq_some asleep, patience_lt_of_moved responds⟩⟩

end Execution

/-- The script of a stage goes on with a request, and with the answer it takes the
run to another stage. -/
inductive Stage.Asks {σ : Type} :
    Stage σ → (request : Request) → (request.Answer → Stage σ) → Prop
  | executing (request : Request) (resume : request.Answer → Script (Except Fault Unit)) :
      Asks (.executing (.ask request resume)) request fun answer => .executing (resume answer)
  | notifying (event : Event) (request : Request)
      (resume : request.Answer → Script (σ × Reaction)) :
      Asks (.notifying event (.ask request resume)) request
        fun answer => .notifying event (resume answer)

namespace Agent

variable {σ : Type} {agent : Agent σ} {request : Request} {next : request.Answer → Stage σ}

/-- What the run asks for next. -/
def request? (agent : Agent σ) : Option Request :=
  match agent.stage with
  | .executing (.ask request _) => some request
  | .notifying _ (.ask request _) => some request
  | _ => none

/-- The run at another time. -/
def withTimer (agent : Agent σ) (timer : Timer) : Agent σ :=
  { agent with execution := agent.execution.withTimer timer }

theorem exists_asks (asks : agent.request? = some request) :
    ∃ next, agent.stage.Asks request next := by
  unfold request? at asks
  split at asks
  next stage =>
    cases asks
    rw [stage]
    exact ⟨_, .executing request _⟩
  next stage =>
    cases asks
    rw [stage]
    exact ⟨_, .notifying _ request _⟩
  next => cases asks

/-- A step at such a stage is up to what comes of the request. -/
theorem step_of_asks (asks : agent.stage.Asks request next) (audience : Audience σ)
    (board : Board) :
    agent.step audience board =
      match agent.execution.respond board request with
      | .answered answer execution board =>
        some ({ agent with execution := execution, stage := next answer }, board)
      | .moved execution board => some ({ agent with execution := execution }, board)
      | .blocked => none := by
  rcases agent with ⟨execution, listeners, stage⟩
  cases asks with
  | executing request resume =>
      simp only [step, Execution.stepScript]
      cases execution.respond board request <;> rfl
  | notifying event request resume =>
      simp only [step, Execution.stepScript]
      cases execution.respond board request <;> rfl

end Agent

/-- A node that runs alone. Beside the run it is kept which random registers have
no seed. -/
structure Solo (σ : Type) where
  agent : Agent σ
  board : Board
  unseeded : Nat → Bool

namespace Solo

variable {σ α : Type}

def file (solo : Solo σ) : RegisterFile :=
  solo.agent.execution.node.file

/-- One step, or none if the run is over. -/
def step (audience : Audience σ) (solo : Solo σ) : Solo σ :=
  match solo.agent.step audience solo.board with
  | none => solo
  | some (agent, board) =>
    let unseeded :=
      match solo.agent.request? with
      | some request => solo.file.unseededAfter solo.unseeded request
      | none => solo.unseeded
    ⟨agent, board, unseeded⟩

def run (audience : Audience σ) (solo : Solo σ) : Nat → Solo σ
  | 0 => solo
  | count + 1 => (solo.run audience count).step audience

/-- The event that the listeners have just heard of. -/
def event? (solo : Solo σ) : Option Event :=
  solo.agent.report?.map Prod.fst

/-- How long the run asks to sleep. -/
def sleep? (solo : Solo σ) : Option Int32 :=
  match solo.agent.request? with
  | some (.sleep ticks) => some ticks
  | _ => none

/-- Whether the run is in a sleep that its next step does not end. -/
def dozes (audience : Audience σ) (solo : Solo σ) : Bool :=
  solo.sleep?.isSome && (solo.step audience).agent.execution.timer.deadline.isSome

/-- How long the run asked to sleep, if that is over with the next step. -/
def slept? (audience : Audience σ) (solo : Solo σ) : Option Int32 :=
  if solo.dozes audience then none else solo.sleep?

/-- What is seen of the states before each of so many steps. -/
def trace (audience : Audience σ) (see : Solo σ → Option α) (solo : Solo σ) (count : Nat) :
    List α :=
  (List.range count).filterMap fun index => see (solo.run audience index)

/-- The events of so many steps. -/
def events (audience : Audience σ) (solo : Solo σ) (count : Nat) : List Event :=
  solo.trace audience event? count

/-- The sleeps that are over after so many steps. -/
def sleeps (audience : Audience σ) (solo : Solo σ) (count : Nat) : List Int32 :=
  solo.trace audience (slept? audience) count

variable {audience : Audience σ} {solo : Solo σ}

theorem step_of_some {agent : Agent σ} {board : Board}
    (step : solo.agent.step audience solo.board = some (agent, board)) :
    solo.step audience = ⟨agent, board, match solo.agent.request? with
      | some request => solo.file.unseededAfter solo.unseeded request
      | none => solo.unseeded⟩ := by
  rw [Solo.step, step]

/-- A run that is over stays as it is. -/
theorem run_of_ended {count index : Nat}
    (ended : (solo.run audience count).agent.ending?.isSome = true) (later : count ≤ index) :
    solo.run audience index = solo.run audience count := by
  induction index, later using Nat.le_induction with
  | base => rfl
  | succ index later induction =>
      rw [run, induction, step]
      unfold Agent.ending? at ended
      split at ended
      next stage => rw [Agent.step, stage]
      next => cases ended

theorem request_of_sleep {ticks : Int32} (asks : solo.sleep? = some ticks) :
    solo.agent.request? = some (.sleep ticks) := by
  unfold sleep? at asks
  split at asks
  next found =>
    cases asks
    exact found
  next => cases asks

/-- What becomes of a run in a sleep. -/
theorem step_of_sleep {ticks : Int32} {next : Unit → Stage σ}
    (asks : solo.agent.stage.Asks (.sleep ticks) next)
    (asked : solo.agent.request? = some (.sleep ticks)) :
    (solo.dozes audience = true ∧ ∃ timer,
        solo.step audience = { solo with agent := solo.agent.withTimer timer } ∧
        (solo.agent.withTimer timer).execution.patience < solo.agent.execution.patience) ∨
      solo.dozes audience = false ∧ ∃ timer, solo.step audience =
        { solo with agent := { solo.agent.withTimer timer with stage := next () } } := by
  have asleep : solo.sleep? = some ticks := by rw [sleep?, asked]
  have steps := Agent.step_of_asks asks audience solo.board
  rw [Execution.respond_sleep] at steps
  rcases solo.agent.execution.sleep_cases solo.board ticks with
    ⟨timer, ⟨ends, awake⟩ | ⟨goesOn, still, closer⟩⟩
  · rw [ends] at steps
    have step := step_of_some steps
    rw [asked] at step
    refine .inr ⟨?_, timer, step⟩
    rw [dozes, asleep, step]
    exact congrArg Option.isSome awake
  · rw [goesOn] at steps
    have step := step_of_some steps
    rw [asked] at step
    refine .inl ⟨?_, timer, step, closer⟩
    rw [dozes, asleep, step]
    exact still

theorem step_of_dozes (dozes : solo.dozes audience = true) :
    ∃ timer, solo.step audience = { solo with agent := solo.agent.withTimer timer } ∧
      (solo.agent.withTimer timer).execution.patience < solo.agent.execution.patience := by
  have asleep := (Bool.and_eq_true_iff.mp dozes).1
  rcases Option.isSome_iff_exists.mp asleep with ⟨ticks, isTicks⟩
  have asked := request_of_sleep isTicks
  rcases Agent.exists_asks asked with ⟨next, asks⟩
  rcases step_of_sleep asks asked with ⟨_, found⟩ | ⟨awake, _⟩
  · exact found
  · rw [dozes] at awake
    cases awake

/-- Nothing is heard of a run in a sleep. -/
theorem event_of_dozes (dozes : solo.dozes audience = true) : solo.event? = none := by
  have asleep := (Bool.and_eq_true_iff.mp dozes).1
  rcases Option.isSome_iff_exists.mp asleep with ⟨ticks, isTicks⟩
  have asked := request_of_sleep isTicks
  rcases Agent.exists_asks asked with ⟨next, asks⟩
  rcases solo with ⟨⟨execution, listeners, stage⟩, board, unseeded⟩
  cases asks <;> rfl

theorem trace_succ (see : Solo σ → Option α) (count : Nat) :
    solo.trace audience see (count + 1) =
      solo.trace audience see count ++ (see (solo.run audience count)).toList := by
  rw [trace, List.range_succ, List.filterMap_append, trace, List.filterMap_cons,
    List.filterMap_nil]
  cases see (solo.run audience count) <;> rfl

/-- The numbers of steps after which two runs have come equally far. -/
inductive Paired (audience : Audience σ) (first second : Solo σ) : Nat → Nat → Prop
  | start : Paired audience first second 0 0
  | left {index other : Nat} (before : Paired audience first second index other)
      (dozes : (first.run audience index).dozes audience = true) :
      Paired audience first second (index + 1) other
  | right {index other : Nat} (before : Paired audience first second index other)
      (dozes : (second.run audience other).dozes audience = true) :
      Paired audience first second index (other + 1)
  | both {index other : Nat} (before : Paired audience first second index other)
      (awake : (first.run audience index).dozes audience = false)
      (awakeToo : (second.run audience other).dozes audience = false) :
      Paired audience first second (index + 1) (other + 1)

namespace Paired

variable {first second : Solo σ} {index other : Nat}

theorem symm (paired : Paired audience first second index other) :
    Paired audience second first other index := by
  induction paired with
  | start => exact .start
  | left _ dozes induction => exact .right induction dozes
  | right _ dozes induction => exact .left induction dozes
  | both _ awake awakeToo induction => exact .both induction awakeToo awake

/-- A sleep is over sooner or later. -/
theorem wake (paired : Paired audience first second index other) :
    ∃ later, Paired audience first second index later ∧
      (second.run audience later).dozes audience = false := by
  generalize patience : (second.run audience other).agent.execution.patience = bound
  induction bound using WellFoundedLT.induction generalizing other with
  | ind bound sooner =>
      cases dozing : (second.run audience other).dozes audience with
      | false => exact ⟨other, paired, dozing⟩
      | true =>
          rcases step_of_dozes dozing with ⟨timer, step, closer⟩
          have later : (second.run audience (other + 1)).agent.execution.patience < bound := by
            rw [run, step, ← patience]
            exact closer
          exact sooner _ later (paired.right dozing) rfl

theorem exists_other (audience : Audience σ) (first second : Solo σ) (index : Nat) :
    ∃ other, Paired audience first second index other := by
  induction index with
  | zero => exact ⟨0, .start⟩
  | succ index induction =>
      rcases induction with ⟨other, paired⟩
      cases dozing : (first.run audience index).dozes audience with
      | true => exact ⟨other, paired.left dozing⟩
      | false =>
          rcases paired.wake with ⟨later, pairedLater, awake⟩
          exact ⟨later + 1, pairedLater.both dozing awake⟩

/-- What is seen of two runs is the same if nothing is seen of a sleep that goes on,
and the same whenever both are awake. -/
theorem trace_eq {see : Solo σ → Option α}
    (silent : ∀ solo : Solo σ, solo.dozes audience = true → see solo = none)
    (same : ∀ {index other}, Paired audience first second index other →
      (first.run audience index).dozes audience = false →
      (second.run audience other).dozes audience = false →
      see (first.run audience index) = see (second.run audience other))
    (paired : Paired audience first second index other) :
    first.trace audience see index = second.trace audience see other := by
  induction paired with
  | start => rfl
  | left _ dozes induction =>
      rw [trace_succ, silent _ dozes, Option.toList_none, List.append_nil]
      exact induction
  | right _ dozes induction =>
      rw [trace_succ, silent _ dozes, Option.toList_none, List.append_nil]
      exact induction
  | both before awake awakeToo induction =>
      rw [trace_succ, trace_succ, induction, same before awake awakeToo]

end Paired

end Solo

end NodeAssembly
