import NodeAssembly.Proofs.Node.ControlFlow

/-! Listeners that do not break a run off. While they handle an event they may
use registers and ask the node to stop, but they cannot jump or end the program,
which only its instructions can do. -/

namespace NodeAssembly

/-- The terms of those who are not part of the program. -/
def Terms.outside : Terms where
  asks
    | .jump _ => False
    | .stop => False
    | _ => True
  values _ := True
  faults _ := True

theorem Terms.outside_admits (request : Request) (answer : request.Answer) :
    outside.Admits request answer := by
  cases request with
  | read register => cases answer <;> trivial
  | write register value => cases answer <;> trivial
  | observe register => cases answer <;> trivial
  | jump label => cases answer <;> trivial
  | _ => trivial

theorem Terms.ne_stop_of_outside {request : Request} (asked : outside.asks request) :
    request ≠ .stop := by
  rintro rfl
  exact asked

/-- Listeners that let every run go on after an event. -/
def Audience.Steady {σ : Type} (audience : Audience σ) : Prop :=
  ∀ running event listeners, (audience.notify running event listeners).Keeps .outside
    fun result => result.2.broken = false

/-- Those who listen and do nothing. -/
def Audience.silent : Audience Unit :=
  ⟨fun _ _ listeners => .done (listeners, .none)⟩

theorem Audience.silent_steady : silent.Steady :=
  fun _ _ _ => rfl

namespace Script

variable {α : Type} {execution after : Execution} {board boardAfter : Board}
  {script next : Script α} {ends : α → Prop}

theorem Keeps.steering {known : String → Prop} (keeps : script.Keeps .outside ends) :
    script.Keeps (.steering known) ends := by
  induction script with
  | done result => exact keeps
  | ask request resume induction =>
      refine ⟨?_, fun answer _ => induction answer (keeps.2 answer (Terms.outside_admits _ _))⟩
      cases request with
      | jump label => exact keeps.1.elim
      | _ => trivial

theorem Keeps.stepScript (keeps : script.Keeps .outside ends)
    (step : execution.stepScript board script = some (after, boardAfter, next)) :
    next.Keeps .outside ends ∧ after.halted = execution.halted := by
  rcases Execution.stepScript_cases step with
    ⟨request, resume, rfl, ⟨answer, responds, rfl⟩ | ⟨responds, rfl⟩⟩
  · exact ⟨keeps.2 answer (Terms.outside_admits _ _),
      (Execution.carries_of_answered responds).halted (Terms.ne_stop_of_outside keeps.1)⟩
  · exact ⟨keeps,
      (Execution.carries_of_moved responds).halted (Terms.ne_stop_of_outside keeps.1)⟩

theorem Keeps.expireScript (keeps : script.Keeps .outside ends)
    (step : execution.expireScript board script = some (after, boardAfter, next)) :
    next.Keeps .outside ends ∧ after.halted = execution.halted := by
  rcases Execution.expireScript_cases step with
    ⟨request, resume, channel, call, answer, rfl, calling, rfl, rfl, answered, rfl⟩
  exact ⟨keeps.2 answer (Terms.outside_admits _ _), rfl⟩

end Script

theorem Audience.Steady.bystanders {σ : Type} {audience : Audience σ} (steady : audience.Steady) :
    audience.Bystanders :=
  fun running event listeners =>
    ((steady running event listeners).steering).imp fun _ _ => trivial

namespace Agent

variable {σ : Type} {audience : Audience σ} {agent : Agent σ} {board : Board}
  {result : Agent σ × Board}

/-- The listeners that handle an event will not break the run off. -/
def Attended (agent : Agent σ) : Prop :=
  match agent.stage with
  | .notifying _ script => script.Keeps .outside fun result => result.2.broken = false
  | _ => True

theorem attended_of_notifying {event : Event} {script : Script (σ × Reaction)}
    (attended : agent.Attended) (stage : agent.stage = .notifying event script) :
    script.Keeps .outside fun result => result.2.broken = false := by
  unfold Attended at attended
  rwa [stage] at attended

theorem attended_conclude (steady : audience.Steady) (agent : Agent σ) (board : Board)
    (result : Except Fault Unit) : (agent.conclude audience board result).1.Attended := by
  cases result <;> exact steady _ _ _

theorem attended_visit (steady : audience.Steady) (agent : Agent σ) (board : Board) :
    (agent.visit audience board).1.Attended := by
  have finds := visit_finds audience agent board
  generalize agent.visit audience board = result at finds ⊢
  cases finds with
  | spent found running spent lacking => exact steady _ _ _
  | fresh found running fresh => trivial
  | _ => exact attended_conclude steady _ _ _

theorem attended_resume (agent : Agent σ) (event : Event) : (agent.resume event).Attended := by
  cases event <;> trivial

theorem attended_step (steady : audience.Steady) (attended : agent.Attended)
    (step : agent.step audience board = some result) : result.1.Attended := by
  cases step_moves step with
  | visits stage => exact attended_visit steady agent board
  | faults stage => exact attended_conclude steady _ _ _
  | completes stage found => exact steady _ _ _
  | leaves stage missing => exact attended_conclude steady _ _ _
  | executes stage scriptStep => trivial
  | reacts stage =>
      rw [react_of_unbroken (attended_of_notifying attended stage)]
      exact attended_resume _ _
  | notifies stage scriptStep =>
      exact ((attended_of_notifying attended stage).stepScript scriptStep).1

theorem attended_expire (attended : agent.Attended)
    (step : agent.expire board = some result) : result.1.Attended := by
  cases expire_givesUp step with
  | executes stage scriptStep => trivial
  | notifies stage scriptStep =>
      exact ((attended_of_notifying attended stage).expireScript scriptStep).1

end Agent

end NodeAssembly
