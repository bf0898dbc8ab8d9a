import Mathlib.Data.List.Infix
import NodeAssembly.Node.Ensemble
import NodeAssembly.Proofs.Node.Monitoring
import NodeAssembly.Proofs.Program.Wiring

/-! Runs on one board in any order. A schedule says whose turn it is, step by
step. If the nodes keep apart, every two schedules can be gone on with so that
both come to the same, each run having gone through the same states on the way.
So what a run has gone through under one schedule is the beginning of what it
goes through under the other. -/

namespace NodeAssembly

namespace Ensemble

variable {σ : Type} (audience : Audience σ)

/-- A step of the agent in a place, if it can make one without a partner. -/
def act (ensemble : Ensemble σ) (place : Nat) : Option (Ensemble σ) :=
  (ensemble.agents[place]?).bind fun agent =>
    (agent.step audience ensemble.board).map fun (next, board) =>
      ⟨ensemble.agents.set place next, board⟩

/-- Lets the agents make their steps in the order of a schedule. An agent that
waits or has finished is passed over. -/
def follow (ensemble : Ensemble σ) : List Nat → Ensemble σ
  | [] => ensemble
  | choice :: rest => ((ensemble.act audience choice).getD ensemble).follow rest

/-- What the agent in a place becomes with each of its steps. -/
def history (place : Nat) (ensemble : Ensemble σ) : List Nat → List (Agent σ)
  | [] => []
  | choice :: rest =>
    match ensemble.act audience choice with
    | none => ensemble.history place rest
    | some next =>
      if choice = place then next.agents[place]?.toList ++ next.history place rest
      else next.history place rest

/-- The agents are the same, and the boards differ in nothing that they see. -/
structure Alike (first second : Ensemble σ) : Prop where
  agents : first.agents = second.agents
  boards : first.board.Alike second.board

theorem Alike.refl (ensemble : Ensemble σ) : ensemble.Alike ensemble :=
  ⟨rfl, .refl _⟩

theorem Alike.symm {first second : Ensemble σ} (alike : first.Alike second) : second.Alike first :=
  ⟨alike.agents.symm, alike.boards.symm⟩

theorem Alike.trans {first second third : Ensemble σ} (left : first.Alike second)
    (right : second.Alike third) : first.Alike third :=
  ⟨left.agents.trans right.agents, left.boards.trans right.boards⟩

variable {audience} {ensemble first second next : Ensemble σ} {place choice : Nat}

theorem act_eq_some : ensemble.act audience place = some next ↔
    ∃ agent after board, ensemble.agents[place]? = some agent ∧
      agent.step audience ensemble.board = some (after, board) ∧
      next = ⟨ensemble.agents.set place after, board⟩ := by
  rw [act, Option.bind_eq_some_iff]
  constructor
  · rintro ⟨agent, found, moved⟩
    rcases Option.map_eq_some_iff.mp moved with ⟨⟨after, board⟩, step, rfl⟩
    exact ⟨agent, after, board, found, step, rfl⟩
  · rintro ⟨agent, after, board, found, step, rfl⟩
    exact ⟨agent, found, Option.map_eq_some_iff.mpr ⟨_, step, rfl⟩⟩

theorem act_alike (alike : first.Alike second) (acted : first.act audience place = some next) :
    ∃ other, second.act audience place = some other ∧ next.Alike other := by
  rcases act_eq_some.mp acted with ⟨agent, after, board, found, step, rfl⟩
  rcases (agent.step_local audience).alike alike.boards step with ⟨otherBoard, again, boards⟩
  refine ⟨⟨second.agents.set place after, otherBoard⟩, ?_, ?_, boards⟩
  · exact act_eq_some.mpr ⟨agent, after, otherBoard, alike.agents ▸ found, again, rfl⟩
  · rw [alike.agents]

theorem act_alike_none (alike : first.Alike second) (blocked : first.act audience place = none) :
    second.act audience place = none := by
  cases acted : second.act audience place with
  | none => rfl
  | some next =>
      rcases act_alike alike.symm acted with ⟨other, moved, _⟩
      rw [blocked] at moved
      cases moved

/-! ## Schedules -/

theorem follow_append (ensemble : Ensemble σ) (early late : List Nat) :
    ensemble.follow audience (early ++ late) =
      (ensemble.follow audience early).follow audience late := by
  induction early generalizing ensemble with
  | nil => rfl
  | cons choice rest induction => exact induction _

theorem history_append (place : Nat) (ensemble : Ensemble σ) (early late : List Nat) :
    ensemble.history audience place (early ++ late) =
      ensemble.history audience place early ++
        (ensemble.follow audience early).history audience place late := by
  induction early generalizing ensemble with
  | nil => rfl
  | cons choice rest induction =>
      simp only [List.cons_append, history, follow]
      cases ensemble.act audience choice with
      | none => exact induction ensemble
      | some next =>
          simp only [Option.getD_some, induction next]
          split
          · rw [List.append_assoc]
          · rfl

theorem follow_alike (alike : first.Alike second) (schedule : List Nat) :
    (first.follow audience schedule).Alike (second.follow audience schedule) := by
  induction schedule generalizing first second with
  | nil => exact alike
  | cons choice rest induction =>
      simp only [follow]
      cases acted : first.act audience choice with
      | none =>
          rw [act_alike_none alike acted]
          exact induction alike
      | some next =>
          rcases act_alike alike acted with ⟨other, again, nextAlike⟩
          rw [again]
          exact induction nextAlike

theorem history_alike (alike : first.Alike second) (place : Nat) (schedule : List Nat) :
    first.history audience place schedule = second.history audience place schedule := by
  induction schedule generalizing first second with
  | nil => rfl
  | cons choice rest induction =>
      simp only [history]
      cases acted : first.act audience choice with
      | none =>
          rw [act_alike_none alike acted]
          exact induction alike
      | some next =>
          rcases act_alike alike acted with ⟨other, again, nextAlike⟩
          rw [again]
          simp only
          rw [nextAlike.agents, induction nextAlike]

/-- Two schedules come to the same, by way of the same states of each agent. -/
structure Equates (audience : Audience σ) (ensemble : Ensemble σ) (early late : List Nat) :
    Prop where
  ends : (ensemble.follow audience early).Alike (ensemble.follow audience late)
  histories : ∀ place, ensemble.history audience place early =
    ensemble.history audience place late

namespace Equates

variable {early middle late : List Nat}

theorem refl (ensemble : Ensemble σ) (schedule : List Nat) :
    Equates audience ensemble schedule schedule :=
  ⟨.refl _, fun _ => rfl⟩

theorem symm (equates : Equates audience ensemble early late) :
    Equates audience ensemble late early :=
  ⟨equates.ends.symm, fun place => (equates.histories place).symm⟩

theorem trans (left : Equates audience ensemble early middle)
    (right : Equates audience ensemble middle late) : Equates audience ensemble early late :=
  ⟨left.ends.trans right.ends, fun place => (left.histories place).trans (right.histories place)⟩

theorem append (equates : Equates audience ensemble early late) (further : List Nat) :
    Equates audience ensemble (early ++ further) (late ++ further) where
  ends := by
    rw [follow_append, follow_append]
    exact follow_alike equates.ends further
  histories := by
    intro place
    rw [history_append, history_append, equates.histories, history_alike equates.ends]

theorem cons (acted : ensemble.act audience choice = some next)
    (equates : Equates audience next early late) :
    Equates audience ensemble (choice :: early) (choice :: late) where
  ends := by
    simp only [follow, acted]
    exact equates.ends
  histories := by
    intro place
    simp only [history, acted, equates.histories place]

end Equates

/-! ## Nodes that keep apart -/

/-- Each agent runs the node in its place and keeps to it. -/
structure Lawful (audience : Audience σ) (origins : List Node) (ensemble : Ensemble σ) : Prop where
  runs : ∀ (place : Nat) (agent : Agent σ), ensemble.agents[place]? = some agent →
    ∃ origin, origins[place]? = some origin ∧ agent.Within audience origin
  flat : ensemble.board.Flat

variable {origins : List Node}

theorem Lawful.act (lawful : ensemble.Lawful audience origins)
    (acted : ensemble.act audience choice = some next) : next.Lawful audience origins := by
  rcases act_eq_some.mp acted with ⟨agent, after, board, found, step, rfl⟩
  rcases lawful.runs choice agent found with ⟨origin, isOrigin, within⟩
  rcases Agent.within_step within lawful.flat step with ⟨withinAfter, flat⟩
  refine ⟨fun place other inPlace => ?_, flat⟩
  by_cases same : choice = place
  · subst same
    have inside := (List.getElem?_eq_some_iff.mp found).1
    rw [List.getElem?_set_self inside] at inPlace
    cases inPlace
    exact ⟨origin, isOrigin, withinAfter⟩
  · rw [List.getElem?_set_ne same] at inPlace
    exact lawful.runs place other inPlace

/-- How the run in a place ended, if it did. -/
def ending? (ensemble : Ensemble σ) (place : Nat) : Option Ending :=
  (ensemble.agents[place]?).bind Agent.ending?

end Ensemble

/-- The event that the listeners have just heard of, with the registers at that
moment. -/
def Agent.report? {σ : Type} (agent : Agent σ) : Option (Event × RegisterFile) :=
  match agent.stage with
  | .notifying event (.done _) => some (event, agent.execution.node.file)
  | _ => none

namespace Ensemble

variable {σ : Type}

/-- Starts a run of every node, with those who listen to it. -/
def launch (board : Board) : List (Node × σ) → Ensemble σ
  | [] => ⟨[], board⟩
  | (node, listeners) :: rest =>
    let (agent, board) := Agent.start { node with running := true } listeners board
    let others := launch board rest
    ⟨agent :: others.agents, others.board⟩

variable {audience : Audience σ}

end Ensemble

end NodeAssembly
