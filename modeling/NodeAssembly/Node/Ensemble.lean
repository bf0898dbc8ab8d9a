import NodeAssembly.Node.Execution

/-! Several runs on one board. At each moment the first run that can make a
step makes it. If none can, the first one that waits for a partner gives up,
since no partner will come. -/

namespace NodeAssembly

structure Ensemble (σ : Type) where
  agents : List (Agent σ)
  board : Board

namespace Ensemble

variable {σ : Type}

/-- Lets the first agent that can do so make a move. -/
def moveFirst (move : Agent σ → Board → Option (Agent σ × Board)) (board : Board) :
    List (Agent σ) → Option (List (Agent σ) × Board)
  | [] => none
  | agent :: rest =>
    match move agent board with
    | some (agent, board) => some (agent :: rest, board)
    | none => (moveFirst move board rest).map fun (rest, board) => (agent :: rest, board)

/-- One step of the ensemble. There is none if all runs are finished. -/
def step (audience : Audience σ) (ensemble : Ensemble σ) : Option (Ensemble σ) :=
  match moveFirst (·.step audience) ensemble.board ensemble.agents with
  | some (agents, board) => some ⟨agents, board⟩
  | none =>
    (moveFirst Agent.expire ensemble.board ensemble.agents).map fun (agents, board) =>
      ⟨agents, board⟩

/-- At most so many steps. -/
def run (audience : Audience σ) : Nat → Ensemble σ → Ensemble σ
  | 0, ensemble => ensemble
  | steps + 1, ensemble =>
    match ensemble.step audience with
    | some ensemble => ensemble.run audience steps
    | none => ensemble

/-- More steps than a run that is watched ever makes. -/
def manySteps : Nat := 0x1000000000000000

/-- Runs until all runs are finished. -/
def finish (audience : Audience σ) (ensemble : Ensemble σ) : Ensemble σ :=
  ensemble.run audience manySteps

end Ensemble

end NodeAssembly
