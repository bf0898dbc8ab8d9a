import NodeAssembly.Proofs.Instruction.Moments
import NodeAssembly.Proofs.Node.Progress
import NodeAssembly.Proofs.Node.References

/-! A run in company. While a request of the run waits for its answer, others
may change what the run finds: its registers, the board, and whether it is
still to go on. What they can do is a parameter here. In whatever company it
is, a run answers every request of a script sooner or later. -/

namespace NodeAssembly

/-- A run with the board that it finds. -/
structure Scene where
  execution : Execution
  board : Board

namespace Scene

/-- What others may make of a scene. -/
abbrev Company :=
  Scene → Scene → Prop

/-- Nobody else is there. -/
def solitude : Company :=
  fun _ _ => False

/-- How a request comes to its answer: by steps of the run, in between which the
others act, or because the run gives up. -/
inductive Answers (others : Company) (request : Request) :
    Scene → request.Answer → Scene → Prop
  | answered {scene : Scene} {answer : request.Answer} {execution : Execution} {board : Board}
      (responds : scene.execution.respond scene.board request = .answered answer execution board) :
      Answers others request scene answer ⟨execution, board⟩
  | moved {scene last : Scene} {answer : request.Answer} {execution : Execution} {board : Board}
      (responds : scene.execution.respond scene.board request = .moved execution board)
      (further : Answers others request ⟨execution, board⟩ answer last) :
      Answers others request scene answer last
  | expired {scene : Scene} {answer : request.Answer} {channel : Nat} {call : Bus.Call}
      (calling : scene.execution.call = some (channel, call))
      (faulted : Execution.faultAnswer? (scene.board.expireCall channel call).2 request =
        some answer) :
      Answers others request scene answer
        ⟨scene.execution.withCall none, (scene.board.expireCall channel call).1⟩
  | interrupted {scene between last : Scene} {answer : request.Answer}
      (act : others scene between) (further : Answers others request between answer last) :
      Answers others request scene answer last

/-- A run in company answers requests. -/
def host (others : Company) : Host Scene :=
  Answers others

variable {others : Company} {request : Request} {answer : request.Answer} {scene last : Scene}

theorem ready_host (others : Company) : (host others).Ready := by
  intro request scene
  generalize patience : scene.execution.patience = bound
  induction bound using WellFoundedLT.induction generalizing scene with
  | ind bound sooner =>
      cases responds : scene.execution.respond scene.board request with
      | answered answer execution board => exact ⟨answer, _, .answered responds⟩
      | moved execution board =>
          have shorter := Execution.patience_lt_of_moved responds
          rcases sooner _ (patience ▸ shorter) ⟨execution, board⟩ rfl with ⟨answer, last, further⟩
          exact ⟨answer, last, .moved responds further⟩
      | blocked =>
          rcases Option.isSome_iff_exists.mp (Execution.expires_of_blocked responds .aborted).1 with
            ⟨⟨channel, call⟩, calling⟩
          rcases Option.isSome_iff_exists.mp (Execution.expires_of_blocked responds
            (scene.board.expireCall channel call).2).2 with ⟨answer, faulted⟩
          exact ⟨answer, _, .expired calling faulted⟩

/-- Neither the registers nor the buses hold a reference. -/
def Clean (scene : Scene) : Prop :=
  scene.execution.Clean scene.board

/-- The others bring in no reference. -/
def Company.Clean (others : Company) : Prop :=
  ∀ before after, others before after → before.Clean → after.Clean

theorem Clean.expired (clean : scene.Clean) (channel : Nat) (call : Bus.Call) :
    Clean ⟨scene.execution.withCall none, (scene.board.expireCall channel call).1⟩ :=
  Execution.Clean.withCall clean (clean.board.expireCall channel call).1 nofun

/-- A register is not read as a reference, and none gets into a register. -/
theorem Answers.clean (keeps : others.Clean) (harmless : request.Flat)
    (answers : Answers others request scene answer last) (clean : scene.Clean) :
    last.Clean ∧ request.Yields answer := by
  induction answers with
  | answered responds =>
      have response := Execution.respond_clean clean harmless
      rw [responds] at response
      exact response
  | moved responds further ih =>
      have response := Execution.respond_clean clean harmless
      rw [responds] at response
      exact ih response
  | @expired scene answer channel call calling faulted =>
      refine ⟨clean.expired channel call, ?_⟩
      cases request with
      | read register =>
          cases faulted
          exact (clean.board.expireCall channel call).2
      | _ => trivial
  | interrupted act further ih => exact ih (keeps _ _ act clean)

end Scene

end NodeAssembly
