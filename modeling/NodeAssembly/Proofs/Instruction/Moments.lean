import NodeAssembly.Instruction.Execute

/-! The course of an instruction, one request after the other. An instruction
does work of its own, and then there may be a block to execute: the branch that
a test has chosen. So at each moment one instruction is in progress, and below
it the rests of the blocks are waiting that it stands in. The next instruction
of a block begins when the machine says that it is still running. -/

namespace NodeAssembly

/-- A request with the answer to it. -/
structure Answered where
  request : Request
  answer : request.Answer

namespace Script

variable {α β : Type}

theorem bind_done (script : Script α) : script.bind .done = script := by
  induction script with
  | done result => rfl
  | ask request resume ih => exact congrArg (Script.ask request) (funext ih)

theorem bind_bind {γ : Type} (script : Script α) (next : α → Script β) (last : β → Script γ) :
    (script.bind next).bind last = script.bind fun result => (next result).bind last := by
  induction script with
  | done result => rfl
  | ask request resume ih => exact congrArg (Script.ask request) (funext ih)

instance : LawfulMonad Script :=
  LawfulMonad.mk' Script bind_done (fun _ _ => rfl) bind_bind

/-- One script comes to another by the answers to its requests. -/
inductive Reaches : Script α → List Answered → Script α → Prop
  | here {script : Script α} : Reaches script [] script
  | ask {request : Request} {resume : request.Answer → Script α} {answer : request.Answer}
      {log : List Answered} {rest : Script α} (further : Reaches (resume answer) log rest) :
      Reaches (.ask request resume) (⟨request, answer⟩ :: log) rest

variable {script rest : Script α} {log : List Answered}

theorem Reaches.of_done {result : α} (reaches : (Script.done result).Reaches log rest) :
    log = [] ∧ rest = .done result := by
  cases reaches
  exact ⟨rfl, rfl⟩

theorem Reaches.trans {between : Script α} {later : List Answered}
    (first : script.Reaches log between) (second : between.Reaches later rest) :
    script.Reaches (log ++ later) rest := by
  induction first with
  | here => exact second
  | ask further ih => exact .ask (ih second)

end Script

/-! ## Hosts -/

/-- Someone who answers requests. What is answered depends on a state, and may
be a matter of chance. -/
abbrev Host (σ : Type) :=
  (request : Request) → σ → request.Answer → σ → Prop

namespace Host

variable {σ : Type} {host : Host σ}

/-- The host gives the answers, one after the other. -/
inductive Gives (host : Host σ) : σ → List Answered → σ → Prop
  | none {state : σ} : Gives host state [] state
  | next {state after last : σ} {request : Request} {answer : request.Answer}
      {log : List Answered} (answers : host request state answer after)
      (further : Gives host after log last) :
      Gives host state (⟨request, answer⟩ :: log) last

theorem gives_cons {state last : σ} {answered : Answered} {log : List Answered} :
    host.Gives state (answered :: log) last ↔
      ∃ after, host answered.request state answered.answer after ∧ host.Gives after log last := by
  constructor
  · intro gives
    cases gives with
    | next answers further => exact ⟨_, answers, further⟩
  · rintro ⟨after, answers, further⟩
    exact .next answers further

/-- The host answers every request in some way. -/
def Ready (host : Host σ) : Prop :=
  ∀ request state, ∃ answer after, host request state answer after

/-- Every script comes to its end. -/
theorem Ready.exists_done {α : Type} (ready : host.Ready) (script : Script α) (state : σ) :
    ∃ log result last, script.Reaches log (.done result) ∧ host.Gives state log last := by
  induction script generalizing state with
  | done result => exact ⟨[], result, state, .here, .none⟩
  | ask request resume ih =>
      rcases ready request state with ⟨answer, after, answers⟩
      rcases ih answer after with ⟨log, result, last, reaches, gives⟩
      exact ⟨_, result, last, .ask reaches, .next answers gives⟩

end Host

/-! ## Instructions -/

/-- What an instruction does itself, with the block that it leaves to be
executed. -/
def Instruction.own (accumulator : RegisterRef) : Instruction → Action Block
  | .test kind left right positive negative => do
    let ordering ← Action.order left right
    match kind.branch? ordering with
    | some true => return positive
    | some false => return negative
    | none => return .nil
  | instruction => do
    instruction.execute accumulator
    return .nil

theorem Instruction.execute_eq_own (accumulator : RegisterRef) (instruction : Instruction) :
    instruction.execute accumulator =
      instruction.own accumulator >>= Block.execute accumulator := by
  cases instruction with
  | test kind left right positive negative =>
      simp only [execute, own, bind_assoc]
      congr 1
      funext ordering
      cases kind.branch? ordering with
      | none => rfl
      | some chosen => cases chosen <;> rfl
  | _ => simp only [own, bind_assoc, pure_bind, Block.execute, bind_pure_unit]

/-- Several blocks, one after the other. -/
def executeAll (accumulator : RegisterRef) : List Block → Action Unit
  | [] => pure ()
  | block :: rest => do
    block.execute accumulator
    executeAll accumulator rest

/-- The next instruction of some blocks, with the rest of its block and the
blocks after that. -/
def upcoming : List Block → Option (Instruction × Block × List Block)
  | [] => none
  | .nil :: rest => upcoming rest
  | .cons head tail :: rest => some (head, tail, rest)

theorem executeAll_of_none (accumulator : RegisterRef) {blocks : List Block}
    (empty : upcoming blocks = none) : executeAll accumulator blocks = pure () := by
  induction blocks with
  | nil => rfl
  | cons block rest ih =>
      cases block with
      | nil => exact ih empty
      | cons head tail => cases empty

theorem executeAll_of_some (accumulator : RegisterRef) {blocks rest : List Block}
    {head : Instruction} {tail : Block} (found : upcoming blocks = some (head, tail, rest)) :
    executeAll accumulator blocks = (do
      if ← Action.running then
        let block ← head.own accumulator
        executeAll accumulator (block :: tail :: rest)
      else executeAll accumulator rest) := by
  induction blocks with
  | nil => cases found
  | cons block blocks ih =>
      cases block with
      | nil => exact ih found
      | cons first others =>
          cases found
          rw [executeAll, Block.execute, bind_assoc]
          congr 1
          funext running
          cases running with
          | true => simp [executeAll, Instruction.execute_eq_own]
          | false => rfl

/-! ## Moments -/

/-- A moment in the course of an instruction: what the instruction in progress
still does itself, and the blocks that are to be executed afterwards. -/
structure Moment where
  instruction : Instruction
  own : Script (Except Fault Block)
  waiting : List Block

/-- What happens at a moment. -/
inductive Occurrence where
  /-- The instruction in progress has a request answered. -/
  | asked (answered : Answered)
  /-- Another instruction begins, since the machine is running. -/
  | began (instruction : Instruction)
  /-- The rest of a block is left, since the machine is not running. -/
  | left

def Occurrence.answered : Occurrence → Answered
  | .asked answered => answered
  | .began _ => ⟨.running, true⟩
  | .left => ⟨.running, false⟩

def Occurrence.began? : Occurrence → Option Instruction
  | .began instruction => some instruction
  | _ => none

namespace Moment

variable {accumulator : RegisterRef}

def start (accumulator : RegisterRef) (instruction : Instruction) : Moment :=
  ⟨instruction, (instruction.own accumulator).run, []⟩

/-- All that is still to be done. -/
def script (accumulator : RegisterRef) (moment : Moment) : Script (Except Fault Unit) :=
  ExceptT.run do
    let block ← ExceptT.mk moment.own
    executeAll accumulator (block :: moment.waiting)

inductive Step (accumulator : RegisterRef) : Moment → Occurrence → Moment → Prop
  | asks {instruction : Instruction} {request : Request}
      {resume : request.Answer → Script (Except Fault Block)} {waiting : List Block}
      (answer : request.Answer) :
      Step accumulator ⟨instruction, .ask request resume, waiting⟩ (.asked ⟨request, answer⟩)
        ⟨instruction, resume answer, waiting⟩
  | begins {instruction head : Instruction} {block tail : Block} {waiting rest : List Block}
      (next : upcoming (block :: waiting) = some (head, tail, rest)) :
      Step accumulator ⟨instruction, .done (.ok block), waiting⟩ (.began head)
        ⟨head, (head.own accumulator).run, tail :: rest⟩
  | leaves {instruction head : Instruction} {block tail : Block} {waiting rest : List Block}
      (next : upcoming (block :: waiting) = some (head, tail, rest)) :
      Step accumulator ⟨instruction, .done (.ok block), waiting⟩ .left
        ⟨instruction, .done (.ok .nil), rest⟩

/-- The course from one moment to another. -/
inductive Run (accumulator : RegisterRef) : Moment → List Occurrence → Moment → Prop
  | here {moment : Moment} : Run accumulator moment [] moment
  | step {moment between last : Moment} {occurrence : Occurrence} {course : List Occurrence}
      (first : Step accumulator moment occurrence between)
      (further : Run accumulator between course last) :
      Run accumulator moment (occurrence :: course) last

theorem Run.trans {moment between last : Moment} {early late : List Occurrence}
    (first : Run accumulator moment early between) (second : Run accumulator between late last) :
    Run accumulator moment (early ++ late) last := by
  induction first with
  | here => exact second
  | step first further ih => exact .step first (ih second)

theorem script_start (accumulator : RegisterRef) (instruction : Instruction) :
    (start accumulator instruction).script accumulator = (instruction.execute accumulator).run := by
  have same : (do
      let block ← instruction.own accumulator
      executeAll accumulator [block]) = instruction.execute accumulator := by
    simp only [executeAll, bind_pure_unit, Instruction.execute_eq_own]
  exact congrArg ExceptT.run same

/-- Between two instructions the machine is asked whether it is running. -/
theorem script_between {head : Instruction} {block tail : Block} {waiting rest : List Block}
    (next : upcoming (block :: waiting) = some (head, tail, rest)) (instruction : Instruction) :
    (⟨instruction, .done (.ok block), waiting⟩ : Moment).script accumulator =
      .ask .running fun running =>
        if running then
          (⟨head, (head.own accumulator).run, tail :: rest⟩ : Moment).script accumulator
        else (⟨instruction, .done (.ok .nil), rest⟩ : Moment).script accumulator := by
  refine (congrArg ExceptT.run (executeAll_of_some accumulator next)).trans ?_
  refine congrArg (Script.ask Request.running) (funext fun running => ?_)
  cases running <;> rfl

theorem script_over {block : Block} {waiting : List Block}
    (empty : upcoming (block :: waiting) = none) (instruction : Instruction) :
    (⟨instruction, .done (.ok block), waiting⟩ : Moment).script accumulator = .done (.ok ()) :=
  congrArg ExceptT.run (executeAll_of_none accumulator empty)

/-- When everything is done, the last instruction has succeeded or failed. -/
theorem own_of_script_done {moment : Moment} {outcome : Except Fault Unit}
    (done : moment.script accumulator = .done outcome) :
    (∃ block, moment.own = .done (.ok block) ∧ outcome = .ok ()) ∨
      ∃ fault, moment.own = .done (.error fault) ∧ outcome = .error fault := by
  rcases moment with ⟨instruction, own, waiting⟩
  cases own with
  | ask request resume => cases done
  | done result =>
      cases result with
      | error fault =>
          cases done
          exact .inr ⟨fault, rfl, rfl⟩
      | ok block =>
          cases next : upcoming (block :: waiting) with
          | some found =>
              rw [script_between next] at done
              cases done
          | none =>
              rw [script_over next] at done
              cases done
              exact .inl ⟨block, rfl, rfl⟩

theorem Step.reaches {moment next : Moment} {occurrence : Occurrence}
    (step : Step accumulator moment occurrence next) :
    (moment.script accumulator).Reaches [occurrence.answered] (next.script accumulator) := by
  cases step with
  | asks answer => exact .ask .here
  | begins next =>
      rw [script_between next]
      exact .ask .here
  | leaves next =>
      rw [script_between next]
      exact .ask .here

/-- The course of an instruction is one that its script can take. -/
theorem Run.reaches {moment last : Moment} {course : List Occurrence}
    (run : Run accumulator moment course last) :
    (moment.script accumulator).Reaches (course.map Occurrence.answered)
      (last.script accumulator) := by
  induction run with
  | here => exact .here
  | step first further ih => exact first.reaches.trans ih

/-- A request that is answered is a step. -/
theorem exists_step {moment : Moment} {request : Request}
    {resume : request.Answer → Script (Except Fault Unit)}
    (asks : moment.script accumulator = .ask request resume) (answer : request.Answer) :
    ∃ occurrence next, Step accumulator moment occurrence next ∧
      occurrence.answered = ⟨request, answer⟩ ∧ next.script accumulator = resume answer := by
  rcases moment with ⟨instruction, own, waiting⟩
  cases own with
  | ask request resume =>
      cases asks
      exact ⟨_, _, .asks answer, rfl, rfl⟩
  | done result =>
      cases result with
      | error fault => cases asks
      | ok block =>
          cases next : upcoming (block :: waiting) with
          | none =>
              rw [script_over next] at asks
              cases asks
          | some found =>
              rw [script_between next] at asks
              cases asks
              cases answer with
              | true => exact ⟨_, _, .begins next, rfl, rfl⟩
              | false => exact ⟨_, _, .leaves next, rfl, rfl⟩

/-- Whatever is answered, the script keeps to the course of an instruction. -/
theorem exists_run {moment : Moment} {log : List Answered} {rest : Script (Except Fault Unit)}
    (reaches : (moment.script accumulator).Reaches log rest) :
    ∃ course last, Run accumulator moment course last ∧ course.map Occurrence.answered = log ∧
      last.script accumulator = rest := by
  generalize same : moment.script accumulator = script at reaches
  induction reaches generalizing moment with
  | here => exact ⟨[], moment, .here, rfl, same⟩
  | @ask request resume answer log rest further ih =>
      rcases exists_step same answer with ⟨occurrence, next, step, answered, onward⟩
      rcases ih onward with ⟨course, last, run, answers, ends⟩
      exact ⟨occurrence :: course, last, .step step run,
        by rw [List.map_cons, answered, answers], ends⟩

end Moment

end NodeAssembly
