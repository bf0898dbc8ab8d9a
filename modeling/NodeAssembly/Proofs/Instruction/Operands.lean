import NodeAssembly.Proofs.Node.Company

/-! Operands are read once. For each instruction it is written down which
registers it reads and in what order, without a look at its script. An execution
then reads these registers for each instruction that it begins, and no other. -/

namespace NodeAssembly

/-- The registers that an instruction reads itself: those that are operands,
from left to right, and the accumulator if it is replaced. The accumulator comes
before the operand of an operator and after a position or a digit. -/
def Instruction.reads (accumulator : RegisterRef) : Instruction → List RegisterRef
  | .noOperation | .stop | .jump _ | .observe _ => []
  | .move source _ => source.registers
  | .swap left right => [left, right]
  | .sleep duration => duration.registers
  | .generate _ on off => on.registers ++ off.registers
  | .add operand | .subtract operand | .multiply operand | .divide operand =>
    accumulator :: operand.registers
  | .not => [accumulator]
  | .digit position => position.registers ++ [accumulator]
  | .setDigit position value => position.registers ++ (value.registers ++ [accumulator])
  | .cast kind => accumulator :: kind.registers
  | .increment register | .decrement register => [register]
  | .test _ left right _ _ => left.registers ++ right.registers

def Answered.read? (answered : Answered) : Option RegisterRef :=
  match answered.request with
  | .read register => some register
  | _ => none

theorem Answered.reads_cons (answered : Answered) (log : List Answered) :
    (answered :: log).filterMap Answered.read? =
      answered.read?.toList ++ log.filterMap Answered.read? := by
  rw [List.filterMap_cons]
  cases answered.read? <;> rfl

/-! ## Scripts that read some registers -/

/-- A request in the course of reading some registers, with those that are left
to be read. No reference is handed on, and the machine is not asked. -/
def Request.Consults (registers rest : List RegisterRef) : Request → Prop
  | .read register => registers = register :: rest
  | .write _ value => value.isFlat ∧ registers = rest
  | .running => False
  | _ => registers = rest

theorem Request.Consults.flat {request : Request} {registers rest : List RegisterRef}
    (consults : request.Consults registers rest) : request.Flat := by
  cases request with
  | write register value => exact consults.1
  | _ => trivial

theorem Request.Consults.reads {request : Request} {registers rest : List RegisterRef}
    (consults : request.Consults registers rest) (answer : request.Answer) :
    (Answered.read? ⟨request, answer⟩).toList ++ rest = registers := by
  cases request with
  | write register value => exact consults.2.symm
  | running => cases consults
  | _ => exact consults.symm

/-- The script reads the registers one after the other and nothing else, and
ends as said, as long as no register is read as a reference. If it fails, some
of them may be left. -/
def Script.Consults {α : Type} (ends : α → Prop) :
    List RegisterRef → Script (Except Fault α) → Prop
  | registers, .done (.ok result) => registers = [] ∧ ends result
  | _, .done (.error _) => True
  | registers, .ask request resume =>
    ∃ rest, request.Consults registers rest ∧
      ∀ answer, request.Yields answer → (resume answer).Consults ends rest

theorem Request.Consults.append {request : Request} {registers rest : List RegisterRef}
    (consults : request.Consults registers rest) (more : List RegisterRef) :
    request.Consults (registers ++ more) (rest ++ more) := by
  cases request with
  | read register => exact congrArg (· ++ more) consults
  | write register value => exact ⟨consults.1, congrArg (· ++ more) consults.2⟩
  | running => cases consults
  | _ => exact congrArg (· ++ more) consults

/-- After a script that has not failed, more registers may be read. -/
theorem Script.Consults.bindCont {α β : Type} {between : α → Prop} {ends : β → Prop}
    {first second : List RegisterRef} {script : Script (Except Fault α)} {next : α → Action β}
    (consults : script.Consults between first)
    (after : ∀ result, between result → (next result).run.Consults ends second) :
    (script.bind (ExceptT.bindCont next)).Consults ends (first ++ second) := by
  induction script generalizing first with
  | done result =>
      cases result with
      | ok result =>
          rw [consults.1]
          exact after result consults.2
      | error fault => trivial
  | ask request resume ih =>
      rcases consults with ⟨rest, asked, further⟩
      exact ⟨rest ++ second, asked.append second, fun answer yields =>
        ih answer (further answer yields)⟩

namespace Action

variable {α β : Type} {first second : List RegisterRef}

def Consults (registers : List RegisterRef) (ends : α → Prop) (action : Action α) : Prop :=
  Script.Consults ends registers action.run

theorem consults_pure {ends : α → Prop} {result : α} (holds : ends result) :
    Consults [] ends (pure result) :=
  ⟨rfl, holds⟩

theorem Consults.bind {between : α → Prop} {ends : β → Prop} {action : Action α}
    {next : α → Action β} (consults : action.Consults first between)
    (after : ∀ result, between result → (next result).Consults second ends) :
    Consults (first ++ second) ends (action >>= next) :=
  Script.Consults.bindCont consults after

theorem consults_read (register : RegisterRef) :
    (read register).Consults [register] fun value => value.isFlat := by
  refine ⟨[], rfl, fun answer yields => ?_⟩
  cases answer with
  | ok value => exact ⟨rfl, yields⟩
  | error fault => trivial

/-- A request for something else than a value reads no register. -/
theorem consults_request {request : Request}
    {resume : request.Answer → Script (Except Fault Unit)} (asked : request.Consults [] [])
    (resumes : ∀ answer, ∃ outcome, resume answer = .done outcome) :
    Script.Consults (fun _ => True) [] (.ask request resume) := by
  refine ⟨[], asked, fun answer _ => ?_⟩
  rcases resumes answer with ⟨outcome, done⟩
  rw [done]
  cases outcome with
  | ok result => exact ⟨rfl, trivial⟩
  | error fault => trivial

theorem consults_write (register : RegisterRef) {value : Value} (flat : value.isFlat) :
    (write register value).Consults [] fun _ => True :=
  consults_request ⟨flat, rfl⟩ fun answer => ⟨answer, rfl⟩

theorem consults_observe (register : RegisterRef) :
    (observe register).Consults [] fun _ => True :=
  consults_request rfl fun answer => ⟨answer, rfl⟩

theorem consults_jump (label : String) : (jump label).Consults [] fun _ => True :=
  consults_request rfl fun answer => ⟨answer, rfl⟩

theorem consults_stop : stop.Consults [] fun _ => True :=
  consults_request rfl fun _ => ⟨_, rfl⟩

theorem consults_sleep (ticks : Int32) : (sleep ticks).Consults [] fun _ => True :=
  consults_request rfl fun _ => ⟨_, rfl⟩

theorem consults_resolve (value : Value) :
    (resolve value).Consults value.registers fun resolved => resolved.isFlat := by
  cases value with
  | ref register => exact consults_read register
  | _ => exact consults_pure rfl

/-- A value that was read once is not read again when it is written. -/
theorem consults_put (register : RegisterRef) {value : Value} (flat : value.isFlat) :
    (put register value).Consults [] fun _ => True := by
  rw [put, resolve_of_isFlat flat]
  exact consults_write register flat

theorem consults_combine {operator : Value → Value → Except Fault Value}
    (member : operator ∈ Value.operators) (left right : Value) :
    (combine operator left right).Consults (left.registers ++ right.registers)
      fun result => result.isFlat := by
  apply (consults_resolve left).bind
  intro first firstFlat
  rw [← List.append_nil right.registers]
  apply (consults_resolve right).bind
  intro second _
  have computed := Value.computes_operator member second firstFlat
  generalize operator first second = outcome at computed
  cases outcome with
  | ok result => exact ⟨rfl, computed⟩
  | error fault => trivial

theorem consults_order (left right : Value) :
    (order left right).Consults (left.registers ++ right.registers) fun _ => True := by
  apply (consults_resolve left).bind
  intro first _
  rw [← List.append_nil right.registers]
  apply (consults_resolve right).bind
  intro second _
  exact consults_pure trivial

end Action

/-! ## Instructions -/

section Execution

variable {accumulator : RegisterRef}

theorem registers_of_isFlat {value : Value} (flat : value.isFlat) : value.registers = [] := by
  cases value with
  | ref register => cases flat
  | _ => rfl

theorem consults_accumulate {operands : List RegisterRef} {operator : Value → Action Value}
    (operates : ∀ value, value.isFlat →
      (operator value).Consults operands fun result => result.isFlat) :
    (accumulate accumulator operator).Consults (accumulator :: operands) fun _ => True := by
  apply (Action.consults_read accumulator).bind
  intro value flat
  rw [← List.append_nil operands]
  apply (operates value flat).bind
  intro result resultFlat
  exact Action.consults_put accumulator resultFlat

theorem consults_operation {operator : Value → Value → Except Fault Value}
    (member : operator ∈ Value.operators) (operand : Value) :
    (accumulate accumulator fun value => Action.combine operator value operand).Consults
      (accumulator :: operand.registers) fun _ => True := by
  apply consults_accumulate
  intro value flat
  have consults := Action.consults_combine member value operand
  rw [registers_of_isFlat flat, List.nil_append] at consults
  exact consults

/-- An operator on the accumulator alone. -/
theorem consults_unary {operator : Value → Value}
    (yields : ∀ value, (operator value).isFlat ∨ operator value = value) :
    (accumulate accumulator fun value => do
      return operator (← Action.resolve value)).Consults [accumulator] fun _ => True := by
  apply consults_accumulate
  intro value flat
  rw [Action.resolve_of_isFlat flat, pure_bind]
  apply Action.consults_pure
  rcases yields value with computed | same
  · exact computed
  · rw [same]
    exact flat

theorem consults_stepRegister (register : RegisterRef) (amount : Int32) :
    (stepRegister accumulator register amount).Consults [register] fun _ => True := by
  apply (Action.consults_read register).bind
  intro value flat
  have member : Value.add ∈ Value.operators := by simp [Value.operators]
  have combined := Action.consults_combine member value (.int amount)
  rw [registers_of_isFlat flat] at combined
  apply combined.bind
  intro result resultFlat
  apply (Action.consults_put accumulator resultFlat).bind
  intro _ _
  exact Action.consults_put register resultFlat

/-- The instructions without branches. -/
theorem Instruction.execute_consults (instruction : Instruction)
    (branchless : ∀ kind left right positive negative,
      instruction ≠ .test kind left right positive negative) :
    (instruction.execute accumulator).Consults (instruction.reads accumulator) fun _ => True := by
  cases instruction with
  | noOperation => exact Action.consults_pure trivial
  | stop => exact Action.consults_stop
  | move source target =>
      rw [reads, ← List.append_nil source.registers]
      apply (Action.consults_resolve source).bind
      intro value flat
      exact Action.consults_put target flat
  | swap left right =>
      apply (Action.consults_read left).bind
      intro first firstFlat
      apply (Action.consults_read right).bind
      intro second secondFlat
      apply (Action.consults_put left secondFlat).bind
      intro _ _
      exact Action.consults_put right firstFlat
  | jump label => exact Action.consults_jump label
  | sleep duration =>
      rw [reads, ← List.append_nil duration.registers]
      apply (Action.consults_resolve duration).bind
      intro ticks _
      exact Action.consults_sleep _
  | observe register => exact Action.consults_observe register
  | generate register on off =>
      have high : (Value.int 100).isFlat := rfl
      have low : (Value.int 0).isFlat := rfl
      apply (Action.consults_resolve on).bind
      intro onTicks _
      rw [← List.append_nil off.registers]
      apply (Action.consults_resolve off).bind
      intro offTicks _
      apply (Action.consults_put register high).bind
      intro _ _
      apply (Action.consults_sleep _).bind
      intro _ _
      apply (Action.consults_put register low).bind
      intro _ _
      exact Action.consults_sleep _
  | add operand => exact consults_operation (by simp [Value.operators]) operand
  | subtract operand => exact consults_operation (by simp [Value.operators]) operand
  | multiply operand => exact consults_operation (by simp [Value.operators]) operand
  | divide operand => exact consults_operation (by simp [Value.operators]) operand
  | not => exact consults_unary fun value => value.isFlat_not_or_eq
  | digit position =>
      apply (Action.consults_resolve position).bind
      intro index _
      exact consults_unary fun value => value.isFlat_digit_or_eq index.toInt
  | setDigit position replacement =>
      apply (Action.consults_resolve position).bind
      intro index _
      apply (Action.consults_resolve replacement).bind
      intro digit _
      exact consults_unary fun value => value.isFlat_setDigit_or_eq index.toInt digit
  | cast kind => exact consults_operation (by simp [Value.operators]) kind
  | increment register => exact consults_stepRegister register 1
  | decrement register => exact consults_stepRegister register (-1)
  | test kind left right positive negative =>
      exact absurd rfl (branchless kind left right positive negative)

theorem Instruction.own_consults (accumulator : RegisterRef) (instruction : Instruction) :
    (instruction.own accumulator).Consults (instruction.reads accumulator) fun _ => True := by
  rw [← List.append_nil (instruction.reads accumulator)]
  cases instruction with
  | test kind left right positive negative =>
      apply (Action.consults_order left right).bind
      intro ordering _
      cases kind.branch? ordering with
      | none => exact Action.consults_pure trivial
      | some chosen => cases chosen <;> exact Action.consults_pure trivial
  | _ =>
      apply (execute_consults _ (by simp)).bind
      intro _ _
      exact Action.consults_pure trivial

end Execution

/-! ## Executions -/

/-- All registers were read that were to be read, or the first of them if there
was a fault. -/
structure Accounts (outcome : Except Fault Unit) (reads registers : List RegisterRef) :
    Prop where
  all : outcome = .ok () → reads = registers
  first : reads <+: registers

theorem Accounts.append {outcome : Except Fault Unit} {reads registers : List RegisterRef}
    (accounts : Accounts outcome reads registers) (earlier : List RegisterRef) :
    Accounts outcome (earlier ++ reads) (earlier ++ registers) where
  all succeeded := congrArg (earlier ++ ·) (accounts.all succeeded)
  first := (List.prefix_append_right_inj earlier).mpr accounts.first

namespace Scene

variable {others : Company} {accumulator : RegisterRef} {scene lastScene : Scene}

/-- From a moment on, the registers are read that are left to the instruction in
progress, and those of all instructions that begin. -/
theorem reads_of_run {moment last : Moment} {course : List Occurrence}
    (keeps : others.Clean) (run : Moment.Run accumulator moment course last)
    (gives : (host others).Gives scene (course.map Occurrence.answered) lastScene)
    (clean : scene.Clean) {registers : List RegisterRef}
    (consults : moment.own.Consults (fun _ => True) registers) {outcome : Except Fault Unit}
    (ends : last.script accumulator = .done outcome) :
    Accounts outcome ((course.map Occurrence.answered).filterMap Answered.read?)
      (registers ++ (course.filterMap Occurrence.began?).flatMap (·.reads accumulator)) := by
  have harmless : Request.running.Flat := trivial
  induction run generalizing scene registers with
  | here =>
      refine ⟨fun succeeded => ?_, List.nil_prefix⟩
      rcases Moment.own_of_script_done ends with ⟨block, done, _⟩ | ⟨fault, _, failed⟩
      · rw [done] at consults
        rw [consults.1]
        rfl
      · rw [failed] at succeeded
        cases succeeded
  | @step moment between last occurrence course first further ih =>
      rcases Host.gives_cons.mp gives with ⟨after, answers, given⟩
      cases first with
      | @asks instruction request resume waiting answer =>
          rcases consults with ⟨rest, asked, onward⟩
          rcases Answers.clean keeps asked.flat answers clean with ⟨cleanAfter, yields⟩
          have accounts := ih given cleanAfter (onward answer yields) ends
          rw [← asked.reads answer, List.append_assoc, List.map_cons, Answered.reads_cons]
          exact accounts.append (Answered.read? ⟨request, answer⟩).toList
      | begins next =>
          have cleanAfter := (Answers.clean keeps harmless answers clean).1
          rw [consults.1]
          exact ih given cleanAfter (Instruction.own_consults accumulator _) ends
      | leaves next =>
          have cleanAfter := (Answers.clean keeps harmless answers clean).1
          rw [consults.1]
          exact ih given cleanAfter ⟨rfl, trivial⟩ ends

/-- Operands are read once. An execution that succeeds reads, for each
instruction that it begins, the registers among its operands and the accumulator
if it is replaced, each once and in order, and no register besides; an execution
that fails has read some of the first of these. The registers hold no
references, and others may meanwhile do as they like with the node and the
board as long as they bring in none. -/
theorem operands_read_once (keeps : others.Clean) (accumulator : RegisterRef)
    (instruction : Instruction) (clean : scene.Clean) {log : List Answered}
    {outcome : Except Fault Unit}
    (ends : (instruction.execute accumulator).run.Reaches log (.done outcome))
    (gives : (host others).Gives scene log lastScene) :
    ∃ course last, Moment.Run accumulator (.start accumulator instruction) course last ∧
      course.map Occurrence.answered = log ∧ last.script accumulator = .done outcome ∧
      Accounts outcome (log.filterMap Answered.read?)
        ((instruction :: course.filterMap Occurrence.began?).flatMap (·.reads accumulator)) := by
  rw [← Moment.script_start] at ends
  rcases Moment.exists_run ends with ⟨course, last, run, rfl, done⟩
  exact ⟨course, last, run, rfl, done,
    reads_of_run keeps run gives clean (instruction.own_consults accumulator) done⟩

/-- A test takes its operand from a bus, which is empty afterwards. The branch
that it chooses doubles the accumulator. -/
theorem operands_read_once_bus :
    let accumulator : RegisterRef := ⟨"acc", 0⟩
    let bus : RegisterRef := ⟨"x0", 1⟩
    let double := Instruction.add (.ref accumulator)
    let instruction := Instruction.test .equal (.ref bus) (.int 5) (.ofList [double]) .nil
    let program : Program := ⟨#[], [], ⟨[], accumulator, accumulator⟩⟩
    let scene (value : Value) (slot : Bus.Slot) : Scene :=
      ⟨.ofNode ⟨program, #[.plain value, .pin .xbus 0], #[], true, none⟩,
        ⟨#[.xbus 0 slot], .ofInput [], [], .ofEntropy 0⟩⟩
    let log : List Answered :=
      [⟨.read bus, .ok (.int 5)⟩, ⟨.running, true⟩, ⟨.read accumulator, .ok (.int 1)⟩,
        ⟨.read accumulator, .ok (.int 1)⟩, ⟨.write accumulator (.int 2), .ok ()⟩]
    (instruction.execute accumulator).run.Reaches log (.done (.ok ())) ∧
      (host solitude).Gives (scene (.int 1) ⟨some (.int 5), 1, 0⟩) log
        (scene (.int 2) ⟨none, 1, 1⟩) ∧
      log.filterMap Answered.read? = [bus, accumulator, accumulator] ∧
      ∃ begun, log.filterMap Answered.read? =
        (instruction :: begun).flatMap (·.reads accumulator) := by
  intro accumulator bus double instruction program scene log
  have keeps : solitude.Clean := fun _ _ act => act.elim
  have clean : Clean (scene (.int 1) ⟨some (.int 5), 1, 0⟩) := by
    refine ⟨fun register => ?_, fun index pin slot value found waiting => ?_, nofun⟩
    · rcases register with ⟨name, _ | _ | cell⟩ <;> trivial
    · rcases index with _ | index
      · cases found
        cases waiting
        rfl
      · cases found
  have ends : (instruction.execute accumulator).run.Reaches log (.done (.ok ())) :=
    .ask (.ask (.ask (.ask (.ask .here))))
  have receives : host solitude (.read bus) (scene (.int 1) ⟨some (.int 5), 1, 0⟩)
      (.ok (.int 5)) (scene (.int 1) ⟨none, 1, 1⟩) := .moved rfl (.answered rfl)
  have reads : host solitude (.read accumulator) (scene (.int 1) ⟨none, 1, 1⟩)
      (.ok (.int 1)) (scene (.int 1) ⟨none, 1, 1⟩) := .answered rfl
  have writes : host solitude (.write accumulator (.int 2))
      (scene (.int 1) ⟨none, 1, 1⟩) (.ok ()) (scene (.int 2) ⟨none, 1, 1⟩) := .answered rfl
  have runs : host solitude .running (scene (.int 1) ⟨none, 1, 1⟩) true
      (scene (.int 1) ⟨none, 1, 1⟩) := .answered rfl
  have gives : (host solitude).Gives (scene (.int 1) ⟨some (.int 5), 1, 0⟩) log
      (scene (.int 2) ⟨none, 1, 1⟩) :=
    .next receives (.next runs (.next reads (.next reads (.next writes .none))))
  rcases operands_read_once keeps accumulator instruction clean ends gives with
    ⟨course, moment, _, _, _, accounts⟩
  exact ⟨ends, gives, rfl, _, accounts.all rfl⟩

end Scene

end NodeAssembly
