import NodeAssembly.Proofs.Node.Company
import NodeAssembly.Proofs.Node.Resemblance
import NodeAssembly.Proofs.Register.Kinds

/-! A run among neighbours. Neighbours change the board, and leave the registers
of the run alone. So the registers keep their kinds, and a plain register is
accessed as if nobody were there: what the neighbours do in the meantime may as
well be done later. -/

namespace NodeAssembly

/-! ## Registers that are accessed -/

/-- The value that is written. -/
def Request.written? : Request → Option Value
  | .write _ value => some value
  | _ => none

namespace Execution

open RegisterFile

variable {execution after : Execution} {board boardAfter : Board} {request : Request}

theorem Proceeds.accessed {α : Type} {start : Site → Access (Except Fault α)}
    {received : Option Value → α} {response : Response (Except Fault α)} {written : Option Value}
    (proceeds : Proceeds execution board start received response)
    (starts : ∀ answer site, start (execution.node.site board) = .done answer site →
      Accessed written execution.node.file site.file) :
    (∀ answer after boardAfter, response = .answered answer after boardAfter →
      Accessed written execution.node.file after.node.file) ∧
    ∀ after boardAfter, response = .moved after boardAfter →
      Accessed written execution.node.file after.node.file := by
  cases proceeds
  all_goals
    refine ⟨fun answer after boardAfter equal => ?_, fun after boardAfter equal => ?_⟩
    all_goals cases equal
  next accessed => exact starts _ _ accessed
  all_goals exact .refl _ _

theorem accessed_of_respond (arranged : execution.node.file.Arranged) (request : Request) :
    (∀ answer after boardAfter, execution.respond board request =
      .answered answer after boardAfter →
        Accessed request.written? execution.node.file after.node.file) ∧
    ∀ after boardAfter, execution.respond board request = .moved after boardAfter →
      Accessed request.written? execution.node.file after.node.file := by
  cases request with
  | read register =>
      exact (access_proceeds execution board (·.read register) _).accessed
        fun _ _ => Site.accessed_of_read arranged
  | write register value =>
      exact (access_proceeds execution board (·.write register value) _).accessed
        fun _ _ => Site.accessed_of_write arranged
  | observe register =>
      refine (access_proceeds execution board (·.observe register) _).accessed ?_
      intro answer site accessed
      rw [(Site.observe_done accessed).2]
      exact .refl _ _
  | jump label =>
      refine ⟨fun answer after boardAfter responds => ?_, fun after boardAfter moved => ?_⟩
      · simp only [respond, jump] at responds
        split at responds
        all_goals
          cases responds
          exact .refl _ _
      · cases moved
  | sleep ticks =>
      refine ⟨fun answer after boardAfter responds => ?_, fun after boardAfter moved => ?_⟩
      · rcases withTimer_of_sleep_answered responds with ⟨timer, rfl, rfl⟩
        exact .refl _ _
      · rcases withTimer_of_sleep_moved moved with ⟨timer, rfl, rfl⟩
        exact .refl _ _
  | _ =>
      refine ⟨fun answer after boardAfter responds => ?_, fun after boardAfter moved => ?_⟩
      · cases responds
        exact .refl _ _
      · cases moved

/-- Nothing is under way when a register has been read. -/
theorem call_of_answered_read {register : RegisterRef} {answer : Except Fault Value}
    (responds : execution.respond board (.read register) = .answered answer after boardAfter) :
    after.call = none := by
  have proceeds := access_proceeds execution board (·.read register) (·.getD .null)
  rw [← respond_read, responds] at proceeds
  cases proceeds with
  | done free => exact free
  | finishes => rfl

end Execution

/-! ## Actions that ask for something -/

namespace Action

variable {α β : Type} {action : Action α} {next : α → Action β}

/-- The action does not succeed without asking for something. -/
def Asks (action : Action α) : Prop :=
  ∀ result, action.run ≠ .done (.ok result)

theorem asks_read (register : RegisterRef) : (read register).Asks :=
  nofun

theorem asks_write (register : RegisterRef) (value : Value) : (write register value).Asks :=
  nofun

theorem Asks.bind (asks : action.Asks) : (action >>= next).Asks := by
  intro result finished
  change Script.bind action (ExceptT.bindCont next) = .done (.ok result) at finished
  change ∀ result, action ≠ Script.done (.ok result) at asks
  cases action with
  | ask request resume => cases finished
  | done outcome =>
      cases outcome with
      | ok result => exact asks result rfl
      | error fault => cases finished

theorem asks_bind (asks : ∀ result, (next result).Asks) : (action >>= next).Asks := by
  intro result finished
  change Script.bind action (ExceptT.bindCont next) = .done (.ok result) at finished
  cases action with
  | ask request resume => cases finished
  | done outcome =>
      cases outcome with
      | ok between => exact asks between result finished
      | error fault => cases finished

theorem asks_put (register : RegisterRef) (value : Value) : (put register value).Asks :=
  asks_bind fun resolved => asks_write register resolved

end Action

/-! ## Neighbours -/

namespace Scene

open RegisterFile

def file (scene : Scene) : RegisterFile :=
  scene.execution.node.file

/-- Neighbours change the board and nothing else, whatever the run is doing. -/
def beside (neighbours : Board → Board → Prop) : Company :=
  fun before after => after.execution = before.execution ∧ neighbours before.board after.board

variable {neighbours : Board → Board → Prop} {others : Company} {scene last : Scene}
  {request : Request} {answer : request.Answer}

theorem Answers.accessed (arranged : scene.file.Arranged)
    (answers : Answers (beside neighbours) request scene answer last) :
    Accessed request.written? scene.file last.file := by
  induction answers with
  | answered responds => exact (Execution.accessed_of_respond arranged request).1 _ _ _ responds
  | moved responds further ih =>
      have moved := (Execution.accessed_of_respond arranged request).2 _ _ responds
      exact moved.trans (ih (moved.arranged arranged))
  | expired calling faulted => exact .refl _ _
  | @interrupted scene between last answer act further ih =>
      have same : between.file = scene.file := congrArg (·.node.file) act.1
      rw [same] at ih
      exact ih arranged

/-- As long as requests are answered, registers keep their kinds. -/
theorem accessed_of_gives {log : List Answered} (arranged : scene.file.Arranged)
    (gives : (host (beside neighbours)).Gives scene log last) :
    last.file.Arranged ∧
      ∀ register, (last.file.state register).kind = (scene.file.state register).kind := by
  induction gives with
  | none => exact ⟨arranged, fun _ => rfl⟩
  | next answers further ih =>
      have accessed := Answers.accessed arranged answers
      rcases ih (accessed.arranged arranged) with ⟨lastArranged, kinds⟩
      exact ⟨lastArranged, fun register => (kinds register).trans (accessed.kinds register)⟩

theorem Answers.idle {register : RegisterRef} {answer : (Request.read register).Answer}
    (answers : Answers others (.read register) scene answer last) :
    last.execution.call = none := by
  induction answers with
  | answered responds => exact Execution.call_of_answered_read responds
  | moved responds further ih => exact ih
  | expired calling faulted => rfl
  | interrupted act further ih => exact ih

/-! ## Actions that succeed -/

/-- A script comes to its end without a fault. -/
def Performs (others : Company) (script : Script (Except Fault Unit)) (scene last : Scene) : Prop :=
  ∃ log, script.Reaches log (.done (.ok ())) ∧ (host others).Gives scene log last

/-- A script first reads a register, which yields the value, and comes to its end
without a fault. -/
def PerformsOn (others : Company) (script : Script (Except Fault Unit)) (register : RegisterRef)
    (value : Value) (scene last : Scene) : Prop :=
  ∃ log, script.Reaches (⟨.read register, .ok value⟩ :: log) (.done (.ok ())) ∧
    (host others).Gives scene (⟨.read register, .ok value⟩ :: log) last

theorem performs_ask {resume : request.Answer → Script (Except Fault Unit)} :
    Performs others (.ask request resume) scene last ↔
      ∃ answer between, Answers others request scene answer between ∧
        Performs others (resume answer) between last := by
  constructor
  · rintro ⟨log, reaches, gives⟩
    cases reaches with
    | ask further =>
        rcases Host.gives_cons.mp gives with ⟨between, answers, given⟩
        exact ⟨_, between, answers, _, further, given⟩
  · rintro ⟨answer, between, answers, log, further, given⟩
    exact ⟨_, .ask further, .next answers given⟩

theorem performs_error {fault : Fault} : ¬Performs others (.done (.error fault)) scene last := by
  rintro ⟨log, reaches, _⟩
  cases reaches

/-- What neighbours do before a script may as well be done during its first
request. -/
theorem Performs.after {script : Script (Except Fault Unit)} {between : Scene}
    (unfinished : script ≠ .done (.ok ())) (act : beside neighbours scene between)
    (performs : Performs (beside neighbours) script between last) :
    Performs (beside neighbours) script scene last := by
  cases script with
  | done outcome =>
      cases outcome with
      | ok => exact absurd rfl unfinished
      | error fault => exact absurd performs performs_error
  | ask request resume =>
      rcases performs_ask.mp performs with ⟨answer, next, answers, further⟩
      exact performs_ask.mpr ⟨answer, next, .interrupted act answers, further⟩

/-- A request that is answered at once, wherever the neighbours have got to. -/
theorem performs_prompt {resume : request.Answer → Script (Except Fault Unit)}
    {execution : Execution} (idle : scene.execution.call = none)
    (prompt : ∀ board, scene.execution.respond board request = .answered answer execution board)
    (unfinished : resume answer ≠ .done (.ok ())) :
    Performs (beside neighbours) (.ask request resume) scene last ↔
      Performs (beside neighbours) (resume answer) ⟨execution, scene.board⟩ last := by
  rw [performs_ask]
  constructor
  · rintro ⟨reply, between, answers, further⟩
    induction answers with
    | answered responds =>
        cases (prompt _).symm.trans responds
        exact further
    | moved responds => cases (prompt _).symm.trans responds
    | expired calling => cases idle.symm.trans calling
    | @interrupted scene next between reply act answers ih =>
        -- The answer does not depend on the board, so the act can come after it.
        have later : Performs (beside neighbours) (resume answer) ⟨execution, next.board⟩ last := by
          apply ih
          · rw [act.1]
            exact idle
          · rw [act.1]
            exact prompt
          · exact further
        have meanwhile : beside neighbours ⟨execution, scene.board⟩ ⟨execution, next.board⟩ :=
          ⟨rfl, act.2⟩
        exact later.after unfinished meanwhile
  · intro further
    exact ⟨answer, _, .answered (prompt scene.board), further⟩

/-! ## The accumulator -/

/-- The scene with a value in a plain register. -/
def hold (scene : Scene) (register : RegisterRef) (value : Value) : Scene :=
  ⟨scene.execution.withFile (scene.file.update register (.plain value)), scene.board⟩

variable {register : RegisterRef} {value old : Value}

theorem hold_hold (scene : Scene) (register : RegisterRef) (first second : Value) :
    (scene.hold register first).hold register second = scene.hold register second := by
  have same : (scene.file.update register (.plain first)).update register (.plain second) =
      scene.file.update register (.plain second) := by
    simp [RegisterFile.update]
  unfold hold
  exact congrArg (fun file => (⟨scene.execution.withFile file, scene.board⟩ : Scene)) same

theorem state_hold (plain : scene.file.state register = .plain old) (value : Value) :
    (scene.hold register value).file.state register = .plain value := by
  apply state_update_self
  rw [plain]
  nofun

theorem performs_read_plain {rest : Value → Action Unit} (idle : scene.execution.call = none)
    (plain : scene.file.state register = .plain value)
    (asks : (rest value).Asks) :
    Performs (beside neighbours) (Action.read register >>= rest).run scene last ↔
      Performs (beside neighbours) (rest value).run scene last := by
  have prompt : ∀ board, scene.execution.respond board (.read register) =
      .answered (.ok value) scene.execution board := by
    intro board
    let start : Site → Access (Except Fault Value) := (·.read register)
    have accessed : start ⟨scene.file, board⟩ = .done (.ok value) ⟨scene.file, board⟩ := by
      simp only [start, Site.read, plain]
    exact Execution.access_done idle accessed _
  let resume : (Request.read register).Answer → Script (Except Fault Unit) := ExceptT.bindCont rest
  have resumed : resume (.ok value) ≠ .done (.ok ()) := asks ()
  exact performs_prompt idle prompt resumed

theorem performs_write_plain {rest : Unit → Action Unit} (idle : scene.execution.call = none)
    (plain : scene.file.state register = .plain old)
    (asks : (rest ()).Asks) :
    Performs (beside neighbours) (Action.write register value >>= rest).run scene last ↔
      Performs (beside neighbours) (rest ()).run (scene.hold register value) last := by
  have prompt : ∀ board, scene.execution.respond board (.write register value) =
      .answered (.ok ()) (scene.hold register value).execution board := by
    intro board
    let start : Site → Access (Except Fault Unit) := (·.write register value)
    have accessed : start ⟨scene.file, board⟩ =
        .done (.ok ()) ⟨scene.file.update register (.plain value), board⟩ := by
      simp only [start, Site.write, plain, Site.update]
    exact Execution.access_done idle accessed _
  let resume : (Request.write register value).Answer → Script (Except Fault Unit) :=
    ExceptT.bindCont rest
  have resumed : resume (.ok ()) ≠ .done (.ok ()) := asks ()
  exact performs_prompt idle prompt resumed

theorem performsOn_read {rest : Value → Action Unit} :
    PerformsOn others (Action.read register >>= rest).run register value scene last ↔
      ∃ between, Answers others (.read register) scene (.ok value) between ∧
        Performs others (rest value).run between last := by
  constructor
  · rintro ⟨log, reaches, gives⟩
    cases reaches with
    | ask further =>
        rcases Host.gives_cons.mp gives with ⟨between, answers, given⟩
        exact ⟨between, answers, log, further, given⟩
  · rintro ⟨between, answers, log, further, given⟩
    exact ⟨log, .ask further, .next answers given⟩

theorem performs_write : Performs others (Action.write register value).run scene last ↔
    Answers others (.write register value) scene (.ok ()) last := by
  constructor
  · rintro ⟨log, reaches, gives⟩
    cases reaches with
    | ask further =>
        rcases further.of_done with ⟨rfl, same⟩
        rcases Host.gives_cons.mp gives with ⟨between, answers, given⟩
        cases given
        cases same
        exact answers
  · intro answers
    exact ⟨_, .ask .here, .next answers .none⟩

theorem performs_compute {outcome : Except Fault Value} {rest : Value → Action Unit} :
    Performs others ((liftM outcome : Action Value) >>= rest).run scene last ↔
      ∃ result, outcome = .ok result ∧ Performs others (rest result).run scene last := by
  constructor
  · intro performs
    cases outcome with
    | ok result => exact ⟨result, rfl, performs⟩
    | error fault => exact absurd performs performs_error
  · rintro ⟨result, rfl, performs⟩
    exact performs

end Scene

end NodeAssembly
