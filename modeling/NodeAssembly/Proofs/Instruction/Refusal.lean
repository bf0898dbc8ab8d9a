import Mathlib.Logic.Relation
import NodeAssembly.Proofs.Instruction.Increment
import NodeAssembly.Proofs.Register.Failure

/-! Writes that fail. Whatever the register is, a write that fails has changed
nothing: not the register, not its cursor, not the channel behind it. Only the
writer of a tape may have accepted a part of the text. An instruction that works on
the accumulator reads all it needs and writes once, as the last thing it does, so
with a fault the accumulator is as it was. -/

namespace NodeAssembly

/-- A value that is no reference is written as it is. -/
theorem Site.putAlone_failed {site after : Site} {register : RegisterRef} {value : Value}
    {fault : Fault} (flat : value.isFlat)
    (failed : site.putAlone register value = (.error fault, after)) :
    site.Unwritten register value.text after := by
  unfold putAlone at failed
  split at failed
  · cases failed
  · rw [Action.put_of_isFlat flat] at failed
    exact writeAlone_failed failed

/-! ## Among neighbours -/

namespace Execution

variable {execution after : Execution} {board boardAfter : Board} {register : RegisterRef}
  {value : Value} {fault : Fault}

theorem respond_write_failed
    (responds : execution.respond board (.write register value) =
      .answered (.error fault) after boardAfter) :
    execution.call = none ∧ after = execution.withFile after.node.file ∧
      (execution.node.site board).Unwritten register value.text ⟨after.node.file, boardAfter⟩ := by
  have proceeds := access_proceeds execution board (·.write register value) fun _ => ()
  rw [← respond_write, responds] at proceeds
  cases proceeds with
  | done free accessed => exact ⟨free, rfl, Site.write_failed accessed⟩

theorem respond_write_moved
    (responds : execution.respond board (.write register value) = .moved after boardAfter) :
    ∃ call, after = execution.withCall call := by
  have proceeds := access_proceeds execution board (·.write register value) fun _ => ()
  rw [← respond_write, responds] at proceeds
  cases proceeds with
  | called => exact ⟨_, rfl⟩
  | proceeds => exact ⟨_, rfl⟩

/-- A write does not wait unless there is a bus behind the register. -/
theorem respond_write_prompt (idle : execution.call = none)
    (unwired : ∀ channel, execution.node.file.wire? register ≠ some (.pin .xbus channel)) :
    execution.respond board (.write register value) ≠ .moved after boardAfter := by
  intro responds
  have proceeds := access_proceeds execution board (·.write register value) fun _ => ()
  rw [← respond_write, responds] at proceeds
  cases proceeds with
  | called free accessed => exact unwired _ (Site.write_call accessed).2
  | proceeds calling => cases idle.symm.trans calling

end Execution

namespace Scene

variable {neighbours : Board → Board → Prop} {scene last : Scene} {register : RegisterRef}
  {value : Value} {fault : Fault} {answer : (Request.write register value).Answer}

/-- What is left of a failed write is left on the board that the neighbours have
made in the meantime. Otherwise the run is where it was. -/
theorem Answers.unwritten (failed : answer = .error fault)
    (answers : Answers (beside neighbours) (.write register value) scene answer last) :
    last.execution = (scene.execution.withCall none).withFile last.file ∧
      ∃ board, Site.Unwritten ⟨scene.file, board⟩ register value.text ⟨last.file, last.board⟩ ∧
        (scene.execution.call = none →
          (∀ channel, scene.file.wire? register ≠ some (.pin .xbus channel)) →
          Relation.ReflTransGen neighbours scene.board board) := by
  induction answers with
  | @answered scene answer execution board responds =>
      subst failed
      rcases Execution.respond_write_failed responds with ⟨idle, same, unwritten⟩
      have free : scene.execution.withCall none = scene.execution := by
        rw [Execution.withCall, ← idle]
      refine ⟨?_, scene.board, unwritten, fun _ _ => .refl⟩
      rw [free]
      exact same
  | @moved scene last answer execution board responds further induction =>
      have still : execution.node.file = scene.file := by
        rcases Execution.respond_write_moved responds with ⟨call, rfl⟩
        rfl
      rcases induction failed with ⟨same, between, unwritten, _⟩
      refine ⟨?_, between, ?_, fun idle unwired => ?_⟩
      · rw [same]
        rcases Execution.respond_write_moved responds with ⟨call, rfl⟩
        rfl
      · rw [← still]
        exact unwritten
      · exact absurd responds (Execution.respond_write_prompt idle unwired)
  | expired calling =>
      exact ⟨rfl, _, .untouched, fun idle _ => by cases idle.symm.trans calling⟩
  | @interrupted scene between last answer act further induction =>
      have still : between.file = scene.file := congrArg (·.node.file) act.1
      rcases induction failed with ⟨same, board, unwritten, reached⟩
      rw [still] at unwritten reached
      rw [act.1] at same reached
      exact ⟨same, board, unwritten, fun idle unwired => .head act.2 (reached idle unwired)⟩

end Scene

/-! ## The accumulator -/

/-- The terms of a script that only reads, whatever it is answered. -/
def Terms.browsing : Terms where
  asks request := ∃ register, request = .read register
  values _ := True
  faults _ := True

theorem Terms.browsing_grants {α : Type} (outcome : Except Fault α) :
    browsing.Grants (fun _ => True) outcome := by
  cases outcome <;> trivial

/-- The script reads registers, and then it ends or writes to a register. -/
inductive Script.WritesLast : Script (Except Fault Unit) → Prop
  | done (outcome : Except Fault Unit) : WritesLast (.done outcome)
  | read {register : RegisterRef} {resume : Except Fault Value → Script (Except Fault Unit)}
      (further : ∀ answer, WritesLast (resume answer)) :
      WritesLast (.ask (.read register) resume)
  | write (register : RegisterRef) (value : Value) :
      WritesLast (.ask (.write register value) .done)

namespace Action

variable {α : Type} {action : Action α} {next : α → Action Unit}

def Reads (action : Action α) : Prop :=
  action.Keeps .browsing fun _ => True

def WritesLast (action : Action Unit) : Prop :=
  action.run.WritesLast

theorem reads_read (register : RegisterRef) : (read register).Reads :=
  keeps_read ⟨register, rfl⟩

theorem reads_resolve (value : Value) : (resolve value).Reads := by
  cases value with
  | ref register => exact reads_read register
  | _ => exact keeps_pure trivial

theorem reads_combine (operator : Value → Value → Except Fault Value) (left right : Value) :
    (combine operator left right).Reads := by
  apply (reads_resolve left).bind
  intro first _
  apply (reads_resolve right).bind
  intro second _
  exact keeps_liftM (Terms.browsing_grants _)

/-- An operator on a resolved value alone. -/
theorem reads_unary (operator : Value → Value) (value : Value) :
    Reads (do return operator (← resolve value)) :=
  (reads_resolve value).bind fun _ _ => keeps_pure trivial

theorem Reads.writesLast (reads : action.Reads) (last : ∀ result, (next result).WritesLast) :
    (action >>= next).WritesLast := by
  change Script.WritesLast (Script.bind action (ExceptT.bindCont next))
  change Script.Keeps .browsing _ action at reads
  induction action with
  | done outcome =>
      cases outcome with
      | ok result => exact last result
      | error fault => exact .done _
  | ask request resume ih =>
      rcases reads with ⟨⟨register, rfl⟩, further⟩
      exact .read fun answer => ih answer (further answer (Terms.browsing_grants answer))

theorem writesLast_put (register : RegisterRef) (value : Value) : (put register value).WritesLast :=
  (reads_resolve value).writesLast fun resolved => .write register resolved

end Action

theorem writesLast_accumulate (accumulator : RegisterRef) {operator : Value → Action Value}
    (reads : ∀ value, (operator value).Reads) :
    (accumulate accumulator operator).WritesLast :=
  (Action.reads_read accumulator).writesLast fun value =>
    (reads value).writesLast fun result => Action.writesLast_put accumulator result

namespace Instruction

open NodeAssembly.Action

/-- The instructions that replace the accumulator by what they make of it. -/
def isOperation : Instruction → Bool
  | .add _ | .subtract _ | .multiply _ | .divide _ => true
  | .not | .digit _ | .setDigit _ _ | .cast _ => true
  | _ => false

theorem writesLast_of_isOperation {instruction : Instruction} (accumulator : RegisterRef)
    (operates : instruction.isOperation) : (instruction.execute accumulator).WritesLast := by
  cases instruction with
  | add operand => exact writesLast_accumulate accumulator fun _ => reads_combine ..
  | subtract operand => exact writesLast_accumulate accumulator fun _ => reads_combine ..
  | multiply operand => exact writesLast_accumulate accumulator fun _ => reads_combine ..
  | divide operand => exact writesLast_accumulate accumulator fun _ => reads_combine ..
  | cast kind => exact writesLast_accumulate accumulator fun _ => reads_combine ..
  | not => exact writesLast_accumulate accumulator fun _ => reads_unary ..
  | digit position =>
      exact (reads_resolve position).writesLast fun _ =>
        writesLast_accumulate accumulator fun _ => reads_unary ..
  | setDigit position replacement =>
      exact (reads_resolve position).writesLast fun _ =>
        (reads_resolve replacement).writesLast fun _ =>
          writesLast_accumulate accumulator fun _ => reads_unary ..
  | _ => cases operates

end Instruction

/-- Reading leaves a plain register as it is. -/
theorem RegisterFile.Accessed.state_eq {before after : RegisterFile} {register : RegisterRef}
    (accessed : Accessed none before after) (plain : (before.state register).kind = .plain) :
    after.state register = before.state register := by
  rcases Register.plain_of_kind ((accessed.kinds register).trans plain) with ⟨value, holds⟩
  rcases accessed.plain register value holds with before | written
  · rw [holds, before]
  · cases written

namespace Scene

variable {neighbours : Board → Board → Prop} {scene last : Scene} {register : RegisterRef}
  {fault : Fault}

/-- The requests before the last one change no plain register, and the last one
has failed. -/
theorem state_of_fault {script : Script (Except Fault Unit)} {log : List Answered}
    (writesLast : script.WritesLast) (arranged : scene.file.Arranged)
    (plain : (scene.file.state register).kind = .plain)
    (reaches : script.Reaches log (.done (.error fault)))
    (gives : (host (beside neighbours)).Gives scene log last) :
    last.file.state register = scene.file.state register := by
  induction writesLast generalizing scene log with
  | done outcome =>
      rcases reaches.of_done with ⟨rfl, _⟩
      cases gives
      rfl
  | read further ih =>
      cases reaches with
      | ask rest =>
          rcases Host.gives_cons.mp gives with ⟨between, answers, given⟩
          have accessed := Answers.accessed arranged answers
          have same := accessed.state_eq plain
          have plainBetween := (accessed.kinds register).trans plain
          have later := ih _ (accessed.arranged arranged) plainBetween rest given
          exact later.trans same
  | write target value =>
      cases reaches with
      | ask rest =>
          rcases rest.of_done with ⟨rfl, failed⟩
          cases failed
          rcases Host.gives_cons.mp gives with ⟨between, answers, given⟩
          cases given
          rcases (Answers.unwritten rfl answers).2 with ⟨board, unwritten, _⟩
          refine unwritten.state_eq fun tape isTape => ?_
          rw [isTape] at plain
          cases plain

end Scene

/-! ## All together -/

section Together

open Scene Bus.Traffic

/-- A write that fails leaves no trace.

With nobody else there, everything is as it was, whatever the register is and
whatever it holds, except that the writer of a tape may have accepted the first
bytes of the text. Whatever is done with the register afterwards, it answers as if
the write had not been tried, if the writer of a tape takes the texts after it as
it would have taken them without it.

Among neighbours, the same is left on a board that they have made in the meantime,
and the run is where it was; if there is no bus behind the register, what has
changed on the board besides is from the neighbours alone.

At a bus, however the callers take turns, nobody touches the slot from the moment
the sender has left its value until it gives up; then the slot with its counts is
as it was before that moment, and whatever others do later comes out as if the
sender had never been there.

An instruction that works on the accumulator and has a fault leaves the
accumulator as it was, whatever the neighbours do. -/
theorem failed_write_leaves_no_trace :
    (∀ (site after : Site) (register : RegisterRef) (value : Value) (fault : Fault),
      value.isFlat → site.putAlone register value = (.error fault, after) →
      site.Unwritten register value.text after ∧
        ∀ later, (after.uses register later).filter (·.1.isWrite) =
            (site.uses register later).filter (·.1.isWrite) →
          after.uses register later = site.uses register later) ∧
    (∀ (neighbours : Board → Board → Prop) (scene last : Scene) (register : RegisterRef)
      (value : Value) (fault : Fault), scene.execution.call = none →
      Answers (beside neighbours) (.write register value) scene (.error fault) last →
      last.execution = scene.execution.withFile last.file ∧
        ∃ board, Site.Unwritten ⟨scene.file, board⟩ register value.text
            ⟨last.file, last.board⟩ ∧
          ((∀ channel, scene.file.wire? register ≠ some (.pin .xbus channel)) →
            Relation.ReflTransGen neighbours scene.board board)) ∧
    (∀ (moves later : List Bus.Move) (move : Bus.Move) (sender : Nat) (value : Value),
      (run moves).callers sender ≠ some ⟨.send value, .expired⟩ →
      (run (moves ++ [move])).callers sender = some ⟨.send value, .expired⟩ →
      (∀ move ∈ later, sender ≠ move.caller) →
      ∃ earlier during, moves = earlier ++ during ∧
        (run earlier).waiting? sender = some (.deposit value) ∧
        (∀ first, first ≠ [] → first <+: during →
          (run (earlier ++ first)).slot = (run earlier).slot.filled value) ∧
        (run (moves ++ [move])).slot = (run earlier).slot ∧
        Alike sender (run (moves ++ move :: later))
          (later.foldl Bus.Traffic.move ((run moves).without sender (run earlier).slot))) ∧
    (∀ (neighbours : Board → Board → Prop) (scene last : Scene) (log : List Answered)
      (instruction : Instruction) (accumulator : RegisterRef) (fault : Fault),
      instruction.isOperation → scene.file.Arranged →
      (scene.file.state accumulator).kind = .plain →
      (instruction.execute accumulator).run.Reaches log (.done (.error fault)) →
      (host (beside neighbours)).Gives scene log last →
      last.file.state accumulator = scene.file.state accumulator) := by
  refine ⟨?alone, ?company, ?bus, ?accumulator⟩
  case alone =>
    intro site after register value fault flat failed
    have unwritten := Site.putAlone_failed flat failed
    exact ⟨unwritten, unwritten.uses_eq⟩
  case company =>
    intro neighbours scene last register value fault idle answers
    rcases Answers.unwritten rfl answers with ⟨same, board, unwritten, reached⟩
    rw [Execution.withCall, ← idle] at same
    exact ⟨same, board, unwritten, reached idle⟩
  case bus =>
    intro moves later move sender value unexpired expired others
    rcases alike_without_of_expired unexpired expired others with
      ⟨earlier, during, split, tenure, slot, alike⟩
    refine ⟨earlier, during, split, ?_, tenure.held, slot, alike⟩
    exact ((run earlier).waiting?_eq_some_iff sender _).mpr ⟨_, tenure.waited⟩
  case accumulator =>
    intro neighbours scene last log instruction accumulator fault operates arranged plain reaches
      gives
    exact state_of_fault (instruction.writesLast_of_isOperation accumulator operates) arranged plain
      reaches gives

/-- A memory without room, a stream that breaks, a console that cannot be flushed, a
bus where two senders meet, and a division by zero. -/
theorem failed_write_leaves_no_trace_full :
    let writers : Writers := fun sink _ =>
      match sink.outlet with
      | .own _ _ => .cut 1 "broken pipe"
      | _ => .unflushed "closed"
    let board : Board := .facing ⟨0, writers, []⟩ []
    let memory : RegisterRef := ⟨"m", 1⟩
    let stream : RegisterRef := ⟨"s", 2⟩
    let console : RegisterRef := ⟨"stdout", 3⟩
    let site : Site := ⟨#[.offset 1048576, .growing ⟨"m_i", 0⟩ #[.int 1],
      .tape ⟨.own "ab" none, ["b", "a"]⟩, .tape ⟨.output, ["d"]⟩], board⟩
    let accumulator : RegisterRef := ⟨"acc", 0⟩
    let program : Program := ⟨#[], [], ⟨[accumulator, stream], accumulator, accumulator⟩⟩
    let scene : Scene := ⟨.ofNode (.ofProgram program
      #[.plain (.int 7), .null, .tape ⟨.own "ab" none, ["b", "a"]⟩] none), board⟩
    let moves : List Bus.Move :=
      [.enter 1 (.send (.int 5)), .look 1, .enter 2 (.send (.int 6)), .look 2]
    let later : List Bus.Move := [.look 2, .enter 3 .receive, .look 3]
    ((site.putAlone memory (.int 7)).1 = .error (.outOfMemory 1048577 1048576) ∧
      site.Unwritten memory "7" (site.putAlone memory (.int 7)).2) ∧
    ((site.putAlone stream (.str "cd")).1 = .error (.stream "broken pipe") ∧
      (site.putAlone stream (.str "cd")).2.file.state stream =
        .tape ⟨⟨.own "abc".toUTF8 none, ["cd"]⟩, ["b", "a"]⟩ ∧
      (site.putAlone stream (.str "cd")).2.uses stream [.read, .write (.int 1), .read] =
        site.uses stream [.read, .write (.int 1), .read]) ∧
    ((site.putAlone console (.str "ef")).1 = .error (.stream "closed") ∧
      (site.putAlone console (.str "ef")).2.board.console.printed = "ef".toUTF8 ∧
      (site.putAlone console (.str "ef")).2.uses console [.read, .read] =
        site.uses console [.read, .read]) ∧
    (∃ last, Answers (beside fun _ _ => False) (.write stream (.str "cd")) scene
      (.error (.stream "broken pipe")) last ∧
        last.execution = scene.execution.withFile last.file) ∧
    ((run (moves ++ [.timeOut 1])).callers 1 = some ⟨.send (.int 5), .expired⟩ ∧
      (run (moves ++ .timeOut 1 :: later)).callers 3 = some ⟨.receive, .returned (some (.int 6))⟩ ∧
      ∃ earlier during, moves = earlier ++ during ∧
        Alike 1 (run (moves ++ .timeOut 1 :: later))
          (later.foldl Bus.Traffic.move ((run moves).without 1 (run earlier).slot))) ∧
    ∃ log last, ((Instruction.divide (.int 0)).execute accumulator).run.Reaches log
        (.done (.error .divisionByZero)) ∧ (host (beside fun _ _ => False)).Gives scene log last ∧
      last.file.state accumulator = .plain (.int 7) := by
  intro writers board memory stream console site accumulator program scene moves later
  rcases failed_write_leaves_no_trace with ⟨alone, company, bus, operation⟩
  refine ⟨?memory, ?stream, ?console, ?company, ?bus, ?division⟩
  case memory =>
    have refused : (site.putAlone memory (.int 7)).1 =
        .error (.outOfMemory 1048577 1048576) := rfl
    exact ⟨refused, (alone site _ memory (.int 7) _ rfl (Prod.ext refused rfl)).1⟩
  case stream =>
    have refused : (site.putAlone stream (.str "cd")).1 = .error (.stream "broken pipe") := rfl
    have accepted : (site.putAlone stream (.str "cd")).2.file.state stream =
        .tape ⟨⟨.own "abc".toUTF8 none, ["cd"]⟩, ["b", "a"]⟩ := by decide +kernel
    have taken : ((site.putAlone stream (.str "cd")).2.uses stream
        [.read, .write (.int 1), .read]).filter (·.1.isWrite) =
        (site.uses stream [.read, .write (.int 1), .read]).filter (·.1.isWrite) := by
      decide +kernel
    exact ⟨refused, accepted,
      (alone site _ stream (.str "cd") _ rfl (Prod.ext refused rfl)).2 _ taken⟩
  case console =>
    have refused : (site.putAlone console (.str "ef")).1 = .error (.stream "closed") := rfl
    have accepted : (site.putAlone console (.str "ef")).2.board.console.printed = "ef".toUTF8 := by
      decide +kernel
    exact ⟨refused, accepted,
      (alone site _ console (.str "ef") _ rfl (Prod.ext refused rfl)).2 _ rfl⟩
  case company =>
    have refused : Answers (beside fun _ _ => False) (.write stream (.str "cd")) scene
        (.error (.stream "broken pipe")) _ := .answered rfl
    exact ⟨_, refused, (company _ scene _ _ _ _ rfl refused).1⟩
  case bus =>
    have expired : (run (moves ++ [.timeOut 1])).callers 1 = some ⟨.send (.int 5), .expired⟩ := by
      decide
    have unexpired : (run moves).callers 1 ≠ some ⟨.send (.int 5), .expired⟩ := by decide
    have others : ∀ move ∈ later, 1 ≠ move.caller := by decide
    rcases bus moves later (.timeOut 1) 1 (.int 5) unexpired expired others with
      ⟨earlier, during, split, _, _, _, alike⟩
    exact ⟨expired, by decide, earlier, during, split, alike⟩
  case division =>
    have divides : ((Instruction.divide (.int 0)).execute accumulator).run.Reaches
        [⟨.read accumulator, .ok (.int 7)⟩] (.done (.error .divisionByZero)) := .ask .here
    have gives : (host (beside fun _ _ => False)).Gives scene
        [⟨.read accumulator, .ok (.int 7)⟩] scene := .next (.answered rfl) .none
    have arranged : scene.file.Arranged := by
      rintro ⟨name, _ | _ | _ | cell⟩ cursor isMemory <;> cases isMemory
    exact ⟨_, scene, divides, gives,
      operation _ scene scene _ _ _ _ rfl arranged rfl divides gives⟩

end Together

end NodeAssembly
