import NodeAssembly.Proofs.Node.Steps

/-! What a step of a run reaches on the board. It looks at and changes at most
one channel or the input of the console; what it puts out and records is seen
by no run. So a step can be replayed on any other board that has the same at
that one place. -/

namespace NodeAssembly

/-- What runs can have in common. -/
inductive Resource where
  | channel (index : Nat)
  | console
deriving DecidableEq

namespace Board

/-- Both boards have the same at a resource. -/
def Agree (first second : Board) : Resource → Prop
  | .channel index => first.channels[index]? = second.channels[index]?
  | .console => first.console.input = second.console.input

/-- The boards differ at most in what was put out and recorded. -/
structure Alike (first second : Board) : Prop where
  outside : first.outside = second.outside
  agree : ∀ resource, first.Agree second resource

/-- Only one resource may have changed. -/
structure Frame (used : Option Resource) (before after : Board) : Prop where
  outside : before.outside = after.outside
  agree : ∀ resource, used ≠ some resource → before.Agree after resource

variable {first second third : Board} {resource : Resource} {used : Option Resource}

theorem Agree.refl (board : Board) (resource : Resource) : board.Agree board resource := by
  cases resource <;> rfl

theorem Agree.symm (agree : first.Agree second resource) : second.Agree first resource := by
  cases resource <;> exact Eq.symm agree

theorem Agree.trans (left : first.Agree second resource) (right : second.Agree third resource) :
    first.Agree third resource := by
  cases resource <;> exact Eq.trans left right

theorem Alike.refl (board : Board) : board.Alike board :=
  ⟨rfl, Agree.refl board⟩

theorem Alike.symm (alike : first.Alike second) : second.Alike first :=
  ⟨alike.outside.symm, fun resource => (alike.agree resource).symm⟩

theorem Alike.trans (left : first.Alike second) (right : second.Alike third) :
    first.Alike third :=
  ⟨left.outside.trans right.outside,
    fun resource => (left.agree resource).trans (right.agree resource)⟩

theorem Frame.of_alike (alike : first.Alike second) : Frame used first second :=
  ⟨alike.outside, fun resource _ => alike.agree resource⟩

theorem alike_record (board : Board) (logger : Option Logger) (level : LogLevel)
    (message : String) (fields : List (String × String)) :
    board.Alike (board.record logger level message fields) :=
  ⟨rfl, fun resource => by cases resource <;> rfl⟩

/-- The board with another channel in a place. -/
def withChannel (board : Board) (index : Nat) (channel : Channel) : Board :=
  { board with channels := board.channels.setIfInBounds index channel }

theorem frame_withChannel (board : Board) (index : Nat) (channel : Channel) :
    Frame (some (.channel index)) board (board.withChannel index channel) := by
  refine ⟨rfl, fun resource other => ?_⟩
  cases resource with
  | channel place =>
      have different : index ≠ place := fun equal => other (equal ▸ rfl)
      exact (Array.getElem?_setIfInBounds_ne different).symm
  | console => rfl

theorem agree_withChannel {index : Nat} (agree : first.Agree second (.channel index))
    (channel : Channel) :
    (first.withChannel index channel).Agree (second.withChannel index channel)
      (.channel index) := by
  have same : first.channels[index]? = second.channels[index]? := agree
  have inside : index < first.channels.size ↔ index < second.channels.size := by
    rw [← Nat.not_le, ← Nat.not_le, ← Array.getElem?_eq_none_iff, same, Array.getElem?_eq_none_iff]
  simp only [Agree, withChannel, Array.getElem?_setIfInBounds_self, inside]

end Board

/-- What is done on a board depends on the board and changes it only as far as
one resource goes. -/
structure Local {β : Type} (used : Option Resource) (act : Board → Option (β × Board)) : Prop where
  frame : ∀ {board after : Board} {result : β}, act board = some (result, after) →
    Board.Frame used board after
  replay : ∀ {first second after : Board} {result : β}, first.outside = second.outside →
    (∀ resource, used = some resource → first.Agree second resource) →
    act first = some (result, after) → ∃ other, act second = some (result, other) ∧
      ∀ resource, used = some resource → after.Agree other resource

namespace Local

variable {β γ : Type} {used : Option Resource} {act : Board → Option (β × Board)}

theorem congr {other : Board → Option (β × Board)} (equal : ∀ board, other board = act board)
    (isLocal : Local used act) : Local used other := by
  rw [funext equal]
  exact isLocal

theorem of_none : Local used fun _ => (none : Option (β × Board)) :=
  ⟨nofun, nofun⟩

/-- What depends on no resource and leaves all of them alone. -/
theorem of_note (result : Outside → β) (note : Board → Board)
    (alike : ∀ board : Board, board.Alike (note board)) :
    Local used fun board => some (result board.outside, note board) where
  frame := by
    intro board after value done
    cases done
    exact .of_alike (alike board)
  replay := by
    intro first second after value outside agree done
    cases done
    refine ⟨note second, by rw [outside], fun resource use => ?_⟩
    exact ((alike first).agree resource).symm.trans
      ((agree resource use).trans ((alike second).agree resource))

/-- What looks at one channel, and may put another one in its place. -/
theorem of_channel (index : Nat) (look : Option Channel → Option (β × Option Channel)) :
    Local (some (.channel index)) fun board => (look board.channels[index]?).map fun seen =>
      (seen.1, (seen.2.map (board.withChannel index)).getD board) where
  frame := by
    intro board after value done
    rcases Option.map_eq_some_iff.mp done with ⟨⟨result, replacement⟩, _, equal⟩
    cases equal
    cases replacement with
    | none => exact .of_alike (.refl board)
    | some channel => exact Board.frame_withChannel board index channel
  replay := by
    intro first second after value outside agree done
    have same := agree (.channel index) rfl
    rcases Option.map_eq_some_iff.mp done with ⟨⟨result, replacement⟩, looked, equal⟩
    cases equal
    rw [show first.channels[index]? = second.channels[index]? from same] at looked
    refine ⟨_, Option.map_eq_some_iff.mpr ⟨_, looked, rfl⟩, fun resource use => ?_⟩
    cases use
    cases replacement with
    | none => exact same
    | some channel => exact Board.agree_withChannel same channel

/-- What looks at the input of the console, and may take some of it. -/
theorem of_console (look : Console → β × Console)
    (congruent : ∀ {first second : Console}, first.input = second.input →
      (look first).1 = (look second).1 ∧ (look first).2.input = (look second).2.input) :
    Local (some .console) fun board =>
      some ((look board.console).1, { board with console := (look board.console).2 }) where
  frame := by
    intro board after value done
    cases done
    refine ⟨rfl, fun resource other => ?_⟩
    cases resource with
    | channel index => rfl
    | console => exact absurd rfl other
  replay := by
    intro first second after value outside agree done
    cases done
    rcases congruent (agree .console rfl) with ⟨sameResult, sameInput⟩
    refine ⟨{ second with console := (look second.console).2 }, by rw [sameResult], ?_⟩
    intro resource use
    cases use
    exact sameInput

theorem map (isLocal : Local used act) (change : β → γ) :
    Local used fun board => (act board).map fun done => (change done.1, done.2) where
  frame := by
    intro board after value done
    rcases Option.map_eq_some_iff.mp done with ⟨⟨result, next⟩, acted, equal⟩
    cases equal
    exact isLocal.frame acted
  replay := by
    intro first second after value outside agree done
    rcases Option.map_eq_some_iff.mp done with ⟨⟨result, next⟩, acted, equal⟩
    cases equal
    rcases isLocal.replay outside agree acted with ⟨other, again, agreeAfter⟩
    exact ⟨other, Option.map_eq_some_iff.mpr ⟨_, again, rfl⟩, agreeAfter⟩

/-- What leaves the board as it is. -/
theorem of_result (result : β) : Local used fun board => some (result, board) :=
  of_note (fun _ => result) id Board.Alike.refl

end Local

/-! ## Accesses -/

/-- What came of an access apart from the board. -/
abbrev Access.Reply (α : Type) :=
  (α × RegisterFile) ⊕ (Nat × Bus.Call)

def Access.reply {α : Type} (access : Access α) (board : Board) : Access.Reply α × Board :=
  match access with
  | .done answer site => (.inl (answer, site.file), site.board)
  | .call channel begun => (.inr (channel, begun), board)

theorem Access.local_of_done {α : Type} {used : Option Resource} {access : Board → Access α}
    {answer : α} {file : RegisterFile} (done : ∀ board, access board = .done answer ⟨file, board⟩) :
    Local used fun board => some ((access board).reply board) := by
  refine .congr (fun board => ?_) (.of_result (.inl (answer, file)))
  rw [done]
  rfl

/-- What an access to a register reaches at once. An access to a bus only
starts a call. -/
def RegisterFile.reach? (file : RegisterFile) (register : RegisterRef) : Option Resource :=
  match file.wire? register with
  | some (.pin .power channel) => some (.channel channel)
  | some .console => some .console
  | _ => none

namespace Input

variable (input : Input)

/-- Reading from the console depends on the console only by its input. -/
theorem accept_congr {first second : Console} (same : first.input = second.input)
    (bytes : List UInt8) (count : Nat) (closed : Bool) :
    (input.accept first bytes count closed).1 = (input.accept second bytes count closed).1 ∧
      (input.accept first bytes count closed).2.input =
        (input.accept second bytes count closed).2.input := by
  rcases input with ⟨source, waiting, wasClosed⟩
  cases source with
  | console ahead => simp only [accept, InputSource.consume, same, and_self]
  | bytes rest => exact ⟨rfl, same⟩

theorem remaining_congr {first second : Console} (same : first.input = second.input) :
    input.source.remaining first = input.source.remaining second := by
  rcases input with ⟨source, waiting, wasClosed⟩
  cases source with
  | console ahead => simp only [InputSource.remaining, same]
  | bytes rest => rfl

theorem prepare_congr {first second : Console} (same : first.input = second.input)
    (request : Value) :
    (input.prepare first request).1 = (input.prepare second request).1 ∧
      (input.prepare first request).2.input = (input.prepare second request).2.input := by
  have count : ∀ count, (input.readCount first count).1 = (input.readCount second count).1 ∧
      (input.readCount first count).2.input = (input.readCount second count).2.input := by
    intro count
    unfold readCount
    rw [input.remaining_congr same]
    exact input.accept_congr same ..
  unfold prepare
  split
  · exact ⟨rfl, same⟩
  · split
    · split
      · exact count 0
      · unfold readTo
        rw [input.remaining_congr same]
        exact input.accept_congr same ..
    · exact count _

theorem accept_detached (detached : input.source.isConsole = false) (console other : Console)
    (bytes : List UInt8) (count : Nat) (closed : Bool) :
    input.accept console bytes count closed =
      ((input.accept other bytes count closed).1, console) := by
  rcases input with ⟨source, waiting, wasClosed⟩
  cases source with
  | console ahead => cases detached
  | bytes rest => rfl

theorem remaining_detached (detached : input.source.isConsole = false) (console other : Console) :
    input.source.remaining console = input.source.remaining other := by
  rcases input with ⟨source, waiting, wasClosed⟩
  cases source with
  | console ahead => cases detached
  | bytes rest => rfl

/-- A register with bytes of its own has nothing to do with the console. -/
theorem prepare_detached (detached : input.source.isConsole = false) (console other : Console)
    (request : Value) :
    input.prepare console request = ((input.prepare other request).1, console) := by
  have count : ∀ count, input.readCount console count =
      ((input.readCount other count).1, console) := by
    intro count
    unfold readCount
    rw [input.remaining_detached detached console other]
    exact input.accept_detached detached ..
  have delimited : ∀ delimiter, input.readTo console delimiter =
      ((input.readTo other delimiter).1, console) := by
    intro delimiter
    unfold readTo
    rw [input.remaining_detached detached console other]
    exact input.accept_detached detached ..
  unfold prepare
  split
  · rfl
  · cases request with
    | str delimiter =>
        simp only
        split
        · exact count 0
        · exact delimited _
    | _ => exact count _

end Input

namespace Site

variable (file : RegisterFile) (register : RegisterRef)

def levelOf : Option Channel → Int32
  | some (.power level) => level
  | _ => 0

theorem read_local :
    Local (file.reach? register) fun board => some ((read ⟨file, board⟩ register).reply board) := by
  cases state : file.state register with
  | random generator =>
      refine .congr (fun board => ?_) (.of_note (fun outside =>
        .inl (.ok (draw generator outside.entropy).1,
          file.update register (.random (draw generator outside.entropy).2))) id Board.Alike.refl)
      simp only [read, state]
      rfl
  | pin kind channel =>
      cases kind with
      | power =>
          have reach : file.reach? register = some (.channel channel) := by
            simp only [RegisterFile.reach?, RegisterFile.wire?, state, Register.wire?]
          rw [reach]
          refine .congr (fun board => ?_) (.of_channel channel fun seen =>
            some (.inl (.ok (.int (levelOf seen)), file), none))
          simp only [read, state]
          rfl
      | xbus =>
          refine .congr (fun board => ?_) (.of_result (.inr (channel, .receive)))
          simp only [read, state]
          rfl
  | _ =>
      apply Access.local_of_done
      intro board
      simp only [read, state, update]
      rfl

theorem observe_local :
    Local (file.reach? register) fun board =>
      some ((observe ⟨file, board⟩ register).reply board) := by
  unfold observe
  simp only
  split
  · exact .of_result _
  · exact Access.local_of_done fun _ => rfl

/-- The same comes of writing a text to a tape on every console, and only what
the console has put out changes. -/
theorem tape_write_uniform (writers : Writers) (tape : Tape) (console other : Console)
    (text : String) :
    (tape.write writers console text).1 = (tape.write writers other text).1 ∧
      (tape.write writers console text).2.1 = (tape.write writers other text).2.1 ∧
      (tape.write writers console text).2.2.input = console.input := by
  have accepts : ∀ bytes,
      (tape.accept console text bytes).1 = (tape.accept other text bytes).1 ∧
        (tape.accept console text bytes).2.input = console.input := by
    intro bytes
    rcases tape with ⟨⟨outlet, given⟩, texts⟩
    cases outlet <;> exact ⟨rfl, rfl⟩
  unfold Tape.write
  simp only
  split
  · exact ⟨rfl, accepts _⟩
  · exact ⟨rfl, accepts _⟩
  · exact ⟨rfl, by rw [(accepts _).1], (accepts _).2⟩

theorem write_local (value : Value) :
    Local (file.reach? register) fun board =>
      some ((write ⟨file, board⟩ register value).reply board) := by
  cases state : file.state register with
  | random generator =>
      refine .congr (fun board => ?_) (.of_note (fun outside =>
        let seeded := seed generator outside.entropy value
        .inl (seeded.map fun _ => (),
          (seeded.toOption.map fun next => file.update register (.random next)).getD file))
        id Board.Alike.refl)
      simp only [write, state]
      cases seed generator board.outside.entropy value <;> rfl
  | pin kind channel =>
      cases kind with
      | power =>
          have reach : file.reach? register = some (.channel channel) := by
            simp only [RegisterFile.reach?, RegisterFile.wire?, state, Register.wire?]
          rw [reach]
          refine .congr (fun board => ?_) (.of_channel channel fun _ =>
            some (.inl (.ok (), file), some (.power value.toInt)))
          simp only [write, state]
          rfl
      | xbus =>
          refine .congr (fun board => ?_) (.of_result (.inr (channel, .deposit value)))
          simp only [write, state]
          rfl
  | growing cursor cells =>
      cases written : Memory.Growing.write cells (file.offset cursor) value with
      | ok result =>
          apply Access.local_of_done
          intro board
          simp only [write, state, written, update]
          rfl
      | error fault =>
          apply Access.local_of_done
          intro board
          simp only [write, state, written]
          rfl
  | tape tape =>
      let write (board : Board) :=
        tape.write board.outside.writers board.console value.text
      refine .congr (fun board => ?_) (.of_note
        (fun outside =>
          let written := tape.write outside.writers (.ofInput []) value.text
          .inl (written.1, file.update register (.tape written.2.1)))
        (fun board => { board with console := (write board).2.2 })
        fun board => ⟨rfl, fun resource => ?_⟩)
      · rcases tape_write_uniform board.outside.writers tape board.console (.ofInput [])
          value.text with ⟨result, kept, _⟩
        simp only [Site.write, state, ← result, ← kept]
        rfl
      · cases resource with
        | channel index => rfl
        | console =>
            exact (tape_write_uniform board.outside.writers tape board.console board.console
              value.text).2.2.symm
  | input input =>
      cases attached : input.source.isConsole with
      | true =>
          have reach : file.reach? register = some .console := by
            simp only [RegisterFile.reach?, RegisterFile.wire?, state, Register.wire?, attached,
              if_true]
          rw [reach]
          refine .congr (fun board => ?_) (.of_console (fun console =>
            (.inl (.ok (), file.update register (.input (input.prepare console value).1)),
              (input.prepare console value).2)) fun same => ?_)
          · simp only [write, state, update, withConsole, Access.reply]
          · rcases input.prepare_congr same value with ⟨sameInput, sameConsole⟩
            exact ⟨by rw [sameInput], sameConsole⟩
      | false =>
          have done : ∀ board, write ⟨file, board⟩ register value = .done (.ok ())
              ⟨file.update register (.input (input.prepare (.ofInput []) value).1), board⟩ := by
            intro board
            simp only [write, state, update, withConsole]
            rw [input.prepare_detached attached board.console (.ofInput [])]
          exact Access.local_of_done done
  | _ =>
      apply Access.local_of_done
      intro board
      simp only [write, state, update]
      rfl

end Site

/-! ## Calls -/

namespace Board

/-- What a step of a call comes to, and the board after it. -/
def Exchange.outcome : Exchange → Option ((Bus.Call ⊕ Option Value) × Board)
  | .wait => none
  | .proceed board next => some (.inl next, board)
  | .finish board received => some (.inr received, board)

/-- The same as a look at the channel alone. -/
def lookCall (call : Bus.Call) :
    Option Channel → Option ((Bus.Call ⊕ Option Value) × Option Channel)
  | some (.xbus pin slot) =>
    match slot.step call with
    | .wait => none
    | .proceed slot next => some (.inl next, some (.xbus pin slot))
    | .finish slot received => some (.inr received, some (.xbus pin slot))
  | _ => some (.inr none, none)

theorem outcome_stepCall (board : Board) (channel : Nat) (call : Bus.Call) :
    (board.stepCall channel call).outcome =
      (lookCall call board.channels[channel]?).map fun seen =>
        (seen.1, (seen.2.map (board.withChannel channel)).getD board) := by
  unfold stepCall bus?
  rcases board.channels[channel]? with _ | level | ⟨pin, slot⟩
  · rfl
  · rfl
  · simp only [lookCall]
    cases slot.step call <;> rfl

theorem stepCall_local (channel : Nat) (call : Bus.Call) :
    Local (some (.channel channel)) fun board => (board.stepCall channel call).outcome :=
  .congr (fun board => outcome_stepCall board channel call) (.of_channel channel (lookCall call))

end Board

/-! ## Runs -/

namespace Execution

variable {α : Type} (execution : Execution)

/-- The answer, if there is one yet, with what is left of the run. -/
def Response.outcome : Response α → Option ((Option α × Execution) × Board)
  | .answered answer execution board => some ((some answer, execution), board)
  | .moved execution board => some ((none, execution), board)
  | .blocked => none

/-- What the next step towards an answer reaches. -/
def reach? (request : Request) : Option Resource :=
  match execution.call, request with
  | some (channel, _), _ => some (.channel channel)
  | none, .read register => execution.node.file.reach? register
  | none, .write register _ => execution.node.file.reach? register
  | none, .observe register => execution.node.file.reach? register
  | none, _ => none

theorem access_free_local {used : Option Resource} {start : Site → Access (Except Fault α)}
    (free : execution.call = none)
    (starts : Local used fun board => some ((start ⟨execution.node.file, board⟩).reply board))
    (received : Option Value → α) :
    Local used fun board => (execution.access board start received).outcome := by
  refine .congr (fun board => ?_) (starts.map fun reply =>
    match reply with
    | .inl (answer, file) => (some answer, execution.withFile file)
    | .inr begun => (none, execution.withCall (some begun)))
  have proceeds := access_proceeds execution board start received
  revert proceeds
  generalize execution.access board start received = response
  intro proceeds
  cases proceeds with
  | done free accessed =>
      rw [show (⟨execution.node.file, board⟩ : Site) = execution.node.site board from rfl, accessed]
      rfl
  | called free accessed =>
      rw [show (⟨execution.node.file, board⟩ : Site) = execution.node.site board from rfl, accessed]
      rfl
  | waits calling | proceeds calling | finishes calling =>
      rw [free] at calling
      cases calling

/-- The answer, if there is one yet, after a step of a call, and the run then. -/
def exchanged (channel : Nat) (received : Option Value → α) :
    Bus.Call ⊕ Option Value → Option (Except Fault α) × Execution
  | .inl next => (none, execution.withCall (some (channel, next)))
  | .inr value => (some (.ok (received value)), execution.withCall none)

/-- A run with a call under way goes on as the call does. -/
theorem outcome_access_calling {channel : Nat} {call : Bus.Call}
    (calling : execution.call = some (channel, call)) (board : Board)
    (start : Site → Access (Except Fault α)) (received : Option Value → α) :
    (execution.access board start received).outcome =
      (board.stepCall channel call).outcome.map fun exchange =>
        (execution.exchanged channel received exchange.1, exchange.2) := by
  have proceeds := access_proceeds execution board start received
  revert proceeds
  generalize execution.access board start received = response
  intro proceeds
  cases proceeds with
  | done free | called free =>
      rw [free] at calling
      cases calling
  | waits found step | proceeds found step | finishes found step =>
      rw [calling] at found
      cases found
      rw [step]
      rfl

theorem access_local {register : RegisterRef} (start : Site → Access (Except Fault α))
    (starts : Local (execution.node.file.reach? register)
      fun board => some ((start ⟨execution.node.file, board⟩).reply board))
    (received : Option Value → α) {request : Request}
    (reach : execution.call = none →
      execution.reach? request = execution.node.file.reach? register) :
    Local (execution.reach? request) fun board =>
      (execution.access board start received).outcome := by
  cases calling : execution.call with
  | none =>
      rw [reach calling]
      exact access_free_local execution calling starts received
  | some called =>
      have whole : execution.reach? request = some (.channel called.1) := by
        simp only [reach?, calling]
      rw [whole]
      refine .congr (fun board => ?_) ((Board.stepCall_local called.1 called.2).map
        (execution.exchanged called.1 received))
      exact outcome_access_calling execution calling board start received

/-- A sleep has nothing to do with the board. -/
theorem sleep_local (ticks : Int32) :
    Local (execution.reach? (.sleep ticks)) fun board =>
      (execution.sleep board ticks).outcome := by
  unfold sleep
  split
  · split
    · exact .of_result (some (), execution)
    · exact .of_result (none, _)
  · split
    · simp only
      split
      · exact .of_result (some (), _)
      · exact .of_result (none, _)
    · exact .of_result (some (), _)

theorem respond_local (request : Request) :
    Local (execution.reach? request) fun board => (execution.respond board request).outcome := by
  cases request with
  | read register =>
      apply access_local execution (·.read register) (Site.read_local _ register) _
      intro free
      simp only [reach?, free]
  | write register value =>
      refine access_local execution (·.write register value)
        (Site.write_local _ register value) _ fun free => ?_
      simp only [reach?, free]
  | observe register =>
      refine access_local execution (·.observe register)
        (Site.observe_local _ register) _ fun free => ?_
      simp only [reach?, free]
  | jump label => exact .of_result (some (execution.jump label).1, (execution.jump label).2)
  | stop => exact .of_result (some (), { execution with halted := true })
  | running => exact .of_result (some execution.isRunning, execution)
  | sleep ticks => exact sleep_local execution ticks

theorem stepScript_local (request : Request) (resume : request.Answer → Script α) :
    Local (execution.reach? request) fun board =>
      (execution.stepScript board (.ask request resume)).map fun done =>
        ((done.1, done.2.2), done.2.1) := by
  refine .congr (fun board => ?_) ((respond_local execution request).map fun response =>
    (response.2, (response.1.map resume).getD (.ask request resume)))
  simp only [stepScript]
  cases execution.respond board request <;> rfl

end Execution

namespace Agent

variable {σ : Type} (audience : Audience σ) (agent : Agent σ)

/-- What comes of it does not depend on the board, and the board is only written
on. -/
def Aloof (act : Board → Agent σ × Board) : Prop :=
  ∃ next, ∃ note : Board → Board, (∀ board : Board, board.Alike (note board)) ∧
    ∀ board, act board = (next, note board)

theorem Aloof.isLocal {act : Board → Agent σ × Board} {used : Option Resource} (aloof : Aloof act) :
    Local used fun board => some (act board) := by
  rcases aloof with ⟨next, note, alike, equal⟩
  refine .congr (fun board => ?_) (.of_note (fun _ => next) note alike)
  rw [equal]

theorem aloof_conclude (result : Except Fault Unit) :
    Aloof fun board => agent.conclude audience board result := by
  cases result with
  | ok result => exact ⟨_, _, fun board => Board.alike_record board _ _ _ _, fun _ => rfl⟩
  | error fault => exact ⟨_, _, fun board => Board.alike_record board _ _ _ _, fun _ => rfl⟩

theorem aloof_visit : Aloof fun board => agent.visit audience board := by
  unfold visit
  simp only
  split
  · exact aloof_conclude audience agent _
  · split
    · exact aloof_conclude audience agent _
    · split
      · split
        · rcases aloof_conclude audience agent (.ok ()) with ⟨next, note, alike, equal⟩
          refine ⟨next, fun board => note (agent.log board .debug "every instruction is spent" []),
            fun board => ?_, fun board => equal _⟩
          exact (Board.alike_record board _ _ _ _).trans (alike _)
        · exact ⟨_, id, Board.Alike.refl, fun _ => rfl⟩
      · exact ⟨_, id, Board.Alike.refl, fun _ => rfl⟩

theorem aloof_react (event : Event) (listeners : σ) (reaction : Reaction) :
    Aloof fun board => agent.react board event listeners reaction := by
  let note : Board → Board := fun board =>
    if reaction.restart && agent.execution.node.running then
      agent.log board .warning "node is already running" []
    else board
  have alike : ∀ board : Board, board.Alike (note board) := by
    intro board
    simp only [note]
    split
    · exact Board.alike_record board _ _ _ _
    · exact .refl board
  unfold react
  simp only
  split
  · exact ⟨_, note, alike, fun _ => rfl⟩
  · exact ⟨_, note, alike, fun _ => rfl⟩

/-- What the next step of the run reaches. -/
def reach? : Option Resource :=
  match agent.stage with
  | .executing (.ask request _) => agent.execution.reach? request
  | .notifying _ (.ask request _) => agent.execution.reach? request
  | _ => none

/-- A step of a run reaches one resource at most. -/
theorem step_local : Local agent.reach? fun board => agent.step audience board := by
  unfold step reach?
  cases stage : agent.stage with
  | finished ending => exact .of_none
  | visiting => exact (aloof_visit audience agent).isLocal
  | executing script =>
      cases script with
      | done result =>
          cases result with
          | error fault => exact (aloof_conclude audience agent _).isLocal
          | ok result =>
              simp only
              split
              · exact .of_result _
              · exact (aloof_conclude audience agent _).isLocal
      | ask request resume =>
          refine .congr (fun board => ?_) ((Execution.stepScript_local agent.execution request
            resume).map fun done => { agent with execution := done.1, stage := .executing done.2 })
          simp only [Option.map_map]
          rfl
  | notifying event script =>
      cases script with
      | done result => exact (aloof_react agent event result.1 result.2).isLocal
      | ask request resume =>
          refine .congr (fun board => ?_) ((Execution.stepScript_local agent.execution request
            resume).map fun done =>
              { agent with execution := done.1, stage := .notifying event done.2 })
          simp only [Option.map_map]
          rfl

end Agent

end NodeAssembly
