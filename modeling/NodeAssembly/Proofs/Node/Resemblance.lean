import NodeAssembly.Proofs.Node.Usage

/-! Registers that differ in their clocks only. Two nodes whose registers are the
same but for the speed of the clock answer every request alike, as long as the
clock is not read, except that a sleep takes its time. The same goes for what their
boards have to offer as a seed: it matters only to those who read a random register
without a seed. -/

namespace NodeAssembly

/-- Whether a random register is without a seed after a value was written to it.
A text that asks for too much is no seed. -/
def Value.leavesUnseeded (value : Value) (before : Bool) : Bool :=
  match value with
  | .int _ => false
  | .float _ => false
  | .str text => if Site.seedLength text > textLimit then before else false
  | _ => true

/-- The registers are alike: two clocks if this is the clock, and two random
registers if they may lack a seed. -/
inductive Register.Resembles (isClock isLoose : Prop) : Register → Register → Prop
  | same (state : Register) : Resembles isClock isLoose state state
  | clock (timed : isClock) (first second : Clock) :
      Resembles isClock isLoose (.clock first) (.clock second)
  | random (loose : isLoose) (first second : Random.Generator)
      (length : first.length = second.length) :
      Resembles isClock isLoose (.random first) (.random second)

namespace RegisterFile

/-- The cells of random registers without a seed, once a request was met. -/
def unseededAfter (file : RegisterFile) (unseeded : Nat → Bool) : Request → Nat → Bool
  | .write register value, cell =>
    match file.state register with
    | .random _ =>
      if cell = register.cell then value.leavesUnseeded (unseeded cell) else unseeded cell
    | _ => unseeded cell
  | _, cell => unseeded cell

/-- The files are the same but for the clock, and for random registers without a
seed if these may differ. -/
structure Resembles (clock : RegisterRef) (differ : Prop) (unseeded : Nat → Bool)
    (first second : RegisterFile) : Prop where
  size : first.size = second.size
  states : ∀ register, Register.Resembles (register.isSame clock = true)
    (differ ∧ unseeded register.cell = true) (first.state register) (second.state register)
  streams : ∀ register generator, first.state register = .random generator →
    unseeded register.cell = false → generator.stream.isSome = true

variable {clock register cursor : RegisterRef} {differ : Prop} {unseeded : Nat → Bool}
  {first second : RegisterFile} {value : Value}

/-- Only writing to a random register seeds one. -/
theorem unseededAfter_of_plain (plain : ∀ generator, first.state register ≠ .random generator) :
    first.unseededAfter unseeded (.write register value) = unseeded := by
  funext cell
  rw [unseededAfter]
  split
  next generator state => exact absurd state (plain generator)
  next => rfl

theorem unseededAfter_of_random {generator : Random.Generator}
    (state : first.state register = .random generator) :
    first.unseededAfter unseeded (.write register value) = fun cell =>
      if cell = register.cell then value.leavesUnseeded (unseeded cell) else unseeded cell := by
  funext cell
  rw [unseededAfter, state]

theorem Resembles.offset_eq (alike : first.Resembles clock differ unseeded second)
    (cursor : RegisterRef) : first.offset cursor = second.offset cursor := by
  have states := alike.states cursor
  unfold offset
  generalize first.state cursor = left at states
  generalize second.state cursor = right at states
  cases states <;> rfl

/-- Registers of one cell may be changed if they stay alike. -/
theorem Resembles.update (alike : first.Resembles clock differ unseeded second)
    {later : Nat → Bool} {left right : Register}
    (states : Register.Resembles (register.isSame clock = true)
      (differ ∧ later register.cell = true) left right)
    (streams : ∀ generator, left = .random generator → later register.cell = false →
      generator.stream.isSome = true)
    (kept : ∀ cell, cell ≠ register.cell → later cell = unseeded cell) :
    Resembles clock differ later (first.update register left) (second.update register right) where
  size := by
    rw [RegisterFile.update, RegisterFile.update, Array.size_setIfInBounds,
      Array.size_setIfInBounds]
    exact alike.size
  states := by
    intro other
    rw [state_update_eq, state_update_eq, ← alike.size]
    by_cases same : register.cell = other.cell
    · by_cases inside : other.cell < first.size
      · have isClock : other.isSame clock = register.isSame clock := by
          rw [RegisterRef.isSame, RegisterRef.isSame, same]
        rw [if_pos ⟨same, inside⟩, if_pos ⟨same, inside⟩, isClock, ← same]
        exact states
      · have inside' : ¬other.cell < second.size := alike.size ▸ inside
        rw [if_neg (inside ·.2), if_neg (inside ·.2), state_outside inside, state_outside inside']
        exact .same .null
    · rw [if_neg (same ·.1), if_neg (same ·.1), kept other.cell (Ne.symm same)]
      exact alike.states other
  streams := by
    intro other generator found sown
    rw [state_update_eq] at found
    split at found
    next here =>
      rw [← here.1] at sown
      exact streams generator found sown
    next apart =>
      by_cases same : register.cell = other.cell
      · have outside : ¬other.cell < first.size := fun inside => apart ⟨same, inside⟩
        rw [state_outside outside] at found
        cases found
      · rw [kept other.cell (Ne.symm same)] at sown
        exact alike.streams other generator found sown

/-- The same new state for a register that is not random. -/
theorem Resembles.update_same (alike : first.Resembles clock differ unseeded second)
    (register : RegisterRef) (state : Register) (plain : ∀ generator, state ≠ .random generator) :
    Resembles clock differ unseeded (first.update register state)
      (second.update register state) :=
  alike.update (.same state) (fun generator equal => absurd equal (plain generator))
    fun _ _ => rfl

end RegisterFile

/-! ## Accesses -/

/-- The same writers, and the same seed if the seeds may not differ. How time
passes is left open. -/
structure Outside.Resembles (differ : Prop) (first second : Outside) : Prop where
  writers : first.writers = second.writers
  entropy : differ ∨ first.entropy = second.entropy

/-- The board with something else outside. -/
def Board.withOutside (board : Board) (outside : Outside) : Board :=
  { board with outside := outside }

/-- Both accesses are done at once with one answer, and leave one board and files
that are alike. -/
inductive Access.Matches {α : Type} (outside : Outside)
    (alike : RegisterFile → RegisterFile → Prop) : Access α → Access α → Prop
  | done (answer : α) (board : Board) {first second : RegisterFile} (related : alike first second) :
      Matches outside alike (.done answer ⟨first, board⟩)
        (.done answer ⟨second, board.withOutside outside⟩)

namespace Site

variable {clock register : RegisterRef} {differ : Prop} {unseeded : Nat → Bool}
  {first second : RegisterFile} {board : Board} {outside : Outside}

/-- A stream that is there does not need a seed. -/
theorem draw_seeded {generator : Random.Generator} (seeded : generator.stream.isSome = true)
    (entropy other : UInt64) : draw generator entropy = draw generator other := by
  rcases generator with ⟨stream, kind, length⟩
  cases stream with
  | none => cases seeded
  | some stream => simp only [draw, Option.getD_some]

theorem isSome_stream_draw (generator : Random.Generator) (entropy : UInt64) :
    (draw generator entropy).2.stream.isSome = true := by
  unfold draw
  simp only
  split <;> rfl

theorem read_matches (alike : first.Resembles clock differ unseeded second)
    (outsides : board.outside.Resembles differ outside) (untimed : register.isSame clock = false)
    (sure : differ → ∀ generator, first.state register = .random generator →
      unseeded register.cell = false)
    (noBus : ∀ channel, first.state register ≠ .pin .xbus channel) :
    Access.Matches outside (RegisterFile.Resembles clock differ unseeded)
      (read ⟨first, board⟩ register) (read ⟨second, board.withOutside outside⟩ register) := by
  have same : second.state register = first.state register := by
    have states := alike.states register
    generalize right : second.state register = state at states
    generalize left : first.state register = other at states
    cases states with
    | same => rfl
    | clock timed => rw [untimed] at timed; cases timed
    | random loose => rw [sure loose.1 _ left] at loose; cases loose.2
  unfold read
  rw [same]
  cases state : first.state register with
  | random generator =>
      have drawn : draw generator board.outside.entropy = draw generator outside.entropy := by
        rcases outsides.entropy with differs | equal
        · exact draw_seeded (alike.streams register generator state (sure differs _ state)) _ _
        · rw [equal]
      simp only [Board.withOutside, drawn]
      refine .done _ board (alike.update (.same _) ?_ fun _ _ => rfl)
      intro next equal _
      cases equal
      exact isSome_stream_draw generator outside.entropy
  | pin kind channel =>
      cases kind with
      | power => exact .done _ board alike
      | xbus => exact absurd state (noBus channel)
  | sized cursor cells =>
      simp only [alike.offset_eq]
      exact .done _ board (alike.update_same cursor _ nofun)
  | growing cursor cells =>
      simp only [alike.offset_eq]
      exact .done _ board (alike.update_same cursor _ nofun)
  | tape tape => exact .done _ board (alike.update_same register _ nofun)
  | input input => exact .done _ board (alike.update_same register _ nofun)
  | _ => exact .done _ board alike

theorem seedWord_congr {left right : Random.Generator} (length : left.length = right.length)
    (number : Int32) (kind : Random.Kind) :
    left.seedWord number kind = right.seedWord number kind := by
  rw [Random.Generator.seedWord, Random.Generator.seedWord, length]

theorem reseed_fields (generator : Random.Generator) (entropy : UInt64) :
    (generator.reseed entropy).length = generator.length ∧
      (generator.reseed entropy).stream.isSome = true :=
  ⟨rfl, rfl⟩

theorem reseed_resembles {isClock isLoose : Prop} {left right : Random.Generator}
    (states : Register.Resembles isClock (differ ∧ isLoose) (.random left) (.random right))
    (outsides : board.outside.Resembles differ outside) :
    Register.Resembles isClock (differ ∧ True) (.random (left.reseed board.outside.entropy))
      (.random (right.reseed outside.entropy)) := by
  have lengths (generator other : Random.Generator) (same : generator.length = other.length) :
      (generator.reseed board.outside.entropy).length =
        (other.reseed outside.entropy).length := by
    rw [(reseed_fields generator _).1, (reseed_fields other _).1, same]
  cases states with
  | same =>
      rcases outsides.entropy with differs | equal
      · exact .random ⟨differs, trivial⟩ _ _ (lengths left left rfl)
      · rw [equal]
        exact .same _
  | random loose _ _ length => exact .random ⟨loose.1, trivial⟩ _ _ (lengths left right length)

/-- A seed makes random registers the same. Without one they get what the boards
have to offer. -/
theorem write_random_matches (alike : first.Resembles clock differ unseeded second)
    (outsides : board.outside.Resembles differ outside) (value : Value)
    {left right : Random.Generator} (isLeft : first.state register = .random left)
    (isRight : second.state register = .random right) :
    Access.Matches outside
      (RegisterFile.Resembles clock differ (first.unseededAfter unseeded (.write register value)))
      (write ⟨first, board⟩ register value)
      (write ⟨second, board.withOutside outside⟩ register value) := by
  have states := alike.states register
  rw [isLeft, isRight] at states
  have length : left.length = right.length := by
    cases states with
    | same => rfl
    | random _ _ _ length => exact length
  have seeded {generator : Random.Generator} (sown : generator.stream.isSome = true) :
      (first.update register (.random generator)).Resembles clock differ
        (first.unseededAfter unseeded (.write register value))
        (second.update register (.random generator)) := by
    refine alike.update (.same _) (fun other equal _ => ?_) fun cell apart => ?_
    · cases equal
      exact sown
    · rw [RegisterFile.unseededAfter_of_random isLeft]
      exact if_neg apart
  unfold write
  rw [isLeft, isRight]
  cases value with
  | int number =>
      simp only [seed, seedWord_congr length]
      exact .done _ board (seeded rfl)
  | float number =>
      simp only [seed, seedWord_congr length]
      exact .done _ board (seeded rfl)
  | str text =>
      by_cases large : seedLength text > textLimit
      · simp only [seed, if_pos large]
        have unchanged : first.unseededAfter unseeded (.write register (.str text)) = unseeded := by
          rw [RegisterFile.unseededAfter_of_random isLeft]
          funext cell
          simp only [Value.leavesUnseeded, if_pos large, ite_self]
        rw [unchanged]
        exact .done _ board alike
      · simp only [seed, if_neg large]
        exact .done _ board (seeded rfl)
  | _ =>
      -- There is no seed, so that the register stays loose.
      simp only [seed]
      refine .done _ board (alike.update ?_ (fun other equal _ => ?_) fun cell apart => ?_)
      · rw [RegisterFile.unseededAfter_of_random isLeft]
        simp only [Value.leavesUnseeded, if_true]
        exact reseed_resembles states outsides
      · cases equal
        exact (reseed_fields left _).2
      · rw [RegisterFile.unseededAfter_of_random isLeft]
        exact if_neg apart

/-- A register of any other kind takes a value as its twin does. -/
theorem write_same_matches (alike : first.Resembles clock differ unseeded second)
    (writers : board.outside.writers = outside.writers) (value : Value)
    {state : Register} (isLeft : first.state register = state)
    (isRight : second.state register = state) (plain : ∀ generator, state ≠ .random generator)
    (noBus : ∀ channel, state ≠ .pin .xbus channel) :
    Access.Matches outside (RegisterFile.Resembles clock differ unseeded)
      (write ⟨first, board⟩ register value)
      (write ⟨second, board.withOutside outside⟩ register value) := by
  unfold write
  rw [isLeft, isRight]
  cases state with
  | null => exact .done _ board alike
  | random generator => exact absurd rfl (plain generator)
  | pin kind channel =>
      cases kind with
      | power => exact .done _ (board.withChannel channel (.power value.toInt)) alike
      | xbus => exact absurd rfl (noBus channel)
  | sized cursor cells =>
      simp only [alike.offset_eq]
      generalize Memory.Sized.write cells (second.offset cursor) value = written
      exact .done _ board ((alike.update_same register (.sized cursor written.1) nofun).update_same
        cursor (.offset written.2) nofun)
  | growing cursor cells =>
      simp only [alike.offset_eq]
      rcases Memory.Growing.write cells (second.offset cursor) value with fault | ⟨cells, place⟩
      · exact .done _ board alike
      · exact .done _ board ((alike.update_same register (.growing cursor cells) nofun).update_same
          cursor (.offset place) nofun)
  | tape tape =>
      simp only [Board.withOutside, ← writers]
      generalize tape.write board.outside.writers board.console value.text = written
      exact .done _ { board with console := written.2.2 }
        (alike.update_same register (.tape written.2.1) nofun)
  | input input =>
      exact .done _ { board with console := (input.prepare board.console value).2 }
        (alike.update_same register _ nofun)
  | _ => exact .done _ board (alike.update_same register _ nofun)

theorem write_matches (alike : first.Resembles clock differ unseeded second)
    (outsides : board.outside.Resembles differ outside) (value : Value)
    (noBus : ∀ channel, first.state register ≠ .pin .xbus channel) :
    Access.Matches outside
      (RegisterFile.Resembles clock differ (first.unseededAfter unseeded (.write register value)))
      (write ⟨first, board⟩ register value)
      (write ⟨second, board.withOutside outside⟩ register value) := by
  by_cases isRandom : ∃ generator, first.state register = .random generator
  · rcases isRandom with ⟨generator, isLeft⟩
    have states := alike.states register
    rw [isLeft] at states
    generalize isRight : second.state register = right at states
    cases states <;> exact write_random_matches alike outsides value isLeft isRight
  · have plain : ∀ generator, first.state register ≠ .random generator :=
      fun generator found => isRandom ⟨generator, found⟩
    rw [RegisterFile.unseededAfter_of_plain plain]
    have states := alike.states register
    generalize isRight : second.state register = right at states
    generalize isLeft : first.state register = left at states plain noBus
    cases states with
    | same => exact write_same_matches alike outsides.writers value isLeft isRight plain noBus
    | random loose generator => exact absurd rfl (plain generator)
    | clock timed =>
        -- Both clocks are set to one speed.
        unfold write
        rw [isLeft, isRight]
        exact .done _ board (alike.update_same register _ nofun)

theorem observe_matches (alike : first.Resembles clock differ unseeded second)
    (noBus : ∀ channel, first.state register ≠ .pin .xbus channel) :
    Access.Matches outside (RegisterFile.Resembles clock differ unseeded)
      (observe ⟨first, board⟩ register) (observe ⟨second, board.withOutside outside⟩ register) := by
  have states := alike.states register
  unfold observe
  generalize second.state register = right at states
  generalize first.state register = left at states noBus
  cases states with
  | same =>
      split
      next channel => exact absurd rfl (noBus channel)
      next => exact .done _ board alike
  | clock timed => exact .done _ board alike
  | random loose => exact .done _ board alike

end Site

/-! ## Requests -/

/-- The terms of those who do not look at the clock. -/
def Terms.untimed (clock : RegisterRef) : Terms where
  asks
    | .read register => register.isSame clock = false
    | .write _ value => value.isFlat
    | _ => True
  values value := value.isFlat
  faults _ := True

theorem Terms.untimed_fair (clock : RegisterRef) : (untimed clock).Fair where
  stop := trivial
  running := trivial
  sleep _ := trivial
  flat _ flat := flat
  readable _ flat := absurd flat Bool.false_ne_true
  computed _ _ := trivial

namespace Execution

/-- A run of a program that has to wait for nobody, without references in its
registers. -/
structure Solitary (program : Program) (execution : Execution) : Prop where
  runs : execution.node.program = program
  flat : execution.node.file.Flat
  noBus : ∀ register channel, execution.node.file.wire? register ≠ some (.pin .xbus channel)
  free : execution.call = none

/-- Both requests are answered at once in the same way, and the runs after them
differ in their files and in their times only. -/
inductive Response.Matches {α : Type} (outside : Outside) (timer : Timer)
    (alike : RegisterFile → RegisterFile → Prop) : Response α → Response α → Prop
  | answered (answer : α) (after : Execution) (board : Board) {other : RegisterFile}
      (related : alike after.node.file other) :
      Matches outside timer alike (.answered answer after board)
        (.answered answer ((after.withFile other).withTimer timer) (board.withOutside outside))

variable {α : Type} {execution after : Execution} {board boardAfter : Board} {program : Program}
  {clock : RegisterRef} {differ : Prop} {unseeded : Nat → Bool} {second : RegisterFile}
  {outside : Outside} {timer : Timer} {request : Request}

theorem Solitary.withFile (solitary : execution.Solitary program) {file : RegisterFile}
    (settles : execution.node.file.Settles file) : (execution.withFile file).Solitary program where
  runs := solitary.runs
  flat := settles.flat solitary.flat
  noBus := fun register channel wired =>
    solitary.noBus register channel (settles.wires register _ wired)
  free := solitary.free

theorem Solitary.state_ne_bus (solitary : execution.Solitary program) (register : RegisterRef)
    (channel : Nat) : execution.node.file.state register ≠ .pin .xbus channel := by
  intro state
  apply solitary.noBus register channel
  rw [RegisterFile.wire?, state]
  rfl

theorem access_done (free : execution.call = none) {start : Site → Access (Except Fault α)}
    {answer : Except Fault α} {site : Site}
    (accessed : start (execution.node.site board) = .done answer site)
    (received : Option Value → α) : execution.access board start received =
      .answered answer (execution.withFile site.file) site.board := by
  have proceeds := access_proceeds execution board start received
  generalize execution.access board start received = response at proceeds ⊢
  cases proceeds with
  | done _ found =>
      cases accessed.symm.trans found
      rfl
  | called _ found => cases accessed.symm.trans found
  | waits calling | proceeds calling | finishes calling => cases free.symm.trans calling

theorem access_matches (free : execution.call = none) {start : Site → Access (Except Fault α)}
    {alike : RegisterFile → RegisterFile → Prop}
    (starts : Access.Matches outside alike (start ⟨execution.node.file, board⟩)
      (start ⟨second, board.withOutside outside⟩)) (received : Option Value → α) :
    Response.Matches outside timer alike (execution.access board start received)
      (((execution.withFile second).withTimer timer).access (board.withOutside outside) start
        received) := by
  generalize left : start ⟨execution.node.file, board⟩ = first at starts
  generalize right : start ⟨second, board.withOutside outside⟩ = other at starts
  cases starts with
  | done answer boardAfter related =>
      have freeToo : ((execution.withFile second).withTimer timer).call = none := free
      rw [access_done free left, access_done freeToo right]
      exact .answered answer (execution.withFile _) boardAfter related

/-- Whoever does not look at the clock is answered alike, if nobody goes to sleep. -/
theorem respond_matches (solitary : execution.Solitary program)
    (alike : execution.node.file.Resembles clock differ unseeded second)
    (outsides : board.outside.Resembles differ outside)
    (asked : (Terms.untimed clock).asks request) (awake : ∀ ticks, request ≠ .sleep ticks)
    (sure : differ → ∀ register generator, request = .read register →
      execution.node.file.state register = .random generator → unseeded register.cell = false)
    (timer : Timer) :
    Response.Matches outside timer
      (RegisterFile.Resembles clock differ (execution.node.file.unseededAfter unseeded request))
      (execution.respond board request)
      (((execution.withFile second).withTimer timer).respond (board.withOutside outside)
        request) := by
  cases request with
  | read register =>
      rw [respond_read, respond_read]
      refine access_matches solitary.free ?_ _
      exact Site.read_matches alike outsides asked
        (fun differs generator => sure differs register generator rfl)
        (solitary.state_ne_bus register)
  | write register value =>
      rw [respond_write, respond_write]
      refine access_matches solitary.free ?_ _
      exact Site.write_matches alike outsides value (solitary.state_ne_bus register)
  | observe register =>
      rw [respond_observe, respond_observe]
      refine access_matches solitary.free ?_ _
      exact Site.observe_matches alike (solitary.state_ne_bus register)
  | jump label =>
      simp only [respond, jump, withTimer, withFile]
      cases execution.node.program.label? label with
      | none => exact .answered _ execution board alike
      | some target => exact .answered _ { execution with pending := some target } board alike
  | stop => exact .answered _ { execution with halted := true } board alike
  | running => exact .answered _ execution board alike
  | sleep ticks => exact absurd rfl (awake ticks)

theorem Solitary.access (solitary : execution.Solitary program)
    {start : Site → Access (Except Fault α)} {received : Option Value → α}
    {answer : Except Fault α} {admits : Except Fault α → Prop}
    (starts : ∀ answer site, start (execution.node.site board) = .done answer site →
      execution.node.file.Settles site.file ∧ admits answer)
    (answered : execution.access board start received = .answered answer after boardAfter) :
    after.Solitary program ∧ admits answer := by
  have proceeds := access_proceeds execution board start received
  rw [answered] at proceeds
  cases proceeds with
  | done free accessed =>
      rcases starts _ _ accessed with ⟨settles, admitted⟩
      exact ⟨solitary.withFile settles, admitted⟩
  | finishes calling => cases solitary.free.symm.trans calling

theorem Solitary.respond (solitary : execution.Solitary program)
    (asked : (Terms.untimed clock).asks request) {answer : request.Answer}
    (responds : execution.respond board request = .answered answer after boardAfter) :
    after.Solitary program ∧ (Terms.untimed clock).Admits request answer := by
  cases request with
  | read register =>
      rw [respond_read] at responds
      apply solitary.access (fun answer site accessed => ?_) responds
      rcases Site.read_done accessed with ⟨⟨value, rfl, valueFlat⟩, settles⟩
      exact ⟨settles, valueFlat solitary.flat⟩
  | write register value =>
      rw [respond_write] at responds
      apply solitary.access (fun answer site accessed => ?_) responds
      refine ⟨(Site.write_done accessed).2 asked, ?_⟩
      cases answer <;> trivial
  | observe register =>
      rw [respond_observe] at responds
      apply solitary.access (fun answer site accessed => ?_) responds
      rcases Site.observe_done accessed with ⟨rfl, rfl⟩
      exact ⟨.refl _, trivial⟩
  | jump label =>
      simp only [Execution.respond, jump] at responds
      split at responds
      all_goals
        cases responds
        exact ⟨⟨solitary.runs, solitary.flat, solitary.noBus, solitary.free⟩, trivial⟩
  | sleep ticks =>
      rcases withTimer_of_sleep_answered responds with ⟨timer, rfl, rfl⟩
      exact ⟨⟨solitary.runs, solitary.flat, solitary.noBus, solitary.free⟩, trivial⟩
  | _ =>
      cases responds
      exact ⟨⟨solitary.runs, solitary.flat, solitary.noBus, solitary.free⟩, trivial⟩

end Execution

end NodeAssembly
