import NodeAssembly.Proofs.Node.Listeners

/-! The runs of one node, side by side. Whoever asks for a run may have it as
long as the node is not marked as running, and the mark is also what a stop
takes away. So a run is followed in finer steps than the rest of the library
needs: that it leaves its loop and that it takes the mark away are two, and
between them the others may move. -/

namespace NodeAssembly

namespace Execution

variable {α : Type} {execution after : Execution} {board boardAfter : Board}
  {script next : Script α}

theorem running_of_stepScript
    (step : execution.stepScript board script = some (after, boardAfter, next)) :
    after.node.running = execution.node.running := by
  rcases stepScript_carries step with ⟨_, _, _, carries⟩
  exact carries.running

theorem running_of_expireScript
    (step : execution.expireScript board script = some (after, boardAfter, next)) :
    after.node.running = execution.node.running := by
  rcases expireScript_carries step with ⟨_, _, _, carries⟩
  exact carries.running

end Execution

namespace Agent

variable {σ : Type} {audience : Audience σ} {agent : Agent σ} {board : Board}

/-- The result with which the run is about to leave its loop. -/
def leaves? (agent : Agent σ) : Option (Except Fault Unit) :=
  let execution := agent.execution
  let program := execution.node.program
  match agent.stage, program.entries[execution.position]? with
  | .visiting, none => some (.ok ())
  | .visiting, some _ =>
    let exhausted := execution.node.isSpent execution.position && execution.skipped == program.size
    if execution.isRunning && !exhausted then none else some (.ok ())
  | .executing (.done (.error fault)), _ => some (.error fault)
  | .executing (.done (.ok ())), none => some (.ok ())
  | _, _ => none

/-- A look at an entry keeps the run in its loop, unless it leaves it there. -/
theorem visit_of_leaves (stage : agent.stage = .visiting) (audience : Audience σ) (board : Board) :
    (∃ boardAfter, agent.leaves? = some (.ok ()) ∧
      agent.visit audience board = agent.conclude audience boardAfter (.ok ())) ∨
    (agent.leaves? = none ∧ (agent.visit audience board).1.phase.isLooping = true ∧
      (agent.visit audience board).1.execution.node = agent.execution.node) := by
  have finds := visit_finds audience agent board
  generalize agent.visit audience board = result at finds ⊢
  cases finds with
  | nothing missing => exact .inl ⟨board, by simp only [leaves?, stage, missing], rfl⟩
  | stopped found stopped =>
      refine .inl ⟨board, ?_, rfl⟩
      simp [leaves?, stage, found, stopped]
  | exhausted found running spent full =>
      refine .inl ⟨_, ?_, rfl⟩
      simp [leaves?, stage, found, spent, full]
  | spent found running spent lacking =>
      refine .inr ⟨?_, rfl, rfl⟩
      simp [leaves?, stage, found, running, lacking]
  | fresh found running fresh =>
      refine .inr ⟨?_, rfl, rfl⟩
      simp [leaves?, stage, found, running, fresh]

theorem phase_of_leaves {result : Except Fault Unit} (leaves : agent.leaves? = some result) :
    agent.phase = .visiting ∨ agent.phase = .executing := by
  unfold phase
  cases stage : agent.stage with
  | visiting => exact .inl rfl
  | executing script => exact .inr rfl
  | notifying event script => simp [leaves?, stage] at leaves
  | finished ending => simp [leaves?, stage] at leaves

theorem isLooping_of_leaves {result : Except Fault Unit} (leaves : agent.leaves? = some result) :
    agent.phase.isLooping = true := by
  rcases phase_of_leaves leaves with phase | phase <;> rw [phase] <;> rfl

theorem isLooping_resume (agent : Agent σ) (event : Event) :
    (agent.resume event).phase.isLooping = (Phase.notifying event).isLooping := by
  cases event <;> rfl

theorem running_resume (agent : Agent σ) (event : Event) :
    (agent.resume event).execution.node.running = agent.execution.node.running := by
  cases event with
  | executed position opcode => exact Node.running_spend _ _
  | _ => rfl

end Agent

/-- A run of a node that others may want to run as well. -/
structure Tenant (σ : Type) where
  agent : Agent σ
  /-- The result with which the run has left its loop, as long as it has not
  freed the node. -/
  left : Option (Except Fault Unit)

namespace Tenant

variable {σ : Type}

/-- The run from the time it was let in until it frees the node. -/
def holds (tenant : Tenant σ) : Bool :=
  tenant.left.isSome || tenant.agent.phase.isLooping

/-- Whether the run has not come back to whoever asked for it. -/
def isLive (tenant : Tenant σ) : Bool :=
  tenant.agent.ending?.isNone

/-- The run with what the others have made of the node. -/
def on (tenant : Tenant σ) (node : Node) : Agent σ :=
  { tenant.agent with execution := { tenant.agent.execution with node := node } }

def advance (audience : Audience σ) (tenant : Tenant σ) (node : Node) (board : Board) :
    Option (Tenant σ) :=
  let agent := tenant.on node
  match tenant.left, agent.leaves? with
  | some result, _ => some ⟨(agent.conclude audience board result).1, none⟩
  | none, some result => some ⟨agent, some result⟩
  | none, none => (agent.step audience board).map fun result => ⟨result.1, none⟩

def expire (tenant : Tenant σ) (node : Node) (board : Board) : Option (Tenant σ) :=
  ((tenant.on node).expire board).map fun result => ⟨result.1, tenant.left⟩

/-- What a move of one run means for the others. -/
inductive Affects (node : Node) (tenant after : Tenant σ) : Prop
  | keeps (same : after.holds = tenant.holds)
      (running : after.agent.execution.node.running = node.running)
  | stops (same : after.holds = tenant.holds) (asks : tenant.agent.asksStop = true)
      (stopped : after.agent.execution.node.running = false)
  | frees (held : tenant.holds = true) (gone : after.holds = false)
      (stopped : after.agent.execution.node.running = false)

variable {audience : Audience σ} {tenant after : Tenant σ} {node : Node} {board : Board}

theorem keeps_of_isLooping (left : after.left = tenant.left)
    (same : after.agent.phase.isLooping = (tenant.on node).phase.isLooping)
    (running : after.agent.execution.node.running = node.running) : Affects node tenant after := by
  refine .keeps ?_ running
  rw [holds, left, same]
  rfl

theorem affects_conclude (result : Except Fault Unit) (left : tenant.left = some result) :
    Affects node tenant ⟨((tenant.on node).conclude audience board result).1, none⟩ := by
  have held : tenant.holds = true := by simp [holds, left]
  cases result <;> exact .frees held rfl rfl

theorem affects_react {event : Event} {listeners : σ} {reaction : Reaction}
    (unbroken : reaction.broken = false) (left : tenant.left = none)
    (stage : tenant.agent.stage = .notifying event (.done (listeners, reaction))) :
    Affects node tenant ⟨((tenant.on node).react board event listeners reaction).1, none⟩ := by
  rw [Agent.react_of_unbroken unbroken]
  have same : holds ⟨((tenant.on node).heed listeners reaction).resume event, none⟩ =
      tenant.holds := by
    have phase : tenant.agent.phase = .notifying event := congrArg Stage.phase stage
    simp only [holds, left, phase, Agent.isLooping_resume]
  have running := Agent.running_resume ((tenant.on node).heed listeners reaction) event
  cases asks : reaction.stop with
  | true =>
      refine .stops same ?_ (running.trans ?_)
      · simp only [Agent.asksStop, stage, asks]
      · simp only [Agent.heed, asks, if_true, Node.stop]
  | false =>
      refine .keeps same (running.trans ?_)
      simp only [Agent.heed, asks, Bool.false_eq_true, if_false, on]

theorem affects_advance (attended : tenant.agent.Attended)
    (advances : tenant.advance audience node board = some after) :
    Affects node tenant after := by
  unfold advance at advances
  simp only at advances
  split at advances
  next result left =>
    cases advances
    exact affects_conclude result left
  next result left leaves =>
    cases advances
    have looping : (tenant.on node).phase.isLooping = true := Agent.isLooping_of_leaves leaves
    have held : tenant.holds = true := by
      rw [holds, left]
      exact looping
    exact .keeps held.symm rfl
  next left leaves =>
    rcases Option.map_eq_some_iff.mp advances with ⟨result, step, rfl⟩
    cases Agent.step_moves step with
    | visits stage =>
        rcases Agent.visit_of_leaves stage audience board with ⟨_, leaving, _⟩ | ⟨_, looping, same⟩
        · rw [leaves] at leaving
          cases leaving
        · refine keeps_of_isLooping left.symm (looping.trans ?_) (congrArg Node.running same)
          simp only [Agent.phase, stage, Stage.phase, Phase.isLooping]
    | faults stage => simp [Agent.leaves?, stage] at leaves
    | completes stage found =>
        refine keeps_of_isLooping left.symm ?_ rfl
        simp only [Agent.phase, stage, Agent.send, Stage.phase, Phase.isLooping]
    | leaves stage missing => simp [Agent.leaves?, stage, missing] at leaves
    | executes stage scriptStep =>
        refine keeps_of_isLooping left.symm ?_ (Execution.running_of_stepScript scriptStep)
        simp only [Agent.phase, stage, Stage.phase]
    | reacts stage =>
        exact affects_react (Agent.attended_of_notifying attended stage) left stage
    | notifies stage scriptStep =>
        refine keeps_of_isLooping left.symm ?_ (Execution.running_of_stepScript scriptStep)
        simp only [Agent.phase, stage, Stage.phase]

theorem attended_advance (steady : audience.Steady) (attended : tenant.agent.Attended)
    (advances : tenant.advance audience node board = some after) : after.agent.Attended := by
  unfold advance at advances
  simp only at advances
  split at advances
  · cases advances
    exact Agent.attended_conclude steady _ _ _
  · cases advances
    exact attended
  · rcases Option.map_eq_some_iff.mp advances with ⟨result, step, rfl⟩
    have attendedOn : (tenant.on node).Attended := attended
    exact Agent.attended_step steady attendedOn step

theorem attended_expire (attended : tenant.agent.Attended)
    (expires : tenant.expire node board = some after) : after.agent.Attended := by
  rcases Option.map_eq_some_iff.mp expires with ⟨result, step, rfl⟩
  have attendedOn : (tenant.on node).Attended := attended
  exact Agent.attended_expire attendedOn step

theorem affects_expire (expires : tenant.expire node board = some after) :
    Affects node tenant after := by
  rcases Option.map_eq_some_iff.mp expires with ⟨result, step, rfl⟩
  cases Agent.expire_givesUp step with
  | executes stage scriptStep =>
      refine keeps_of_isLooping rfl ?_ (Execution.running_of_expireScript scriptStep)
      simp only [Agent.phase, stage, Stage.phase]
  | notifies stage scriptStep =>
      refine keeps_of_isLooping rfl ?_ (Execution.running_of_expireScript scriptStep)
      simp only [Agent.phase, stage, Stage.phase]

end Tenant

/-- A node with the runs that were let in, the oldest first. -/
structure Tenancy (σ : Type) where
  node : Node
  tenants : List (Tenant σ)
  /-- Whether a stop was asked for since the node was last held by nobody. -/
  stopping : Bool

/-- What can happen to a node that is shared. -/
inductive Tenancy.Move (σ : Type) where
  /-- Another run is asked for, in the foreground or in the background. -/
  | request (listeners : σ) (board : Board)
  | stop
  | advance (place : Nat) (board : Board)
  | expire (place : Nat) (board : Board)

namespace Tenancy

variable {σ : Type}

def vacant (node : Node) : Tenancy σ :=
  ⟨node, [], false⟩

/-- How many runs hold the node. -/
def holders (tenancy : Tenancy σ) : Nat :=
  tenancy.tenants.countP Tenant.holds

/-- How many runs have not come back yet. -/
def live (tenancy : Tenancy σ) : Nat :=
  tenancy.tenants.countP Tenant.isLive

/-- One of the runs has moved. -/
def settle (tenancy : Tenancy σ) (place : Nat) (tenant after : Tenant σ) : Tenancy σ :=
  let tenants := tenancy.tenants.set place after
  ⟨after.agent.execution.node, tenants,
    (tenancy.stopping || tenant.agent.asksStop) && 0 < tenants.countP Tenant.holds⟩

def move (audience : Audience σ) (tenancy : Tenancy σ) : Move σ → Tenancy σ
  | .request listeners board =>
    match tenancy.node.claim with
    | .ok node =>
      { tenancy with
        node := node
        tenants := tenancy.tenants ++ [⟨(Agent.start node listeners board).1, none⟩] }
    | .error _ => tenancy
  | .stop =>
    { tenancy with
      node := tenancy.node.stop
      stopping := 0 < tenancy.holders }
  | .advance place board =>
    match tenancy.tenants[place]? with
    | some tenant =>
      ((tenant.advance audience tenancy.node board).map (tenancy.settle place tenant)).getD tenancy
    | none => tenancy
  | .expire place board =>
    match tenancy.tenants[place]? with
    | some tenant =>
      ((tenant.expire tenancy.node board).map (tenancy.settle place tenant)).getD tenancy
    | none => tenancy

def run (audience : Audience σ) (tenancy : Tenancy σ) (moves : List (Move σ)) : Tenancy σ :=
  moves.foldl (move audience) tenancy

/-- Whether a move does not ask for a run while one that was told to stop still
holds the node. -/
def isTimely (tenancy : Tenancy σ) : Move σ → Bool
  | .request _ _ => !tenancy.stopping
  | _ => true

/-- Whether all moves are timely. -/
def isOrderly (audience : Audience σ) : Tenancy σ → List (Move σ) → Bool
  | _, [] => true
  | tenancy, next :: moves =>
    tenancy.isTimely next && isOrderly audience (tenancy.move audience next) moves

variable {audience : Audience σ} {tenancy : Tenancy σ}

/-- The invariant of orderly moves: no two runs hold the node, and while one
does, the node is marked unless it was told to stop. -/
structure Exclusive (tenancy : Tenancy σ) : Prop where
  attended : ∀ tenant ∈ tenancy.tenants, tenant.agent.Attended
  single : tenancy.holders ≤ 1
  held : tenancy.node.running = true → 0 < tenancy.holders
  marked : tenancy.stopping = false → 0 < tenancy.holders → tenancy.node.running = true

theorem exclusive_vacant {node : Node} (free : node.running = false) :
    (vacant node : Tenancy σ).Exclusive where
  attended _ member := (List.not_mem_nil member).elim
  single := Nat.zero_le 1
  held running := by cases free.symm.trans running
  marked _ held := (Nat.lt_irrefl 0 held).elim

theorem holders_settle {place : Nat} {tenant : Tenant σ}
    (found : tenancy.tenants[place]? = some tenant) (after : Tenant σ) :
    (tenancy.settle place tenant after).holders + (if tenant.holds then 1 else 0) =
      tenancy.holders + (if after.holds then 1 else 0) := by
  rcases List.getElem?_eq_some_iff.mp found with ⟨inside, rfl⟩
  have least := List.boole_getElem_le_countP (p := Tenant.holds) inside
  simp only [holders, settle, List.countP_set inside]
  omega

theorem exclusive_settle (exclusive : tenancy.Exclusive) {place : Nat} {tenant after : Tenant σ}
    (found : tenancy.tenants[place]? = some tenant) (attended : after.agent.Attended)
    (affects : tenant.Affects tenancy.node after) :
    (tenancy.settle place tenant after).Exclusive := by
  have count := holders_settle found after
  have attendedAfter : ∀ other ∈ (tenancy.settle place tenant after).tenants,
      other.agent.Attended := by
    intro other member
    rcases List.mem_or_eq_of_mem_set member with earlier | rfl
    · exact exclusive.attended other earlier
    · exact attended
  have single := exclusive.single
  have stopping : (tenancy.settle place tenant after).stopping =
      ((tenancy.stopping || tenant.agent.asksStop) &&
        0 < (tenancy.settle place tenant after).holders) :=
    rfl
  cases affects with
  | keeps same running =>
      have unchanged : (tenancy.settle place tenant after).holders = tenancy.holders := by
        rw [same] at count
        omega
      refine ⟨attendedAfter, unchanged ▸ single, fun marked => ?_, fun calm held => ?_⟩
      · rw [unchanged]
        exact exclusive.held (running.symm.trans marked)
      · simp only [stopping, held, decide_true, Bool.and_true, Bool.or_eq_false_iff] at calm
        exact running.trans (exclusive.marked calm.1 (unchanged ▸ held))
  | stops same asks stopped =>
      have unchanged : (tenancy.settle place tenant after).holders = tenancy.holders := by
        rw [same] at count
        omega
      refine ⟨attendedAfter, unchanged ▸ single, fun marked => ?_, fun calm held => ?_⟩
      · cases stopped.symm.trans marked
      · simp [stopping, held, asks] at calm
  | frees held gone stopped =>
      -- The one run that held the node has freed it.
      have free : (tenancy.settle place tenant after).holders = 0 := by
        simp only [held, gone, if_true, Bool.false_eq_true, if_false] at count
        omega
      refine ⟨attendedAfter, by omega, fun marked => ?_, fun calm held => ?_⟩
      · cases stopped.symm.trans marked
      · omega

/-- A run that is let in finds the node held by nobody. -/
theorem exclusive_request (exclusive : tenancy.Exclusive) (calm : tenancy.stopping = false)
    (listeners : σ) (board : Board) :
    (tenancy.move audience (.request listeners board)).Exclusive := by
  simp only [move]
  split
  next node claimed =>
    rcases Node.claim_eq_ok claimed with ⟨free, rfl⟩
    have nobody : tenancy.holders = 0 := by
      have marked := exclusive.marked calm
      rw [free] at marked
      simpa using marked
    have count (tenant : Tenant σ) (holds : tenant.holds = true) :
        (tenancy.tenants ++ [tenant]).countP Tenant.holds = 1 := by
      rw [List.countP_append, List.countP_singleton, if_pos holds, Nat.add_eq_right]
      exact nobody
    refine ⟨fun tenant member => ?_, Nat.le_of_eq (count _ rfl), fun _ => ?_, fun _ _ => rfl⟩
    · rcases List.mem_append.mp member with earlier | latest
      · exact exclusive.attended tenant earlier
      · cases List.mem_singleton.mp latest
        trivial
    · rw [holders, count _ rfl]
      exact Nat.one_pos
  next => exact exclusive

theorem exclusive_move (steady : audience.Steady) (exclusive : tenancy.Exclusive) {next : Move σ}
    (timely : tenancy.isTimely next = true) :
    (tenancy.move audience next).Exclusive := by
  cases next with
  | request listeners board =>
      have calm : tenancy.stopping = false := by simpa [isTimely] using timely
      exact exclusive_request exclusive calm listeners board
  | stop =>
      refine ⟨exclusive.attended, exclusive.single, nofun, fun calm held => ?_⟩
      cases (decide_eq_false_iff_not.mp calm) held
  | advance place board =>
      simp only [move]
      split
      next tenant found =>
        cases advances : tenant.advance audience tenancy.node board with
        | none => exact exclusive
        | some after =>
            have attended := exclusive.attended tenant (List.mem_of_getElem? found)
            exact exclusive_settle exclusive found
              (Tenant.attended_advance steady attended advances)
              (Tenant.affects_advance attended advances)
      next => exact exclusive
  | expire place board =>
      simp only [move]
      split
      next tenant found =>
        cases expires : tenant.expire tenancy.node board with
        | none => exact exclusive
        | some after =>
            have attended := exclusive.attended tenant (List.mem_of_getElem? found)
            exact exclusive_settle exclusive found (Tenant.attended_expire attended expires)
              (Tenant.affects_expire expires)
      next => exact exclusive

theorem exclusive_run (steady : audience.Steady) (exclusive : tenancy.Exclusive)
    {moves : List (Move σ)} (orderly : tenancy.isOrderly audience moves = true) :
    (tenancy.run audience moves).Exclusive := by
  induction moves generalizing tenancy with
  | nil => exact exclusive
  | cons next moves induction =>
      rcases (Bool.and_eq_true _ _).mp orderly with ⟨timely, rest⟩
      exact induction (exclusive_move steady exclusive timely) rest

end Tenancy

/-- A node has at most one run at a time. As long as nobody asks for a run
between a stop and the end of the run that it is meant for, no two runs hold the
node, and whoever asks for a run while one holds it is refused. -/
theorem runs_exclusive {σ : Type} {audience : Audience σ} (steady : audience.Steady)
    (program : Program) (file : RegisterFile) (logger : Option Logger)
    {moves : List (Tenancy.Move σ)}
    (orderly : (Tenancy.vacant (.ofProgram program file logger)).isOrderly audience moves = true)
    {tenancy : Tenancy σ}
    (reached : (Tenancy.vacant (.ofProgram program file logger)).run audience moves = tenancy) :
    tenancy.holders ≤ 1 ∧
    (tenancy.stopping = false →
      (tenancy.node.claim = .error .alreadyRunning ↔ tenancy.holders = 1)) := by
  have exclusive : tenancy.Exclusive := by
    rw [← reached]
    exact Tenancy.exclusive_run steady (Tenancy.exclusive_vacant rfl) orderly
  refine ⟨exclusive.single, fun calm => ?_⟩
  rw [Node.claim_eq_error_iff]
  refine ⟨fun running => ?_, fun held => exclusive.marked calm (held ▸ Nat.one_pos)⟩
  exact Nat.le_antisymm exclusive.single (exclusive.held running)

/-- A second run is refused while the first one has not freed the node, and is
let in while the first one tells its listeners that it has stopped. -/
theorem runs_exclusive_twice :
    let board := Board.ofInput [] 0
    let file := (defaultRegisters 500).2
    let program : Program := ⟨#[⟨.stop, false, 1⟩], [], (defaultRegisters 500).1⟩
    let vacant : Tenancy Unit := .vacant (.ofProgram program file none)
    let request := Tenancy.Move.request () board
    let moves := request :: List.replicate 5 (.advance 0 board) ++
      [request, .advance 0 board, request, .stop]
    let tenancy := vacant.run Audience.silent moves
    vacant.isOrderly Audience.silent moves = true ∧ tenancy.tenants.length = 2 ∧
      tenancy.holders ≤ 1 := by
  intro board file program vacant request moves tenancy
  have orderly : vacant.isOrderly Audience.silent moves = true := by decide +kernel
  have entered : tenancy.tenants.length = 2 := by decide +kernel
  exact ⟨orderly, entered,
    (runs_exclusive Audience.silent_steady program file none orderly rfl).1⟩

/-- Two runs of a node may be live. A run that has freed the node but has not
come back can meet the next one, and so can a run that was told to stop and has
not looked at the mark since. -/
theorem live_runs_meet :
    let board := Board.ofInput [] 0
    let table := (defaultRegisters 500).1
    let file := (defaultRegisters 500).2
    let ending : Program := ⟨#[⟨.stop, false, 1⟩], [], table⟩
    let idling : Program := ⟨#[⟨.noOperation, false, 1⟩], [], table⟩
    let vacant (program : Program) : Tenancy Unit := .vacant (.ofProgram program file none)
    let request := Tenancy.Move.request () board
    (Program.parse .empty board .default none "end").result = .ok (ending, file) ∧
      (Program.parse .empty board .default none "nop").result = .ok (idling, file) ∧
      ((vacant ending).run Audience.silent
        (request :: List.replicate 6 (.advance 0 board) ++ [request])).live = 2 ∧
      ((vacant idling).run Audience.silent
        [request, .advance 0 board, .stop, request]).live = 2 := by
  decide +kernel

end NodeAssembly
