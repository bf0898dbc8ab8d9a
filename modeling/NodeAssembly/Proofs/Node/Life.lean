import NodeAssembly.Proofs.Node.Exclusion
import NodeAssembly.Proofs.Node.Hearing
import NodeAssembly.Proofs.Node.Logbook

/-! The life of a node. Its runs may overlap, since a run frees the node before
its listeners hear how it ended, and a stop frees it at any time. All runs send
their events to the same listeners. So the events of several runs may be on their
way at the same time, and whatever a listener does while it handles one of them
happens between the moves of the others. -/

namespace NodeAssembly

/-- What a run tells its listeners: the events it has come to, the first one
first, and the round of the last one as long as this is under way. -/
structure Voice where
  events : List Event
  round : Option Nat

/-- A node with its runs, and the record of the events. An event is on record with
the place of its run. The runs have no listeners of their own. -/
structure Life where
  tenancy : Tenancy Unit
  ledger : Ledger (Nat × Event)
  voices : Nat → Voice

/-- What can happen to a node with listeners. What a listener asks for while it
handles an event is a move of its own. -/
inductive Life.Move where
  | register
  | request (board : Board)
  | stop
  /-- The registers are changed by somebody else. -/
  | overwrite (file : RegisterFile)
  | advance (place : Nat) (board : Board)
  | expire (place : Nat) (board : Board)
  /-- A run begins to send the event that it has come to. -/
  | announce (place : Nat)
  /-- The next listener receives the event of a run. -/
  | deliver (place : Nat)
  /-- The listener that has received the event of a run last breaks the run off. -/
  | breakOff (place : Nat) (board : Board)

/-- The run after a listener has broken it off. -/
def Tenant.breakOff (tenant : Tenant Unit) (node : Node) (board : Board) : Tenant Unit :=
  match tenant.agent.stage with
  | .notifying event _ =>
    ⟨((tenant.on node).react board event () { Reaction.none with broken := true }).1, none⟩
  | _ => tenant

namespace Life

/-- A node that was never run. -/
def vacant (node : Node) : Life :=
  ⟨.vacant node, .empty, fun _ => ⟨[], none⟩⟩

def phase? (life : Life) (place : Nat) : Option Phase :=
  life.tenancy.tenants[place]?.map fun tenant => tenant.agent.phase

/-- The round in which the event of a run is on its way. -/
def round? (life : Life) (place : Nat) : Option (Nat × Round (Nat × Event)) :=
  (life.voices place).round.bind fun number => life.ledger.rounds[number]?.map (number, ·)

/-- Whether a run waits for its listeners. -/
def isWaiting (life : Life) (place : Nat) : Bool :=
  match life.phase? place with
  | some (.notifying _) => !(life.round? place).any (·.2.isOver)
  | _ => false

/-- A run has moved, and may have come to an event. -/
def settle (life : Life) (place : Nat) (tenant after : Tenant Unit) : Life where
  tenancy := life.tenancy.settle place tenant after
  ledger := life.ledger
  voices := Function.update life.voices place
    ⟨(life.voices place).events ++ after.agent.phase.event?.toList, none⟩

/-- A run goes on by itself, but not while its event is on its way. -/
def advance (life : Life) (place : Nat) (board : Board) : Life :=
  match life.tenancy.tenants[place]? with
  | some tenant =>
    if life.isWaiting place then life
    else ((tenant.advance .silent life.tenancy.node board).map (life.settle place tenant)).getD life
  | none => life

/-- A round begins with an event of a run. -/
def send (life : Life) (place : Nat) (event : Event) : Life where
  tenancy := life.tenancy
  ledger := life.ledger.send (place, event)
  voices := Function.update life.voices place
    ⟨(life.voices place).events, some life.ledger.rounds.length⟩

def announce (life : Life) (place : Nat) : Life :=
  match life.phase? place, (life.voices place).round with
  | some (.notifying event), none => life.send place event
  | _, _ => life

def deliver (life : Life) (place : Nat) : Life :=
  match life.round? place with
  | some (number, round) =>
    match round.ahead with
    | listener :: _ => { life with ledger := life.ledger.deliver number listener }
    | [] => life
  | none => life

def breakOff (life : Life) (place : Nat) (board : Board) : Life :=
  match life.tenancy.tenants[place]?, life.round? place with
  | some tenant, some (number, round) =>
    match round.receivers.getLast? with
    | some listener =>
      { life.settle place tenant (tenant.breakOff life.tenancy.node board) with
        ledger := life.ledger.breakOff number listener }
    | none => life
  | _, _ => life

def move (life : Life) : Move → Life
  | .register => { life with ledger := life.ledger.register 1 }
  | .request board => { life with tenancy := life.tenancy.move .silent (.request () board) }
  | .stop => { life with tenancy := life.tenancy.move .silent .stop }
  | .overwrite file =>
    { life with tenancy :=
      { life.tenancy with node := { life.tenancy.node with file := file } } }
  | .advance place board => life.advance place board
  | .expire place board =>
    { life with tenancy := life.tenancy.move .silent (.expire place board) }
  | .announce place => life.announce place
  | .deliver place => life.deliver place
  | .breakOff place board => life.breakOff place board

def run (life : Life) (moves : List Move) : Life :=
  moves.foldl move life

/-- The events that a run has sent. -/
def told (life : Life) (place : Nat) : List Event :=
  (life.ledger.sent.filter (·.1 == place)).map Prod.snd

/-- The event that a run has come to but not begun to send. -/
def unsaid (life : Life) (place : Nat) : List Event :=
  match (life.voices place).round with
  | some _ => []
  | none => ((life.phase? place).bind Phase.event?).toList

/-- Whether a round is about an event of a run. -/
def Utters (life : Life) (place number : Nat) (round : Round (Nat × Event)) : Prop :=
  life.ledger.rounds[number]? = some round ∧ round.event.1 = place

end Life

/-! ## The events of a run -/

/-- No event ends the run. -/
def Event.Lasting (events : List Event) : Prop :=
  ∀ event ∈ events, event.isFinal = false

/-- What the events of a run say about where the run is. -/
def Phase.Tells : Phase → List Event → Prop
  | .visiting, events => Event.Lasting events
  | .executing, events => Event.Lasting events
  | .notifying event, events => ∃ earlier, events = earlier ++ [event] ∧ Event.Lasting earlier
  | .finished (.returned result), events =>
    ∃ earlier, events = earlier ++ [Diary.closing result] ∧ Event.Lasting earlier
  | .finished .broken, events => ∃ earlier last, events = earlier ++ [last] ∧ Event.Lasting earlier

namespace Agent

variable {agent : Agent Unit} {board : Board} {events : List Event}

/-- The listeners have nothing to ask for. -/
def Silent (agent : Agent Unit) : Prop :=
  ∀ event script, agent.stage = .notifying event script → script = .done ((), .none)

theorem silent_send (agent : Agent Unit) (event : Event) : (agent.send .silent event).Silent := by
  rintro _ _ ⟨⟩
  rfl

/-- What a step adds to the events of the run. -/
structure Adds (events : List Event) (after : Agent Unit) : Prop where
  silent : after.Silent
  tells : after.phase.Tells (events ++ after.phase.event?.toList)

theorem adds_nothing {after : Agent Unit} (silent : after.Silent)
    (quiet : after.phase.event? = none) (tells : after.phase.Tells events) : Adds events after := by
  refine ⟨silent, ?_⟩
  rwa [quiet, Option.toList_none, List.append_nil]

theorem adds_send (lasting : Event.Lasting events) (agent : Agent Unit) (event : Event) :
    Adds events (agent.send .silent event) :=
  ⟨silent_send agent event, events, rfl, lasting⟩

theorem adds_conclude (lasting : Event.Lasting events) (agent : Agent Unit) (board : Board)
    (result : Except Fault Unit) : Adds events (agent.conclude .silent board result).1 := by
  cases result <;> exact adds_send lasting _ _

theorem adds_visit (lasting : Event.Lasting events) (agent : Agent Unit) (board : Board) :
    Adds events (agent.visit .silent board).1 := by
  have finds := agent.visit_finds .silent board
  generalize agent.visit .silent board = result at finds ⊢
  cases finds with
  | spent found running spent lacking => exact adds_send lasting _ _
  | fresh found running fresh =>
      exact adds_nothing nofun rfl lasting
  | _ => exact adds_conclude lasting _ _ _

theorem lasting_append {event : Event} (lasting : Event.Lasting events)
    (goesOn : event.isFinal = false) : Event.Lasting (events ++ [event]) := by
  intro other member
  rcases List.mem_append.mp member with before | latest
  · exact lasting other before
  · rw [List.mem_singleton.mp latest]
    exact goesOn

theorem adds_resume {event : Event} (tells : (Phase.notifying event).Tells events)
    (agent : Agent Unit) : Adds events (agent.resume event) := by
  rcases tells with ⟨earlier, rfl, lasting⟩
  cases event with
  | executed position opcode => exact adds_nothing nofun rfl (lasting_append lasting rfl)
  | skipped position => exact adds_nothing nofun rfl (lasting_append lasting rfl)
  | stopped => exact adds_nothing nofun rfl ⟨earlier, rfl, lasting⟩
  | faulted fault => exact adds_nothing nofun rfl ⟨earlier, rfl, lasting⟩

theorem adds_step (silent : agent.Silent) (tells : agent.phase.Tells events)
    {result : Agent Unit × Board} (step : agent.step .silent board = some result) :
    Adds events result.1 := by
  unfold phase at tells
  cases step_moves step with
  | visits stage =>
      rw [stage] at tells
      exact adds_visit tells agent board
  | faults stage =>
      rw [stage] at tells
      exact adds_conclude tells agent board _
  | completes stage found =>
      rw [stage] at tells
      exact adds_send tells agent _
  | leaves stage missing =>
      rw [stage] at tells
      exact adds_conclude tells agent board _
  | executes stage scriptStep =>
      rw [stage] at tells
      exact adds_nothing nofun rfl tells
  | reacts stage =>
      rw [stage] at tells
      cases silent _ _ stage
      exact adds_resume tells _
  | notifies stage scriptStep =>
      cases silent _ _ stage
      cases scriptStep

theorem silent_expire (silent : agent.Silent) {result : Agent Unit × Board}
    (expires : agent.expire board = some result) :
    result.1.phase = agent.phase ∧ result.1.Silent := by
  cases expire_givesUp expires with
  | executes stage scriptStep => exact ⟨(congrArg Stage.phase stage).symm, nofun⟩
  | notifies stage scriptStep =>
      cases silent _ _ stage
      cases scriptStep

end Agent

namespace Tenant

variable {tenant after : Tenant Unit} {node : Node} {board : Board} {events : List Event}

/-- The run has no listeners of its own, and has come to no event while it is
about to leave its loop. -/
structure Plain (tenant : Tenant Unit) : Prop where
  silent : tenant.agent.Silent
  leaving : tenant.left.isSome = true →
    tenant.agent.phase = .visiting ∨ tenant.agent.phase = .executing

theorem lasting_of_inLoop {phase : Phase} (inLoop : phase = .visiting ∨ phase = .executing)
    (tells : phase.Tells events) : Event.Lasting events := by
  rcases inLoop with rfl | rfl <;> exact tells

theorem tells_of_inLoop {phase : Phase} (inLoop : phase = .visiting ∨ phase = .executing)
    (lasting : Event.Lasting events) : phase.Tells (events ++ phase.event?.toList) := by
  rcases inLoop with rfl | rfl <;> exact (List.append_nil events).symm ▸ lasting

theorem tells_advance (plain : tenant.Plain) (tells : tenant.agent.phase.Tells events)
    (advances : tenant.advance .silent node board = some after) :
    after.Plain ∧ after.agent.phase.Tells (events ++ after.agent.phase.event?.toList) := by
  unfold advance at advances
  simp only at advances
  split at advances
  next result left =>
    cases advances
    have lasting := lasting_of_inLoop (plain.leaving (left ▸ rfl)) tells
    have adds := Agent.adds_conclude lasting (tenant.on node) board result
    exact ⟨⟨adds.silent, nofun⟩, adds.tells⟩
  next result left leaves =>
    cases advances
    have inLoop := Agent.phase_of_leaves leaves
    exact ⟨⟨plain.silent, fun _ => inLoop⟩, tells_of_inLoop inLoop (lasting_of_inLoop inLoop tells)⟩
  next left leaves =>
    rcases Option.map_eq_some_iff.mp advances with ⟨result, step, rfl⟩
    have silent : (tenant.on node).Silent := plain.silent
    have adds := Agent.adds_step silent tells step
    exact ⟨⟨adds.silent, nofun⟩, adds.tells⟩

theorem plain_expire (plain : tenant.Plain) (expires : tenant.expire node board = some after) :
    after.Plain ∧ after.agent.phase = tenant.agent.phase := by
  rcases Option.map_eq_some_iff.mp expires with ⟨result, step, rfl⟩
  have silent : (tenant.on node).Silent := plain.silent
  rcases Agent.silent_expire silent step with ⟨same, still⟩
  have phase : result.1.phase = tenant.agent.phase := same
  exact ⟨⟨still, fun leaving => phase.symm ▸ plain.leaving leaving⟩, phase⟩

/-- A run that has come to its end does not move. -/
theorem advance_of_finished (plain : tenant.Plain) {ending : Ending}
    (finished : tenant.agent.phase = .finished ending) :
    tenant.advance .silent node board = none := by
  have stage : tenant.agent.stage = .finished ending := by
    unfold Agent.phase at finished
    cases stage : tenant.agent.stage with
    | finished other =>
        rw [stage] at finished
        cases finished
        rfl
    | _ =>
        rw [stage] at finished
        cases finished
  have left : tenant.left = none := by
    cases left : tenant.left with
    | none => rfl
    | some result =>
        rcases plain.leaving (left ▸ rfl) with phase | phase <;> cases finished.symm.trans phase
  simp only [advance, left, Agent.leaves?, Agent.step, on, stage, Option.map_none]

theorem breakOff_ends {event : Event} (phase : tenant.agent.phase = .notifying event) (node : Node)
    (board : Board) :
    (tenant.breakOff node board).agent.phase = .finished .broken ∧
      (tenant.breakOff node board).Plain := by
  unfold Agent.phase at phase
  cases stage : tenant.agent.stage with
  | notifying other script =>
      simp only [breakOff, stage]
      exact ⟨rfl, nofun, nofun⟩
  | _ =>
      rw [stage] at phase
      cases phase

end Tenant

end NodeAssembly
