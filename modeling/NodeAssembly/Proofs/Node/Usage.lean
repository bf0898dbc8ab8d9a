import NodeAssembly.Proofs.Instruction.Footprint
import NodeAssembly.Proofs.Node.Reach

/-! What a node uses outside itself. This can be read off its program and its
registers, and every run of the node keeps to it: no register gets a new wire,
and no reference ever gets into a register or onto a bus, so that a script asks
for nothing but what its instruction names. -/

namespace NodeAssembly

/-- How a node can use a channel or the console. -/
inductive Usage where
  | send (channel : Nat)
  | receive (channel : Nat)
  | power (channel : Nat)
  | console
deriving DecidableEq

namespace Wire

def sending? : Wire → Option Usage
  | .pin .xbus channel => some (.send channel)
  | _ => none

def receiving? : Wire → Option Usage
  | .pin .xbus channel => some (.receive channel)
  | _ => none

/-- The usage of a wire that is no bus, in whatever way. -/
def sharing? : Wire → Option Usage
  | .pin .xbus _ => none
  | .pin .power channel => some (.power channel)
  | .console => some .console

end Wire

namespace Program

def footprint (program : Program) : Footprint :=
  program.entries.toList.foldr
    (fun entry rest => entry.instruction.footprint program.table.accumulator ++ rest) .empty

theorem allows_entry {program : Program} {terms : Terms} (allows : terms.Allows program.footprint)
    {entry : Entry} (member : entry ∈ program.entries) :
    terms.Allows (entry.instruction.footprint program.table.accumulator) := by
  unfold footprint at allows
  have inList : entry ∈ program.entries.toList := Array.mem_toList_iff.mpr member
  generalize program.entries.toList = entries at allows inList
  induction entries with
  | nil => cases inList
  | cons head tail induction =>
      rcases List.mem_cons.mp inList with rfl | inTail
      · exact allows.left
      · exact induction allows.right inTail

end Program

namespace Node

/-- All that the instructions of the node can use: the buses it writes to, those
it reads or observes, and whatever else one of its registers is wired to. -/
def usages (node : Node) : List Usage :=
  let footprint := node.program.footprint
  footprint.targets.filterMap (fun register => (node.file.wire? register).bind Wire.sending?) ++
    (footprint.sources ++ footprint.probes).filterMap
      (fun register => (node.file.wire? register).bind Wire.receiving?) ++
    (footprint.sources ++ footprint.targets ++ footprint.probes).filterMap
      (fun register => (node.file.wire? register).bind Wire.sharing?)

variable {node : Node} {register : RegisterRef} {wire : Wire} {usage : Usage}

/-- The terms of a node: its scripts ask for what the program names and hand on
no references. -/
def terms (node : Node) : Terms where
  asks
    | .read register => register ∈ node.program.footprint.sources
    | .write register value => register ∈ node.program.footprint.targets ∧ value.isFlat
    | .observe register => register ∈ node.program.footprint.probes
    | _ => True
  values value := value.isFlat
  faults _ := True

/-- The terms of those who listen to a run of the node: they ask for registers
that are wired to nothing outside the node. -/
def insideTerms (node : Node) : Terms where
  asks
    | .read register => node.file.wire? register = none
    | .write register value => node.file.wire? register = none ∧ value.isFlat
    | .observe register => node.file.wire? register = none
    | _ => True
  values value := value.isFlat
  faults _ := True

theorem terms_fair (node : Node) : node.terms.Fair where
  stop := trivial
  running := trivial
  sleep _ := trivial
  flat _ flat := flat
  readable _ flat := absurd flat Bool.false_ne_true
  computed _ _ := trivial

theorem terms_allows (node : Node) : node.terms.Allows node.program.footprint where
  reads _ member := member
  writes _ member _ flat := ⟨member, flat⟩
  observes _ member := member
  jumps _ _ := trivial

end Node

/-- The request hands on no reference. -/
def Request.Flat : Request → Prop
  | .write _ value => value.isFlat
  | _ => True

theorem Node.flat_of_asks {node : Node} {request : Request} (asked : node.terms.asks request) :
    request.Flat := by
  cases request with
  | write register value => exact asked.2
  | _ => trivial

theorem Node.flat_of_asks_inside {node : Node} {request : Request}
    (asked : node.insideTerms.asks request) : request.Flat := by
  cases request with
  | write register value => exact asked.2
  | _ => trivial

/-- No value that waits on a bus is a reference. -/
def Board.Flat (board : Board) : Prop :=
  ∀ (index pin : Nat) (slot : Bus.Slot) (value : Value),
    board.channels[index]? = some (.xbus pin slot) → slot.value = some value → value.isFlat

/-- The use that a call makes of its channel. -/
def Bus.Call.usage (channel : Nat) : Bus.Call → Usage
  | .deposit _ => .send channel
  | .confirm _ => .send channel
  | .receive => .receive channel
  | .observe => .receive channel

/-- The call belongs to the request. -/
def Request.Calls (file : RegisterFile) (channel : Nat) : Request → Bus.Call → Prop
  | .read register, .receive => file.wire? register = some (.pin .xbus channel)
  | .write register _, .deposit value =>
    file.wire? register = some (.pin .xbus channel) ∧ value.isFlat
  | .write register _, .confirm _ => file.wire? register = some (.pin .xbus channel)
  | .observe register, .observe => file.wire? register = some (.pin .xbus channel)
  | _, _ => False

/-! ## Values on buses -/

theorem Bus.Slot.step_flat {slot : Bus.Slot} {call : Bus.Call}
    (flat : ∀ value, slot.value = some value → value.isFlat)
    (sends : ∀ value, call = .deposit value → value.isFlat) :
    match slot.step call with
    | .wait => True
    | .proceed next _ => ∀ value, next.value = some value → value.isFlat
    | .finish next received => (∀ value, next.value = some value → value.isFlat) ∧
        ∀ value, received = some value → value.isFlat := by
  have looks := slot.step_looks call
  generalize slot.step call = step at looks
  cases looks with
  | full waiting => trivial
  | deposits free =>
      intro value equal
      cases equal
      exact sends _ rfl
  | early missing => trivial
  | confirms taken => exact ⟨flat, nofun⟩
  | lacks free => trivial
  | receives waiting =>
      refine ⟨nofun, fun value equal => ?_⟩
      cases equal
      exact flat _ waiting
  | misses free => trivial
  | observes waiting => exact ⟨flat, nofun⟩

namespace Board

variable {board after : Board} {channel : Nat} {call : Bus.Call}

theorem Flat.of_channels (flat : board.Flat) (same : after.channels = board.channels) :
    after.Flat := by
  rw [Flat, same]
  exact flat

theorem Flat.of_alike (flat : board.Flat) (alike : board.Alike after) : after.Flat := by
  intro index pin slot value found
  have same : board.channels[index]? = after.channels[index]? := alike.agree (.channel index)
  exact flat index pin slot value (same.trans found)

theorem Flat.withChannel (flat : board.Flat) {replacement : Channel}
    (harmless : ∀ pin slot value, replacement = .xbus pin slot → slot.value = some value →
      value.isFlat) : (board.withChannel channel replacement).Flat := by
  intro index pin slot value found waiting
  by_cases same : channel = index
  · subst same
    rw [Board.withChannel, Array.getElem?_setIfInBounds_self] at found
    split at found
    · exact harmless pin slot value (Option.some.inj found) waiting
    · cases found
  · rw [Board.withChannel, Array.getElem?_setIfInBounds_ne same] at found
    exact flat index pin slot value found waiting

/-- What a step of a call leaves on the bus and hands on. -/
theorem Flat.stepCall (flat : board.Flat)
    (sends : ∀ value, call = .deposit value → value.isFlat) :
    (∀ next, board.stepCall channel call = .proceed after next → after.Flat) ∧
      ∀ received, board.stepCall channel call = .finish after received →
        after.Flat ∧ ∀ value, received = some value → value.isFlat := by
  unfold Board.stepCall bus?
  rcases found : board.channels[channel]? with _ | level | ⟨pin, slot⟩
  · refine ⟨nofun, fun received step => ?_⟩
    cases step
    exact ⟨flat, nofun⟩
  · refine ⟨nofun, fun received step => ?_⟩
    cases step
    exact ⟨flat, nofun⟩
  · have slotFlat := Bus.Slot.step_flat (fun value => flat channel pin slot value found) sends
    simp only
    cases moved : slot.step call with
    | wait => exact ⟨nofun, nofun⟩
    | proceed next call =>
        rw [moved] at slotFlat
        refine ⟨fun other step => ?_, nofun⟩
        cases step
        apply flat.withChannel
        intro _ _ value equal
        cases equal
        exact slotFlat value
    | finish next received =>
        rw [moved] at slotFlat
        refine ⟨nofun, fun other step => ?_⟩
        cases step
        refine ⟨flat.withChannel fun _ _ value equal => ?_, slotFlat.2⟩
        cases equal
        exact slotFlat.1 value

end Board

namespace Site

variable {site after : Site} {register : RegisterRef} {value : Value}

theorem read_board {answer : Except Fault Value}
    (accessed : site.read register = .done answer after) : after.board = site.board := by
  unfold read at accessed
  split at accessed
  case h_6 => cases accessed
  all_goals
    simp only [Access.done.injEq] at accessed
    rcases accessed with ⟨_, rfl⟩
    rfl

theorem write_board {answer : Except Fault Unit} (flat : site.board.Flat)
    (accessed : site.write register value = .done answer after) : after.board.Flat := by
  unfold write at accessed
  split at accessed
  case h_4 =>
    split at accessed
    all_goals
      simp only [Access.done.injEq] at accessed
      rcases accessed with ⟨_, rfl⟩
      exact flat
  case h_5 channel _ =>
    simp only [Access.done.injEq] at accessed
    rcases accessed with ⟨_, rfl⟩
    exact flat.withChannel nofun
  case h_6 => cases accessed
  case h_9 =>
    split at accessed
    all_goals
      simp only [Access.done.injEq] at accessed
      rcases accessed with ⟨_, rfl⟩
      exact flat
  case h_10 =>
    split at accessed
    all_goals
      simp only [Access.done.injEq] at accessed
      rcases accessed with ⟨_, rfl⟩
      exact flat
  all_goals
    simp only [Access.done.injEq] at accessed
    rcases accessed with ⟨_, rfl⟩
    exact flat

end Site

/-! ## Runs -/

namespace Execution

/-- The call that is under way, if any, belongs to the request. -/
def Attends (execution : Execution) (request : Request) : Prop :=
  ∀ channel call, execution.call = some (channel, call) →
    request.Calls execution.node.file channel call

/-- The registers of a run of `origin`: flat, and with no wire that `origin` did
not have. -/
structure Keeps (origin : Node) (execution : Execution) : Prop where
  runs : execution.node.program = origin.program
  flat : execution.node.file.Flat
  wires : ∀ register wire, execution.node.file.wire? register = some wire →
    origin.file.wire? register = some wire

variable {α : Type} {origin : Node} {execution after : Execution} {board boardAfter : Board}
  {request : Request}

theorem Keeps.withFile (keeps : execution.Keeps origin) {file : RegisterFile}
    (settles : execution.node.file.Settles file) : (execution.withFile file).Keeps origin where
  runs := keeps.runs
  flat := settles.flat keeps.flat
  wires := fun register wire found => keeps.wires register wire (settles.wires register wire found)

theorem Keeps.withCall (keeps : execution.Keeps origin) (call : Option (Nat × Bus.Call)) :
    (execution.withCall call).Keeps origin :=
  ⟨keeps.runs, keeps.flat, keeps.wires⟩

theorem Keeps.withTimer (keeps : execution.Keeps origin) (timer : Timer) :
    (execution.withTimer timer).Keeps origin :=
  ⟨keeps.runs, keeps.flat, keeps.wires⟩

/-- What an answer leaves: the call is over, and nothing new is within reach. -/
structure Settled (origin : Node) (after : Execution) (boardAfter : Board) : Prop where
  keeps : after.Keeps origin
  ended : after.call = none
  flat : boardAfter.Flat

/-- What a step without an answer leaves. -/
structure Pending (origin : Node) (request : Request) (after : Execution) (boardAfter : Board) :
    Prop where
  keeps : after.Keeps origin
  attends : after.Attends request
  flat : boardAfter.Flat

theorem attends_of_free (free : execution.call = none) (request : Request) :
    execution.Attends request := by
  intro channel call calling
  rw [free] at calling
  cases calling

theorem sends_flat (attends : execution.Attends request) {channel : Nat} {call : Bus.Call}
    (calling : execution.call = some (channel, call)) :
    ∀ value, call = .deposit value → value.isFlat := by
  rintro value rfl
  have calls := attends channel _ calling
  cases request with
  | write register other => exact calls.2
  | _ => cases calls

/-- A call that goes on still belongs to its request. -/
theorem calls_next (attends : execution.Attends request) {channel : Nat} {call next : Bus.Call}
    (calling : execution.call = some (channel, call))
    (step : board.stepCall channel call = .proceed boardAfter next) :
    request.Calls execution.node.file channel next := by
  have calls := attends channel call calling
  unfold Board.stepCall at step
  split at step
  · cases step
  next pin slot found =>
    have looks := slot.step_looks call
    generalize slot.step call = moved at looks step
    cases looks with
    | deposits free =>
        cases step
        cases request with
        | write register other => exact calls.1
        | _ => cases calls
    | _ => cases step

theorem access_pending (keeps : execution.Keeps origin) (attends : execution.Attends request)
    (flat : board.Flat) {start : Site → Access (Except Fault α)} {received : Option Value → α}
    (starts : ∀ channel call, start (execution.node.site board) = .call channel call →
      request.Calls execution.node.file channel call)
    (moved : execution.access board start received = .moved after boardAfter) :
    Pending origin request after boardAfter := by
  have proceeds := access_proceeds execution board start received
  rw [moved] at proceeds
  cases proceeds with
  | called free accessed =>
      refine ⟨keeps.withCall _, fun channel call calling => ?_, flat⟩
      cases calling
      exact starts _ _ accessed
  | proceeds calling step =>
      refine ⟨keeps.withCall _, fun channel call later => ?_,
        (flat.stepCall (sends_flat attends calling)).1 _ step⟩
      cases later
      exact calls_next attends calling step

theorem respond_pending (keeps : execution.Keeps origin) (attends : execution.Attends request)
    (flat : board.Flat) (harmless : request.Flat)
    (responds : execution.respond board request = .moved after boardAfter) :
    Pending origin request after boardAfter := by
  cases request with
  | read register =>
      rw [respond_read] at responds
      refine access_pending keeps attends flat (fun channel call accessed => ?_) responds
      rcases Site.read_call accessed with ⟨rfl, wired⟩
      exact wired
  | write register value =>
      rw [respond_write] at responds
      refine access_pending keeps attends flat (fun channel call accessed => ?_) responds
      rcases Site.write_call accessed with ⟨rfl, wired⟩
      exact ⟨wired, harmless⟩
  | observe register =>
      rw [respond_observe] at responds
      refine access_pending keeps attends flat (fun channel call accessed => ?_) responds
      rcases Site.observe_call accessed with ⟨rfl, wired⟩
      exact wired
  | sleep ticks =>
      rcases withTimer_of_sleep_moved responds with ⟨timer, rfl, rfl⟩
      exact ⟨keeps.withTimer timer, attends, flat⟩
  | _ => cases responds

theorem access_settled (keeps : execution.Keeps origin) (attends : execution.Attends request)
    (flat : board.Flat) {start : Site → Access (Except Fault α)} {received : Option Value → α}
    {answer : Except Fault α} {admits : Except Fault α → Prop}
    (starts : ∀ answer site, start (execution.node.site board) = .done answer site →
      execution.node.file.Settles site.file ∧ site.board.Flat ∧ admits answer)
    (finishes : ∀ value : Option Value, (∀ found, value = some found → found.isFlat) →
      admits (.ok (received value)))
    (answered : execution.access board start received = .answered answer after boardAfter) :
    Settled origin after boardAfter ∧ admits answer := by
  have proceeds := access_proceeds execution board start received
  rw [answered] at proceeds
  cases proceeds with
  | done free accessed =>
      rcases starts _ _ accessed with ⟨settles, boardFlat, admitted⟩
      exact ⟨⟨keeps.withFile settles, free, boardFlat⟩, admitted⟩
  | finishes calling step =>
      rcases (flat.stepCall (sends_flat attends calling)).2 _ step with ⟨boardFlat, valueFlat⟩
      exact ⟨⟨keeps.withCall _, rfl, boardFlat⟩, finishes _ valueFlat⟩

theorem respond_settled (keeps : execution.Keeps origin) (attends : execution.Attends request)
    (flat : board.Flat) (harmless : request.Flat) {answer : request.Answer}
    (responds : execution.respond board request = .answered answer after boardAfter) :
    Settled origin after boardAfter ∧ origin.terms.Admits request answer := by
  have idle : (∀ channel call, ¬request.Calls execution.node.file channel call) →
      execution.call = none := by
    intro never
    cases calling : execution.call with
    | none => rfl
    | some called => exact absurd (attends called.1 called.2 calling) (never _ _)
  cases request with
  | read register =>
      rw [respond_read] at responds
      refine access_settled keeps attends flat (fun answer site accessed => ?_)
        (fun value valueFlat => ?_) responds
      · rcases Site.read_done accessed with ⟨⟨value, rfl, valueFlat⟩, settles⟩
        exact ⟨settles, flat.of_channels (congrArg _ (Site.read_board accessed)),
          valueFlat keeps.flat⟩
      · cases value with
        | none => rfl
        | some found => exact valueFlat found rfl
  | write register value =>
      rw [respond_write] at responds
      refine access_settled keeps attends flat (fun answer site accessed => ?_)
        (fun _ _ => trivial) responds
      refine ⟨(Site.write_done accessed).2 harmless, Site.write_board flat accessed, ?_⟩
      cases answer <;> trivial
  | observe register =>
      rw [respond_observe] at responds
      refine access_settled keeps attends flat (fun answer site accessed => ?_)
        (fun _ _ => trivial) responds
      rcases Site.observe_done accessed with ⟨rfl, rfl⟩
      exact ⟨.refl _, flat, trivial⟩
  | jump label =>
      have free := idle fun _ _ => id
      simp only [respond, jump] at responds
      split at responds
      · cases responds
        exact ⟨⟨⟨keeps.runs, keeps.flat, keeps.wires⟩, free, flat⟩, trivial⟩
      · cases responds
        exact ⟨⟨keeps, free, flat⟩, trivial⟩
  | stop =>
      have free := idle fun _ _ => id
      cases responds
      exact ⟨⟨⟨keeps.runs, keeps.flat, keeps.wires⟩, free, flat⟩, trivial⟩
  | running =>
      have free := idle fun _ _ => id
      cases responds
      exact ⟨⟨keeps, free, flat⟩, trivial⟩
  | sleep ticks =>
      have free := idle fun _ _ => id
      rcases withTimer_of_sleep_answered responds with ⟨timer, rfl, rfl⟩
      exact ⟨⟨keeps.withTimer timer, free, flat⟩, trivial⟩

theorem Keeps.unwired (keeps : execution.Keeps origin) {register : RegisterRef}
    (inside : origin.file.wire? register = none) :
    execution.node.file.wire? register = none := by
  cases wired : execution.node.file.wire? register with
  | none => rfl
  | some wire =>
      rw [keeps.wires register wire wired] at inside
      cases inside

theorem access_unmoved (free : execution.call = none) {start : Site → Access (Except Fault α)}
    {received : Option Value → α}
    (never : ∀ channel call, start (execution.node.site board) ≠ .call channel call) :
    execution.access board start received ≠ .moved after boardAfter := by
  intro moved
  have proceeds := access_proceeds execution board start received
  rw [moved] at proceeds
  cases proceeds with
  | called _ accessed => exact never _ _ accessed
  | proceeds calling _ =>
      rw [free] at calling
      cases calling

/-- A register that is wired to nothing answers at once, so it is only in a sleep
that a step is made without an answer. -/
theorem respond_inside (keeps : execution.Keeps origin) (free : execution.call = none)
    (asked : origin.insideTerms.asks request)
    (responds : execution.respond board request = .moved after boardAfter) :
    ∃ timer, after = execution.withTimer timer ∧ boardAfter = board := by
  cases request with
  | read register =>
      rw [respond_read] at responds
      refine absurd responds (access_unmoved free fun channel call accessed => ?_)
      have wired := (Site.read_call accessed).2.symm.trans (keeps.unwired asked)
      cases wired
  | write register value =>
      rw [respond_write] at responds
      refine absurd responds (access_unmoved free fun channel call accessed => ?_)
      have wired := (Site.write_call accessed).2.symm.trans (keeps.unwired asked.1)
      cases wired
  | observe register =>
      rw [respond_observe] at responds
      refine absurd responds (access_unmoved free fun channel call accessed => ?_)
      have wired := (Site.observe_call accessed).2.symm.trans (keeps.unwired asked)
      cases wired
  | sleep ticks => exact withTimer_of_sleep_moved responds
  | _ => cases responds

end Execution

/-- Those who listen keep to what is inside the node, now and after whatever they
hear of. -/
def Audience.Discreet {σ : Type} (audience : Audience σ) (node : Node) (listeners : σ) : Prop :=
  ∃ fine : σ → Prop, fine listeners ∧ ∀ running event current, fine current →
    (audience.notify running event current).Keeps node.insideTerms fun result => fine result.1

theorem Audience.Discreet.notify {σ : Type} {audience : Audience σ} {node : Node} {listeners : σ}
    (discreet : audience.Discreet node listeners) (running : Bool) (event : Event) :
    (audience.notify running event listeners).Keeps node.insideTerms
      fun result => audience.Discreet node result.1 := by
  rcases discreet with ⟨fine, now, further⟩
  exact (further running event listeners now).imp fun result later => ⟨fine, later, further⟩

namespace Agent

variable {σ : Type}

/-- What holds at the stages of a run. -/
def InOrder (audience : Audience σ) (origin : Node) (agent : Agent σ) : Prop :=
  match agent.stage with
  | .executing script => Action.Keeps origin.terms (fun _ => True) script ∧
      match script with
      | .ask request _ => agent.execution.Attends request
      | .done _ => agent.execution.call = none
  | .notifying _ script => agent.execution.call = none ∧
      script.Keeps origin.insideTerms fun result => audience.Discreet origin result.1
  | _ => agent.execution.call = none

/-- The invariant of a run of `origin`. -/
structure Within (audience : Audience σ) (origin : Node) (agent : Agent σ) : Prop where
  keeps : agent.execution.Keeps origin
  discreet : audience.Discreet origin agent.listeners
  inOrder : agent.InOrder audience origin

variable {origin : Node} {audience : Audience σ} {agent : Agent σ} {board : Board}

theorem keeps_stop {execution : Execution} (keeps : execution.Keeps origin) :
    Execution.Keeps origin { execution with node := execution.node.stop } :=
  ⟨keeps.runs, keeps.flat, keeps.wires⟩

theorem within_send (discreet : audience.Discreet origin agent.listeners)
    (keeps : agent.execution.Keeps origin) (free : agent.execution.call = none) (event : Event) :
    (agent.send audience event).Within audience origin :=
  ⟨keeps, discreet, free, discreet.notify _ event⟩

theorem within_conclude (discreet : audience.Discreet origin agent.listeners)
    (keeps : agent.execution.Keeps origin) (free : agent.execution.call = none)
    (result : Except Fault Unit) :
    (agent.conclude audience board result).1.Within audience origin := by
  cases result with
  | ok result =>
      apply within_send
      · exact discreet
      · exact keeps_stop keeps
      · exact free
  | error fault =>
      apply within_send
      · exact discreet
      · exact keeps_stop keeps
      · exact free

theorem within_visit (discreet : audience.Discreet origin agent.listeners)
    (keeps : agent.execution.Keeps origin) (free : agent.execution.call = none) :
    (agent.visit audience board).1.Within audience origin := by
  unfold visit
  simp only
  split
  · exact within_conclude discreet keeps free _
  next entry found =>
    split
    · exact within_conclude discreet keeps free _
    · split
      · split
        · exact within_conclude discreet keeps free _
        · apply within_send
          · exact discreet
          · exact ⟨keeps.runs, keeps.flat, keeps.wires⟩
          · exact free
      · refine ⟨⟨keeps.runs, keeps.flat, keeps.wires⟩, discreet, ?_⟩
        rw [keeps.runs] at found ⊢
        have allows := Program.allows_entry origin.terms_allows (Array.mem_of_getElem? found)
        have scriptKeeps := entry.instruction.execute_keeps origin.terms_fair allows
        refine ⟨scriptKeeps, ?_⟩
        split
        · exact Execution.attends_of_free free _
        · exact free

theorem within_resume (discreet : audience.Discreet origin agent.listeners)
    (keeps : agent.execution.Keeps origin) (free : agent.execution.call = none) (event : Event) :
    (agent.resume event).Within audience origin := by
  cases event with
  | executed position opcode =>
      refine ⟨⟨?_, ?_, ?_⟩, discreet, free⟩
      · exact (Node.program_spend _ _).trans keeps.runs
      · exact (Node.file_spend agent.execution.node position).symm ▸ keeps.flat
      · exact (Node.file_spend agent.execution.node position).symm ▸ keeps.wires
  | skipped position => exact ⟨⟨keeps.runs, keeps.flat, keeps.wires⟩, discreet, free⟩
  | stopped => exact ⟨keeps, discreet, free⟩
  | faulted fault => exact ⟨keeps, discreet, free⟩

theorem within_react (keeps : agent.execution.Keeps origin) (free : agent.execution.call = none)
    (event : Event) {listeners : σ} (discreet : audience.Discreet origin listeners)
    (reaction : Reaction) :
    (agent.react board event listeners reaction).1.Within audience origin := by
  unfold react
  simp only
  generalize changed : (if reaction.stop = true then _ else _ : Agent σ) = next
  have same : next.execution.Keeps origin ∧ next.execution.call = none ∧
      audience.Discreet origin next.listeners := by
    rw [← changed]
    split
    · exact ⟨keeps_stop keeps, free, discreet⟩
    · exact ⟨keeps, free, discreet⟩
  split
  · exact ⟨same.1, same.2.2, same.2.1⟩
  · exact within_resume same.2.2 same.1 same.2.1 event

theorem within_stepScript {script next : Script (Except Fault Unit)} {execution : Execution}
    {after : Board} (within : agent.Within audience origin)
    (stage : agent.stage = .executing script) (flat : board.Flat)
    (step : agent.execution.stepScript board script = some (execution, after, next)) :
    Within audience origin { agent with execution := execution, stage := .executing next } ∧
      after.Flat := by
  have inOrder := within.inOrder
  simp only [InOrder, stage] at inOrder
  rcases Execution.stepScript_cases step with
    ⟨request, resume, rfl, ⟨answer, responds, rfl⟩ | ⟨responds, rfl⟩⟩
  · rcases Execution.respond_settled within.keeps inOrder.2 flat
      (Node.flat_of_asks inOrder.1.1) responds with ⟨settled, admitted⟩
    refine ⟨⟨settled.keeps, within.discreet, inOrder.1.2 answer admitted, ?_⟩, settled.flat⟩
    split
    · exact Execution.attends_of_free settled.ended _
    · exact settled.ended
  · have pending := Execution.respond_pending within.keeps inOrder.2 flat
      (Node.flat_of_asks inOrder.1.1) responds
    exact ⟨⟨pending.keeps, within.discreet, inOrder.1, pending.attends⟩, pending.flat⟩

/-- Listeners never wait for another node. -/
theorem within_listenScript {event : Event} {script next : Script (σ × Reaction)}
    {execution : Execution} {after : Board} (within : agent.Within audience origin)
    (stage : agent.stage = .notifying event script) (flat : board.Flat)
    (step : agent.execution.stepScript board script = some (execution, after, next)) :
    Within audience origin { agent with execution := execution, stage := .notifying event next } ∧
      after.Flat := by
  have inOrder := within.inOrder
  simp only [InOrder, stage] at inOrder
  rcases Execution.stepScript_cases step with
    ⟨request, resume, rfl, ⟨answer, responds, rfl⟩ | ⟨responds, rfl⟩⟩
  · rcases inOrder with ⟨free, asked, further⟩
    rcases Execution.respond_settled within.keeps (Execution.attends_of_free free request) flat
      (Node.flat_of_asks_inside asked) responds with ⟨settled, admitted⟩
    have admittedInside : origin.insideTerms.Admits request answer := by
      cases request <;> exact admitted
    exact ⟨⟨settled.keeps, within.discreet, settled.ended, further answer admittedInside⟩,
      settled.flat⟩
  · rcases Execution.respond_inside within.keeps inOrder.1 inOrder.2.1 responds with
      ⟨timer, rfl, rfl⟩
    exact ⟨⟨within.keeps.withTimer timer, within.discreet, inOrder⟩, flat⟩

/-- A step of a run keeps to what its node uses. -/
theorem within_step (within : agent.Within audience origin) (flat : board.Flat)
    {result : Agent σ × Board} (step : agent.step audience board = some result) :
    result.1.Within audience origin ∧ result.2.Flat := by
  have inOrder := within.inOrder
  have discreet := within.discreet
  have noted : ∀ {act : Board → Agent σ × Board}, Aloof act → (act board).2.Flat := by
    intro act aloof
    rcases aloof with ⟨next, note, alike, equal⟩
    rw [equal]
    exact flat.of_alike (alike board)
  cases step_moves step with
  | visits stage =>
      simp only [InOrder, stage] at inOrder
      exact ⟨within_visit discreet within.keeps inOrder, noted (aloof_visit audience agent)⟩
  | faults stage =>
      simp only [InOrder, stage] at inOrder
      exact ⟨within_conclude discreet within.keeps inOrder.2 _,
        noted (aloof_conclude audience agent _)⟩
  | completes stage found =>
      simp only [InOrder, stage] at inOrder
      exact ⟨within_send discreet within.keeps inOrder.2 _, flat⟩
  | leaves stage missing =>
      simp only [InOrder, stage] at inOrder
      exact ⟨within_conclude discreet within.keeps inOrder.2 _,
        noted (aloof_conclude audience agent _)⟩
  | executes stage scriptStep => exact within_stepScript within stage flat scriptStep
  | reacts stage =>
      simp only [InOrder, stage] at inOrder
      exact ⟨within_react within.keeps inOrder.1 _ inOrder.2 _, noted (aloof_react agent _ _ _)⟩
  | notifies stage scriptStep => exact within_listenScript within stage flat scriptStep

end Agent

end NodeAssembly
