import NodeAssembly.Proofs.Program.Wiring

/-! References are never stored. Nodes are compiled, and any number of threads
use their registers: they read and write them, resolve and combine values, and
execute instructions, each with references to whatever register it likes. Every
access is made in single steps, in between which the others may do the same.
Still no register and no bus ever holds a reference, no register is ever read as
one, and no operator ever gets to see one. -/

namespace NodeAssembly

/-! ## Resolving -/

namespace Action

/-- Applies an operator to two operands once both are resolved. -/
def compute {β : Type} (operator : Value → Value → Except Fault β) (left right : Value) :
    Action β := do
  let left ← resolve left
  let right ← resolve right
  liftM (operator left right)

theorem combine_eq_compute (operator : Value → Value → Except Fault Value) :
    combine operator = compute operator := rfl

theorem order_eq_compute : order = compute fun left right => .ok (left.order right) := rfl

/-- What is no reference is resolved without asking for anything. -/
theorem resolve_of_isFlat {value : Value} (flat : value.isFlat) : resolve value = pure value := by
  cases value with
  | ref register => cases flat
  | _ => rfl

end Action

def Fault.isDesynchronized : Fault → Bool
  | .desynchronized _ _ => true
  | _ => false

namespace Terms

/-- The terms of those who only read. -/
def reading : Terms where
  asks
    | .read _ => True
    | _ => False
  values value := value.isFlat
  faults fault := fault.isDesynchronized

/-- The terms of those who may ask for anything but to store a reference. -/
def writing : Terms where
  asks request := request.Flat
  values value := value.isFlat
  faults _ := True

theorem writing_fair : writing.Fair where
  stop := trivial
  running := trivial
  sleep _ := trivial
  flat _ flat := flat
  readable _ _ := trivial
  computed _ _ := trivial

theorem writing_allows (footprint : Footprint) : writing.Allows footprint where
  reads _ _ := trivial
  writes _ _ _ flat := flat
  observes _ _ := trivial
  jumps _ _ := trivial

end Terms

theorem Action.resolve_keeps (value : Value) :
    (resolve value).Keeps .reading fun resolved => resolved.isFlat := by
  cases value with
  | ref register => exact keeps_read trivial
  | _ => exact keeps_pure rfl

/-- An operator is applied to resolved operands, unless a bus had a fault. -/
theorem Action.compute_keeps {β : Type} (operator : Value → Value → Except Fault β)
    (left right : Value) :
    Script.Keeps .reading (fun outcome =>
      (∃ first second, first.isFlat ∧ second.isFlat ∧ outcome = operator first second) ∨
        ∃ fault, outcome = .error fault ∧ fault.isDesynchronized) (compute operator left right).run := by
  apply Script.Keeps.bind (resolve_keeps left)
  intro first firstGranted
  cases first with
  | error fault => exact .inr ⟨fault, rfl, firstGranted⟩
  | ok first =>
      apply Script.Keeps.bind (resolve_keeps right)
      intro second secondGranted
      cases second with
      | error fault => exact .inr ⟨fault, rfl, secondGranted⟩
      | ok second => exact .inl ⟨first, second, firstGranted, secondGranted, rfl⟩

/-! ## Deeds -/

/-- What is done with the registers of a node from outside. -/
inductive Deed where
  | get (register : RegisterRef)
  | put (register : RegisterRef) (value : Value)
  | flatten (value : Value)
  | compute (operator : Value → Value → Except Fault Value) (left right : Value)
  | execute (accumulator : RegisterRef) (instruction : Instruction)

namespace Deed

/-- What comes of a deed, with a value if it is for one. -/
abbrev Outcome :=
  Except Fault (Option Value)

/-- The deed as a script. A register that drops what is written does not resolve
it. -/
def script (file : RegisterFile) : Deed → Script Outcome
  | .get register => ExceptT.run do return some (← Action.read register)
  | .put register value => ExceptT.run do
    match file.state register with
    | .null => return none
    | _ =>
      Action.put register value
      return none
  | .flatten value => ExceptT.run do return some (← Action.resolve value)
  | .compute operator left right => ExceptT.run do
    return some (← Action.compute operator left right)
  | .execute accumulator instruction => ExceptT.run do
    instruction.execute accumulator
    return none

def terms : Deed → Terms
  | .put _ _ => .writing
  | .execute _ _ => .writing
  | _ => .reading

/-- What comes of a deed: no reference is read, and none is an operand. Only a
bus can prevent this, by a fault. -/
def Ends : Deed → Outcome → Prop
  | .get _, outcome | .flatten _, outcome =>
    (∃ value, outcome = .ok (some value) ∧ value.isFlat) ∨
      ∃ fault, outcome = .error fault ∧ fault.isDesynchronized
  | .compute operator _ _, outcome =>
    (∃ left right, left.isFlat ∧ right.isFlat ∧ outcome = (operator left right).map some) ∨
      ∃ fault, outcome = .error fault ∧ fault.isDesynchronized
  | .put _ _, _ | .execute _ _, _ => True

/-- A value that is read is handed on as it is. -/
theorem ends_of_grants {outcome : Except Fault Value}
    (granted : Terms.reading.Grants (fun value => value.isFlat) outcome) :
    (∃ value, outcome.map some = .ok (some value) ∧ value.isFlat) ∨
      ∃ fault, outcome.map some = (.error fault : Outcome) ∧ fault.isDesynchronized := by
  cases outcome with
  | ok value => exact .inl ⟨value, rfl, granted⟩
  | error fault => exact .inr ⟨fault, rfl, granted⟩

/-- Handing on a result is no request. -/
theorem keeps_some {terms : Terms} {action : Action Value} {ends : Outcome → Prop}
    (keeps : Script.Keeps terms (fun outcome => ends (outcome.map some)) action.run) :
    Script.Keeps terms ends (ExceptT.run do return some (← action)) := by
  apply Script.Keeps.bind keeps
  intro outcome holds
  cases outcome <;> exact holds

theorem keeps_none {terms : Terms} {action : Action Unit}
    (keeps : action.Keeps terms fun _ => True) :
    Script.Keeps terms (fun _ => True) (ExceptT.run do
      action
      return (none : Option Value)) := by
  apply Script.Keeps.bind keeps
  intro outcome _
  cases outcome <;> trivial

theorem script_keeps (file : RegisterFile) (deed : Deed) :
    (deed.script file).Keeps deed.terms deed.Ends := by
  cases deed with
  | get register =>
      apply keeps_some
      exact Script.Keeps.imp (Action.keeps_read trivial) fun _ => ends_of_grants
  | put register value =>
      rw [script]
      split
      · trivial
      · apply keeps_none
        apply (Action.keeps_resolve Terms.writing_fair fun _ _ => trivial).bind
        intro resolved flat
        exact Action.keeps_write flat
  | flatten value =>
      apply keeps_some
      exact (Action.resolve_keeps value).imp fun _ => ends_of_grants
  | compute operator left right =>
      apply keeps_some
      refine (Action.compute_keeps operator left right).imp fun outcome ends => ?_
      rcases ends with ⟨first, second, firstFlat, secondFlat, rfl⟩ | ⟨fault, rfl, silent⟩
      · exact .inl ⟨first, second, firstFlat, secondFlat, rfl⟩
      · exact .inr ⟨fault, rfl, silent⟩
  | execute accumulator instruction =>
      apply keeps_none
      exact instruction.execute_keeps Terms.writing_fair (Terms.writing_allows _)

end Deed

/-! ## Accesses -/

namespace Request

/-- The value that a register was read as. -/
def reading? : (request : Request) → request.Answer → Option Value
  | .read _, .ok value => some value
  | _, _ => none

/-- A register is not read as a reference. -/
def Yields : (request : Request) → request.Answer → Prop
  | .read _ => Terms.reading.Grants fun value => value.isFlat
  | _ => fun _ => True

theorem Yields.reading {request : Request} {answer : request.Answer} {value : Value}
    (yields : request.Yields answer) (isReading : request.reading? answer = some value) :
    value.isFlat := by
  cases request with
  | read register =>
      cases answer with
      | ok found =>
          cases isReading
          exact yields
      | error fault => cases isReading
  | _ => cases isReading

end Request

theorem Deed.admits_of_yields {deed : Deed} {request : Request} {answer : request.Answer}
    (asked : deed.terms.asks request) (yields : request.Yields answer) :
    deed.terms.Admits request answer := by
  have written : Terms.writing.Admits request answer := by
    cases request with
    | read register =>
        cases answer with
        | ok value => exact yields
        | error fault => trivial
    | write register value => cases answer <;> trivial
    | observe register => cases answer <;> trivial
    | jump label => cases answer <;> trivial
    | _ => trivial
  have read (reads : Terms.reading.asks request) : Terms.reading.Admits request answer := by
    cases request with
    | read register => exact yields
    | _ => cases reads
  cases deed with
  | put register value => exact written
  | execute accumulator instruction => exact written
  | _ => exact read asked

namespace Execution

/-- Neither the registers nor the buses hold a reference, and none is about to
be sent. -/
structure Clean (execution : Execution) (board : Board) : Prop where
  file : execution.node.file.Flat
  board : board.Flat
  sends : ∀ channel value, execution.call = some (channel, .deposit value) → value.isFlat

/-- The response leaves no reference behind, and the answer is as said. -/
def Response.Clean {α : Type} (admits : α → Prop) : Response α → Prop
  | .answered answer execution board => execution.Clean board ∧ admits answer
  | .moved execution board => execution.Clean board
  | .blocked => True

variable {α : Type} {execution after : Execution} {board boardAfter : Board} {request : Request}

theorem Clean.withCall (clean : execution.Clean board) {call : Option (Nat × Bus.Call)}
    (flat : boardAfter.Flat)
    (sends : ∀ channel value, call = some (channel, .deposit value) → value.isFlat) :
    (execution.withCall call).Clean boardAfter :=
  ⟨clean.file, flat, sends⟩

theorem Clean.sends_of_call (clean : execution.Clean board) {channel : Nat} {call : Bus.Call}
    (calling : execution.call = some (channel, call)) :
    ∀ value, call = .deposit value → value.isFlat := by
  rintro value rfl
  exact clean.sends channel value calling

/-- A call that goes on has nothing left to send. -/
theorem stepCall_ne_deposit {channel : Nat} {call : Bus.Call} {value : Value} :
    board.stepCall channel call ≠ .proceed boardAfter (.deposit value) := by
  intro step
  unfold Board.stepCall at step
  split at step
  · cases step
  next pin slot found =>
    have looks := slot.step_looks call
    generalize slot.step call = moved at looks step
    cases looks <;> cases step

/-- An access keeps references out if its beginning does. -/
theorem access_clean (clean : execution.Clean board) {start : Site → Access (Except Fault α)}
    {received : Option Value → α} {admits : Except Fault α → Prop}
    (starts : ∀ answer site, start (execution.node.site board) = .done answer site →
      site.file.Flat ∧ site.board.Flat ∧ admits answer)
    (calls : ∀ channel value, start (execution.node.site board) = .call channel (.deposit value) →
      value.isFlat)
    (finishes : ∀ value : Option Value, (∀ found, value = some found → found.isFlat) →
      admits (.ok (received value))) :
    (execution.access board start received).Clean admits := by
  have proceeds := access_proceeds execution board start received
  generalize execution.access board start received = response at proceeds
  cases proceeds with
  | done free accessed =>
      rcases starts _ _ accessed with ⟨file, flat, admitted⟩
      refine ⟨⟨file, flat, fun channel value calling => ?_⟩, admitted⟩
      cases free.symm.trans calling
  | called free accessed =>
      refine clean.withCall clean.board fun channel value calling => ?_
      cases calling
      exact calls _ _ accessed
  | waits calling waiting => trivial
  | proceeds calling step =>
      refine clean.withCall ((clean.board.stepCall (clean.sends_of_call calling)).1 _ step) fun place value next => ?_
      cases next
      exact absurd step stepCall_ne_deposit
  | finishes calling step =>
      rcases (clean.board.stepCall (clean.sends_of_call calling)).2 _ step with ⟨flat, valueFlat⟩
      exact ⟨clean.withCall flat nofun, finishes _ valueFlat⟩

/-- Registers and buses without references give none away. -/
theorem respond_clean (clean : execution.Clean board) (harmless : request.Flat) :
    (execution.respond board request).Clean request.Yields := by
  cases request with
  | read register =>
      rw [respond_read]
      apply access_clean clean
      · intro answer site accessed
        rcases Site.read_done accessed with ⟨⟨value, rfl, valueFlat⟩, settles⟩
        exact ⟨settles.flat clean.file,
          clean.board.of_channels (congrArg _ (Site.read_board accessed)), valueFlat clean.file⟩
      · intro channel value accessed
        cases (Site.read_call accessed).1
      · intro value valueFlat
        cases value with
        | none => rfl
        | some found => exact valueFlat found rfl
  | write register value =>
      rw [respond_write]
      apply access_clean clean
      · intro answer site accessed
        exact ⟨((Site.write_done accessed).2 harmless).flat clean.file,
          Site.write_board clean.board accessed, trivial⟩
      · intro channel sent accessed
        cases (Site.write_call accessed).1
        exact harmless
      · exact fun _ _ => trivial
  | observe register =>
      rw [respond_observe]
      apply access_clean clean
      · intro answer site accessed
        rcases Site.observe_done accessed with ⟨rfl, rfl⟩
        exact ⟨clean.file, clean.board, trivial⟩
      · intro channel value accessed
        cases (Site.observe_call accessed).1
      · exact fun _ _ => trivial
  | jump label =>
      simp only [respond, jump]
      cases execution.node.program.label? label with
      | none => exact ⟨clean, trivial⟩
      | some target => exact ⟨⟨clean.file, clean.board, clean.sends⟩, trivial⟩
  | stop => exact ⟨⟨clean.file, clean.board, clean.sends⟩, trivial⟩
  | running => exact ⟨clean, trivial⟩
  | sleep ticks =>
      cases responds : execution.respond board (.sleep ticks) with
      | answered answer after boardAfter =>
          rcases withTimer_of_sleep_answered responds with ⟨timer, rfl, rfl⟩
          exact ⟨⟨clean.file, clean.board, clean.sends⟩, trivial⟩
      | moved after boardAfter =>
          rcases withTimer_of_sleep_moved responds with ⟨timer, rfl, rfl⟩
          exact ⟨clean.file, clean.board, clean.sends⟩
      | blocked => trivial

end Execution

/-! ## Compiling -/

/-- Assembling a program brings no reference into the registers or onto a bus. -/
theorem Assembler.Builds.flat {before after : Assembler} (builds : before.Builds after)
    (board : before.board.Flat) (file : before.file.Flat) :
    after.board.Flat ∧ after.file.Flat := by
  induction builds with
  | refl => exact ⟨board, file⟩
  | tail _ stride induction =>
      rcases induction with ⟨boardFlat, fileFlat⟩
      cases stride with
      | grows growth =>
          cases growth with
          | pin kind pin channel registry channels bound =>
              have pinFlat : (Register.pin kind channel).Flat := trivial
              refine ⟨?_, fileFlat.create (kind.registerName pin) pinFlat⟩
              rcases PinRegistry.channel_eq_ok bound with ⟨_, _, rfl⟩ | ⟨_, _, _, rfl⟩
              · exact boardFlat.of_channels rfl
              · exact boardFlat.push.of_channels rfl
          | register name state unpinned flat => exact ⟨boardFlat, fileFlat.create name flat⟩
          | jump site => exact ⟨boardFlat, fileFlat⟩
      | notes labels entries => exact ⟨boardFlat, fileFlat⟩
      | records message fields => exact ⟨boardFlat.of_channels rfl, fileFlat⟩

theorem Compiler.compile_flat {compiler next : Compiler} {board after : Board}
    {result : Except ParseError Node} {source : String}
    (compiled : compiler.compile board source = (result, next, after)) (flat : board.Flat) :
    after.Flat ∧ ∀ node, result = .ok node → node.file.Flat := by
  simp only [compile, Prod.mk.injEq] at compiled
  rcases compiled with ⟨made, rfl, rfl⟩
  have clean := (Assembly.constructs_program (Item.ofSource source) (Assembler.start
    compiler.registry board compiler.config ((compiler.logger.map
      (·.within "node" (Text.natural compiler.compiled))).map (·.within "stage" "parsing")))).flat
        flat (flat_defaultRegisters compiler.config.clockSpeed)
  refine ⟨clean.1, fun node isNode => ?_⟩
  subst isNode
  cases parsed : (Program.parse compiler.registry board compiler.config
    (compiler.logger.map (·.within "node" (Text.natural compiler.compiled))) source).result with
  | error error =>
      rw [parsed] at made
      cases made
  | ok assembled =>
      rw [parsed] at made
      cases made
      rcases Program.outcome_of_parse parsed with ⟨last, same, done⟩
      rw [done, same] at clean
      exact clean.2

/-! ## Threads -/

/-- What an instruction is told by the machine that executes it. -/
structure Machine where
  running : Bool
  jump : Except Fault Unit

def Machine.answer? (machine : Machine) : (request : Request) → Option request.Answer
  | .jump _ => some machine.jump
  | .stop => some ()
  | .running => some machine.running
  | .sleep _ => some ()
  | _ => none

/-- A deed under way at one of the nodes, with the call that it has made. -/
structure Activity where
  node : Nat
  deed : Deed
  script : Script Deed.Outcome
  call : Option (Nat × Bus.Call)

/-- What a step of an activity leads to. -/
structure Progress where
  node : Node
  board : Board
  activity : Activity
  reading : Option Value

namespace Activity

/-- The activity as if it were a run of the node, which finds the registers as
they are now. -/
def execution (activity : Activity) (node : Node) : Execution :=
  (Execution.ofNode node).withCall activity.call

def advance (machine : Machine) (activity : Activity) (node : Node) (board : Board) :
    Option Progress :=
  match activity.script with
  | .done _ => none
  | .ask request resume =>
    match machine.answer? request with
    | some answer => some ⟨node, board, { activity with script := resume answer }, none⟩
    | none =>
      match (activity.execution node).respond board request with
      | .answered answer execution board =>
        some ⟨execution.node, board,
          { activity with script := resume answer, call := execution.call },
          request.reading? answer⟩
      | .moved execution board =>
        some ⟨execution.node, board, { activity with call := execution.call }, none⟩
      | .blocked => none

/-- An activity that waits for a partner gives up. -/
def expire (activity : Activity) (node : Node) (board : Board) : Option Progress :=
  ((activity.execution node).expireScript board activity.script).map
    fun (execution, board, script) =>
      ⟨execution.node, board, { activity with script := script, call := execution.call }, none⟩

end Activity

/-- All nodes that were compiled, what is going on at them, and every value that
a register was read as. -/
structure World where
  compiler : Compiler
  board : Board
  nodes : List Node
  activities : List Activity
  readings : List Value

namespace World

inductive Move where
  | compile (source : String)
  | undertake (node : Nat) (deed : Deed)
  | advance (activity : Nat) (machine : Machine)
  | expire (activity : Nat)

/-- A world where nothing is compiled yet. -/
def facing (config : Config) (logger : Option Logger) (outside : Outside) (input : List UInt8) :
    World :=
  ⟨.ofConfig config logger, .facing outside input, [], [], []⟩

/-- Lets an activity do something, if there is such an activity and it can. -/
def progress (world : World) (index : Nat) (act : Activity → Node → Board → Option Progress) :
    Option World := do
  let activity ← world.activities[index]?
  let node ← world.nodes[activity.node]?
  let progress ← act activity node world.board
  return { world with
    board := progress.board
    nodes := world.nodes.set activity.node progress.node
    activities := world.activities.set index progress.activity
    readings := progress.reading.toList ++ world.readings }

def step (world : World) : Move → World
  | .compile source =>
    let (result, compiler, board) := world.compiler.compile world.board source
    { world with
      compiler := compiler
      board := board
      nodes := world.nodes ++ result.toOption.toList }
  | .undertake place deed =>
    match world.nodes[place]? with
    | some node =>
      { world with
        activities := world.activities ++ [⟨place, deed, deed.script node.file, none⟩] }
    | none => world
  | .advance index machine => (world.progress index (Activity.advance machine)).getD world
  | .expire index => (world.progress index Activity.expire).getD world

def run (world : World) (moves : List Move) : World :=
  moves.foldl step world

end World

/-! ## Threads keep references out -/

structure Activity.Clean (activity : Activity) : Prop where
  keeps : activity.script.Keeps activity.deed.terms activity.deed.Ends
  sends : ∀ channel value, activity.call = some (channel, .deposit value) → value.isFlat

structure Progress.Clean (progress : Progress) : Prop where
  file : progress.node.file.Flat
  board : progress.board.Flat
  activity : progress.activity.Clean
  reading : ∀ value, progress.reading = some value → value.isFlat

theorem Deed.flat_of_asks {deed : Deed} {request : Request} (asked : deed.terms.asks request) :
    request.Flat := by
  have read (reads : Terms.reading.asks request) : request.Flat := by
    cases request with
    | read register => trivial
    | _ => cases reads
  cases deed with
  | put register value => exact asked
  | execute accumulator instruction => exact asked
  | _ => exact read asked

theorem Machine.yields {machine : Machine} {request : Request} {answer : request.Answer}
    (answered : machine.answer? request = some answer) : request.Yields answer := by
  cases request with
  | read register => cases answered
  | _ => trivial

/-- Giving up takes values off a bus at most, and is known by its fault. -/
theorem Board.Flat.expireCall {board : Board} (flat : board.Flat) (channel : Nat)
    (call : Bus.Call) :
    (board.expireCall channel call).1.Flat ∧
      (board.expireCall channel call).2.isDesynchronized := by
  unfold Board.expireCall bus?
  rcases found : board.channels[channel]? with _ | level | ⟨pin, slot⟩
  · exact ⟨flat, rfl⟩
  · exact ⟨flat, rfl⟩
  · refine ⟨?_, rfl⟩
    apply flat.withChannel
    intro _ _ value equal waiting
    cases equal
    cases call with
    | confirm ticket => cases waiting
    | _ => exact flat channel pin slot value found waiting

namespace Activity

variable {activity : Activity} {node : Node} {board : Board} {progress : Progress}

theorem Clean.advance (clean : activity.Clean) (file : node.file.Flat) (flat : board.Flat)
    {machine : Machine} (advanced : activity.advance machine node board = some progress) :
    progress.Clean := by
  rcases activity with ⟨place, deed, script, call⟩
  cases script with
  | done outcome => cases advanced
  | ask request resume =>
      have asked : deed.terms.asks request := clean.keeps.1
      have further {answer : request.Answer} (yields : request.Yields answer) :
          (resume answer).Keeps deed.terms deed.Ends :=
        clean.keeps.2 answer (Deed.admits_of_yields asked yields)
      simp only [Activity.advance] at advanced
      cases told : machine.answer? request with
      | some answer =>
          rw [told] at advanced
          cases advanced
          exact ⟨file, flat, ⟨further (Machine.yields told), clean.sends⟩, nofun⟩
      | none =>
          have before : (execution ⟨place, deed, .ask request resume, call⟩ node).Clean board :=
            ⟨file, flat, clean.sends⟩
          have response := Execution.respond_clean before (Deed.flat_of_asks asked)
          simp only [told] at advanced
          generalize (execution ⟨place, deed, .ask request resume, call⟩ node).respond board
            request = responded at advanced response
          cases responded with
          | answered answer after boardAfter =>
              rcases response with ⟨after, yields⟩
              cases advanced
              exact ⟨after.file, after.board, ⟨further yields, after.sends⟩,
                fun value isReading => yields.reading isReading⟩
          | moved after boardAfter =>
              cases advanced
              exact ⟨response.file, response.board, ⟨clean.keeps, response.sends⟩, nofun⟩
          | blocked => cases advanced

theorem Clean.expire (clean : activity.Clean) (file : node.file.Flat) (flat : board.Flat)
    (expired : activity.expire node board = some progress) : progress.Clean := by
  rcases Option.map_eq_some_iff.mp expired with ⟨⟨execution, after, next⟩, step, rfl⟩
  rcases Execution.expireScript_cases step with
    ⟨request, resume, channel, call, answer, isAsking, calling, rfl, rfl, answered, rfl⟩
  have keeps := clean.keeps
  rw [isAsking] at keeps
  rcases flat.expireCall channel call with ⟨flatAfter, silent⟩
  have yields : request.Yields answer := by
    cases request with
    | read register =>
        cases answered
        exact silent
    | _ => trivial
  exact ⟨file, flatAfter, ⟨keeps.2 answer (Deed.admits_of_yields keeps.1 yields), nofun⟩, nofun⟩

end Activity

namespace World

structure Clean (world : World) : Prop where
  board : world.board.Flat
  nodes : ∀ node ∈ world.nodes, node.file.Flat
  activities : ∀ activity ∈ world.activities, activity.Clean
  readings : ∀ value ∈ world.readings, value.isFlat

variable {world : World}

theorem clean_facing (config : Config) (logger : Option Logger) (outside : Outside)
    (input : List UInt8) : (facing config logger outside input).Clean :=
  ⟨nofun, nofun, nofun, nofun⟩

theorem Clean.progress (clean : world.Clean) (index : Nat)
    {act : Activity → Node → Board → Option Progress}
    (keeps : ∀ {activity node progress}, activity.Clean → node.file.Flat →
      act activity node world.board = some progress → progress.Clean) :
    ((world.progress index act).getD world).Clean := by
  cases progressed : world.progress index act with
  | none => exact clean
  | some after =>
      rcases Option.bind_eq_some_iff.mp progressed with ⟨activity, isActivity, found⟩
      rcases Option.bind_eq_some_iff.mp found with ⟨node, isNode, acted⟩
      rcases Option.bind_eq_some_iff.mp acted with ⟨progress, made, equal⟩
      cases equal
      have next := keeps (clean.activities activity (List.mem_of_getElem? isActivity))
        (clean.nodes node (List.mem_of_getElem? isNode)) made
      refine ⟨next.board, fun other member => ?_, fun other member => ?_, fun value member => ?_⟩
      · rcases List.mem_or_eq_of_mem_set member with old | rfl
        · exact clean.nodes other old
        · exact next.file
      · rcases List.mem_or_eq_of_mem_set member with old | rfl
        · exact clean.activities other old
        · exact next.activity
      · rcases List.mem_append.mp member with new | old
        · exact next.reading value (Option.mem_toList.mp new)
        · exact clean.readings value old

theorem Clean.step (clean : world.Clean) (move : Move) : (world.step move).Clean := by
  cases move with
  | compile source =>
      rcases compiled : world.compiler.compile world.board source with ⟨result, compiler, board⟩
      rcases Compiler.compile_flat compiled clean.board with ⟨flat, made⟩
      simp only [World.step, compiled]
      refine ⟨flat, fun node member => ?_, clean.activities, clean.readings⟩
      rcases List.mem_append.mp member with old | new
      · exact clean.nodes node old
      · cases result with
        | error error => cases new
        | ok first =>
            cases List.mem_singleton.mp new
            exact made _ rfl
  | undertake place deed =>
      simp only [World.step]
      cases world.nodes[place]? with
      | none => exact clean
      | some node =>
          refine ⟨clean.board, clean.nodes, fun activity member => ?_, clean.readings⟩
          rcases List.mem_append.mp member with old | new
          · exact clean.activities activity old
          · cases List.mem_singleton.mp new
            exact ⟨deed.script_keeps node.file, nofun⟩
  | advance index machine =>
      exact clean.progress index fun activity file made => activity.advance file clean.board made
  | expire index =>
      exact clean.progress index fun activity file made => activity.expire file clean.board made

theorem Clean.run (clean : world.Clean) (moves : List Move) : (world.run moves).Clean := by
  induction moves generalizing world with
  | nil => exact clean
  | cons head tail induction => exact induction (clean.step head)

/-- Whatever was compiled and done, in whatever order: no register and no bus
holds a reference, no register was read as one, and nobody is about to write
one. A deed that is over has read, resolved and combined no references; a value
that was resolved once stays as it is when it is resolved again. The operators
and the order of values are applied in no other way than this. -/
theorem references_never_stored (config : Config) (logger : Option Logger) (outside : Outside)
    (input : List UInt8) (moves : List Move) :
    let world := (facing config logger outside input).run moves
    (∀ node ∈ world.nodes, node.file.Flat) ∧ world.board.Flat ∧
    (∀ value ∈ world.readings, value.isFlat) ∧
    (∀ activity ∈ world.activities,
      (∀ outcome, activity.script = .done outcome → activity.deed.Ends outcome) ∧
      ∀ register value resume, activity.script = .ask (.write register value) resume →
        value.isFlat) ∧
    (∀ value, value.isFlat → Action.resolve value = pure value) ∧
    (∀ operator, Action.combine operator = Action.compute operator) ∧
    Action.order = Action.compute fun left right => .ok (left.order right) := by
  intro world
  have clean := (clean_facing config logger outside input).run moves
  refine ⟨clean.nodes, clean.board, clean.readings, fun activity member => ?_,
    fun _ => Action.resolve_of_isFlat, Action.combine_eq_compute, Action.order_eq_compute⟩
  have keeps := (clean.activities activity member).keeps
  refine ⟨fun outcome ended => ?_, fun register value resume writes => ?_⟩
  · rw [ended] at keeps
    exact keeps
  · rw [writes] at keeps
    exact Deed.flat_of_asks keeps.1

/-- The accumulator is put into itself by reference, and then read. -/
example :
    let accumulator : RegisterRef := ⟨"acc", 2⟩
    let machine : Machine := ⟨true, .ok ()⟩
    let world := (facing .default none (.ofEntropy 0) []).run [.compile "add 3",
      .undertake 0 (.execute accumulator (.add (.int 3))), .advance 0 machine, .advance 0 machine,
      .undertake 0 (.put accumulator (.ref accumulator)), .advance 1 machine, .advance 1 machine]
    world.readings = [.int 3, .int 0] ∧
      world.nodes.map (·.file.state accumulator) = [.plain (.int 3)] := by
  decide +kernel

end World

end NodeAssembly
