import NodeAssembly.Compiler
import NodeAssembly.Proofs.Node.Interference
import NodeAssembly.Proofs.Program.Construction
import NodeAssembly.Proofs.Program.Labels

/-! How the nodes of a compiler are wired. A pin keeps the channel that it was
bound to, and a channel its kind, so that all nodes agree on what a channel is.
Nothing that is compiled puts a value on a bus or a reference into a register. -/

namespace NodeAssembly

namespace Board

/-- The kind of a channel. -/
def kind? (board : Board) (channel : Nat) : Option PinKind :=
  (board.channels[channel]?).map Channel.kind

end Board

/-- Every wire of the registers is to a channel of the kind that it has on the
board. -/
def RegisterFile.Fits (board : Board) (file : RegisterFile) : Prop :=
  ∀ register kind channel, file.wire? register = some (.pin kind channel) →
    board.kind? channel = some kind

/-- Every pin is bound to a channel of its kind. -/
def PinRegistry.Fits (board : Board) (registry : PinRegistry) : Prop :=
  ∀ binding ∈ registry.bindings, board.kind? binding.channel = some binding.kind

/-- The channels of the first board are all there on the second one. -/
def Board.Expands (before after : Board) : Prop :=
  ∀ channel kind, before.kind? channel = some kind → after.kind? channel = some kind

theorem Board.Expands.trans {first second third : Board} (start : first.Expands second)
    (next : second.Expands third) : first.Expands third :=
  fun channel kind found => next channel kind (start channel kind found)

/-- What holds while a program is assembled on a board that was `start`. -/
structure Assembler.Wired (start : Board) (assembler : Assembler) : Prop where
  expands : start.Expands assembler.board
  clean : assembler.board.Flat
  bound : assembler.registry.Fits assembler.board
  flat : assembler.file.Flat
  pins : assembler.file.Fits assembler.board

theorem RegisterFile.state_create (file : RegisterFile) (name : String) (state : Register)
    (register : RegisterRef) :
    (file.create name state).2.state register = file.state register ∨
      (file.create name state).2.state register = state := by
  unfold RegisterFile.state create
  rw [Array.getElem?_push]
  split
  · exact .inr rfl
  · exact .inl rfl

theorem RegisterFile.Flat.create {file : RegisterFile} (flat : file.Flat) (name : String)
    {state : Register} (stateFlat : state.Flat) : RegisterFile.Flat (file.create name state).2 := by
  intro register
  rcases file.state_create name state register with old | new
  · rw [old]
    exact flat register
  · rw [new]
    exact stateFlat

/-- A channel that a pin gets from the registry: the one it is bound to, or a
new one. -/
theorem PinRegistry.channel_eq_ok {registry after : PinRegistry} {channels channelsAfter : Channels}
    {pin channel : Nat} {kind : PinKind}
    (bound : registry.channel channels pin kind = (.ok channel, after, channelsAfter)) :
    (⟨pin, kind, channel⟩ ∈ registry.bindings ∧ after = registry ∧ channelsAfter = channels) ∨
    (registry.find? pin = none ∧ channel = channels.size ∧
      after = ⟨registry.bindings ++ [⟨pin, kind, channel⟩]⟩ ∧
      channelsAfter = channels.push (.fresh pin kind)) := by
  unfold PinRegistry.channel at bound
  split at bound
  next binding found =>
    split at bound
    next same =>
      have isPin : binding.pin = pin := by simpa using List.find?_some found
      cases bound
      subst same isPin
      exact .inl ⟨List.mem_of_find?_eq_some found, rfl, rfl⟩
    next => cases bound
  next unbound =>
    cases bound
    exact .inr ⟨unbound, rfl, rfl, rfl⟩

namespace Board

variable {board : Board} {pin : Nat} {kind : PinKind}

theorem kind?_push (board : Board) (channel : Channel) (index : Nat) :
    ({ board with channels := board.channels.push channel } : Board).kind? index =
      if index = board.channels.size then some channel.kind else board.kind? index := by
  rw [kind?, Array.getElem?_push]
  split <;> rfl

theorem kind_fresh (pin : Nat) (kind : PinKind) : (Channel.fresh pin kind).kind = kind := by
  cases kind <;> rfl

theorem expands_push (board : Board) (channel : Channel) :
    board.Expands { board with channels := board.channels.push channel } := by
  intro index kind found
  rw [kind?_push]
  split
  next outside =>
    rw [outside, kind?, Array.getElem?_eq_none (Nat.le_refl _)] at found
    cases found
  next => exact found

theorem Flat.push (flat : board.Flat) :
    Flat { board with channels := board.channels.push (.fresh pin kind) } := by
  intro index busPin slot value found waiting
  rw [Array.getElem?_push] at found
  split at found
  · -- A bus starts out empty.
    cases kind with
    | power => cases found
    | xbus =>
        cases found
        cases waiting
  · exact flat index busPin slot value found waiting

end Board

namespace Assembler.Wired

variable {start : Board} {before after : Assembler}

/-- Only the pins, the channels and the registers matter. -/
theorem of_eq (wired : before.Wired start) (registry : after.registry = before.registry)
    (channels : after.board.channels = before.board.channels) (file : after.file = before.file) :
    after.Wired start := by
  have kinds : after.board.kind? = before.board.kind? := by
    unfold Board.kind?
    rw [channels]
  constructor
  · rw [Board.Expands, kinds]
    exact wired.expands
  · exact wired.clean.of_channels channels
  · rw [PinRegistry.Fits, kinds, registry]
    exact wired.bound
  · rw [file]
    exact wired.flat
  · rw [RegisterFile.Fits, kinds, file]
    exact wired.pins

theorem create (wired : before.Wired start) (name : String) {state : Register} (flat : state.Flat)
    (fits : ∀ kind channel, state.wire? = some (.pin kind channel) →
      before.board.kind? channel = some kind) :
    (before.create name state).2.Wired start where
  expands := wired.expands
  clean := wired.clean
  bound := wired.bound
  flat := wired.flat.create name flat
  pins := by
    intro register kind channel wire
    change ((before.file.create name state).2.state register).wire? = _ at wire
    rcases before.file.state_create name state register with old | new
    · rw [old] at wire
      exact wired.pins register kind channel wire
    · rw [new] at wire
      exact fits kind channel wire

theorem expand (wired : before.Wired start) {board : Board} {registry : PinRegistry}
    (expands : before.board.Expands board) (clean : board.Flat) (bound : registry.Fits board) :
    Wired start { before with board := board, registry := registry } where
  expands := wired.expands.trans expands
  clean := clean
  bound := bound
  flat := wired.flat
  pins := fun register kind channel wire => expands _ _ (wired.pins register kind channel wire)

/-- A pin that is looked up has a channel of its kind. -/
theorem connect (wired : before.Wired start) {kind : PinKind} {pin channel : Nat}
    {registry : PinRegistry} {channels : Channels}
    (bound : before.registry.channel before.board.channels pin kind =
      (.ok channel, registry, channels)) :
    (before.connect kind pin registry channels).Wired start ∧
      (before.connect kind pin registry channels).board.kind? channel = some kind := by
  rcases PinRegistry.channel_eq_ok bound with ⟨member, rfl, rfl⟩ | ⟨_, rfl, rfl, rfl⟩
  · exact ⟨wired.of_eq rfl rfl rfl, wired.bound _ member⟩
  · have found : ({ before.board with
        channels := before.board.channels.push (.fresh pin kind) } : Board).kind?
          before.board.channels.size = some kind := by
      rw [Board.kind?_push, if_pos rfl, Board.kind_fresh]
    refine ⟨?_, found⟩
    have expands := before.board.expands_push (.fresh pin kind)
    refine (wired.expand expands wired.clean.push ?_).of_eq rfl rfl rfl
    intro binding member
    rcases List.mem_append.mp member with old | new
    · exact expands _ _ (wired.bound binding old)
    · rw [List.mem_singleton.mp new]
      exact found

theorem of_growth (wired : before.Wired start) (growth : before.Growth after) :
    after.Wired start := by
  cases growth with
  | pin kind pin channel registry channels bound =>
      rcases wired.connect bound with ⟨connected, found⟩
      refine connected.create _ trivial fun other place wire => ?_
      cases wire
      exact found
  | register name state unpinned flat =>
      apply wired.create name flat
      intro kind channel wire
      cases state with
      | pin => cases unpinned
      | input stream =>
          simp only [Register.wire?] at wire
          split at wire <;> cases wire
      | _ => cases wire
  | jump site => exact wired.of_eq rfl rfl rfl

theorem of_builds (wired : before.Wired start) (builds : before.Builds after) :
    after.Wired start := by
  induction builds with
  | refl => exact wired
  | tail _ stride induction =>
      cases stride with
      | grows growth => exact induction.of_growth growth
      | notes labels entries => exact induction.of_eq rfl rfl rfl
      | records message fields => exact induction.of_eq rfl rfl rfl

end Assembler.Wired

/-! ## Programs -/

theorem flat_defaultRegisters (speed : Int32) : (defaultRegisters speed).2.Flat := by
  intro register
  unfold RegisterFile.state
  cases found : (defaultRegisters speed).2[register.cell]? with
  | none => trivial
  | some state =>
      have member := Array.mem_of_getElem? found
      simp only [defaultRegisters, List.mem_toArray, List.mem_cons, List.not_mem_nil, or_false]
        at member
      rcases member with rfl | rfl | rfl | rfl | rfl | rfl | rfl <;> trivial

theorem unpinned_defaultRegisters (speed : Int32) (register : RegisterRef) (kind : PinKind)
    (channel : Nat) : (defaultRegisters speed).2.wire? register ≠ some (.pin kind channel) := by
  unfold RegisterFile.wire? RegisterFile.state
  cases found : (defaultRegisters speed).2[register.cell]? with
  | none => exact nofun
  | some state =>
      have member := Array.mem_of_getElem? found
      simp only [defaultRegisters, List.mem_toArray, List.mem_cons, List.not_mem_nil, or_false]
        at member
      rcases member with rfl | rfl | rfl | rfl | rfl | rfl | rfl <;> exact nofun

/-- What parsing leaves behind on a board. -/
structure Parsed.Wired (board : Board) (parsed : Parsed) : Prop where
  expands : board.Expands parsed.board
  clean : parsed.board.Flat
  bound : parsed.registry.Fits parsed.board
  registers : ∀ program file, parsed.result = .ok (program, file) →
    file.Flat ∧ file.Fits parsed.board

namespace Compiler

/-- A node as it comes from a compiler: not running, with nothing but flat
values in its registers, and wired to channels of the right kinds. -/
structure Fresh (board : Board) (node : Node) : Prop where
  idle : node.running = false
  flat : node.file.Flat
  pins : node.file.Fits board

theorem Fresh.expand {board after : Board} {node : Node} (fresh : Fresh board node)
    (expands : board.Expands after) : Fresh after node :=
  ⟨fresh.idle, fresh.flat, fun register kind channel wire =>
    expands _ _ (fresh.pins register kind channel wire)⟩

end Compiler

namespace Node

end Node

end NodeAssembly
