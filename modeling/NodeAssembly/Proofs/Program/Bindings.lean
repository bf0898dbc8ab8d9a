import Mathlib.Data.List.Nodup
import NodeAssembly.Proofs.Program.Wiring
import NodeAssembly.Proofs.Text.Numeral

/-! What a registry of pins keeps. A pin that is bound stays bound to the same
channel, no two pins have one channel, and every register with a channel behind
it has the name of the pin that the registry has for this channel. All this
holds after whatever was compiled, with success or without. -/

namespace NodeAssembly

open NodeAssembly.Text

theorem PinKind.registerName_inj {first second : PinKind} {pin other : Nat}
    (same : first.registerName pin = second.registerName other) : first = second ∧ pin = other := by
  have chars := String.ofList_injective same
  rw [List.cons.injEq] at chars
  refine ⟨?_, decimalNat_injective chars.2⟩
  cases first <;> cases second
  · rfl
  · exact absurd chars.1 (by decide)
  · exact absurd chars.1 (by decide)
  · rfl

/-! ## Registries -/

namespace PinRegistry

/-- A registry in order: it has a channel of the right kind for every pin, every
pin is bound once, and every channel serves one pin. -/
structure Sound (board : Board) (registry : PinRegistry) : Prop where
  fits : registry.Fits board
  pins : (registry.bindings.map (·.pin)).Nodup
  channels : (registry.bindings.map (·.channel)).Nodup

variable {board after : Board} {registry : PinRegistry} {pin : Nat} {binding : PinBinding}

theorem sound_empty (board : Board) : empty.Sound board :=
  ⟨nofun, List.nodup_nil, List.nodup_nil⟩

theorem Sound.expand (sound : registry.Sound board) (expands : board.Expands after) :
    registry.Sound after :=
  ⟨fun binding member => expands _ _ (sound.fits binding member), sound.pins, sound.channels⟩

theorem mem_of_find? (found : registry.find? pin = some binding) :
    binding ∈ registry.bindings ∧ binding.pin = pin :=
  ⟨List.mem_of_find?_eq_some found, by simpa using List.find?_some found⟩

theorem Sound.find?_eq_some_iff (sound : registry.Sound board) :
    registry.find? pin = some binding ↔ binding ∈ registry.bindings ∧ binding.pin = pin := by
  constructor
  · exact mem_of_find?
  · rintro ⟨member, rfl⟩
    cases found : registry.find? binding.pin with
    | none =>
        have absent := List.find?_eq_none.mp found binding member
        simp at absent
    | some other =>
        rcases mem_of_find? found with ⟨isOther, samePin⟩
        rw [List.inj_on_of_nodup_map sound.pins isOther member samePin]

theorem Sound.pin_of_channel (sound : registry.Sound board) {first second : PinBinding}
    (isFirst : first ∈ registry.bindings) (isSecond : second ∈ registry.bindings)
    (same : first.channel = second.channel) : first = second :=
  List.inj_on_of_nodup_map sound.channels isFirst isSecond same

/-- What was found among some bindings is found when others were added. -/
theorem find?_extend {larger : PinRegistry} (grows : registry.bindings <+: larger.bindings)
    (found : registry.find? pin = some binding) : larger.find? pin = some binding := by
  rcases grows with ⟨added, whole⟩
  have found : registry.bindings.find? (·.pin == pin) = some binding := found
  rw [find?, ← whole, List.find?_append, found]
  rfl

/-- A pin is refused as something that it is not, and nothing changes by it. -/
theorem channel_of_conflict {channels : Channels} {kind : PinKind}
    (found : registry.find? pin = some binding) (conflict : binding.kind ≠ kind) :
    registry.channel channels pin kind = (.error binding.kind, registry, channels) := by
  simp only [channel, found, if_neg conflict]

/-- A pin that has this kind is not bound again. -/
theorem channel_of_find? {channels : Channels} (found : registry.find? pin = some binding) :
    registry.channel channels pin binding.kind = (.ok binding.channel, registry, channels) := by
  simp only [channel, found, if_true]

theorem channel_eq_error {larger : PinRegistry} {channels channelsAfter : Channels}
    {kind bound : PinKind}
    (refused : registry.channel channels pin kind = (.error bound, larger, channelsAfter)) :
    larger = registry ∧ channelsAfter = channels := by
  unfold channel at refused
  split at refused
  · split at refused <;> cases refused
    exact ⟨rfl, rfl⟩
  · cases refused

/-- A channel has a place below the number of channels. -/
theorem Fits.channel_lt (fits : registry.Fits board) (member : binding ∈ registry.bindings) :
    binding.channel < board.channels.size := by
  have found := fits binding member
  rw [Board.kind?, Option.map_eq_some_iff] at found
  rcases found with ⟨channel, there, _⟩
  exact (Array.getElem?_eq_some_iff.mp there).1

/-- A new channel is no other pin's. -/
theorem Sound.bind_new (sound : registry.Sound board) (free : registry.find? pin = none)
    (kind : PinKind) :
    Sound { board with channels := board.channels.push (.fresh pin kind) }
      ⟨registry.bindings ++ [⟨pin, kind, board.channels.size⟩]⟩ where
  fits := by
    intro binding member
    rcases List.mem_append.mp member with old | new
    · exact board.expands_push (.fresh pin kind) _ _ (sound.fits binding old)
    · rw [List.mem_singleton.mp new, Board.kind?_push, if_pos rfl, Board.kind_fresh]
  pins := by
    rw [List.map_append, List.map_singleton, List.nodup_append]
    refine ⟨sound.pins, List.nodup_singleton pin, ?_⟩
    rintro other isOther place isPlace rfl
    rcases List.mem_map.mp isOther with ⟨binding, member, same⟩
    have different := List.find?_eq_none.mp free binding member
    rw [List.mem_singleton.mp isPlace] at same
    exact different (beq_iff_eq.mpr same)
  channels := by
    rw [List.map_append, List.map_singleton, List.nodup_append]
    refine ⟨sound.channels, List.nodup_singleton _, ?_⟩
    rintro other isOther place isPlace rfl
    rcases List.mem_map.mp isOther with ⟨binding, member, same⟩
    have inside := sound.fits.channel_lt member
    rw [List.mem_singleton.mp isPlace] at same
    exact absurd same (Nat.ne_of_lt inside)

/-- What a request for a pin leaves behind. -/
theorem Sound.channel (sound : registry.Sound board) {kind : PinKind} {channel : Nat}
    {larger : PinRegistry} {channels : Channels}
    (bound : registry.channel board.channels pin kind = (.ok channel, larger, channels)) :
    larger.Sound { board with channels := channels } ∧ registry.bindings <+: larger.bindings ∧
      ⟨pin, kind, channel⟩ ∈ larger.bindings := by
  rcases channel_eq_ok bound with ⟨member, rfl, rfl⟩ | ⟨free, rfl, rfl, rfl⟩
  · exact ⟨sound, List.prefix_refl _, member⟩
  · exact ⟨sound.bind_new free kind, List.prefix_append _ _,
      List.mem_append_right _ (List.mem_singleton.mpr rfl)⟩

end PinRegistry

/-! ## Registers with a channel behind them -/

/-- Every register of the table that has a channel behind it has the name of the
pin that the registry binds to this channel. -/
def RegisterTable.Names (registry : PinRegistry) (table : RegisterTable) (file : RegisterFile) :
    Prop :=
  ∀ register ∈ table.named, ∀ kind channel, file.state register = .pin kind channel →
    ∃ pin, register.name = kind.registerName pin ∧ ⟨pin, kind, channel⟩ ∈ registry.bindings

theorem RegisterTable.Names.extend {registry larger : PinRegistry} {table : RegisterTable}
    {file : RegisterFile} (names : table.Names registry file)
    (grows : registry.bindings <+: larger.bindings) : table.Names larger file := by
  intro register member kind channel state
  rcases names register member kind channel state with ⟨pin, named, bound⟩
  exact ⟨pin, named, grows.subset bound⟩

theorem RegisterTable.mem_insert {table : RegisterTable} {register other : RegisterRef}
    (member : other ∈ (table.insert register).named) :
    other ∈ table.named ∨ other = register := by
  rw [insert] at member
  split at member
  · rcases List.mem_map.mp member with ⟨old, isOld, replaced⟩
    split at replaced
    · exact .inr replaced.symm
    · exact .inl (replaced ▸ isOld)
  · rcases List.mem_append.mp member with old | new
    · exact .inl old
    · exact .inr (List.mem_singleton.mp new)

namespace Assembler

/-- What holds while a program is assembled. -/
structure Bound (assembler : Assembler) : Prop where
  sound : assembler.registry.Sound assembler.board
  inside : ∀ register ∈ assembler.table.named, register.cell < assembler.file.size
  names : assembler.table.Names assembler.registry assembler.file

namespace Bound

variable {before after : Assembler}

theorem of_eq (bound : before.Bound) (registry : after.registry = before.registry)
    (channels : after.board.channels = before.board.channels) (table : after.table = before.table)
    (file : after.file = before.file) : after.Bound where
  sound := by
    rw [registry]
    apply bound.sound.expand
    intro channel kind
    rw [Board.kind?, Board.kind?, channels]
    exact id
  inside := by
    rw [table, file]
    exact bound.inside
  names := by
    rw [table, registry, file]
    exact bound.names

theorem create (bound : before.Bound) (name : String) {state : Register}
    (named : ∀ kind channel, state = .pin kind channel →
      ∃ pin, name = kind.registerName pin ∧ ⟨pin, kind, channel⟩ ∈ before.registry.bindings) :
    (before.create name state).2.Bound where
  sound := bound.sound
  inside := by
    intro register member
    change register.cell < (before.file.push state).size
    rw [Array.size_push]
    rcases RegisterTable.mem_insert member with old | rfl
    · exact Nat.lt_succ_of_lt (bound.inside register old)
    · exact Nat.lt_succ_self _
  names := by
    intro register member kind channel found
    change ((before.file.push state)[register.cell]?).getD .null = .pin kind channel at found
    rcases RegisterTable.mem_insert member with old | rfl
    · -- An old register keeps its state.
      rw [Array.getElem?_push_lt (bound.inside register old),
        ← Array.getElem?_eq_getElem] at found
      exact bound.names register old kind channel found
    · rw [Array.getElem?_push_size] at found
      exact named kind channel found

theorem connect (bound : before.Bound) {kind : PinKind} {pin channel : Nat}
    {registry : PinRegistry} {channels : Channels}
    (asked : before.registry.channel before.board.channels pin kind =
      (.ok channel, registry, channels)) :
    (before.connect kind pin registry channels).Bound ∧
      ⟨pin, kind, channel⟩ ∈ registry.bindings := by
  rcases bound.sound.channel asked with ⟨sound, grows, member⟩
  exact ⟨⟨sound.expand fun _ _ => id, bound.inside, bound.names.extend grows⟩, member⟩

theorem of_growth (bound : before.Bound) (growth : before.Growth after) : after.Bound := by
  cases growth with
  | pin kind pin channel registry channels asked =>
      rcases bound.connect asked with ⟨connected, member⟩
      apply connected.create
      intro other place equal
      cases equal
      exact ⟨pin, rfl, member⟩
  | register name state unpinned flat =>
      apply bound.create
      rintro kind channel rfl
      cases unpinned
  | jump site => exact bound.of_eq rfl rfl rfl rfl

theorem of_builds (bound : before.Bound) (builds : before.Builds after) : after.Bound := by
  induction builds with
  | refl => exact bound
  | tail _ stride induction =>
      cases stride with
      | grows growth => exact induction.of_growth growth
      | notes labels entries => exact induction.of_eq rfl rfl rfl rfl
      | records message fields => exact induction.of_eq rfl rfl rfl rfl

end Bound

/-- Bindings are only ever added. -/
theorem Builds.bindings_grow {before after : Assembler} (builds : before.Builds after) :
    before.registry.bindings <+: after.registry.bindings := by
  induction builds with
  | refl => exact List.prefix_refl _
  | tail _ stride induction =>
      apply induction.trans
      cases stride with
      | grows growth =>
          cases growth with
          | pin kind pin channel registry channels asked =>
              rcases PinRegistry.channel_eq_ok asked with ⟨_, rfl, _⟩ | ⟨_, _, rfl, _⟩
              · exact List.prefix_refl _
              · exact List.prefix_append _ _
          | register name state unpinned flat => exact List.prefix_refl _
          | jump site => exact List.prefix_refl _
      | notes labels entries => exact List.prefix_refl _
      | records message fields => exact List.prefix_refl _

theorem bound_start {registry : PinRegistry} {board : Board} (sound : registry.Sound board)
    (config : Config) (logger : Option Logger) :
    (Assembler.start registry board config logger).Bound where
  sound := sound
  inside := by
    intro register member
    change register ∈ (defaultRegisters config.clockSpeed).1.named at member
    simp only [defaultRegisters, List.mem_cons, List.not_mem_nil, or_false] at member
    change register.cell < 7
    rcases member with rfl | rfl | rfl | rfl | rfl | rfl | rfl <;> decide
  names := by
    intro register _ kind channel state
    have wired : (defaultRegisters config.clockSpeed).2.wire? register =
        some (.pin kind channel) := by
      rw [RegisterFile.wire?]
      exact congrArg Register.wire? state
    exact absurd wired (unpinned_defaultRegisters config.clockSpeed register kind channel)

end Assembler

/-- A program has the registers that it was assembled with. -/
theorem Assembly.table_of_program {items : List Item} {program : Program}
    {before last : Assembler}
    (done : outcome (Assembly.program items) before = (.ok program, last)) :
    program.table = last.table := by
  rcases outcome_bind_eq_ok done with ⟨_, _, _, rest⟩
  rcases outcome_bind_eq_ok rest with ⟨_, _, _, logged⟩
  cases logged
  rfl

/-- What parsing a source text leaves of a registry in order. -/
structure Parsed.Bound (registry : PinRegistry) (parsed : Parsed) : Prop where
  grows : registry.bindings <+: parsed.registry.bindings
  sound : parsed.registry.Sound parsed.board
  names : ∀ program file, parsed.result = .ok (program, file) →
    program.table.Names parsed.registry file

theorem Program.parse_bound {registry : PinRegistry} {board : Board}
    (sound : registry.Sound board) (config : Config) (logger : Option Logger) (source : String) :
    (parse registry board config logger source).Bound registry := by
  have builds := Assembly.constructs_program (Item.ofSource source)
    (Assembler.start registry board config (logger.map (·.within "stage" "parsing")))
  have bound := (Assembler.bound_start sound config
    (logger.map (·.within "stage" "parsing"))).of_builds builds
  refine ⟨builds.bindings_grow, bound.sound, fun program file parsed => ?_⟩
  rcases outcome_of_parse parsed with ⟨last, rfl, done⟩
  have same : (parse registry board config logger source).registry = last.registry :=
    congrArg (·.2.registry) done
  rw [done] at bound
  rw [same, Assembly.table_of_program done]
  exact bound.names

end NodeAssembly
