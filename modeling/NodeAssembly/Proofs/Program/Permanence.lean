import NodeAssembly.Proofs.Program.Bindings

/-! Pins are bound for good. A compiler may parse and compile whatever it is
given, other code may ask its registry for pins, and nodes may use the channels
meanwhile: a pin keeps its kind and its channel, and all programs that name the
pin have this channel. -/

namespace NodeAssembly

open Assembly (outcome)

/-- A channel has its kind whatever it holds. -/
theorem Board.expands_set {board : Board} {index : Nat} {channel : Channel}
    (same : board.kind? index = some channel.kind) :
    board.Expands { board with channels := board.channels.setIfInBounds index channel } := by
  intro place kind found
  rw [kind?, Array.getElem?_setIfInBounds]
  split
  next here =>
    subst here
    rw [found] at same
    rw [kind?, Option.map_eq_some_iff] at found
    rcases found with ⟨old, there, _⟩
    rw [if_pos (Array.getElem?_eq_some_iff.mp there).1]
    exact same.symm
  next => exact found

/-- Wherever a source text asks for a pin as something of this kind, the answer
is what the pin is bound to, and nothing is declared. -/
def Assembler.Refuses (assembler : Assembler) (pin : Nat) (kind bound : PinKind) : Prop :=
  ∀ line : Line,
    let error := ParseError.ofLine line.number line.raw (.pinConflict pin bound)
    outcome (Assembly.declarePin line kind pin) assembler = (.error error, assembler) ∧
    ∀ name, pinOfName? name.toList = some (kind, pin) →
      outcome (Assembly.declareRegister line name) assembler = (.error error, assembler) ∧
      outcome (Assembly.value line (.register name)) assembler = (.error error, assembler)

theorem Assembler.refuses_of_conflict {assembler : Assembler} {pin : Nat} {kind : PinKind}
    {binding : PinBinding} (found : assembler.registry.find? pin = some binding)
    (conflict : binding.kind ≠ kind)
    (unnamed : assembler.table.find? (kind.registerName pin) = none) :
    assembler.Refuses pin kind binding.kind := by
  intro line
  have declared : outcome (Assembly.declarePin line kind pin) assembler =
      (.error (.ofLine line.number line.raw (.pinConflict pin binding.kind)), assembler) := by
    rw [Assembly.declarePin, Assembly.outcome_get_bind]
    simp only [unnamed, PinRegistry.channel_of_conflict found conflict]
    rfl
  refine ⟨declared, fun name isPin => ?_⟩
  have named : Assembly.declareRegister line name = Assembly.declarePin line kind pin := by
    rw [Assembly.declareRegister, isPin]
  refine ⟨named ▸ declared, ?_⟩
  rw [Assembly.value, Assembly.outcome_bind, named, declared]

/-- A compiler at its board, with the programs that it made and the registers
that they start with. -/
structure Workshop where
  compiler : Compiler
  board : Board
  programs : List (Program × RegisterFile)

namespace Workshop

/-- What may happen in a workshop. -/
inductive Use where
  | parse (source : String)
  | compile (source : String)
  /-- The registry is asked for a pin. -/
  | request (pin : Nat) (kind : PinKind)
  /-- A channel changes to what it holds now. -/
  | exchange (index : Nat) (channel : Channel)
  /-- Another registry has a channel made on the same board. -/
  | connect (channel : Channel)

def ofBoard (config : Config) (logger : Option Logger) (board : Board) : Workshop :=
  ⟨.ofConfig config logger, board, []⟩

abbrev registry (workshop : Workshop) : PinRegistry :=
  workshop.compiler.registry

def use (workshop : Workshop) : Use → Workshop
  | .parse source =>
    let (result, compiler, board) := workshop.compiler.parse workshop.board source
    ⟨compiler, board, result.toOption.toList ++ workshop.programs⟩
  | .compile source =>
    let (result, compiler, board) := workshop.compiler.compile workshop.board source
    let made := result.map fun node => (node.program, node.file)
    ⟨compiler, board, made.toOption.toList ++ workshop.programs⟩
  | .request pin kind =>
    let (_, registry, channels) := workshop.registry.channel workshop.board.channels pin kind
    { workshop with
      compiler := { workshop.compiler with registry := registry }
      board := { workshop.board with channels := channels } }
  | .exchange index channel =>
    -- A channel has the same kind whatever it holds.
    if workshop.board.kind? index = some channel.kind then
      { workshop with
        board := { workshop.board with
          channels := workshop.board.channels.setIfInBounds index channel } }
    else workshop
  | .connect channel =>
    { workshop with
      board := { workshop.board with channels := workshop.board.channels.push channel } }

def run (workshop : Workshop) (uses : List Use) : Workshop :=
  uses.foldl use workshop

/-- The registry is in order, and every program that was made has its pins from
it. -/
structure Orderly (workshop : Workshop) : Prop where
  sound : workshop.registry.Sound workshop.board
  names : ∀ made ∈ workshop.programs, made.1.table.Names workshop.registry made.2

variable {workshop : Workshop}

theorem orderly_ofBoard (config : Config) (logger : Option Logger) (board : Board) :
    (ofBoard config logger board).Orderly :=
  ⟨PinRegistry.sound_empty board, nofun⟩

/-- Source texts add pins to the registry and a program or nothing. -/
theorem Orderly.of_parsed (orderly : workshop.Orderly) {parsed : Parsed} {compiler : Compiler}
    (bound : parsed.Bound workshop.registry) (registry : compiler.registry = parsed.registry) :
    Orderly ⟨compiler, parsed.board, parsed.result.toOption.toList ++ workshop.programs⟩ where
  sound := by
    change compiler.registry.Sound parsed.board
    rw [registry]
    exact bound.sound
  names := by
    intro made member
    change made.1.table.Names compiler.registry made.2
    rw [registry]
    rcases List.mem_append.mp member with new | old
    · cases result : parsed.result with
      | error error =>
          rw [result] at new
          cases new
      | ok pair =>
          rw [result] at new
          cases List.mem_singleton.mp new
          exact bound.names _ _ result
    · exact (orderly.names made old).extend bound.grows

theorem Orderly.of_board (orderly : workshop.Orderly) {board : Board}
    (expands : workshop.board.Expands board) : Orderly { workshop with board := board } :=
  ⟨orderly.sound.expand expands, orderly.names⟩

/-- What one use leaves behind. -/
theorem Orderly.use (orderly : workshop.Orderly) (use : Use) :
    (workshop.use use).Orderly ∧
      workshop.registry.bindings <+: (workshop.use use).registry.bindings := by
  cases use with
  | parse source =>
      have bound := Program.parse_bound orderly.sound workshop.compiler.config
        workshop.compiler.logger source
      exact ⟨orderly.of_parsed bound rfl, bound.grows⟩
  | compile source =>
      have bound := Program.parse_bound orderly.sound workshop.compiler.config
        (workshop.compiler.logger.map (·.within "node" (Text.natural workshop.compiler.compiled)))
        source
      have same (result : Except ParseError (Program × RegisterFile))
          (make : Program × RegisterFile → Node)
          (faithful : ∀ made, ((make made).program, (make made).file) = made) :
          ((result.map make).map fun node => (node.program, node.file)) = result := by
        cases result with
        | error error => rfl
        | ok made => exact congrArg Except.ok (faithful made)
      simp only [Workshop.use, Compiler.compile]
      rw [same _ _ fun _ => rfl]
      exact ⟨orderly.of_parsed bound rfl, bound.grows⟩
  | request pin kind =>
      rcases asked : workshop.registry.channel workshop.board.channels pin kind with
        ⟨conflict | channel, registry, channels⟩
      · rcases PinRegistry.channel_eq_error asked with ⟨rfl, rfl⟩
        simp only [Workshop.use, asked]
        exact ⟨orderly, List.prefix_refl _⟩
      · rcases orderly.sound.channel asked with ⟨sound, grows, _⟩
        simp only [Workshop.use, asked]
        exact ⟨⟨sound, fun made member => (orderly.names made member).extend grows⟩, grows⟩
  | exchange index channel =>
      rw [Workshop.use]
      split
      next same => exact ⟨orderly.of_board (Board.expands_set same), List.prefix_refl _⟩
      next => exact ⟨orderly, List.prefix_refl _⟩
  | connect channel =>
      exact ⟨orderly.of_board (workshop.board.expands_push channel), List.prefix_refl _⟩

theorem Orderly.run (orderly : workshop.Orderly) (uses : List Use) :
    (workshop.run uses).Orderly ∧
      workshop.registry.bindings <+: (workshop.run uses).registry.bindings := by
  induction uses generalizing workshop with
  | nil => exact ⟨orderly, List.prefix_refl _⟩
  | cons head tail induction =>
      rcases orderly.use head with ⟨next, grows⟩
      rcases induction next with ⟨last, further⟩
      exact ⟨last, grows.trans further⟩

/-- Registers of one name have one pin behind them, and so one channel. -/
theorem Orderly.channel_unique (orderly : workshop.Orderly) {first second : Program × RegisterFile}
    (isFirst : first ∈ workshop.programs) (isSecond : second ∈ workshop.programs)
    {left right : RegisterRef} (isLeft : left ∈ first.1.table.named)
    (isRight : right ∈ second.1.table.named) (sameName : left.name = right.name)
    {kind other : PinKind} {channel place : Nat} (leftPin : first.2.state left = .pin kind channel)
    (rightPin : second.2.state right = .pin other place) : kind = other ∧ channel = place := by
  rcases orderly.names first isFirst left isLeft kind channel leftPin with ⟨pin, named, bound⟩
  rcases orderly.names second isSecond right isRight other place rightPin with
    ⟨number, alsoNamed, alsoBound⟩
  rw [named, alsoNamed] at sameName
  rcases PinKind.registerName_inj sameName with ⟨rfl, rfl⟩
  have same := List.inj_on_of_nodup_map orderly.sound.pins bound alsoBound rfl
  cases same
  exact ⟨rfl, rfl⟩

/-- Whatever a workshop was used for before and is used for afterwards: a bound
pin keeps its kind and its channel, which no other pin has; it is given to
whoever asks for this kind and refused to whoever asks for the other one; and
every register with a channel is named for the pin that the registry has bound
to it, so that registers of one name have one channel in all programs. -/
theorem bindings_permanent (config : Config) (logger : Option Logger) (board : Board)
    (early late : List Use) :
    let before := (ofBoard config logger board).run early
    let after := before.run late
    (∀ pin binding, before.registry.find? pin = some binding →
      after.registry.find? pin = some binding ∧
      after.board.kind? binding.channel = some binding.kind ∧
      (∀ other found, after.registry.find? other = some found →
        found.channel = binding.channel → other = pin) ∧
      (∀ channels, after.registry.channel channels pin binding.kind =
        (.ok binding.channel, after.registry, channels)) ∧
      ∀ kind, kind ≠ binding.kind →
        (∀ channels, after.registry.channel channels pin kind =
          (.error binding.kind, after.registry, channels)) ∧
        ∀ assembler : Assembler, after.registry.bindings <+: assembler.registry.bindings →
          assembler.table.find? (kind.registerName pin) = none →
          assembler.Refuses pin kind binding.kind) ∧
    (∀ made ∈ after.programs, ∀ register ∈ made.1.table.named, ∀ kind channel,
      made.2.state register = .pin kind channel →
      ∃ pin, register.name = kind.registerName pin ∧
        after.registry.find? pin = some ⟨pin, kind, channel⟩) ∧
    ∀ first ∈ after.programs, ∀ second ∈ after.programs,
      ∀ left ∈ first.1.table.named, ∀ right ∈ second.1.table.named, left.name = right.name →
      ∀ kind channel other place, first.2.state left = .pin kind channel →
        second.2.state right = .pin other place → kind = other ∧ channel = place := by
  intro before after
  have ready := ((orderly_ofBoard config logger board).run early).1
  rcases ready.run late with ⟨orderly, grows⟩
  refine ⟨fun pin binding bound => ?_, fun made member register named kind channel state => ?_,
    fun first isFirst second isSecond left isLeft right isRight same kind channel other place
      leftPin rightPin =>
        orderly.channel_unique isFirst isSecond isLeft isRight same leftPin rightPin⟩
  · have found := PinRegistry.find?_extend grows bound
    rcases PinRegistry.mem_of_find? found with ⟨member, isPin⟩
    refine ⟨found, orderly.sound.fits binding member, fun other taken isTaken same => ?_,
      fun channels => PinRegistry.channel_of_find? found, fun kind conflict => ⟨fun channels =>
        PinRegistry.channel_of_conflict found conflict.symm, fun assembler larger unnamed =>
          Assembler.refuses_of_conflict (PinRegistry.find?_extend larger found)
            conflict.symm unnamed⟩⟩
    rcases PinRegistry.mem_of_find? isTaken with ⟨alsoMember, isOther⟩
    rw [← isOther, orderly.sound.pin_of_channel alsoMember member same, isPin]
  · rcases orderly.names made member register named kind channel state with ⟨pin, name, bound⟩
    exact ⟨pin, name, orderly.sound.find?_eq_some_iff.mpr ⟨bound, rfl⟩⟩

/-- A pin is bound by a declaration, another one by an operand, and a third one
by an operand of a branch. -/
example :
    let workshop := (ofBoard .default none (.ofInput [] 0)).run
      [.compile "$x0\nmov 1 $p1\nteq 0 0\n+ mov 2 $x2\nend"]
    workshop.registry.bindings = [⟨0, .xbus, 0⟩, ⟨1, .power, 1⟩, ⟨2, .xbus, 2⟩] ∧
      (workshop.run [.parse "mov 1 $p0", .request 2 .power, .parse "mov $x2 $x0"]).registry =
        workshop.registry := by
  decide +kernel

end Workshop

end NodeAssembly
