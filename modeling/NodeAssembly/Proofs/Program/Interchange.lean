import NodeAssembly.Proofs.Program.Bindings

/-! It does not matter in which order source texts are parsed. A registry steers
what becomes of a source text only by refusing pins. A text that is parsed
against one registry is therefore parsed alike against every other one that
binds no pin to another kind, and only the channels may differ. -/

namespace NodeAssembly

/-- The register without the channel that it is connected to. -/
def Register.unplugged : Register → Register
  | .pin kind _ => .pin kind 0
  | state => state

theorem Register.pinKind?_unplugged (state : Register) :
    state.unplugged.pinKind? = state.pinKind? := by
  cases state <;> rfl

namespace RegisterFile

/-- The same registers, whatever channels they are connected to. -/
def Matches (first second : RegisterFile) : Prop :=
  first.map Register.unplugged = second.map Register.unplugged

variable {first second : RegisterFile}

theorem Matches.size_eq (same : first.Matches second) : first.size = second.size := by
  have sizes := congrArg Array.size same
  rwa [Array.size_map, Array.size_map] at sizes

theorem Matches.push (same : first.Matches second) {left right : Register}
    (equal : left.unplugged = right.unplugged) :
    Matches (first.push left) (second.push right) := by
  have maps : first.map Register.unplugged = second.map Register.unplugged := same
  rw [Matches, Array.map_push, Array.map_push, maps, equal]

theorem Matches.pinKind?_eq (same : first.Matches second) (register : RegisterRef) :
    (first.state register).pinKind? = (second.state register).pinKind? := by
  have kinds : ∀ file : RegisterFile, (file.state register).pinKind? =
      ((file.map Register.unplugged)[register.cell]?).bind Register.pinKind? := by
    intro file
    rw [state, Array.getElem?_map]
    cases file[register.cell]? with
    | none => rfl
    | some found => exact found.pinKind?_unplugged.symm
  have maps : first.map Register.unplugged = second.map Register.unplugged := same
  rw [kinds first, kinds second, maps]

end RegisterFile

namespace PinRegistry

/-- The kind that a pin is bound to. -/
def kind? (registry : PinRegistry) (pin : Nat) : Option PinKind :=
  (registry.find? pin).map (·.kind)

/-- Every pin is bound to the kind given for it, or not at all. -/
def Within (kinds : Nat → Option PinKind) (registry : PinRegistry) : Prop :=
  ∀ pin kind, registry.kind? pin = some kind → kinds pin = some kind

variable {registry larger : PinRegistry} {kinds : Nat → Option PinKind} {channels after : Channels}
  {pin place : Nat} {kind : PinKind}

theorem Within.restrict (within : larger.Within kinds)
    (grows : registry.bindings <+: larger.bindings) : registry.Within kinds := by
  intro pin kind bound
  rcases Option.map_eq_some_iff.mp bound with ⟨binding, found, rfl⟩
  apply within
  rw [kind?, find?_extend grows found]
  rfl

theorem kind?_append (registry : PinRegistry) (binding : PinBinding) (pin : Nat) :
    kind? ⟨registry.bindings ++ [binding]⟩ pin =
      (registry.kind? pin).or (if binding.pin = pin then some binding.kind else none) := by
  rw [kind?, kind?, find?, find?, List.find?_append]
  cases registry.bindings.find? (·.pin == pin) with
  | some found => rfl
  | none =>
      by_cases same : binding.pin = pin
      · simp [same]
      · simp [same]

/-- A pin that was given a channel is bound to the kind that was asked for. -/
theorem kind?_of_channel
    (bound : registry.channel channels pin kind = (.ok place, larger, after)) :
    larger.kind? pin = some kind := by
  unfold PinRegistry.channel at bound
  split at bound
  next binding found =>
    split at bound
    next same =>
      cases bound
      rw [kind?, found, ← same]
      rfl
    next => cases bound
  next free =>
    cases bound
    rw [kind?_append, kind?, free]
    exact if_pos rfl

/-- A pin is not refused as something that it may be. -/
theorem Within.channel (within : registry.Within kinds) (allowed : kinds pin = some kind)
    (channels : Channels) :
    ∃ place larger after, registry.channel channels pin kind = (.ok place, larger, after) ∧
      larger.Within kinds := by
  unfold PinRegistry.channel
  cases found : registry.find? pin with
  | some binding =>
      have bound : registry.kind? pin = some binding.kind := by
        rw [kind?, found]
        rfl
      have same : binding.kind = kind := by
        rw [within pin _ bound] at allowed
        exact Option.some.inj allowed
      simp only [if_pos same]
      exact ⟨_, _, _, rfl, within⟩
  | none =>
      refine ⟨_, _, _, rfl, fun other found bound => ?_⟩
      rw [kind?_append, Option.or_eq_some_iff] at bound
      rcases bound with old | ⟨_, new⟩
      · exact within other found old
      · split at new
        next same =>
          cases new
          exact same ▸ allowed
        next => cases new

end PinRegistry

namespace Assembler

/-- The assemblers have come equally far with a program. -/
structure Alike (first second : Assembler) : Prop where
  table : first.table = second.table
  file : first.file.Matches second.file
  entries : first.entries = second.entries
  labels : first.labels = second.labels
  jumps : first.jumps = second.jumps

namespace Alike

variable {first second : Assembler}

theorem findLabel? (alike : first.Alike second) (label : String) :
    first.findLabel? label = second.findLabel? label := by
  rw [Assembler.findLabel?, Assembler.findLabel?, alike.labels]

theorem create (alike : first.Alike second) (name : String) (left right : Register)
    (equal : left.unplugged = right.unplugged) :
    (first.create name left).1 = (second.create name right).1 ∧
      (first.create name left).2.Alike (second.create name right).2 := by
  have register : (first.create name left).1 = (second.create name right).1 :=
    congrArg (RegisterRef.mk name) alike.file.size_eq
  refine ⟨register, ?_, alike.file.push equal, alike.entries, alike.labels, alike.jumps⟩
  change first.table.insert (first.create name left).1 =
    second.table.insert (second.create name right).1
  rw [alike.table, register]

theorem start (registry other : PinRegistry) (board place : Board) (config : Config)
    (logger also : Option Logger) :
    (Assembler.start registry board config logger).Alike
      (Assembler.start other place config also) :=
  ⟨rfl, rfl, rfl, rfl, rfl⟩

end Alike

end Assembler

namespace Assembly

variable {α β : Type}

/-- What the step does in one assembler it does in every assembler that has come
equally far, unless a pin is bound to another kind there. -/
structure Replays (step : Assembly α) : Prop where
  constructs : Constructs step
  replay : ∀ {kinds : Nat → Option PinKind} {first second after : Assembler} {result : α},
    first.Alike second → second.registry.Within kinds →
    outcome step first = (.ok result, after) → after.registry.Within kinds →
    ∃ last, outcome step second = (.ok result, last) ∧ after.Alike last ∧
      last.registry.Within kinds

theorem replays_pure (result : α) : Replays (pure result) where
  constructs := constructs_pure result
  replay := by
    intro kinds first second after value alike within done _
    cases done
    exact ⟨second, rfl, alike, within⟩

theorem replays_throw (error : ParseError) : Replays (throw error : Assembly α) where
  constructs := constructs_throw error
  replay := by
    intro kinds first second after value alike within done _
    cases done

theorem replays_fail (line : Line) (kind : ErrorKind) : Replays (fail line kind : Assembly α) :=
  replays_throw _

theorem Replays.bind {step : Assembly α} {next : α → Assembly β} (start : Replays step)
    (rest : ∀ result, Replays (next result)) : Replays (step >>= next) where
  constructs := start.constructs.bind fun result => (rest result).constructs
  replay := by
    intro kinds first second after value alike within done bound
    rcases outcome_bind_eq_ok done with ⟨result, between, here, there⟩
    -- What is bound in between is still bound at the end.
    have grows := ((rest result).constructs between).bindings_grow
    rw [there] at grows
    rcases start.replay alike within here (bound.restrict grows) with
      ⟨middle, again, alikeBetween, withinBetween⟩
    rcases (rest result).replay alikeBetween withinBetween there bound with
      ⟨last, finished, alikeAfter, withinAfter⟩
    exact ⟨last, (outcome_bind_ok again).trans finished, alikeAfter, withinAfter⟩

/-- A step may look at whatever is alike. -/
theorem replays_get_bind {next : Assembler → Assembly β}
    (same : ∀ first second : Assembler, first.Alike second → next first = next second)
    (each : ∀ assembler, Replays (next assembler)) : Replays (get >>= next) where
  constructs := by
    intro before
    rw [outcome_get_bind]
    exact (each before).constructs before
  replay := by
    intro kinds first second after value alike within done bound
    rw [outcome_get_bind] at done ⊢
    rw [← same first second alike]
    exact (each first).replay alike within done bound

theorem replays_modify {change : Assembler → Assembler}
    (constructs : Constructs (modify change))
    (alike : ∀ first second : Assembler, first.Alike second →
      (change first).Alike (change second))
    (kept : ∀ assembler, (change assembler).registry = assembler.registry) :
    Replays (modify change : Assembly PUnit) where
  constructs := constructs
  replay := by
    intro kinds first second after value together within done _
    cases done
    refine ⟨change second, rfl, alike first second together, ?_⟩
    rw [kept]
    exact within

theorem Replays.within {step : Assembly α} (context : ErrorContext) (replays : Replays step) :
    Replays (within context step) where
  constructs := replays.constructs.within context
  replay := by
    intro kinds first second after value alike within done bound
    rcases replays.replay alike within (outcome_within_ok.mp done) bound with
      ⟨last, again, rest⟩
    exact ⟨last, outcome_within_ok.mpr again, rest⟩

theorem Replays.forM {visit : β → Assembly Unit} (each : ∀ item, Replays (visit item))
    (items : List β) : Replays (items.forM visit) := by
  induction items with
  | nil => exact replays_pure ()
  | cons head tail induction => exact (each head).bind fun _ => induction

/-! ## Declarations -/

theorem replays_create (name : String) {state : Register} (unpinned : state.pinKind? = none)
    (flat : state.Flat) : Replays (create name state) where
  constructs := constructs_of_leads (extends_create name unpinned flat)
  replay := by
    intro kinds first second after result alike within done _
    rw [outcome_create] at done ⊢
    rcases alike.create name state state rfl with ⟨register, created⟩
    rw [← register]
    cases done
    exact ⟨_, rfl, created, within⟩

theorem outcome_declarePin_new {assembler : Assembler} {kind : PinKind} {pin channel : Nat}
    {registry : PinRegistry} {channels : Channels} (line : Line)
    (unnamed : assembler.table.find? (kind.registerName pin) = none)
    (bound : assembler.registry.channel assembler.board.channels pin kind =
      (.ok channel, registry, channels)) :
    outcome (declarePin line kind pin) assembler =
      outcome (create (kind.registerName pin) (.pin kind channel))
        (assembler.connect kind pin registry channels) := by
  rw [declarePin, outcome_get_bind]
  simp only [unnamed, bound]
  rfl

theorem replays_declarePin (line : Line) (kind : PinKind) (pin : Nat) :
    Replays (declarePin line kind pin) where
  constructs := constructs_of_leads (extends_declarePin line kind pin)
  replay := by
    intro kinds first second after result alike within done bound
    cases found : first.table.find? (kind.registerName pin) with
    | some register =>
        have also : second.table.find? (kind.registerName pin) = some register :=
          alike.table ▸ found
        rw [declarePin, outcome_get_bind] at done ⊢
        simp only [found, outcome_pure] at done
        cases done
        simp only [also, outcome_pure]
        exact ⟨second, rfl, alike, within⟩
    | none =>
        have also : second.table.find? (kind.registerName pin) = none := alike.table ▸ found
        rcases asked : first.registry.channel first.board.channels pin kind with
          ⟨conflict | channel, registry, channels⟩
        · rw [declarePin, outcome_get_bind] at done
          simp only [found, asked] at done
          cases done
        · rw [outcome_declarePin_new line found asked, outcome_create] at done
          -- The other registry gives a channel as well, perhaps another one.
          have allowed : kinds pin = some kind := by
            cases done
            exact bound pin kind (PinRegistry.kind?_of_channel asked)
          rcases within.channel allowed second.board.channels with
            ⟨place, larger, places, given, stays⟩
          have connected : (first.connect kind pin registry channels).Alike
              (second.connect kind pin larger places) :=
            ⟨alike.table, alike.file, alike.entries, alike.labels, alike.jumps⟩
          rcases connected.create (kind.registerName pin) (.pin kind channel) (.pin kind place) rfl
            with ⟨register, created⟩
          rw [outcome_declarePin_new line also given, outcome_create, ← register]
          cases done
          exact ⟨_, rfl, created, stays⟩

theorem replays_declareRegister (line : Line) (name : String) :
    Replays (declareRegister line name) := by
  unfold declareRegister
  split
  · exact replays_declarePin line _ _
  · apply replays_get_bind
    · intro first second alike
      rw [alike.table]
    · intro assembler
      split
      · exact replays_pure _
      · exact replays_create name rfl rfl

theorem replays_checkFree (line : Line) (name : String) : Replays (checkFree line name) := by
  apply replays_get_bind
  · intro first second alike
    rw [alike.table]
  · intro assembler
    split
    · exact replays_fail line _
    · exact replays_pure ()

theorem replays_declareMemory (line : Line) (name : String) (size : Option Nat) :
    Replays (declareMemory line name size) := by
  apply (replays_checkFree line name).bind
  intro _
  apply (replays_checkFree line _).bind
  intro _
  have cursorFlat : (Register.offset 0).Flat := trivial
  apply (replays_create _ rfl cursorFlat).bind
  intro cursor
  cases size with
  | some size =>
      have flat : (Register.sized cursor (Array.replicate size .null)).Flat := by
        intro value member
        rw [Array.eq_of_mem_replicate member]
        rfl
      exact (replays_create name rfl flat).bind fun _ => replays_pure ()
  | none =>
      have flat : (Register.growing cursor #[]).Flat := nofun
      exact (replays_create name rfl flat).bind fun _ => replays_pure ()

theorem replays_declareLabel (line : Line) (label : String) :
    Replays (declareLabel line label) where
  constructs := constructs_declareLabel line label
  replay := by
    intro kinds first second after result alike within done _
    rw [declareLabel, outcome_get_bind] at done ⊢
    rw [alike.findLabel?] at done
    split at done
    · cases done
    next free =>
      cases done
      rw [if_neg free]
      refine ⟨_, rfl, ⟨alike.table, alike.file, alike.entries, ?_, alike.jumps⟩, within⟩
      rw [alike.labels, alike.entries]

theorem replays_declare (line : Line) (declaration : Declaration) :
    Replays (declare line declaration) := by
  cases declaration with
  | pin kind pin => exact (replays_declarePin line kind pin).bind fun _ => replays_pure ()
  | register name => exact (replays_declareRegister line name).bind fun _ => replays_pure ()
  | memory name size => exact replays_declareMemory line name size
  | label name => exact replays_declareLabel line name

/-! ## Operands -/

theorem replays_value (line : Line) (token : Token) : Replays (value line token) := by
  unfold value
  split
  · exact replays_pure _
  · exact replays_pure _
  · exact replays_pure _
  · exact (replays_declareRegister line _).bind fun _ => replays_pure _
  · apply replays_get_bind
    · intro first second alike
      rw [alike.table]
    · intro assembler
      split
      · exact replays_pure _
      · exact replays_fail line _
  · exact replays_fail line _

theorem replays_register (line : Line) (index : Nat) (token : Token) :
    Replays (register line index token) := by
  apply (replays_value line token).bind
  intro operand
  split
  · exact replays_pure _
  · exact replays_fail line _

/-- Two assemblers that have come equally far may connect a register to
different channels, but to channels of one kind. -/
theorem replays_pinKind? (register : RegisterRef) : Replays (pinKind? register) := by
  apply replays_get_bind
  · intro first second alike
    rw [alike.file.pinKind?_eq]
  · intro assembler
    exact replays_pure _

theorem replays_pin (line : Line) (index : Nat) (token : Token) :
    Replays (pin line index token) := by
  apply (replays_register line index token).bind
  intro register
  apply (replays_pinKind? register).bind
  intro kind
  split
  · exact replays_pure _
  · exact replays_fail line _

theorem replays_bus (line : Line) (index : Nat) (token : Token) :
    Replays (bus line index token) := by
  apply (replays_register line index token).bind
  intro register
  apply (replays_pinKind? register).bind
  intro kind
  split
  · exact replays_pure _
  · exact replays_fail line _

theorem replays_castType (line : Line) (name : String) : Replays (castType line name) := by
  unfold castType
  split
  · exact replays_pure _
  · exact replays_fail line _

theorem replays_castOperand (line : Line) (token : Token) : Replays (castOperand line token) := by
  unfold castOperand
  split
  · apply replays_get_bind
    · intro first second alike
      rw [alike.table]
    · intro assembler
      split
      · exact replays_value line _
      · exact replays_castType line _
  · exact replays_castType line _
  · exact replays_value line _

theorem replays_jumpLabel (line : Line) (token : Token) : Replays (jumpLabel line token) := by
  unfold jumpLabel
  split
  next label =>
    refine Replays.bind (replays_modify ?_ ?_ fun _ => rfl) fun _ => replays_pure label
    · exact fun before => .single (.grows (.jump ⟨label, line.number, line.raw⟩))
    · intro first second alike
      exact ⟨alike.table, alike.file, alike.entries, alike.labels, congrArg (List.cons _) alike.jumps⟩
  next => exact replays_fail line _

/-! ## Instructions -/

theorem replays_mnemonic (line : Line) (tokens : List Token) : Replays (mnemonic line tokens) := by
  unfold mnemonic
  split
  · split
    · exact replays_pure _
    · exact replays_fail line _
  · exact replays_fail line _
  · exact replays_fail line _

theorem replays_plainInstruction (line : Line) (opcode : OpCode) (operands : List Token) :
    Replays (plainInstruction line opcode operands) := by
  unfold plainInstruction
  split
  case h_1 => exact replays_pure _
  case h_2 => exact replays_pure _
  case h_3 => exact replays_pure _
  case h_4 source target =>
    apply (replays_value line source).bind
    intro _
    exact (replays_register line 1 target).bind fun _ => replays_pure _
  case h_5 left right =>
    apply (replays_register line 0 left).bind
    intro _
    exact (replays_register line 1 right).bind fun _ => replays_pure _
  case h_6 label => exact (replays_jumpLabel line label).bind fun _ => replays_pure _
  case h_8 bus => exact (replays_bus line 0 bus).bind fun _ => replays_pure _
  case h_9 pin on off =>
    apply (replays_pin line 0 pin).bind
    intro _
    apply (replays_value line on).bind
    intro _
    exact (replays_value line off).bind fun _ => replays_pure _
  case h_15 position replacement =>
    apply (replays_value line position).bind
    intro _
    exact (replays_value line replacement).bind fun _ => replays_pure _
  case h_16 kind => exact (replays_castOperand line kind).bind fun _ => replays_pure _
  case h_17 target => exact (replays_register line 0 target).bind fun _ => replays_pure _
  case h_18 target => exact (replays_register line 0 target).bind fun _ => replays_pure _
  case h_19 => exact replays_fail line _
  -- What remains has one operand, which is a value.
  all_goals exact (replays_value line _).bind fun _ => replays_pure _

end Assembly

open Assembly

mutual

theorem Statement.replays_assemble (statement : Statement) : Replays statement.assemble := by
  match statement with
  | .illegible line slice => exact replays_fail line _
  | .stray line => exact replays_fail line _
  | .instruction line tokens branches =>
      simp only [Statement.assemble]
      refine (replays_mnemonic line tokens).bind fun (opcode, operands) => ?_
      split
      next kind left right _ =>
        apply (replays_value line left).bind
        intro _
        apply (replays_value line right).bind
        intro _
        exact (Branches.replays_assemble branches).bind fun (positive, negative) => replays_pure _
      next => exact replays_plainInstruction line _ _

theorem Branches.replays_assemble (branches : Branches) : Replays branches.assemble := by
  match branches with
  | .nil => exact replays_pure _
  | .cons sign statement rest =>
      simp only [Branches.assemble]
      apply ((Statement.replays_assemble statement).within .branch).bind
      intro instruction
      refine (Branches.replays_assemble rest).bind fun (positive, negative) => ?_
      cases sign with
      | positive => exact replays_pure _
      | negative => exact replays_pure _

end

namespace Assembly

theorem replays_item (item : Item) : Replays (Assembly.item item) := by
  apply (Replays.forM (fun declaration => (replays_declare item.line declaration).within _)
    item.declarations).bind
  intro _
  cases item.body with
  | blank => exact replays_pure ()
  | malformed construct => exact replays_fail item.line _
  | stray => exact replays_fail item.line _
  | entry once statement =>
      apply ((statement.replays_assemble).within _).bind
      intro instruction
      refine replays_modify ?_ ?_ fun _ => rfl
      · exact fun before => .single (.notes before.labels _)
      · intro first second alike
        exact ⟨alike.table, alike.file, congrArg (List.cons _) alike.entries, alike.labels, alike.jumps⟩

theorem replays_checkLabels : Replays checkLabels := by
  apply replays_get_bind
  · intro first second alike
    simp only [Assembler.findLabel?, alike.jumps, alike.labels, alike.entries]
    rfl
  · intro assembler
    refine (Replays.forM (fun jump => ?_) _).bind fun _ => Replays.forM (fun label => ?_) _
    · split
      · exact replays_throw _
      · exact replays_pure ()
    · simp only
      split
      · exact replays_throw _
      · exact replays_pure ()

theorem replays_program (items : List Item) : Replays (program items) := by
  apply (Replays.forM replays_item items).bind
  intro _
  apply replays_checkLabels.bind
  intro _
  have logs : Replays logProgram := by
    refine replays_modify (fun before => .single (.records _ _)) ?_ fun _ => rfl
    intro first second alike
    exact ⟨alike.table, alike.file, alike.entries, alike.labels, alike.jumps⟩
  apply logs.bind
  intro _
  apply replays_get_bind
  · intro first second alike
    rw [alike.entries, alike.labels, alike.table]
  · intro assembler
    exact replays_pure _

end Assembly

/-! ## Source texts -/

namespace Program

variable {registry other : PinRegistry} {kinds : Nat → Option PinKind} {board : Board}
  {config : Config} {logger : Option Logger} {source : String} {program : Program}
  {file : RegisterFile}

/-- A source text that is a program against one registry is the same program
against another one, if the other one binds no pin to another kind. -/
theorem parse_replay (place : Board) (also : Option Logger)
    (parsed : (parse registry board config logger source).result = .ok (program, file))
    (bound : (parse registry board config logger source).registry.Within kinds)
    (within : other.Within kinds) :
    ∃ again, (parse other place config also source).result = .ok (program, again) ∧
      file.Matches again ∧ (parse other place config also source).registry.Within kinds := by
  rcases outcome_of_parse parsed with ⟨after, rfl, done⟩
  have same : (parse registry board config logger source).registry = after.registry :=
    congrArg (·.2.registry) done
  rw [same] at bound
  rcases (Assembly.replays_program (Item.ofSource source)).replay
    (.start registry other board place config _ (also.map (·.within "stage" "parsing")))
    within done bound with ⟨last, finished, alike, stays⟩
  rw [Assembly.outcome] at finished
  simp only [parse, finished]
  exact ⟨last.file, rfl, alike.file, stays⟩

end Program

/-! ## Sharing channels -/

/-- Both registers are connected to one channel. -/
def RegisterFile.Shares (first : RegisterFile) (left : RegisterRef) (second : RegisterFile)
    (right : RegisterRef) : Prop :=
  ∃ kind other channel, first.state left = .pin kind channel ∧
    second.state right = .pin other channel

/-- Registers of programs share a channel if they are named for one pin. -/
theorem RegisterTable.Names.shares_iff {registry : PinRegistry} {board : Board}
    (sound : registry.Sound board) {first second : RegisterTable}
    {firstFile secondFile : RegisterFile} (firstNames : first.Names registry firstFile)
    (secondNames : second.Names registry secondFile) {left right : RegisterRef}
    (isLeft : left ∈ first.named) (isRight : right ∈ second.named) :
    firstFile.Shares left secondFile right ↔
      left.name = right.name ∧ (firstFile.state left).pinKind?.isSome ∧
        (secondFile.state right).pinKind?.isSome := by
  constructor
  · rintro ⟨kind, other, channel, leftPin, rightPin⟩
    rcases firstNames left isLeft kind channel leftPin with ⟨pin, leftName, leftBound⟩
    rcases secondNames right isRight other channel rightPin with ⟨number, rightName, rightBound⟩
    cases sound.pin_of_channel leftBound rightBound rfl
    rw [leftName, rightName, leftPin, rightPin]
    exact ⟨rfl, rfl, rfl⟩
  · rintro ⟨sameName, leftBacked, rightBacked⟩
    cases leftPin : firstFile.state left with
    | pin kind channel =>
        cases rightPin : secondFile.state right with
        | pin other place =>
            rcases firstNames left isLeft kind channel leftPin with ⟨pin, leftName, leftBound⟩
            rcases secondNames right isRight other place rightPin with
              ⟨number, rightName, rightBound⟩
            rw [leftName, rightName] at sameName
            rcases PinKind.registerName_inj sameName with ⟨rfl, rfl⟩
            cases List.inj_on_of_nodup_map sound.pins leftBound rightBound rfl
            exact ⟨kind, kind, channel, leftPin, rightPin⟩
        | _ =>
            rw [rightPin] at rightBacked
            cases rightBacked
    | _ =>
        rw [leftPin] at leftBacked
        cases leftBacked

theorem PinRegistry.Within.kind?_eq {first second : PinRegistry}
    (within : first.Within second.kind?) (conversely : second.Within first.kind?) (pin : Nat) :
    first.kind? pin = second.kind? pin := by
  cases found : first.kind? pin with
  | some kind => exact (within pin kind found).symm
  | none =>
      cases other : second.kind? pin with
      | none => rfl
      | some kind =>
          rw [conversely pin kind other] at found
          cases found

/-- A source text with what it is parsed with. -/
structure Submission where
  config : Config
  logger : Option Logger
  source : String

namespace Submission

def parse (submission : Submission) (registry : PinRegistry) (board : Board) : Parsed :=
  Program.parse registry board submission.config submission.logger submission.source

/-- Parses a source text after another one. -/
def parseAfter (early late : Submission) (registry : PinRegistry) (board : Board) : Parsed :=
  late.parse (early.parse registry board).registry (early.parse registry board).board

variable {registry : PinRegistry} {board : Board} {left right : Submission}
  {leftProgram rightProgram : Program} {leftFile rightFile : RegisterFile}

theorem parse_bound (submission : Submission) (sound : registry.Sound board) :
    (submission.parse registry board).Bound registry :=
  Program.parse_bound sound submission.config submission.logger submission.source

/-- What is parsed one after the other is parsed in the other order too, and
this binds no pin that was not bound before. -/
theorem parse_swap (sound : registry.Sound board) (leftLogger rightLogger : Option Logger)
    (leftParsed : (left.parse registry board).result = .ok (leftProgram, leftFile))
    (rightParsed : (left.parseAfter right registry board).result = .ok (rightProgram, rightFile)) :
    let rightFirst : Submission := { right with logger := rightLogger }
    let leftSecond : Submission := { left with logger := leftLogger }
    ∃ leftAgain rightAgain,
      (rightFirst.parse registry board).result = .ok (rightProgram, rightAgain) ∧
      (rightFirst.parseAfter leftSecond registry board).result = .ok (leftProgram, leftAgain) ∧
      leftFile.Matches leftAgain ∧ rightFile.Matches rightAgain ∧
      (rightFirst.parseAfter leftSecond registry board).registry.Within
        (left.parseAfter right registry board).registry.kind? := by
  intro rightFirst leftSecond
  have leftBound := left.parse_bound sound
  have rightBound := right.parse_bound leftBound.sound
  have whole : (left.parseAfter right registry board).registry.Within
      (left.parseAfter right registry board).registry.kind? := fun _ _ bound => bound
  -- The registry binds only a part of this after the left text alone, and before.
  have half := whole.restrict rightBound.grows
  rcases Program.parse_replay board rightLogger rightParsed whole (half.restrict leftBound.grows)
    with ⟨rightAgain, rightDone, rightMatches, rightWithin⟩
  rcases Program.parse_replay (rightFirst.parse registry board).board leftLogger leftParsed half
    rightWithin with ⟨leftAgain, leftDone, leftMatches, leftWithin⟩
  exact ⟨leftAgain, rightAgain, rightDone, leftDone, leftMatches, rightMatches, leftWithin⟩

/-- If two source texts are programs when they are parsed in one order, they are
the same programs when they are parsed in the other order. The same pins are
bound to the same kinds then, and the same registers share channels, while the
channels themselves may be others. -/
theorem parse_order_irrelevant (sound : registry.Sound board)
    (leftLogger rightLogger : Option Logger)
    (leftParsed : (left.parse registry board).result = .ok (leftProgram, leftFile))
    (rightParsed : (left.parseAfter right registry board).result = .ok (rightProgram, rightFile)) :
    let rightFirst : Submission := { right with logger := rightLogger }
    let leftSecond : Submission := { left with logger := leftLogger }
    ∃ leftAgain rightAgain,
      (rightFirst.parse registry board).result = .ok (rightProgram, rightAgain) ∧
      (rightFirst.parseAfter leftSecond registry board).result = .ok (leftProgram, leftAgain) ∧
      leftFile.Matches leftAgain ∧ rightFile.Matches rightAgain ∧
      (∀ pin, (rightFirst.parseAfter leftSecond registry board).registry.kind? pin =
        (left.parseAfter right registry board).registry.kind? pin) ∧
      ∀ leftRegister ∈ leftProgram.table.named, ∀ rightRegister ∈ rightProgram.table.named,
        leftAgain.Shares leftRegister rightAgain rightRegister ↔
          leftFile.Shares leftRegister rightFile rightRegister := by
  intro rightFirst leftSecond
  rcases parse_swap sound leftLogger rightLogger leftParsed rightParsed with
    ⟨leftAgain, rightAgain, rightDone, leftDone, leftMatches, rightMatches, within⟩
  rcases parse_swap sound right.logger left.logger rightDone leftDone with
    ⟨_, _, _, _, _, _, conversely⟩
  refine ⟨leftAgain, rightAgain, rightDone, leftDone, leftMatches, rightMatches,
    within.kind?_eq conversely, fun leftRegister isLeft rightRegister isRight => ?_⟩
  have leftBound := left.parse_bound sound
  have rightBound := right.parse_bound leftBound.sound
  have rightFirstBound := rightFirst.parse_bound sound
  have leftSecondBound := leftSecond.parse_bound rightFirstBound.sound
  rw [((leftBound.names _ _ leftParsed).extend rightBound.grows).shares_iff rightBound.sound
      (rightBound.names _ _ rightParsed) isLeft isRight,
    RegisterTable.Names.shares_iff leftSecondBound.sound (leftSecondBound.names _ _ leftDone)
      ((rightFirstBound.names _ _ rightDone).extend leftSecondBound.grows) isLeft isRight,
    leftMatches.pinKind?_eq, rightMatches.pinKind?_eq]

/-- Two pins that get each other's channels when the order is changed. -/
theorem parse_order_irrelevant_swapped :
    let board := Board.ofInput [] 0
    let left : Submission := ⟨.default, none, "mov 1 $x1\nmov 1 $p2"⟩
    let right : Submission := ⟨.default, none, "mov $p2 $x1"⟩
    let table (names : List RegisterRef) : RegisterTable :=
      { (defaultRegisters 500).1 with named := (defaultRegisters 500).1.named ++ names }
    let leftProgram : Program := ⟨#[⟨.move (.int 1) ⟨"x1", 7⟩, false, 1⟩,
      ⟨.move (.int 1) ⟨"p2", 8⟩, false, 2⟩], [], table [⟨"x1", 7⟩, ⟨"p2", 8⟩]⟩
    let rightProgram : Program := ⟨#[⟨.move (.ref ⟨"p2", 7⟩) ⟨"x1", 8⟩, false, 1⟩], [],
      table [⟨"p2", 7⟩, ⟨"x1", 8⟩]⟩
    let file (channel other : Register) : RegisterFile :=
      (defaultRegisters 500).2 ++ #[channel, other]
    (left.parse .empty board).result = .ok (leftProgram, file (.pin .xbus 0) (.pin .power 1)) ∧
      (left.parseAfter right .empty board).result =
        .ok (rightProgram, file (.pin .power 1) (.pin .xbus 0)) ∧
      (right.parseAfter left .empty board).result =
        .ok (leftProgram, file (.pin .xbus 1) (.pin .power 0)) ∧
      ∃ leftAgain rightAgain, (right.parse .empty board).result = .ok (rightProgram, rightAgain) ∧
        (right.parseAfter left .empty board).result = .ok (leftProgram, leftAgain) ∧
        leftAgain.Shares ⟨"x1", 7⟩ rightAgain ⟨"x1", 8⟩ := by
  intro board left right table leftProgram rightProgram file
  have leftParsed : (left.parse .empty board).result =
      .ok (leftProgram, file (.pin .xbus 0) (.pin .power 1)) := by
    decide +kernel
  have rightParsed : (left.parseAfter right .empty board).result =
      .ok (rightProgram, file (.pin .power 1) (.pin .xbus 0)) := by
    decide +kernel
  have leftSecond : (right.parseAfter left .empty board).result =
      .ok (leftProgram, file (.pin .xbus 1) (.pin .power 0)) := by
    decide +kernel
  refine ⟨leftParsed, rightParsed, leftSecond, ?_⟩
  rcases parse_order_irrelevant (PinRegistry.sound_empty board) none none leftParsed rightParsed with
    ⟨leftAgain, rightAgain, rightDone, leftDone, _, _, _, shares⟩
  refine ⟨leftAgain, rightAgain, rightDone, leftDone, ?_⟩
  rw [shares _ (by decide) _ (by decide)]
  exact ⟨.xbus, .xbus, 0, rfl, rfl⟩

end Submission

end NodeAssembly
