import NodeAssembly.Proofs.Program.Growth
import NodeAssembly.Proofs.Source.Listing

/-! Assembling what was written down. Names are looked up as the program goes
on, and what a name was once found to be it stays, so every instruction comes
out with the registers that the finished table has under its names. -/

namespace NodeAssembly

open NodeAssembly.Text

namespace RegisterTable

/-- Whatever the first table finds, the second one finds as well. -/
def Within (table larger : RegisterTable) : Prop :=
  ∀ name register, table.find? name = some register → larger.find? name = some register

/-- The table has a register for each of the names. -/
def Knows (table : RegisterTable) (names : List String) : Prop :=
  ∀ name ∈ names, ∃ register, table.find? name = some register

/-- The register that the table has under the name of another one. -/
def resolve (table : RegisterTable) (register : RegisterRef) : RegisterRef :=
  (table.find? register.name).getD register

variable {table larger : RegisterTable} {names : List String}

theorem Within.refl (table : RegisterTable) : table.Within table :=
  fun _ _ found => found

theorem Within.trans {last : RegisterTable} (first : table.Within larger)
    (second : larger.Within last) : table.Within last :=
  fun name register found => second name register (first name register found)

theorem Knows.within (knows : table.Knows names) (within : table.Within larger) :
    larger.Knows names := by
  intro name member
  rcases knows name member with ⟨register, found⟩
  exact ⟨register, within name register found⟩

theorem Knows.subset (knows : table.Knows names) {fewer : List String} (subset : fewer ⊆ names) :
    table.Knows fewer :=
  fun name member => knows name (subset member)

theorem resolve_within (within : table.Within larger) {register : RegisterRef}
    (knows : table.Knows [register.name]) : larger.resolve register = table.resolve register := by
  rcases knows register.name List.mem_cons_self with ⟨found, isFound⟩
  rw [resolve, resolve, isFound, within _ _ isFound]

end RegisterTable

namespace Value

def resolve (table : RegisterTable) : Value → Value
  | .ref register => .ref (table.resolve register)
  | value => value

/-- The names of the registers that the value refers to. -/
def names : Value → List String
  | .ref register => [register.name]
  | _ => []

end Value

mutual

/-- The instruction with the registers that a table has under their names. -/
def Instruction.resolve (table : RegisterTable) : Instruction → Instruction
  | .noOperation => .noOperation
  | .stop => .stop
  | .move source target => .move (source.resolve table) (table.resolve target)
  | .swap left right => .swap (table.resolve left) (table.resolve right)
  | .jump label => .jump label
  | .sleep duration => .sleep (duration.resolve table)
  | .observe register => .observe (table.resolve register)
  | .generate register on off =>
    .generate (table.resolve register) (on.resolve table) (off.resolve table)
  | .add operand => .add (operand.resolve table)
  | .subtract operand => .subtract (operand.resolve table)
  | .multiply operand => .multiply (operand.resolve table)
  | .divide operand => .divide (operand.resolve table)
  | .not => .not
  | .digit position => .digit (position.resolve table)
  | .setDigit position value => .setDigit (position.resolve table) (value.resolve table)
  | .cast kind => .cast (kind.resolve table)
  | .increment register => .increment (table.resolve register)
  | .decrement register => .decrement (table.resolve register)
  | .test kind left right positive negative =>
    .test kind (left.resolve table) (right.resolve table) (positive.resolve table)
      (negative.resolve table)

def Block.resolve (table : RegisterTable) : Block → Block
  | .nil => .nil
  | .cons head tail => .cons (head.resolve table) (tail.resolve table)

end

mutual

/-- The names of all registers in the instruction. -/
def Instruction.names : Instruction → List String
  | .noOperation | .stop | .not | .jump _ => []
  | .move source target => source.names ++ [target.name]
  | .swap left right => [left.name, right.name]
  | .sleep operand | .add operand | .subtract operand | .multiply operand | .divide operand
  | .digit operand | .cast operand => operand.names
  | .observe register | .increment register | .decrement register => [register.name]
  | .generate register on off => register.name :: (on.names ++ off.names)
  | .setDigit position value => position.names ++ value.names
  | .test _ left right positive negative =>
    left.names ++ (right.names ++ (positive.names ++ negative.names))

def Block.names : Block → List String
  | .nil => []
  | .cons head tail => head.names ++ tail.names

end

/-! ## Tables that grow -/

namespace RegisterTable

theorem find?_eq_none_iff {table : RegisterTable} {name : String} :
    table.find? name = none ↔ name ∉ table.names := by
  rw [find?, names, List.find?_eq_none]
  simp only [List.mem_map, not_exists, not_and, beq_iff_eq]

theorem contains_of_free {table : RegisterTable} {name : String}
    (free : table.find? name = none) : table.contains name = false := by
  rw [contains, free]
  rfl

theorem named_insert {table : RegisterTable} {register : RegisterRef}
    (fresh : table.find? register.name = none) :
    (table.insert register).named = table.named ++ [register] := by
  rw [insert, contains_of_free fresh]
  rfl

theorem names_insert {table : RegisterTable} {register : RegisterRef}
    (fresh : table.find? register.name = none) :
    (table.insert register).names = table.names ++ [register.name] := by
  rw [names, named_insert fresh, List.map_append]
  rfl

theorem find?_insert {table : RegisterTable} {register : RegisterRef}
    (fresh : table.find? register.name = none) (name : String) :
    (table.insert register).find? name =
      if register.name = name then some register else table.find? name := by
  rw [find?, named_insert fresh, List.find?_append]
  split
  next same =>
    subst same
    rw [show table.named.find? (fun other => other.name == register.name) = none from fresh]
    simp
  next different =>
    have other : (register.name == name) = false := beq_false_of_ne different
    simp [find?, other]

theorem name_of_find? {table : RegisterTable} {name : String} {register : RegisterRef}
    (found : table.find? name = some register) : register.name = name ∧ register ∈ table.named := by
  have same := List.find?_some found
  exact ⟨eq_of_beq same, List.mem_of_find?_eq_some found⟩

end RegisterTable

namespace Assembler

/-- What was in the table before is still there, with the same state. -/
structure Later (before after : Assembler) : Prop where
  table : before.table.Within after.table
  states : ∀ name register, before.table.find? name = some register →
    after.file.state register = before.file.state register

/-- What holds all the while: every register of the table has a cell of its own,
those with the name of a pin have such a pin behind them, pins are bound as the
kinds have it, and jumps lead to the labels. -/
structure Serves (kinds : Nat → PinKind) (labels : List String) (assembler : Assembler) : Prop where
  inside : ∀ register ∈ assembler.table.named, register.cell < assembler.file.size
  apart : ∀ first ∈ assembler.table.named, ∀ second ∈ assembler.table.named,
    first.cell = second.cell → first = second
  pins : ∀ name register, assembler.table.find? name = some register →
    (assembler.file.state register).pinKind? = (pinOfName? name.toList).map Prod.fst
  bound : ∀ binding ∈ assembler.registry.bindings, binding.kind = kinds binding.pin
  jumps : ∀ jump ∈ assembler.jumps, jump.label ∈ labels

variable {before between after : Assembler} {kinds : Nat → PinKind} {labels : List String}

theorem Later.refl (assembler : Assembler) : assembler.Later assembler :=
  ⟨.refl _, fun _ _ _ => rfl⟩

theorem Later.trans (first : before.Later between) (second : between.Later after) :
    before.Later after where
  table := first.table.trans second.table
  states := by
    intro name register found
    rw [second.states name register (first.table name register found),
      first.states name register found]

section

variable {name : String} {state : Register}

theorem find?_create (fresh : before.table.find? name = none) (other : String) :
    (before.create name state).2.table.find? other =
      if name = other then some (before.create name state).1 else before.table.find? other :=
  RegisterTable.find?_insert fresh other

theorem named_create (fresh : before.table.find? name = none) {register : RegisterRef}
    (member : register ∈ (before.create name state).2.table.named) :
    register ∈ before.table.named ∨ register = ⟨name, before.file.size⟩ := by
  change register ∈ (before.table.insert ⟨name, before.file.size⟩).named at member
  rw [RegisterTable.named_insert fresh, List.mem_append, List.mem_singleton] at member
  exact member

theorem state_create_new (before : Assembler) (name : String) (state : Register) :
    (before.create name state).2.file.state (before.create name state).1 = state := by
  change ((before.file.push state)[before.file.size]?).getD .null = state
  rw [Array.getElem?_push_size]
  rfl

theorem state_create_old {register : RegisterRef} (inside : register.cell < before.file.size) :
    (before.create name state).2.file.state register = before.file.state register := by
  change ((before.file.push state)[register.cell]?).getD .null = _
  rw [Array.getElem?_push_lt inside, RegisterFile.state, Array.getElem?_eq_getElem inside]

theorem create_later (serves : before.Serves kinds labels)
    (fresh : before.table.find? name = none) : before.Later (before.create name state).2 where
  table := by
    intro other register found
    have different : name ≠ other := by
      rintro rfl
      rw [fresh] at found
      cases found
    rw [find?_create fresh, if_neg different]
    exact found
  states := by
    intro other register found
    exact state_create_old (serves.inside register (RegisterTable.name_of_find? found).2)

theorem create_serves (serves : before.Serves kinds labels)
    (fresh : before.table.find? name = none)
    (fits : state.pinKind? = (pinOfName? name.toList).map Prod.fst) :
    (before.create name state).2.Serves kinds labels where
  inside := by
    intro register member
    change register.cell < (before.file.push state).size
    rw [Array.size_push]
    rcases named_create fresh member with old | rfl
    · have inside := serves.inside register old
      omega
    · exact Nat.lt_succ_self _
  apart := by
    intro first isFirst second isSecond same
    rcases named_create fresh isFirst with oldFirst | rfl
    · rcases named_create fresh isSecond with oldSecond | rfl
      · exact serves.apart first oldFirst second oldSecond same
      · exact absurd same (Nat.ne_of_lt (serves.inside first oldFirst))
    · rcases named_create fresh isSecond with oldSecond | rfl
      · exact absurd same.symm (Nat.ne_of_lt (serves.inside second oldSecond))
      · rfl
  pins := by
    intro other register found
    rw [find?_create fresh] at found
    split at found
    next same =>
      cases found
      rw [state_create_new, fits, same]
    next =>
      rw [state_create_old (serves.inside register (RegisterTable.name_of_find? found).2)]
      exact serves.pins other register found
  bound := serves.bound
  jumps := serves.jumps

/-- A new register with a name that was free. -/
theorem create_fresh (serves : before.Serves kinds labels)
    (fresh : before.table.find? name = none)
    (fits : state.pinKind? = (pinOfName? name.toList).map Prod.fst) :
    before.Later (before.create name state).2 ∧ (before.create name state).2.Serves kinds labels ∧
      (before.create name state).2.table.find? name = some (before.create name state).1 ∧
      (before.create name state).2.file.state (before.create name state).1 = state ∧
      (before.create name state).2.table.names = before.table.names ++ [name] := by
  refine ⟨create_later serves fresh, create_serves serves fresh fits, ?_,
    state_create_new before name state, RegisterTable.names_insert fresh⟩
  rw [find?_create fresh, if_pos rfl]

end

end Assembler

/-! ## Steps that succeed -/

namespace Assembly

/-- The step ends well, with a result that depends on the table alone, and only
on what the table has under the names. -/
structure Yields (kinds : Nat → PinKind) (labels : List String) {α : Type} (names : List String)
    (step : Assembly α) (make : RegisterTable → α) : Prop where
  stable : ∀ {table larger : RegisterTable}, table.Within larger → table.Knows names →
    make larger = make table
  runs : ∀ before : Assembler, before.Serves kinds labels → ∃ after,
    outcome step before = (.ok (make after.table), after) ∧ before.Later after ∧
      after.Serves kinds labels ∧ after.table.Knows names

variable {α β : Type} {kinds : Nat → PinKind} {labels names : List String}

theorem yields_pure (result : α) : Yields kinds labels [] (pure result) fun _ => result :=
  ⟨fun _ _ => rfl, fun before serves => ⟨before, rfl, .refl before, serves, nofun⟩⟩

theorem Yields.bind {step : Assembly α} {make : RegisterTable → α} {next : α → Assembly β}
    {namesNext : List String} {makeNext : α → RegisterTable → β}
    (first : Yields kinds labels names step make)
    (second : ∀ result, Yields kinds labels namesNext (next result) (makeNext result)) :
    Yields kinds labels (names ++ namesNext) (step >>= next)
      fun table => makeNext (make table) table where
  stable := by
    intro table larger within knows
    have sameFirst := first.stable within (knows.subset (List.subset_append_left _ _))
    have sameNext := (second (make table)).stable within
      (knows.subset (List.subset_append_right _ _))
    simp only [sameFirst, sameNext]
  runs := by
    intro before serves
    rcases first.runs before serves with ⟨between, done, later, servesBetween, knows⟩
    rcases (second (make between.table)).runs between servesBetween with
      ⟨after, doneNext, laterNext, servesAfter, knowsNext⟩
    refine ⟨after, ?_, later.trans laterNext, servesAfter, ?_⟩
    · rw [outcome_bind_ok done, doneNext, first.stable laterNext.table knows]
    · intro name member
      rcases List.mem_append.mp member with early | late
      · exact knows.within laterNext.table name early
      · exact knowsNext name late

theorem Yields.within {step : Assembly α} {make : RegisterTable → α} (context : ErrorContext)
    (yields : Yields kinds labels names step make) :
    Yields kinds labels names (within context step) make where
  stable := yields.stable
  runs := by
    intro before serves
    rcases yields.runs before serves with ⟨after, done, rest⟩
    exact ⟨after, outcome_within_ok.mpr done, rest⟩

/-- The same result, and names in another order. -/
theorem Yields.rename {step : Assembly α} {make : RegisterTable → α} {others : List String}
    (yields : Yields kinds labels names step make) (more : names ⊆ others) (fewer : others ⊆ names) :
    Yields kinds labels others step make where
  stable := fun within knows => yields.stable within (knows.subset more)
  runs := by
    intro before serves
    rcases yields.runs before serves with ⟨after, done, later, servesAfter, knows⟩
    exact ⟨after, done, later, servesAfter, knows.subset fewer⟩

/-! ## Operands -/

/-- A step that finds or makes a register by name. -/
def Finds (kinds : Nat → PinKind) (labels : List String) (name : String)
    (step : Assembly RegisterRef) : Prop :=
  ∀ before : Assembler, before.Serves kinds labels → ∃ register after,
    outcome step before = (.ok register, after) ∧ before.Later after ∧
      after.Serves kinds labels ∧ after.table.find? name = some register

theorem Finds.yields {register : RegisterRef} {step : Assembly RegisterRef}
    (finds : Finds kinds labels register.name step) :
    Yields kinds labels [register.name] step fun table => table.resolve register where
  stable := fun within knows => RegisterTable.resolve_within within knows
  runs := by
    intro before serves
    rcases finds before serves with ⟨result, after, done, later, servesAfter, found⟩
    have resolved : after.table.resolve register = result := by
      rw [RegisterTable.resolve, found]
      rfl
    refine ⟨after, by rw [resolved, done], later, servesAfter, fun name member => ?_⟩
    rw [List.mem_singleton.mp member]
    exact ⟨result, found⟩

/-- A pin of the right kind is bound to a channel, now or earlier. -/
theorem channel_of_bound {registry : PinRegistry} (channels : Channels) (pin : Nat)
    (bound : ∀ binding ∈ registry.bindings, binding.kind = kinds binding.pin) :
    ∃ channel after channelsAfter,
      registry.channel channels pin (kinds pin) = (.ok channel, after, channelsAfter) ∧
      ∀ binding ∈ after.bindings, binding.kind = kinds binding.pin := by
  unfold PinRegistry.channel
  cases found : registry.find? pin with
  | some binding =>
      have matched := List.find?_some found
      have samePin : binding.pin = pin := eq_of_beq matched
      have sameKind : binding.kind = kinds pin := by
        rw [bound binding (List.mem_of_find?_eq_some found), samePin]
      simp only [sameKind, if_true]
      exact ⟨_, _, _, rfl, bound⟩
  | none =>
      refine ⟨_, _, _, rfl, fun binding member => ?_⟩
      rcases List.mem_append.mp member with old | new
      · exact bound binding old
      · rw [List.mem_singleton.mp new]

theorem finds_declarePin (line : Line) {kind : PinKind} {pin : Nat} {name : String}
    (isPin : pinOfName? name.toList = some (kind, pin)) (ofKind : kinds pin = kind)
    (canonical : name = kind.registerName pin) :
    Finds kinds labels name (declarePin line kind pin) := by
  intro before serves
  rw [declarePin, outcome_get_bind, ← canonical]
  cases found : before.table.find? name with
  | some register =>
      simp only [found]
      exact ⟨register, before, rfl, .refl before, serves, found⟩
  | none =>
      rcases channel_of_bound before.board.channels pin serves.bound with
        ⟨channel, registry, channels, connected, bound⟩
      rw [ofKind] at connected
      have servesConnected : (before.connect kind pin registry channels).Serves kinds labels :=
        ⟨serves.inside, serves.apart, serves.pins, bound, serves.jumps⟩
      have fits : (Register.pin kind channel).pinKind? = (pinOfName? name.toList).map Prod.fst := by
        rw [isPin]
        rfl
      rcases Assembler.create_fresh servesConnected found fits with
        ⟨later, servesAfter, isFound, _⟩
      simp only [found, connected]
      exact ⟨_, _, rfl, ⟨later.table, later.states⟩, servesAfter, isFound⟩

theorem finds_declareRegister (line : Line) {name : String} (proper : isProperName kinds name) :
    Finds kinds labels name (declareRegister line name) := by
  rw [isProperName, Bool.and_eq_true] at proper
  unfold declareRegister
  cases isPin : pinOfName? name.toList with
  | some pin =>
      rcases pin with ⟨kind, number⟩
      rw [isPin] at proper
      simp only [Bool.and_eq_true, beq_iff_eq] at proper
      exact finds_declarePin line isPin proper.2.1 proper.2.2
  | none =>
      intro before serves
      simp only
      rw [outcome_get_bind]
      cases found : before.table.find? name with
      | some register =>
          exact ⟨register, before, rfl, .refl before, serves, found⟩
      | none =>
          have fits : (Register.plain (.int 0)).pinKind? =
              (pinOfName? name.toList).map Prod.fst := by
            rw [isPin]
            rfl
          rcases Assembler.create_fresh serves found fits with ⟨later, servesAfter, isFound, _⟩
          exact ⟨_, _, rfl, later, servesAfter, isFound⟩

theorem finds_register (line : Line) (index : Nat) {name : String}
    (proper : isProperName kinds name) :
    Finds kinds labels name (Assembly.register line index (.register name)) := by
  intro before serves
  rcases finds_declareRegister line proper before serves with ⟨register, after, done, rest⟩
  refine ⟨register, after, ?_, rest⟩
  have value : outcome (Assembly.value line (.register name)) before =
      (.ok (.ref register), after) := outcome_bind_ok done
  exact outcome_bind_ok value

/-- Whether there is a pin behind a register can be told from its name. -/
theorem outcome_pinKind? {assembler : Assembler} (serves : assembler.Serves kinds labels)
    {name : String} {register : RegisterRef} (found : assembler.table.find? name = some register) :
    outcome (pinKind? register) assembler =
      (.ok ((pinOfName? name.toList).map Prod.fst), assembler) := by
  rw [pinKind?, outcome_get_bind, serves.pins name register found]
  rfl

theorem finds_pin (line : Line) (index : Nat) {name : String} (proper : isProperName kinds name)
    (isPin : (pinOfName? name.toList).isSome) :
    Finds kinds labels name (Assembly.pin line index (.register name)) := by
  intro before serves
  rcases finds_register line index proper before serves with
    ⟨register, after, done, later, servesAfter, found⟩
  refine ⟨register, after, ?_, later, servesAfter, found⟩
  rcases Option.isSome_iff_exists.mp isPin with ⟨pin, isPin⟩
  have kind := outcome_pinKind? servesAfter found
  rw [isPin] at kind
  rw [Assembly.pin, outcome_bind_ok done, outcome_bind_ok kind]
  rfl

theorem finds_bus (line : Line) (index : Nat) {name : String} (proper : isProperName kinds name)
    (isBus : (pinOfName? name.toList).any fun pin => pin.1 == .xbus) :
    Finds kinds labels name (Assembly.bus line index (.register name)) := by
  intro before serves
  rcases finds_register line index proper before serves with
    ⟨register, after, done, later, servesAfter, found⟩
  refine ⟨register, after, ?_, later, servesAfter, found⟩
  cases isPin : pinOfName? name.toList with
  | none =>
      rw [isPin] at isBus
      cases isBus
  | some pin =>
      rw [isPin, Option.any_some, beq_iff_eq] at isBus
      have kind := outcome_pinKind? servesAfter found
      rw [isPin, Option.map_some, isBus] at kind
      rw [Assembly.bus, outcome_bind_ok done, outcome_bind_ok kind]
      rfl

theorem yields_value (line : Line) {value : Value} (proper : value.isProper kinds) :
    Yields kinds labels value.names (Assembly.value line value.token)
      fun table => value.resolve table := by
  cases value with
  | int number => exact yields_pure _
  | str text => exact yields_pure _
  | ref register =>
      have found : Yields kinds labels [register.name] (declareRegister line register.name)
          fun table => table.resolve register := (finds_declareRegister line proper).yields
      exact found.bind fun result => yields_pure (Value.ref result)
  | float => cases proper
  | null => cases proper

/-- The operand of a cast, which is the name of a type if it is a text. -/
theorem yields_castOperand (line : Line) {kind : Value} (proper : kind.isProper kinds)
    (isType : ∀ name, kind = .str name → CastType.isName name) :
    Yields kinds labels kind.names (castOperand line kind.token)
      fun table => kind.resolve table := by
  cases kind with
  | str name =>
      have known : castType line name = pure (.str name) := by
        rw [castType, if_pos (isType name rfl)]
      change Yields kinds labels [] (castType line name) fun _ => Value.str name
      rw [known]
      exact yields_pure _
  | int number => exact yields_pure _
  | ref register => exact yields_value line proper
  | float => cases proper
  | null => cases proper

theorem yields_jumpLabel (line : Line) {label : String} (declared : label ∈ labels) :
    Yields kinds labels [] (jumpLabel line (.word label)) fun _ => label where
  stable := fun _ _ => rfl
  runs := by
    intro before serves
    refine ⟨{ before with jumps := ⟨label, line.number, line.raw⟩ :: before.jumps }, rfl,
      ⟨.refl _, fun _ _ _ => rfl⟩, ⟨serves.inside, serves.apart, serves.pins, serves.bound, ?_⟩,
      nofun⟩
    intro jump member
    rcases List.mem_cons.mp member with rfl | earlier
    · exact declared
    · exact serves.jumps jump earlier

/-! ## Instructions -/

theorem Yields.map {step : Assembly α} {make : RegisterTable → α}
    (yields : Yields kinds labels names step make) (change : α → β) :
    Yields kinds labels names (do return change (← step)) fun table => change (make table) :=
  (yields.bind fun result => yields_pure (change result)).rename (by simp) (by simp)

theorem Yields.of_outcome {step other : Assembly α} {make : RegisterTable → α}
    (yields : Yields kinds labels names other make)
    (same : ∀ assembler, outcome step assembler = outcome other assembler) :
    Yields kinds labels names step make where
  stable := yields.stable
  runs := by
    intro before serves
    rcases yields.runs before serves with ⟨after, done, rest⟩
    exact ⟨after, (same before).trans done, rest⟩

theorem outcome_mnemonic (line : Line) (opcode : OpCode) (operands : List Token)
    (assembler : Assembler) :
    outcome (mnemonic line (.word opcode.mnemonic :: operands)) assembler =
      (.ok (opcode, operands), assembler) := by
  unfold mnemonic
  simp only [OpCode.ofMnemonic?_mnemonic]
  rfl

theorem yields_plainInstruction (line : Line) {instruction : Instruction}
    (proper : instruction.isProper kinds labels) (noTest : instruction.isTest = false) :
    Yields kinds labels instruction.names
      (plainInstruction line instruction.opcode instruction.operandTokens)
      fun table => instruction.resolve table := by
  cases instruction with
  | noOperation => exact yields_pure _
  | stop => exact yields_pure _
  | not => exact yields_pure _
  | move source target =>
      simp only [Instruction.isProper, Bool.and_eq_true] at proper
      exact (yields_value line proper.1).bind fun value =>
        (finds_register line 1 proper.2).yields.map (Instruction.move value)
  | swap left right =>
      simp only [Instruction.isProper, Bool.and_eq_true] at proper
      exact (finds_register line 0 proper.1).yields.bind fun register =>
        (finds_register line 1 proper.2).yields.map (Instruction.swap register)
  | jump label =>
      simp only [Instruction.isProper, List.contains_iff_mem] at proper
      exact (yields_jumpLabel line proper).map Instruction.jump
  | sleep duration => exact (yields_value line proper).map Instruction.sleep
  | observe register =>
      simp only [Instruction.isProper, Bool.and_eq_true] at proper
      exact (finds_bus line 0 proper.1 proper.2).yields.map Instruction.observe
  | generate register on off =>
      simp only [Instruction.isProper, Bool.and_eq_true] at proper
      exact (finds_pin line 0 proper.1.1.1 proper.1.1.2).yields.bind fun pin =>
        (yields_value line proper.1.2).bind fun value =>
          (yields_value line proper.2).map (Instruction.generate pin value)
  | add operand => exact (yields_value line proper).map Instruction.add
  | subtract operand => exact (yields_value line proper).map Instruction.subtract
  | multiply operand => exact (yields_value line proper).map Instruction.multiply
  | divide operand => exact (yields_value line proper).map Instruction.divide
  | digit position => exact (yields_value line proper).map Instruction.digit
  | setDigit position value =>
      simp only [Instruction.isProper, Bool.and_eq_true] at proper
      exact (yields_value line proper.1).bind fun first =>
        (yields_value line proper.2).map (Instruction.setDigit first)
  | cast kind =>
      simp only [Instruction.isProper, Bool.and_eq_true] at proper
      refine (yields_castOperand line proper.1 fun name isText => ?_).map Instruction.cast
      rw [isText] at proper
      exact proper.2
  | increment register => exact (finds_register line 0 proper).yields.map Instruction.increment
  | decrement register => exact (finds_register line 0 proper).yields.map Instruction.decrement
  | test => cases noTest

end Assembly

section

open Assembly

variable {kinds : Nat → PinKind} {labels : List String}

mutual

/-- A statement is assembled to the instruction it was read from. -/
theorem Statement.Reads.yields {statement : Statement} {instruction : Instruction}
    (reads : statement.Reads instruction) (proper : instruction.isProper kinds labels) :
    Yields kinds labels instruction.names statement.assemble
      fun table => instruction.resolve table := by
  cases reads with
  | plain line noTest =>
      apply (yields_plainInstruction line proper noTest).of_outcome
      intro assembler
      rw [Statement.assemble, Instruction.tokens,
        outcome_bind_ok (outcome_mnemonic line instruction.opcode _ assembler)]
      cases instruction with
      | test => cases noTest
      | _ => rfl
  | test line kind left right branches =>
      simp only [Instruction.isProper, Bool.and_eq_true] at proper
      have blocks := branches.yields proper.1.2 proper.2
      have whole := (yields_value line proper.1.1.1).bind fun first =>
        (yields_value line proper.1.1.2).bind fun second =>
          blocks.map fun pair => Instruction.test kind first second pair.1 pair.2
      apply whole.of_outcome
      intro assembler
      rw [Statement.assemble, Instruction.tokens, outcome_bind_ok (outcome_mnemonic line _ _ assembler)]
      rfl

theorem Branches.Reads.yields {branches : Branches} {positive negative : Block}
    (reads : branches.Reads positive negative) (properPositive : positive.isProper kinds labels)
    (properNegative : negative.isProper kinds labels) :
    Yields kinds labels (positive.names ++ negative.names) branches.assemble
      fun table => (positive.resolve table, negative.resolve table) := by
  cases reads with
  | nil => exact yields_pure _
  | positive reads others =>
      simp only [Block.isProper, Bool.and_eq_true] at properPositive
      have here := reads.yields properPositive.1
      have rest := others.yields properPositive.2 properNegative
      have whole := (here.within .branch).bind fun instruction =>
        rest.map fun blocks => (Block.cons instruction blocks.1, blocks.2)
      rw [← List.append_assoc] at whole
      exact whole
  | negative reads others =>
      simp only [Block.isProper, Bool.and_eq_true] at properNegative
      have here := reads.yields properNegative.1
      have rest := others.yields properPositive properNegative.2
      have whole := (here.within .branch).bind fun instruction =>
        rest.map fun blocks => (blocks.1, Block.cons instruction blocks.2)
      refine whole.rename ?_ ?_
      · intro name member
        simp only [Block.names, List.mem_append] at member ⊢
        tauto
      · intro name member
        simp only [Block.names, List.mem_append] at member ⊢
        tauto

end

end

end NodeAssembly
