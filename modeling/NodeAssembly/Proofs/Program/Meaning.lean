import NodeAssembly.Proofs.Program.Declaring

/-! What comes of the statements of a source text. Assembling carries out the
declarations of the text in the order in which they are written, operands
included, up to the end or to the first fault. The instruction of a statement
has the mnemonic, the operands and the branches that are written there, and
what an operand was found to be it still is in the finished program. -/

namespace NodeAssembly

open NodeAssembly.Assembly

/-! ## Meanings -/

namespace Token

/-- What an operand declares. -/
def declarations : Token → List Declaration
  | .register name => [.register name]
  | _ => []

/-- What a token stands for as an operand. -/
inductive Means (table : RegisterTable) : Token → Value → Prop
  | int (number : Int32) : Means table (.int number) (.int number)
  | float (number : Float32) : Means table (.float number) (.float number)
  | str (text : String) : Means table (.str text) (.str text)
  | register {name : String} {register : RegisterRef}
      (found : table.find? (canonicalName name) = some register) :
      Means table (.register name) (.ref register)
  | word {name : String} {register : RegisterRef} (found : table.find? name = some register) :
      Means table (.word name) (.ref register)
  /-- A label, or the type of a cast. -/
  | name (name : String) : Means table (.word name) (.str name)

end Token

namespace Instruction

/-- The operands, where a register is a reference and a label is a text. -/
def operandValues : Instruction → List Value
  | .noOperation | .stop | .not => []
  | .move source target => [source, .ref target]
  | .swap left right => [.ref left, .ref right]
  | .jump label => [.str label]
  | .sleep operand | .add operand | .subtract operand | .multiply operand | .divide operand
  | .digit operand | .cast operand => [operand]
  | .observe register | .increment register | .decrement register => [.ref register]
  | .generate register on off => [.ref register, on, off]
  | .setDigit position value => [position, value]
  | .test _ left right _ _ => [left, right]

/-- The registers that need a channel have one. -/
def Plugged (file : RegisterFile) : Instruction → Prop
  | .observe register => ∃ channel, file[register.cell]? = some (.pin .xbus channel)
  | .generate register _ _ => ∃ kind channel, file[register.cell]? = some (.pin kind channel)
  | _ => True

/-- The instruction is no test and has the operands that the tokens stand for. -/
structure Spelled (table : RegisterTable) (file : RegisterFile) (opcode : OpCode)
    (operands : List Token) (instruction : Instruction) : Prop where
  opcode : instruction.opcode = opcode
  noTest : instruction.isTest = false
  operands : List.Forall₂ (Token.Means table) operands instruction.operandValues
  plugged : instruction.Plugged file

end Instruction

mutual

/-- What a statement says. -/
inductive Statement.Means (table : RegisterTable) (file : RegisterFile) :
    Statement → Instruction → Prop
  | plain {line : Line} {word : String} {opcode : OpCode} {operands : List Token}
      {branches : Branches} {instruction : Instruction}
      (named : OpCode.ofMnemonic? word = some opcode)
      (spelled : instruction.Spelled table file opcode operands) :
      Statement.Means table file (.instruction line (.word word :: operands) branches) instruction
  | test {line : Line} {word : String} {kind : TestKind} {first second : Token}
      {left right : Value} {branches : Branches} {positive negative : Block}
      (named : OpCode.ofMnemonic? word = some (.test kind))
      (isLeft : first.Means table left) (isRight : second.Means table right)
      (blocks : Branches.Means table file branches positive negative) :
      Statement.Means table file (.instruction line [.word word, first, second] branches)
        (.test kind left right positive negative)

inductive Branches.Means (table : RegisterTable) (file : RegisterFile) :
    Branches → Block → Block → Prop
  | nil : Branches.Means table file .nil .nil .nil
  | positive {statement : Statement} {rest : Branches} {head : Instruction} {tail other : Block}
      (means : Statement.Means table file statement head)
      (others : Branches.Means table file rest tail other) :
      Branches.Means table file (.cons .positive statement rest) (.cons head tail) other
  | negative {statement : Statement} {rest : Branches} {head : Instruction} {other tail : Block}
      (means : Statement.Means table file statement head)
      (others : Branches.Means table file rest other tail) :
      Branches.Means table file (.cons .negative statement rest) other (.cons head tail)

end

mutual

/-- What the operands of a statement declare, in the order in which they are
written. Only a test has branches. -/
def Statement.declarations : Statement → List Declaration
  | .instruction _ tokens branches =>
    tokens.flatMap Token.declarations ++ if isTest tokens then branches.declarations else []
  | .illegible _ _ => []
  | .stray _ => []

def Branches.declarations : Branches → List Declaration
  | .nil => []
  | .cons _ statement rest => statement.declarations ++ rest.declarations

end

namespace Item

/-- All declarations of an item, in front of its instruction and in it. -/
def allDeclarations (item : Item) : List Declaration :=
  item.declarations ++
    match item.body with
    | .entry _ statement => statement.declarations
    | _ => []

/-- The entry that an item says. -/
def Means (table : RegisterTable) (file : RegisterFile) (item : Item) (entry : Entry) : Prop :=
  ∃ statement, item.body = .entry entry.once statement ∧ entry.line = item.line.number ∧
    statement.Means table file entry.instruction

end Item

/-- The declarations of a source text, in the order in which they are written. -/
def sourceDeclarations (source : String) : List Declaration :=
  (Item.ofSource source).flatMap Item.allDeclarations

/-! ## Steps and what they declare -/

namespace Assembly

variable {α β : Type} {before after : Assembler} {declaration : Declaration}
  {declarations : List Declaration}

/-- The step carries out the declarations in order, all of them if it ends well
and the first ones otherwise. What it ends with has the meaning from then on. -/
def ConveysAt (before : Assembler) (declarations : List Declaration) (step : Assembly α)
    (means : Assembler → α → Prop) : Prop :=
  ∃ made left, declarations = made ++ left ∧ before.Declares made (outcome step before).2 ∧
    ∀ result, (outcome step before).1 = .ok result →
      left = [] ∧ ∀ later, (outcome step before).2.Retains later → means later result

/-- The step does so wherever it is taken. -/
def Conveys (declarations : List Declaration) (step : Assembly α)
    (means : Assembler → α → Prop) : Prop :=
  ∀ before, ConveysAt before declarations step means

variable {step : Assembly α} {next : α → Assembly β} {means : Assembler → α → Prop}
  {meansNext : Assembler → β → Prop}

theorem conveysAt_done {result : α} (done : outcome step before = (.ok result, after))
    (declares : before.Declares declarations after)
    (holds : ∀ later, after.Retains later → means later result) :
    ConveysAt before declarations step means := by
  refine ⟨declarations, [], (List.append_nil _).symm, ?_, fun value isValue => ⟨rfl, ?_⟩⟩
  · rw [done]
    exact declares
  · rw [done] at isValue ⊢
    cases isValue
    exact holds

theorem conveysAt_error {error : ParseError}
    (failed : outcome step before = (.error error, before)) :
    ConveysAt before declarations step means := by
  refine ⟨[], declarations, rfl, ?_, fun value isValue => ?_⟩
  · rw [failed]
    exact .nil before
  · rw [failed] at isValue
    cases isValue

theorem conveys_fail (line : Line) (kind : ErrorKind) :
    Conveys declarations (fail line kind) means :=
  fun before => conveysAt_error (outcome_fail line kind before)

theorem conveys_pure {result : α} (holds : ∀ later, means later result) :
    Conveys [] (pure result) means :=
  fun before => conveysAt_done rfl (.nil before) fun later _ => holds later

theorem conveys_get_bind {next : Assembler → Assembly β}
    (each : ∀ assembler, ConveysAt assembler declarations (next assembler) meansNext) :
    Conveys declarations (get >>= next) meansNext := by
  intro before
  rw [ConveysAt, outcome_get_bind]
  exact each before

theorem Conveys.imp {weaker : Assembler → α → Prop} (conveys : Conveys declarations step means)
    (implied : ∀ later result, means later result → weaker later result) :
    Conveys declarations step weaker := by
  intro before
  rcases conveys before with ⟨made, left, split, declares, ends⟩
  refine ⟨made, left, split, declares, fun result done => ?_⟩
  rcases ends result done with ⟨none, holds⟩
  exact ⟨none, fun later retains => implied later result (holds later retains)⟩

/-- What the first step ends with still has its meaning after the second one. -/
theorem Conveys.bind {more : List Declaration} (first : Conveys declarations step means)
    (second : ∀ result, Conveys more (next result) fun later value =>
      means later result → meansNext later value) :
    Conveys (declarations ++ more) (step >>= next) meansNext := by
  intro before
  rcases first before with ⟨made, left, rfl, declares, ends⟩
  rw [ConveysAt, outcome_bind]
  rcases done : outcome step before with ⟨error | result, between⟩
  · rw [done] at declares
    exact ⟨made, left ++ more, List.append_assoc .., declares, nofun⟩
  · rw [done] at declares ends
    rcases ends result rfl with ⟨rfl, holds⟩
    rcases second result between with ⟨madeNext, leftNext, rfl, declaresNext, endsNext⟩
    refine ⟨made ++ madeNext, leftNext, ?_, declares.append declaresNext, fun value isValue => ?_⟩
    · rw [List.append_nil, List.append_assoc]
    · rcases endsNext value isValue with ⟨none, holdsNext⟩
      refine ⟨none, fun later retains => holdsNext later retains (holds later ?_)⟩
      exact declaresNext.retains.trans retains

/-- The second step declares nothing. -/
theorem Conveys.andThen (first : Conveys declarations step means)
    (second : ∀ result, Conveys [] (next result) fun later value =>
      means later result → meansNext later value) :
    Conveys declarations (step >>= next) meansNext := by
  have both := first.bind second
  rwa [List.append_nil] at both

theorem Conveys.within (context : ErrorContext) (conveys : Conveys declarations step means) :
    Conveys declarations (within context step) means := by
  intro before
  rcases conveys before with ⟨made, left, split, declares, ends⟩
  refine ⟨made, left, split, declares, fun result done => ends result ?_⟩
  have whole : outcome (Assembly.within context step) before =
      (.ok result, (outcome (Assembly.within context step) before).2) := Prod.ext done rfl
  rw [outcome_within_ok.mp whole]

theorem Conveys.forM {visit : β → Assembly Unit} {each : β → List Declaration}
    (conveys : ∀ item, Conveys (each item) (visit item) fun _ _ => True) (items : List β) :
    Conveys (items.flatMap each) (items.forM visit) fun _ _ => True := by
  induction items with
  | nil => exact conveys_pure fun _ => trivial
  | cons head tail induction =>
      exact (conveys head).bind fun _ => induction.imp fun _ _ _ _ => trivial

/-! ## Declarations -/

theorem conveys_declarePin (line : Line) {kind : PinKind} {pin : Nat}
    (isPin : declaration.pin? = some (kind, pin)) :
    Conveys [declaration] (declarePin line kind pin) fun later register =>
      later.table.find? (kind.registerName pin) = some register := by
  intro before
  cases found : before.table.find? (kind.registerName pin) with
  | some register =>
      have done : outcome (declarePin line kind pin) before = (.ok register, before) := by
        rw [declarePin, outcome_get_bind]
        simp only [found, outcome_pure]
      have known := Assembler.Declared.known (Declaration.registerName?_of_pin isPin) found
      exact conveysAt_done done (.single known) fun later retains => retains.table _ _ found
  | none =>
      rcases asked : before.registry.channel before.board.channels pin kind with
        ⟨conflict | channel, registry, channels⟩
      · apply conveysAt_error
        rw [declarePin, outcome_get_bind]
        simp only [found, asked]
        exact outcome_fail line _ before
      · have made := outcome_declarePin_new line found asked
        rw [outcome_create] at made
        refine conveysAt_done made (.single (.pin isPin found asked)) fun later retains => ?_
        exact retains.table _ _ (Assembler.find?_create_self found)

theorem conveys_declareRegister (line : Line) (name : String) :
    Conveys [.register name] (declareRegister line name) fun later register =>
      later.table.find? (canonicalName name) = some register := by
  unfold declareRegister
  cases isPin : pinOfName? name.toList with
  | some pin =>
      rcases pin with ⟨kind, number⟩
      rw [canonicalName_of_pin isPin]
      exact conveys_declarePin line isPin
  | none =>
      rw [canonicalName_of_noPin isPin]
      refine conveys_get_bind fun before => ?_
      cases found : before.table.find? name with
      | some register =>
          have named : (Declaration.register name).registerName? = some name :=
            congrArg some (canonicalName_of_noPin isPin)
          exact conveysAt_done rfl (.single (.known named found)) fun later retains =>
            retains.table _ _ found
      | none =>
          refine conveysAt_done (outcome_create _ _ _) (.single (.plain isPin found))
            fun later retains => ?_
          exact retains.table _ _ (Assembler.find?_create_self found)

theorem outcome_checkFree_taken (line : Line) {name : String}
    (taken : before.table.contains name = true) :
    outcome (checkFree line name) before =
      (.error (.ofLine line.number line.raw (.duplicateRegister name)), before) := by
  rw [checkFree, outcome_get_bind, if_pos taken, outcome_fail]

theorem free_of_contains {table : RegisterTable} {name : String}
    (unknown : table.contains name = false) : table.find? name = none :=
  Option.isSome_eq_false_iff.mp unknown |> Option.isNone_iff_eq_none.mp

theorem conveys_declareMemory (line : Line) (plan : MemoryPlan) :
    Conveys [.memory plan.name plan.size] (declareMemory line plan.name plan.size)
      fun _ _ => True := by
  intro before
  have cursorName : plan.name ++ "_i" = plan.cursorName := rfl
  simp only [declareMemory, cursorName]
  cases taken : before.table.contains plan.name with
  | true =>
      apply conveysAt_error
      rw [outcome_bind, outcome_checkFree_taken line taken]
  | false =>
      have free := free_of_contains taken
      rw [ConveysAt, outcome_bind_ok (outcome_checkFree line free)]
      cases cursorTaken : before.table.contains plan.cursorName with
      | true =>
          apply conveysAt_error
          rw [outcome_bind, outcome_checkFree_taken line cursorTaken]
      | false =>
          have cursorFree := free_of_contains cursorTaken
          rw [outcome_bind_ok (outcome_checkFree line cursorFree)]
          refine conveysAt_done (?_ : _ = (Except.ok (), before.createMemory plan))
            (.single (.memory free cursorFree)) fun _ _ => trivial
          unfold Assembler.createMemory MemoryPlan.register
          cases plan.size <;> rfl

theorem conveys_declareLabel (line : Line) (label : String) :
    Conveys [.label label] (declareLabel line label) fun _ _ => True := by
  intro before
  rw [declareLabel, ConveysAt, outcome_get_bind]
  split
  · exact conveysAt_error rfl
  · exact conveysAt_done rfl (.single (.label label _)) fun _ _ => trivial

theorem conveys_declare (line : Line) (declaration : Declaration) :
    Conveys [declaration] (declare line declaration) fun _ _ => True := by
  cases declaration with
  | pin kind pin =>
      exact (conveys_declarePin line rfl).andThen fun _ => conveys_pure fun _ _ => trivial
  | register name =>
      exact (conveys_declareRegister line name).andThen fun _ => conveys_pure fun _ _ => trivial
  | memory name size => exact conveys_declareMemory line ⟨name, size⟩
  | label name => exact conveys_declareLabel line name

/-! ## Operands -/

theorem conveys_value (line : Line) (token : Token) :
    Conveys token.declarations (value line token) fun later operand =>
      token.Means later.table operand := by
  unfold value
  split
  next number => exact conveys_pure fun _ => .int number
  next number => exact conveys_pure fun _ => .float number
  next text => exact conveys_pure fun _ => .str text
  next name =>
    exact (conveys_declareRegister line name).andThen fun register =>
      conveys_pure fun _ found => .register found
  next name =>
    refine conveys_get_bind fun before => ?_
    cases found : before.table.find? name with
    | some register =>
        refine conveysAt_done rfl (.nil before) fun later retains => ?_
        exact .word (retains.table _ _ found)
    | none => exact conveys_fail line _ before
  next => exact conveys_fail line _

theorem conveys_register (line : Line) (index : Nat) (token : Token) :
    Conveys token.declarations (register line index token) fun later register =>
      token.Means later.table (.ref register) := by
  refine (conveys_value line token).andThen fun operand => ?_
  split
  · exact conveys_pure fun _ means => means
  · exact conveys_fail line _

theorem conveys_pinKind? (register : RegisterRef) :
    Conveys [] (pinKind? register) fun later found => ∀ kind, found = some kind →
      ∃ channel, later.file[register.cell]? = some (.pin kind channel) := by
  refine conveys_get_bind fun before => ?_
  refine conveysAt_done rfl (.nil before) fun later retains kind isKind => ?_
  cases held : before.file[register.cell]? with
  | none =>
      rw [RegisterFile.state, held] at isKind
      cases isKind
  | some state =>
      rw [RegisterFile.state, held] at isKind
      cases state with
      | pin other channel =>
          cases isKind
          exact ⟨channel, retains.cells _ _ held⟩
      | _ => cases isKind

theorem conveys_pin (line : Line) (index : Nat) (token : Token) :
    Conveys token.declarations (pin line index token) fun later register =>
      token.Means later.table (.ref register) ∧
        ∃ kind channel, later.file[register.cell]? = some (.pin kind channel) := by
  refine (conveys_register line index token).andThen fun register => ?_
  refine (conveys_pinKind? register).andThen fun found => ?_
  split
  next kind => exact conveys_pure fun _ pinned means => ⟨means, kind, pinned kind rfl⟩
  next => exact conveys_fail line _

theorem conveys_bus (line : Line) (index : Nat) (token : Token) :
    Conveys token.declarations (bus line index token) fun later register =>
      token.Means later.table (.ref register) ∧
        ∃ channel, later.file[register.cell]? = some (.pin .xbus channel) := by
  refine (conveys_register line index token).andThen fun register => ?_
  refine (conveys_pinKind? register).andThen fun found => ?_
  split
  · exact conveys_pure fun _ pinned means => ⟨means, pinned .xbus rfl⟩
  · exact conveys_fail line _

theorem conveys_castType (line : Line) (name : String) :
    Conveys [] (castType line name) fun _ operand => operand = .str name := by
  unfold castType
  split
  · exact conveys_pure fun _ => rfl
  · exact conveys_fail line _

theorem conveys_castOperand (line : Line) (token : Token) :
    Conveys token.declarations (castOperand line token) fun later operand =>
      token.Means later.table operand := by
  unfold castOperand
  split
  next name =>
    refine conveys_get_bind fun before => ?_
    split
    · exact conveys_value line (.word name) before
    · refine (conveys_castType line name).imp ?_ before
      rintro _ _ rfl
      exact .name name
  next name =>
    refine (conveys_castType line name).imp ?_
    rintro _ _ rfl
    exact .str name
  next => exact conveys_value line _

theorem conveys_jumpLabel (line : Line) (token : Token) :
    Conveys token.declarations (jumpLabel line token) fun later label =>
      token.Means later.table (.str label) := by
  unfold jumpLabel
  split
  next label =>
    intro before
    exact conveysAt_done rfl (.of_aside ⟨rfl, rfl, rfl, rfl⟩) fun _ _ => .name label
  next => exact conveys_fail line _

/-! ## Instructions -/

theorem conveys_plainInstruction (line : Line) (opcode : OpCode) (operands : List Token) :
    Conveys (operands.flatMap Token.declarations) (plainInstruction line opcode operands)
      fun later instruction => instruction.Spelled later.table later.file opcode operands := by
  unfold plainInstruction
  split
  case h_1 => exact conveys_pure fun _ => ⟨rfl, rfl, .nil, trivial⟩
  case h_2 => exact conveys_pure fun _ => ⟨rfl, rfl, .nil, trivial⟩
  case h_3 => exact conveys_pure fun _ => ⟨rfl, rfl, .nil, trivial⟩
  case h_4 source target =>
    refine (conveys_value line source).bind fun _ => ?_
    refine (conveys_register line 1 target).bind fun _ => ?_
    exact conveys_pure fun _ second first => ⟨rfl, rfl, .cons first (.cons second .nil), trivial⟩
  case h_5 left right =>
    refine (conveys_register line 0 left).bind fun _ => ?_
    refine (conveys_register line 1 right).bind fun _ => ?_
    exact conveys_pure fun _ second first => ⟨rfl, rfl, .cons first (.cons second .nil), trivial⟩
  case h_6 label =>
    refine (conveys_jumpLabel line label).bind fun _ => ?_
    exact conveys_pure fun _ means => ⟨rfl, rfl, .cons means .nil, trivial⟩
  case h_8 bus =>
    refine (conveys_bus line 0 bus).bind fun _ => ?_
    exact conveys_pure fun _ means => ⟨rfl, rfl, .cons means.1 .nil, means.2⟩
  case h_9 pin on off =>
    refine (conveys_pin line 0 pin).bind fun _ => ?_
    refine (conveys_value line on).bind fun _ => ?_
    refine (conveys_value line off).bind fun _ => ?_
    exact conveys_pure fun _ third second first =>
      ⟨rfl, rfl, .cons first.1 (.cons second (.cons third .nil)), first.2⟩
  case h_15 position replacement =>
    refine (conveys_value line position).bind fun _ => ?_
    refine (conveys_value line replacement).bind fun _ => ?_
    exact conveys_pure fun _ second first => ⟨rfl, rfl, .cons first (.cons second .nil), trivial⟩
  case h_16 kind =>
    refine (conveys_castOperand line kind).bind fun _ => ?_
    exact conveys_pure fun _ means => ⟨rfl, rfl, .cons means .nil, trivial⟩
  case h_17 target =>
    refine (conveys_register line 0 target).bind fun _ => ?_
    exact conveys_pure fun _ means => ⟨rfl, rfl, .cons means .nil, trivial⟩
  case h_18 target =>
    refine (conveys_register line 0 target).bind fun _ => ?_
    exact conveys_pure fun _ means => ⟨rfl, rfl, .cons means .nil, trivial⟩
  case h_19 => exact conveys_fail line _
  -- What remains has one operand, which is a value.
  all_goals
    refine (conveys_value line _).bind fun _ => ?_
    exact conveys_pure fun _ means => ⟨rfl, rfl, .cons means .nil, trivial⟩

/-- The first token decides what is assembled. -/
theorem outcome_mnemonic_of_word {line : Line} {word : String} {opcode : OpCode}
    (named : OpCode.ofMnemonic? word = some opcode) (operands : List Token)
    (assembler : Assembler) :
    outcome (mnemonic line (.word word :: operands)) assembler =
      (.ok (opcode, operands), assembler) := by
  unfold mnemonic
  simp only [named]
  rfl

/-- What follows from the first token of a statement. -/
theorem conveys_mnemonic_bind {line : Line} {tokens : List Token}
    {next : OpCode × List Token → Assembly α}
    (each : ∀ word opcode operands, tokens = .word word :: operands →
      OpCode.ofMnemonic? word = some opcode →
      Conveys declarations (next (opcode, operands)) means) :
    Conveys declarations (mnemonic line tokens >>= next) means := by
  intro before
  have fails : ∀ kind, outcome (mnemonic line tokens) before =
      (.error (.ofLine line.number line.raw kind), before) →
      ConveysAt before declarations (mnemonic line tokens >>= next) means := by
    intro kind failed
    apply conveysAt_error
    rw [outcome_bind, failed]
  match tokens with
  | [] => exact fails _ rfl
  | .word word :: operands =>
      cases named : OpCode.ofMnemonic? word with
      | none =>
          apply fails
          unfold mnemonic
          simp only [named]
          exact outcome_fail line _ before
      | some opcode =>
          rw [ConveysAt, outcome_bind_ok (outcome_mnemonic_of_word named operands before)]
          exact each word opcode operands rfl named before
  | .int _ :: _ => exact fails _ rfl
  | .float _ :: _ => exact fails _ rfl
  | .str _ :: _ => exact fails _ rfl
  | .register _ :: _ => exact fails _ rfl
  | .positive :: _ => exact fails _ rfl
  | .negative :: _ => exact fails _ rfl

end Assembly

theorem isTest_of_test {word : String} {kind : TestKind}
    (named : OpCode.ofMnemonic? word = some (.test kind)) (operands : List Token) :
    isTest (.word word :: operands) = true := by
  simp only [isTest, named]

theorem isTest_of_other {word : String} {opcode : OpCode}
    (named : OpCode.ofMnemonic? word = some opcode) (other : ∀ kind, opcode ≠ .test kind)
    (operands : List Token) : isTest (.word word :: operands) = false := by
  simp only [isTest, named]
  cases opcode with
  | test kind => exact absurd rfl (other kind)
  | _ => rfl

mutual

theorem Statement.conveys_assemble (statement : Statement) :
    Conveys statement.declarations statement.assemble fun later instruction =>
      statement.Means later.table later.file instruction := by
  match statement with
  | .illegible line slice => exact conveys_fail line _
  | .stray line => exact conveys_fail line _
  | .instruction line tokens branches =>
      rw [Statement.assemble]
      refine conveys_mnemonic_bind fun word opcode operands split named => ?_
      subst split
      split
      next kind left right pair =>
        cases pair
        have declared :
            (Statement.instruction line [.word word, left, right] branches).declarations =
            left.declarations ++ (right.declarations ++ branches.declarations) := by
          rw [Statement.declarations, if_pos (isTest_of_test named _)]
          simp [Token.declarations]
        rw [declared]
        refine (conveys_value line left).bind fun _ => ?_
        refine (conveys_value line right).bind fun _ => ?_
        refine (Branches.conveys_assemble branches).andThen fun (positive, negative) => ?_
        exact conveys_pure fun _ blocks second first => .test named first second blocks
      next otherCode others noPair pair =>
        cases pair
        by_cases test : ∃ kind, opcode = .test kind
        · -- A test with another number of operands is refused.
          rcases test with ⟨kind, rfl⟩
          exact conveys_fail line _
        · have noTest := isTest_of_other named (fun kind same => test ⟨kind, same⟩) operands
          have declared :
              (Statement.instruction line (.word word :: operands) branches).declarations =
              operands.flatMap Token.declarations := by
            rw [Statement.declarations, noTest]
            simp [Token.declarations]
          rw [declared]
          exact (conveys_plainInstruction line opcode operands).imp
            fun later instruction spelled => .plain named spelled

theorem Branches.conveys_assemble (branches : Branches) :
    Conveys branches.declarations branches.assemble fun later blocks =>
      branches.Means later.table later.file blocks.1 blocks.2 := by
  match branches with
  | .nil => exact conveys_pure fun _ => .nil
  | .cons sign statement rest =>
      rw [Branches.assemble, Branches.declarations]
      refine ((Statement.conveys_assemble statement).within .branch).bind fun instruction => ?_
      refine (Branches.conveys_assemble rest).andThen fun (positive, negative) => ?_
      cases sign with
      | positive => exact conveys_pure fun _ others means => .positive means others
      | negative => exact conveys_pure fun _ others means => .negative means others

end

/-! ## Items -/

namespace Assembly

variable {before after : Assembler}

theorem conveys_declarations (line : Line) (declarations : List Declaration) :
    Conveys declarations (declarations.forM fun declaration =>
      within .declaration (declare line declaration)) fun _ _ => True := by
  have each : ∀ declaration, Conveys [declaration]
      (within .declaration (declare line declaration)) fun _ _ => True :=
    fun declaration => (conveys_declare line declaration).within .declaration
  have all := Conveys.forM each declarations
  rwa [List.flatMap_singleton'] at all

theorem conveys_item (item : Item) :
    Conveys item.allDeclarations (Assembly.item item) fun _ _ => True := by
  refine (conveys_declarations item.line item.declarations).bind fun _ => ?_
  cases item.body with
  | blank => exact conveys_pure fun _ _ => trivial
  | malformed construct => exact conveys_fail item.line _
  | stray => exact conveys_fail item.line _
  | entry once statement =>
      refine (statement.conveys_assemble.within .instruction).andThen fun instruction => ?_
      exact fun before => conveysAt_done rfl (.of_aside ⟨rfl, rfl, rfl, rfl⟩) fun _ _ _ _ => trivial

theorem conveys_check {β : Type} {check : β → Assembly Unit}
    (each : ∀ item, Conveys [] (check item) fun _ _ => True) (items : List β) :
    Conveys [] (items.forM check) fun _ _ => True := by
  have all := Conveys.forM each items
  rwa [List.flatMap_eq_nil_iff.mpr fun _ _ => rfl] at all

theorem conveys_checkLabels : Conveys [] checkLabels fun _ _ => True := by
  refine conveys_get_bind fun before => ?_
  refine (conveys_check (fun jump => ?_) _).andThen
    (fun _ => (conveys_check (fun label => ?_) _).imp fun _ _ _ _ => trivial) before
  · split
    · exact fun before => conveysAt_error rfl
    · exact conveys_pure fun _ => trivial
  · simp only
    split
    · exact fun before => conveysAt_error rfl
    · exact conveys_pure fun _ => trivial

theorem conveys_program (items : List Item) :
    Conveys (items.flatMap Item.allDeclarations) (program items) fun _ _ => True := by
  refine (Conveys.forM conveys_item items).andThen fun _ => ?_
  refine conveys_checkLabels.andThen fun _ => ?_
  have logs : Conveys [] logProgram fun _ _ => True :=
    fun before => conveysAt_done rfl (.of_aside ⟨rfl, rfl, rfl, rfl⟩) fun _ _ => trivial
  refine logs.andThen fun _ => ?_
  exact conveys_get_bind fun before => conveysAt_done rfl (.nil before) fun _ _ _ _ _ => trivial

/-! The entries come from the items with an instruction, one from each. -/

theorem declare_entries {line : Line} {declaration : Declaration}
    (done : outcome (declare line declaration) before = (.ok (), after)) :
    after.entries = before.entries := by
  have grown : ∀ {α : Type} {step : Assembly α} {result : α}, Extends step →
      outcome step before = (.ok result, after) → after.entries = before.entries := by
    intro α step result leads ended
    have grows := (leads before trivial).1
    rw [ended] at grows
    exact grows.entries_eq
  cases declaration with
  | pin kind pin =>
      exact grown ((extends_declarePin line kind pin).bind fun _ =>
        leads_pure fun _ _ => trivial) done
  | register name =>
      exact grown ((extends_declareRegister line name).bind fun _ =>
        leads_pure fun _ _ => trivial) done
  | memory name size => exact grown (extends_declareMemory line name size) done
  | label name =>
      rw [declare, declareLabel, outcome_get_bind] at done
      split at done
      · cases done
      · cases done
        rfl

theorem declarations_entries {line : Line} {declarations : List Declaration}
    (done : outcome (declarations.forM fun declaration =>
      within .declaration (declare line declaration)) before = (.ok (), after)) :
    after.entries = before.entries := by
  induction declarations generalizing before with
  | nil =>
      cases done
      rfl
  | cons head tail induction =>
      rw [outcome_forM_cons] at done
      rcases outcome_bind_eq_ok done with ⟨_, between, here, rest⟩
      rw [induction rest, declare_entries (outcome_within_ok.mp here)]

/-- An item adds the entry that it says, or none if it says none. -/
theorem item_entries {item : Item} (done : outcome (Assembly.item item) before = (.ok (), after)) :
    ∃ added : List Entry, after.entries = added.reverse ++ before.entries ∧
      ∀ later, after.Retains later → List.Forall₂ (Item.Means later.table later.file)
        ([item].filter Item.isEntry) added := by
  rcases outcome_bind_eq_ok done with ⟨_, between, declared, rest⟩
  have sameEntries := declarations_entries declared
  cases body : item.body with
  | blank =>
      rw [body] at rest
      cases rest
      refine ⟨[], sameEntries, fun later _ => ?_⟩
      simp [Item.isEntry, body]
  | malformed construct =>
      rw [body] at rest
      cases rest
  | stray =>
      rw [body] at rest
      cases rest
  | entry once statement =>
      rw [body] at rest
      rcases outcome_bind_eq_ok rest with ⟨instruction, assembled, isAssembled, added⟩
      have isAssembled := outcome_within_ok.mp isAssembled
      have grows := (statement.assemble_notesJumps between trivial).1
      rcases statement.conveys_assemble between with ⟨_, _, _, _, ends⟩
      rw [isAssembled] at grows ends
      have means := (ends instruction rfl).2
      cases added
      refine ⟨[⟨instruction, once, item.line.number⟩], ?_, fun later retains => ?_⟩
      · rw [List.reverse_singleton, List.singleton_append, ← sameEntries, ← grows.entries_eq]
      · have isEntry : [item].filter Item.isEntry = [item] := by
          simp [Item.isEntry, body]
        have kept : assembled.Retains later :=
          ⟨retains.table, retains.cells, retains.accumulator, retains.clock⟩
        rw [isEntry]
        exact .cons ⟨statement, body, rfl, means later kept⟩ .nil

theorem items_entries {items : List Item}
    (done : outcome (items.forM Assembly.item) before = (.ok (), after)) :
    ∃ added : List Entry, after.entries = added.reverse ++ before.entries ∧
      ∀ later, after.Retains later → List.Forall₂ (Item.Means later.table later.file)
        (items.filter Item.isEntry) added := by
  induction items generalizing before with
  | nil =>
      cases done
      exact ⟨[], rfl, fun _ _ => .nil⟩
  | cons head tail induction =>
      rw [outcome_forM_cons] at done
      rcases outcome_bind_eq_ok done with ⟨_, between, here, rest⟩
      rcases item_entries here with ⟨first, entriesHere, meansHere⟩
      rcases induction rest with ⟨others, entriesRest, meansRest⟩
      rcases Conveys.forM conveys_item tail between with ⟨_, _, _, declares, _⟩
      rw [rest] at declares
      refine ⟨first ++ others, ?_, fun later retains => ?_⟩
      · rw [entriesRest, entriesHere, List.reverse_append, List.append_assoc]
      · rw [← List.singleton_append, List.filter_append]
        exact List.rel_append (meansHere later (declares.retains.trans retains))
          (meansRest later retains)

/-- The entries of a program are what its items say. -/
theorem program_entries {items : List Item} {result : Program} (fresh : before.entries = [])
    (done : outcome (program items) before = (.ok result, after)) :
    List.Forall₂ (Item.Means result.table after.file) (items.filter Item.isEntry)
      result.entries.toList := by
  rcases outcome_bind_eq_ok done with ⟨_, between, itemsDone, rest⟩
  rcases outcome_bind_eq_ok rest with ⟨_, checkedAfter, checked, logged⟩
  have same := (checkLabels_ok checked).1
  subst same
  cases logged
  rcases items_entries itemsDone with ⟨added, entries, means⟩
  have all : checkedAfter.entries.reverse.toArray.toList = added := by
    rw [List.toList_toArray, entries, fresh, List.append_nil, List.reverse_reverse]
  change List.Forall₂ _ _ checkedAfter.entries.reverse.toArray.toList
  rw [all]
  exact means checkedAfter (.refl _)

end Assembly

/-! ## Source texts -/

namespace Program

variable {registry : PinRegistry} {board : Board} {config : Config} {logger : Option Logger}
  {source : String} {program : Program} {file : RegisterFile}

/-- The assembler that a source text is parsed from. -/
abbrev beginning (registry : PinRegistry) (board : Board) (config : Config)
    (logger : Option Logger) : Assembler :=
  .start registry board config (logger.map (·.within "stage" "parsing"))

/-- Whether or not a program comes of it, the first declarations of a source
text are carried out. -/
theorem parse_declares (registry : PinRegistry) (board : Board) (config : Config)
    (logger : Option Logger) (source : String) :
    ∃ made left last, sourceDeclarations source = made ++ left ∧
      (beginning registry board config logger).Declares made last ∧
      (parse registry board config logger source).registry = last.registry := by
  rcases conveys_program (Item.ofSource source) (beginning registry board config logger) with
    ⟨made, left, split, declares, _⟩
  exact ⟨made, left, _, split, declares, rfl⟩

/-- All declarations of a program were carried out, and its entries are what the
items of its source text say. -/
theorem parse_means
    (parsed : (parse registry board config logger source).result = .ok (program, file)) :
    ∃ last : Assembler,
      (beginning registry board config logger).Declares (sourceDeclarations source) last ∧
      last.table = program.table ∧ last.file = file ∧
      (parse registry board config logger source).registry = last.registry ∧
      List.Forall₂ (Item.Means program.table file)
        ((Item.ofSource source).filter Item.isEntry) program.entries.toList := by
  rcases outcome_of_parse parsed with ⟨last, rfl, done⟩
  rcases conveys_program (Item.ofSource source) (beginning registry board config logger) with
    ⟨made, left, split, declares, ends⟩
  rw [done] at declares ends
  rcases ends program rfl with ⟨rfl, _⟩
  rw [List.append_nil] at split
  have table := table_of_program done
  have sameRegistry : (parse registry board config logger source).registry = last.registry :=
    congrArg (·.2.registry) done
  refine ⟨last, ?_, table.symm, rfl, sameRegistry, program_entries rfl done⟩
  rw [sourceDeclarations, split]
  exact declares

end Program

end NodeAssembly
