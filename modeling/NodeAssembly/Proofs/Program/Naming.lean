import NodeAssembly.Proofs.Program.Meaning

/-! A name stands for one register in the whole program. Every operand refers to
the register that the finished table has under its name, wherever it stands and
however it was written; no name is ever given another register; and every
memory has a cursor of its own, which goes by the name of the memory with `_i`
after it. -/

namespace NodeAssembly

open NodeAssembly.Assembly

/-- The cursor of a memory. -/
def Register.cursor? : Register → Option RegisterRef
  | .sized cursor _ => some cursor
  | .growing cursor _ => some cursor
  | _ => none

theorem MemoryPlan.cursor?_register (plan : MemoryPlan) (cursor : RegisterRef) :
    (plan.register cursor).cursor? = some cursor := by
  unfold MemoryPlan.register
  split <;> rfl

/-! ## Tables and their cells -/

namespace Assembler

variable {before after : Assembler} {declaration : Declaration}

theorem Retains.state_eq (retains : before.Retains after) {register : RegisterRef}
    (inside : register.cell < before.file.size) :
    after.file.state register = before.file.state register := by
  have held := Array.getElem?_eq_getElem inside
  rw [RegisterFile.state, RegisterFile.state, held, retains.cells _ _ held]

/-- Every register of the table has a name and a cell of its own, and every
memory the cursor beside it. -/
structure Filed (assembler : Assembler) : Prop where
  found : ∀ register ∈ assembler.table.named,
    assembler.table.find? register.name = some register
  inside : ∀ register ∈ assembler.table.named, register.cell < assembler.file.size
  apart : ∀ first ∈ assembler.table.named, ∀ second ∈ assembler.table.named,
    first.cell = second.cell → first = second
  cursors : ∀ memory ∈ assembler.table.named, ∀ cursor,
    (assembler.file.state memory).cursor? = some cursor →
      assembler.table.find? (memory.name ++ "_i") = some cursor ∧
      ∃ offset, assembler.file.state cursor = .offset offset

namespace Filed

theorem of_eq (filed : before.Filed) (table : after.table = before.table)
    (file : after.file = before.file) : after.Filed := by
  constructor
  · rw [table]
    exact filed.found
  · rw [table, file]
    exact filed.inside
  · rw [table]
    exact filed.apart
  · rw [table, file]
    exact filed.cursors

/-- A new register under a free name. If it is a memory, its cursor is there
already. -/
theorem create (filed : before.Filed) {name : String} {state : Register}
    (free : before.table.find? name = none)
    (fits : ∀ cursor, state.cursor? = some cursor →
      before.table.find? (name ++ "_i") = some cursor ∧
      ∃ offset, before.file.state cursor = .offset offset) :
    (before.create name state).2.Filed := by
  have retains : before.Retains (before.create name state).2 := .create state free
  -- What was beside a memory before is beside it now.
  have kept : ∀ {other : String} {cursor : RegisterRef},
      (before.table.find? (other ++ "_i") = some cursor ∧
        ∃ offset, before.file.state cursor = .offset offset) →
      (before.create name state).2.table.find? (other ++ "_i") = some cursor ∧
        ∃ offset, (before.create name state).2.file.state cursor = .offset offset := by
    rintro other cursor ⟨isFound, offset, isOffset⟩
    have inside := filed.inside cursor (RegisterTable.name_of_find? isFound).2
    exact ⟨retains.table _ _ isFound, offset, (retains.state_eq inside).trans isOffset⟩
  constructor
  · intro register member
    rcases named_create free member with old | rfl
    · exact retains.table _ _ (filed.found register old)
    · exact find?_create_self free
  · intro register member
    change register.cell < (before.file.push state).size
    rw [Array.size_push]
    rcases named_create free member with old | rfl
    · exact Nat.lt_succ_of_lt (filed.inside register old)
    · exact Nat.lt_succ_self _
  · intro first isFirst second isSecond same
    rcases named_create free isFirst with oldFirst | rfl
    · rcases named_create free isSecond with oldSecond | rfl
      · exact filed.apart first oldFirst second oldSecond same
      · exact absurd same (Nat.ne_of_lt (filed.inside first oldFirst))
    · rcases named_create free isSecond with oldSecond | rfl
      · exact absurd same.symm (Nat.ne_of_lt (filed.inside second oldSecond))
      · rfl
  · intro memory member cursor isCursor
    rcases named_create free member with old | rfl
    · rw [retains.state_eq (filed.inside memory old)] at isCursor
      exact kept (filed.cursors memory old cursor isCursor)
    · have isState : (before.create name state).2.file.state ⟨name, before.file.size⟩ = state :=
        state_create_new before name state
      rw [isState] at isCursor
      exact kept (fits cursor isCursor)

theorem createMemory (filed : before.Filed) {plan : MemoryPlan}
    (free : before.table.find? plan.name = none)
    (cursorFree : before.table.find? plan.cursorName = none) :
    (before.createMemory plan).Filed := by
  have cursor : (before.create plan.cursorName (.offset 0)).2.Filed := filed.create cursorFree nofun
  refine cursor.create (find?_name_of_cursor free cursorFree) fun other isCursor => ?_
  rw [MemoryPlan.cursor?_register] at isCursor
  cases isCursor
  exact ⟨find?_create_self cursorFree, 0, state_create_new before plan.cursorName _⟩

theorem of_declared (filed : before.Filed) (declared : before.Declared declaration after) :
    after.Filed := by
  cases declared with
  | known => exact filed
  | @pin _ kind pin _ registry channels isPin free bound =>
      have connected : (before.connect kind pin registry channels).Filed := filed.of_eq rfl rfl
      exact connected.create free nofun
  | plain noPin free => exact filed.create free nofun
  | memory free cursorFree => exact filed.createMemory free cursorFree
  | label => exact filed.of_eq rfl rfl

theorem of_declares {declarations : List Declaration} (filed : before.Filed)
    (declares : before.Declares declarations after) : after.Filed :=
  declares.induct Filed (fun _ declared filed => filed.of_declared declared)
    (fun apart filed => filed.of_eq apart.table apart.file) filed

end Filed

theorem filed_start (registry : PinRegistry) (board : Board) (config : Config)
    (logger : Option Logger) : (Assembler.start registry board config logger).Filed where
  found := by
    change ∀ register ∈ (defaultRegisters 0).1.named,
      (defaultRegisters 0).1.find? register.name = some register
    decide
  inside := by
    change ∀ register ∈ (defaultRegisters 0).1.named, register.cell < 7
    decide
  apart := by
    change ∀ first ∈ (defaultRegisters 0).1.named, ∀ second ∈ (defaultRegisters 0).1.named,
      first.cell = second.cell → first = second
    decide
  cursors := by
    intro memory member cursor isCursor
    change memory ∈ (defaultRegisters config.clockSpeed).1.named at member
    change ((defaultRegisters config.clockSpeed).2.state memory).cursor? = some cursor at isCursor
    simp only [defaultRegisters, List.mem_cons, List.not_mem_nil, or_false] at member
    rcases member with rfl | rfl | rfl | rfl | rfl | rfl | rfl <;> cases isCursor

end Assembler

/-! ## Instructions -/

mutual

/-- The instruction and all instructions in its branches. -/
def Instruction.nodes : Instruction → List Instruction
  | .test kind left right positive negative =>
    .test kind left right positive negative :: (positive.nodes ++ negative.nodes)
  | instruction => [instruction]

def Block.nodes : Block → List Instruction
  | .nil => []
  | .cons head tail => head.nodes ++ tail.nodes

end

/-- The registers of the instruction itself are those that the table has under
their names, with a channel behind them where one is needed. -/
def Instruction.Resolved (table : RegisterTable) (file : RegisterFile) (node : Instruction) :
    Prop :=
  (∀ register, .ref register ∈ node.operandValues →
    table.find? register.name = some register) ∧ node.Plugged file

theorem Token.Means.find? {table : RegisterTable} {token : Token} {register : RegisterRef}
    (means : token.Means table (.ref register)) : table.find? register.name = some register := by
  cases means with
  | register found =>
      rw [(RegisterTable.name_of_find? found).1]
      exact found
  | word found =>
      rw [(RegisterTable.name_of_find? found).1]
      exact found

section

variable {table : RegisterTable} {file : RegisterFile}

theorem Token.Means.find?_of_mem {tokens : List Token} {values : List Value}
    (means : List.Forall₂ (Token.Means table) tokens values) {register : RegisterRef}
    (member : .ref register ∈ values) : table.find? register.name = some register := by
  induction means with
  | nil => cases member
  | cons here _ induction =>
      rcases List.mem_cons.mp member with rfl | later
      · exact here.find?
      · exact induction later

theorem Instruction.nodes_of_noTest {instruction : Instruction}
    (noTest : instruction.isTest = false) : instruction.nodes = [instruction] := by
  rw [Instruction.nodes]
  rintro kind left right positive negative rfl
  cases noTest

/-! Of the two blocks of a test, one gets its first instruction before the rest
of both is made. -/

theorem Block.mem_nodes_positive {node head : Instruction} {tail other : Block} :
    node ∈ (Block.cons head tail).nodes ++ other.nodes ↔
      node ∈ head.nodes ∨ node ∈ tail.nodes ++ other.nodes := by
  rw [Block.nodes, List.append_assoc, List.mem_append]

theorem Block.mem_nodes_negative {node head : Instruction} {tail other : Block} :
    node ∈ other.nodes ++ (Block.cons head tail).nodes ↔
      node ∈ head.nodes ∨ node ∈ other.nodes ++ tail.nodes := by
  simp only [Block.nodes, List.mem_append, or_left_comm]

mutual

theorem Statement.Means.resolved {statement : Statement} {instruction : Instruction}
    (means : statement.Means table file instruction) :
    ∀ node ∈ instruction.nodes, node.Resolved table file := by
  cases means with
  | plain named spelled =>
      intro node member
      rw [Instruction.nodes_of_noTest spelled.noTest, List.mem_singleton] at member
      subst member
      exact ⟨fun register isOperand => Token.Means.find?_of_mem spelled.operands isOperand,
        spelled.plugged⟩
  | test named isLeft isRight blocks =>
      intro node member
      rw [Instruction.nodes] at member
      rcases List.mem_cons.mp member with rfl | inBranches
      · refine ⟨fun register isOperand => ?_, trivial⟩
        exact Token.Means.find?_of_mem (.cons isLeft (.cons isRight .nil)) isOperand
      · exact blocks.resolved node inBranches

theorem Branches.Means.resolved {branches : Branches} {positive negative : Block}
    (means : branches.Means table file positive negative) :
    ∀ node ∈ positive.nodes ++ negative.nodes, node.Resolved table file := by
  cases means with
  | nil => nofun
  | positive head others =>
      intro node member
      rcases Block.mem_nodes_positive.mp member with inHead | inRest
      · exact head.resolved node inHead
      · exact others.resolved node inRest
  | negative head others =>
      intro node member
      rcases Block.mem_nodes_negative.mp member with inHead | inRest
      · exact head.resolved node inHead
      · exact others.resolved node inRest

end

end

/-! ## Finished programs -/

namespace Assembly

variable {before after : Assembler}

theorem Conveys.retains {α : Type} {declarations : List Declaration} {step : Assembly α}
    {means : Assembler → α → Prop} (conveys : Conveys declarations step means)
    (before : Assembler) : before.Retains (outcome step before).2 := by
  rcases conveys before with ⟨_, _, _, declares, _⟩
  exact declares.retains

theorem outcome_forM_append_eq_ok {β : Type} {visit : β → Assembly Unit} {early late : List β}
    (done : outcome ((early ++ late).forM visit) before = (.ok (), after)) :
    ∃ between, outcome (early.forM visit) before = (.ok (), between) ∧
      outcome (late.forM visit) between = (.ok (), after) := by
  induction early generalizing before with
  | nil => exact ⟨before, rfl, done⟩
  | cons head tail induction =>
      rw [List.cons_append, outcome_forM_cons] at done
      rcases outcome_bind_eq_ok done with ⟨_, next, here, rest⟩
      rcases induction rest with ⟨between, tailDone, lateDone⟩
      refine ⟨between, ?_, lateDone⟩
      rw [outcome_forM_cons, outcome_bind_ok here]
      exact tailDone

/-- What is known after some of the items is known in the finished program. -/
theorem retains_of_program {early late : List Item} {result : Program}
    (done : outcome (program (early ++ late)) before = (.ok result, after)) :
    ∃ moment, outcome (early.forM Assembly.item) before = (.ok (), moment) ∧
      moment.Retains after := by
  rcases outcome_bind_eq_ok done with ⟨_, between, itemsDone, rest⟩
  rcases outcome_forM_append_eq_ok itemsDone with ⟨moment, earlyDone, lateDone⟩
  have further := (Conveys.forM conveys_item late).retains moment
  rw [lateDone] at further
  rcases outcome_bind_eq_ok rest with ⟨_, checkedAfter, checked, logged⟩
  have same := (checkLabels_ok checked).1
  subst same
  cases logged
  exact ⟨moment, earlyDone, further.trans (.of_aside ⟨rfl, rfl, rfl, rfl⟩)⟩

end Assembly

namespace Assembler

variable {before after : Assembler}

theorem find?_createMemory {plan : MemoryPlan} (free : before.table.find? plan.name = none)
    (cursorFree : before.table.find? plan.cursorName = none) :
    ∃ memory cursor, (before.createMemory plan).table.find? plan.name = some memory ∧
      (before.createMemory plan).file[memory.cell]? = some (plan.register cursor) := by
  have nameFree : (before.create plan.cursorName (.offset 0)).2.table.find? plan.name = none :=
    find?_name_of_cursor free cursorFree
  exact ⟨_, _, find?_create_self nameFree, Array.getElem?_push_size⟩

/-- A memory that was declared stands in the table under its name. -/
theorem Declares.memory_of_mem {declarations : List Declaration}
    (declares : before.Declares declarations after) {name : String} {size : Option Nat}
    (member : .memory name size ∈ declarations) :
    ∃ memory cursor, after.table.find? name = some memory ∧
      (after.file.state memory).cursor? = some cursor := by
  rcases declares.declared_of_mem member with ⟨moment, next, declared, retains⟩
  cases declared with
  | known named => cases named
  | pin isPin => cases isPin
  | @memory plan free cursorFree =>
      rcases find?_createMemory free cursorFree with ⟨memory, cursor, found, held⟩
      refine ⟨memory, cursor, retains.table _ _ found, ?_⟩
      rw [RegisterFile.state, retains.cells _ _ held]
      exact plan.cursor?_register cursor

/-- No two memories have the same cursor. -/
theorem Filed.cursors_apart (filed : before.Filed)
    {first second firstCursor secondCursor : RegisterRef}
    (isFirst : first ∈ before.table.named) (isSecond : second ∈ before.table.named)
    (ofFirst : (before.file.state first).cursor? = some firstCursor)
    (ofSecond : (before.file.state second).cursor? = some secondCursor)
    (same : firstCursor.isSame secondCursor = true) : first = second := by
  rcases filed.cursors first isFirst firstCursor ofFirst with ⟨firstFound, _⟩
  rcases filed.cursors second isSecond secondCursor ofSecond with ⟨secondFound, _⟩
  have sameCursor : firstCursor = secondCursor :=
    filed.apart _ (RegisterTable.name_of_find? firstFound).2
      _ (RegisterTable.name_of_find? secondFound).2 (beq_iff_eq.mp same)
  have firstName := (RegisterTable.name_of_find? firstFound).1
  have secondName := (RegisterTable.name_of_find? secondFound).1
  have sameName : first.name = second.name := by
    have joined : first.name ++ "_i" = second.name ++ "_i" := by
      rw [← firstName, ← secondName, sameCursor]
    exact String.append_left_inj _ |>.mp joined
  have found := filed.found first isFirst
  rw [sameName, filed.found second isSecond] at found
  exact (Option.some.inj found).symm

end Assembler

namespace Program

variable {registry : PinRegistry} {board : Board} {config : Config} {logger : Option Logger}
  {source : String} {program : Program} {file : RegisterFile}

theorem resolved_of_parse
    (parsed : (parse registry board config logger source).result = .ok (program, file)) :
    ∀ entry ∈ program.entries.toList, ∀ node ∈ entry.instruction.nodes,
      node.Resolved program.table file := by
  rcases parse_means parsed with ⟨_, _, _, _, _, means⟩
  have resolved : List.Forall₂ (fun entry item =>
      (∀ node ∈ entry.instruction.nodes, node.Resolved program.table file) ∧
        Item.Means program.table file item entry)
      program.entries.toList ((Item.ofSource source).filter Item.isEntry) := by
    refine means.flip.imp fun entry item isMeant => ⟨?_, isMeant⟩
    rcases isMeant with ⟨statement, _, _, statementMeans⟩
    exact statementMeans.resolved
  exact (List.forall₂_and_left _ _ |>.mp resolved).1

/-- Names that are known after some of the items keep their registers. -/
theorem names_kept
    (parsed : (parse registry board config logger source).result = .ok (program, file))
    {early late : List Item} (split : Item.ofSource source = early ++ late) :
    ∃ moment, outcome (early.forM Assembly.item) (beginning registry board config logger) =
        (.ok (), moment) ∧
      ∀ name register, moment.table.find? name = some register →
        program.table.find? name = some register ∧
        file.state register = moment.file.state register := by
  rcases outcome_of_parse parsed with ⟨last, rfl, done⟩
  have table := table_of_program done
  rw [split] at done
  rcases retains_of_program done with ⟨moment, earlyDone, retains⟩
  rcases Conveys.forM conveys_item early (beginning registry board config logger) with
    ⟨_, _, _, declares, _⟩
  rw [earlyDone] at declares
  have filed : moment.Filed := (Assembler.filed_start ..).of_declares declares
  refine ⟨moment, earlyDone, fun name register found => ⟨?_, ?_⟩⟩
  · rw [table]
    exact retains.table name register found
  · exact retains.state_eq (filed.inside register (RegisterTable.name_of_find? found).2)

/-- A name stands for one register in the whole program. -/
theorem names_denote_registers
    (parsed : (parse registry board config logger source).result = .ok (program, file)) :
    -- Operands are the registers that the finished table has under their names.
    (∀ entry ∈ program.entries.toList, ∀ node ∈ entry.instruction.nodes,
      (∀ register, .ref register ∈ node.operandValues →
        program.table.find? register.name = some register) ∧ node.Plugged file) ∧
    -- No declaration and no operand gives a known name another register.
    (∀ (before : Assembler) (line : Line),
      (∀ declaration, before.Retains (outcome (declare line declaration) before).2) ∧
      ∀ token, before.Retains (outcome (value line token) before).2) ∧
    (∀ early late, Item.ofSource source = early ++ late → ∃ moment,
      outcome (early.forM Assembly.item) (beginning registry board config logger) =
        (.ok (), moment) ∧
      ∀ name register, moment.table.find? name = some register →
        program.table.find? name = some register ∧
        file.state register = moment.file.state register) ∧
    -- The registers that every program has are still there.
    program.table.find? "acc" = some program.table.accumulator ∧
    program.table.find? "clk" = some program.table.clock ∧
    (∀ register ∈ (defaultRegisters config.clockSpeed).1.named,
      program.table.find? register.name = some register ∧
      file.state register = (defaultRegisters config.clockSpeed).2.state register) ∧
    -- Memories have the cursors beside them, each its own.
    (∀ name size, .memory name size ∈ sourceDeclarations source →
      ∃ memory cursor, program.table.find? name = some memory ∧
        (file.state memory).cursor? = some cursor) ∧
    (∀ name memory cursor, program.table.find? name = some memory →
      (file.state memory).cursor? = some cursor →
      program.table.find? (name ++ "_i") = some cursor ∧
      (∃ offset, file.state cursor = .offset offset) ∧
      ∀ other otherMemory otherCursor, program.table.find? other = some otherMemory →
        (file.state otherMemory).cursor? = some otherCursor →
        otherCursor.isSame cursor = true → other = name) := by
  rcases parse_means parsed with ⟨last, declares, table, rfl, _, _⟩
  have filed : last.Filed := (Assembler.filed_start ..).of_declares declares
  have retains := declares.retains
  refine ⟨resolved_of_parse parsed, fun before line => ⟨fun declaration => ?_, fun token => ?_⟩,
    fun early late split => names_kept parsed split, ?_⟩
  · exact (conveys_declare line declaration).retains before
  · exact (conveys_value line token).retains before
  rw [← table]
  refine ⟨?_, ?_, fun register isDefault => ⟨?_, ?_⟩, fun name size => declares.memory_of_mem,
    fun name memory cursor found isCursor => ?_⟩
  · rw [retains.accumulator]
    exact retains.table _ _ rfl
  · rw [retains.clock]
    exact retains.table _ _ rfl
  · exact retains.table _ _ ((Assembler.filed_start ..).found register isDefault)
  · exact retains.state_eq ((Assembler.filed_start ..).inside register isDefault)
  · rcases RegisterTable.name_of_find? found with ⟨rfl, isMemory⟩
    rcases filed.cursors memory isMemory cursor isCursor with ⟨cursorFound, isOffset⟩
    refine ⟨cursorFound, isOffset, fun other otherMemory otherCursor otherFound isOther same => ?_⟩
    rcases RegisterTable.name_of_find? otherFound with ⟨rfl, isOtherMemory⟩
    exact congrArg _ (filed.cursors_apart isOtherMemory isMemory isOther isCursor same)

/-- Two memories, and pins that are first named inside branches. -/
theorem names_denote_registers_nested :
    let source := "&log *ring[1]\nteq $log_i 1\n+ tgt $x01 acc\n+ + slx x1\n- gen $p0 log ring"
    let observed : Instruction := .observe ⟨"x1", 11⟩
    let pulse : Instruction := .generate ⟨"p0", 12⟩ (.ref ⟨"log", 8⟩) (.ref ⟨"ring", 10⟩)
    let branch : Instruction := .test .greater (.ref ⟨"x1", 11⟩) (.ref ⟨"acc", 2⟩)
      (.ofList [observed]) .nil
    let program : Program := ⟨#[⟨.test .equal (.ref ⟨"log_i", 7⟩) (.int 1)
      (.ofList [branch]) (.ofList [pulse]), false, 2⟩], [],
      { (defaultRegisters 500).1 with
        named := (defaultRegisters 500).1.named ++ [⟨"log_i", 7⟩, ⟨"log", 8⟩, ⟨"ring_i", 9⟩,
          ⟨"ring", 10⟩, ⟨"x1", 11⟩, ⟨"p0", 12⟩] }⟩
    let file : RegisterFile := (defaultRegisters 500).2 ++ #[.offset 0, .growing ⟨"log_i", 7⟩ #[],
      .offset 0, .sized ⟨"ring_i", 9⟩ #[.null], .pin .xbus 0, .pin .power 1]
    (parse .empty (Board.ofInput [] 0) .default none source).result = .ok (program, file) ∧
      observed.Plugged file ∧ pulse.Plugged file ∧
      program.table.find? "x1" = some ⟨"x1", 11⟩ ∧
      program.table.find? "ring_i" = some ⟨"ring_i", 9⟩ := by
  intro source observed pulse branch program file
  have parsed : (parse .empty (Board.ofInput [] 0) .default none source).result =
      .ok (program, file) := by
    decide +kernel
  rcases names_denote_registers parsed with ⟨resolved, _, _, _, _, _, _, cursors⟩
  have each := resolved _ (List.mem_singleton.mpr rfl)
  have isObserved := each observed (by decide)
  refine ⟨parsed, isObserved.2, (each pulse (by decide)).2, ?_, ?_⟩
  · exact isObserved.1 ⟨"x1", 11⟩ (List.mem_singleton.mpr rfl)
  · exact (cursors "ring" ⟨"ring", 10⟩ ⟨"ring_i", 9⟩ rfl rfl).1

end Program

end NodeAssembly
