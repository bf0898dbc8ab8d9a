import NodeAssembly.Proofs.Node.Neighbours
import NodeAssembly.Proofs.Program.Naming

/-! Counting up and down. To increment a register is to fetch it into the
accumulator, to add one, and to put the accumulator back. To decrement it is the
same with a subtraction, unless the register yields a text: minus one is added
to it, which makes it longer, while a subtraction cuts it. Neighbours may change
the board in the meantime. -/

namespace NodeAssembly

/-! ## Adding minus one -/

section Arithmetic

open Float.Model (Format UnpackedFloat)

theorem add_apply_neg (sign : UnpackedFloat.Sign) (first second : Int) :
    first + (-sign).apply second = first - sign.apply second := by
  cases sign with
  | negative => exact (Int.sub_neg first second).symm
  | positive => exact Int.sub_eq_add_neg.symm

theorem unpackedFloat_add_neg (format : Format) (left right : UnpackedFloat) :
    left.add format right.neg = left.sub format right := by
  cases left with
  | finite sign mantissa exponent positive =>
      cases right with
      | finite otherSign otherMantissa otherExponent otherPositive =>
          let least := min exponent otherExponent
          exact congrArg (UnpackedFloat.normalize format · least .positive)
            (add_apply_neg otherSign _ _)
      | _ => rfl
  | _ => cases right <;> rfl

theorem float_add_minus_one (number : Float32) :
    number + Decimal.ofInt32 (-1) = number - Decimal.ofInt32 1 := by
  have negated : (Decimal.ofInt32 (-1)).toModel.unpack =
      (Decimal.ofInt32 1).toModel.unpack.neg := rfl
  have added : number + Decimal.ofInt32 (-1) = .ofModel (.pack (number.toModel.unpack.add .binary32
      (Decimal.ofInt32 (-1)).toModel.unpack)) := rfl
  rw [added, negated, unpackedFloat_add_neg]
  rfl

namespace Value

theorem add_minus_one {value : Value} (noText : ∀ text, value ≠ .str text) :
    value.add (.int (-1)) = value.sub (.int 1) := by
  cases value with
  | int number => exact congrArg (Except.ok ∘ Value.int) (Int32.sub_eq_add_neg number 1).symm
  | float number => exact congrArg (Except.ok ∘ Value.float) (float_add_minus_one number)
  | str text => exact absurd rfl (noText text)
  | null => rfl
  | ref register => rfl

theorem text_add_minus_one {text : String} {result : Value}
    (added : (Value.str text).add (.int (-1)) = .ok result) : result = .str (text ++ "-1") := by
  change joined text "-1" = .ok result at added
  unfold joined checkLength at added
  split at added <;> cases added
  rfl

end Value

end Arithmetic

/-! ## Values that are no references -/

namespace Action

theorem put_of_isFlat {register : RegisterRef} {value : Value} (flat : value.isFlat) :
    put register value = write register value := by
  rw [put, resolve_of_isFlat flat, pure_bind]

theorem combine_of_isFlat {operator : Value → Value → Except Fault Value} {left right : Value}
    (leftFlat : left.isFlat) (rightFlat : right.isFlat) :
    combine operator left right = liftM (operator left right) := by
  rw [combine, resolve_of_isFlat leftFlat, resolve_of_isFlat rightFlat, pure_bind, pure_bind]

end Action

theorem Value.isFlat_of_operator {operator : Value → Value → Except Fault Value}
    {left right result : Value} (member : operator ∈ operators) (flat : left.isFlat)
    (computed : operator left right = .ok result) : result.isFlat := by
  have computes := computes_operator member right flat
  rw [computed] at computes
  exact computes

/-! ## Registers of programs -/

theorem MemoryPlan.kind_register (plan : MemoryPlan) (cursor : RegisterRef) :
    (plan.register cursor).kind = .memory cursor := by
  unfold MemoryPlan.register
  split <;> rfl

theorem Assembler.Declared.arranged {before after : Assembler} {declaration : Declaration}
    (declared : before.Declared declaration after) (arranged : before.file.Arranged) :
    after.file.Arranged := by
  cases declared with
  | known => exact arranged
  | pin => exact arranged.push nofun
  | plain => exact arranged.push nofun
  | label => exact arranged
  | @memory plan free cursorFree =>
      have withCursor : RegisterFile.Arranged (before.file.push (.offset 0)) := arranged.push nofun
      refine withCursor.push fun cursor isMemory => ?_
      cases (plan.kind_register _).symm.trans isMemory
      exact congrArg Register.kind (state_create_new before plan.cursorName (.offset 0))

theorem Program.arranged_of_parse {registry : PinRegistry} {board : Board} {config : Config}
    {logger : Option Logger} {source : String} {program : Program} {file : RegisterFile}
    (parsed : (parse registry board config logger source).result = .ok (program, file)) :
    file.Arranged ∧ (file.state program.table.accumulator).kind = .plain := by
  rcases parse_means parsed with ⟨last, declares, table, rfl, _, _⟩
  have retains := declares.retains
  constructor
  · apply declares.induct (fun assembler => assembler.file.Arranged)
    · intro before after declaration _ declared
      exact declared.arranged
    · intro before after apart arranged
      rw [apart.file]
      exact arranged
    · rintro ⟨name, _ | _ | _ | _ | _ | _ | _ | cell⟩ cursor isMemory <;> cases isMemory
  · rw [← table, retains.accumulator, retains.state_eq]
    · rfl
    · change 2 < 7
      decide

/-! ## Two ways to go -/

namespace Scene

open RegisterFile

variable {neighbours : Board → Board → Prop} {scene last : Scene}
  {register accumulator : RegisterRef} {value old : Value}

/-- What was computed from a register goes to the accumulator and back to the
register. -/
def PutsBack (others : Company) (accumulator register : RegisterRef)
    (outcome : Except Fault Value) (scene last : Scene) : Prop :=
  ∃ result, outcome = .ok result ∧
    Answers others (.write register result) (scene.hold accumulator result) (.ok ()) last

/-- A register yields a value, and what was computed from it is put back. -/
def Replaces (others : Company) (accumulator register : RegisterRef) (value : Value)
    (outcome : Except Fault Value) (scene last : Scene) : Prop :=
  ∃ between, Answers others (.read register) scene (.ok value) between ∧
    PutsBack others accumulator register outcome between last

theorem performs_step (idle : scene.execution.call = none)
    (plain : scene.file.state accumulator = .plain old) (flat : value.isFlat) (amount : Int32) :
    Performs (beside neighbours) (ExceptT.run do
      let result ← Action.combine Value.add value (.int amount)
      Action.put accumulator result
      Action.put register result) scene last ↔
    PutsBack (beside neighbours) accumulator register (value.add (.int amount)) scene last := by
  have member : Value.add ∈ Value.operators := by simp [Value.operators]
  rw [Action.combine_of_isFlat flat rfl, performs_compute]
  refine exists_congr fun result => and_congr_right fun computed => ?_
  have resultFlat : result.isFlat := Value.isFlat_of_operator member flat computed
  rw [Action.put_of_isFlat resultFlat, Action.put_of_isFlat resultFlat]
  rw [performs_write_plain idle plain (Action.asks_write register result), performs_write]

/-- The accumulator is a stop on the way, where nobody else comes by. -/
theorem performs_detour {operator : Value → Value → Except Fault Value} {operand : Value}
    (member : operator ∈ Value.operators) (idle : scene.execution.call = none)
    (plain : scene.file.state accumulator = .plain old) (flat : value.isFlat)
    (operandFlat : operand.isFlat) :
    Performs (beside neighbours) (ExceptT.run do
      Action.put accumulator value
      accumulate accumulator fun value => Action.combine operator value operand
      let result ← Action.read accumulator
      Action.put register result) scene last ↔
    PutsBack (beside neighbours) accumulator register (operator value operand) scene last := by
  have idleLater : ∀ held, (scene.hold accumulator held).execution.call = none := fun _ => idle
  have asksLater : ∀ result, (do
      Action.put accumulator result
      let result ← Action.read accumulator
      Action.put register result).Asks :=
    fun result => (Action.asks_put accumulator result).bind
  simp only [accumulate, bind_assoc]
  -- Every access to the accumulator is answered at once, whatever it is followed by.
  rw [Action.put_of_isFlat flat]
  rw [performs_write_plain idle plain (Action.asks_read accumulator).bind]
  rw [performs_read_plain (idleLater value) (state_hold plain value) (Action.asks_bind asksLater)]
  rw [Action.combine_of_isFlat flat operandFlat, performs_compute]
  refine exists_congr fun result => and_congr_right fun computed => ?_
  have resultFlat : result.isFlat := Value.isFlat_of_operator member flat computed
  rw [Action.put_of_isFlat resultFlat, performs_write_plain (idleLater value)
    (state_hold plain value) (Action.asks_read accumulator).bind, hold_hold]
  rw [performs_read_plain (idleLater result) (state_hold plain result)
    (Action.asks_put register result), Action.put_of_isFlat resultFlat, performs_write]

/-- When the register has been read, the accumulator is still plain. -/
theorem Answers.plain {answer : (Request.read register).Answer} (arranged : scene.file.Arranged)
    (plain : (scene.file.state accumulator).kind = .plain)
    (answers : Answers (beside neighbours) (.read register) scene answer last) :
    ∃ old, last.file.state accumulator = .plain old := by
  have accessed := answers.accessed arranged
  exact Register.plain_of_kind ((accessed.kinds accumulator).trans plain)

theorem performsOn_step (arranged : scene.file.Arranged)
    (plain : (scene.file.state accumulator).kind = .plain) (flat : value.isFlat) (amount : Int32) :
    PerformsOn (beside neighbours) (stepRegister accumulator register amount).run register value
      scene last ↔
    Replaces (beside neighbours) accumulator register value (value.add (.int amount)) scene
      last := by
  rw [stepRegister, performsOn_read]
  refine exists_congr fun between => and_congr_right fun answers => ?_
  rcases answers.plain arranged plain with ⟨old, plainBetween⟩
  exact performs_step answers.idle plainBetween flat amount

/-- An instruction between fetching a register and putting it back. -/
def detour (accumulator register : RegisterRef) (instruction : Instruction) : List Instruction :=
  [.move (.ref register) accumulator, instruction, .move (.ref accumulator) register]

theorem performsOn_detour {operator : Value → Value → Except Fault Value} {operand : Value}
    {instruction : Instruction} (member : operator ∈ Value.operators)
    (applies : instruction.execute accumulator =
      accumulate accumulator fun value => Action.combine operator value operand)
    (arranged : scene.file.Arranged) (plain : (scene.file.state accumulator).kind = .plain)
    (flat : value.isFlat) (operandFlat : operand.isFlat) :
    PerformsOn (beside neighbours)
      ((detour accumulator register instruction).forM (·.execute accumulator)).run register value
      scene last ↔
    Replaces (beside neighbours) accumulator register value (operator value operand) scene
      last := by
  have unfolded : (detour accumulator register instruction).forM (·.execute accumulator) = (do
      let value ← Action.read register
      Action.put accumulator value
      accumulate accumulator fun value => Action.combine operator value operand
      let result ← Action.read accumulator
      Action.put register result) := by
    simp only [detour, List.forM, applies, Instruction.execute, Action.resolve, bind_assoc,
      bind_pure_unit]
  rw [unfolded, performsOn_read]
  refine exists_congr fun between => and_congr_right fun answers => ?_
  rcases answers.plain arranged plain with ⟨old, plainBetween⟩
  exact performs_detour member answers.idle plainBetween flat operandFlat

/-- In the end the accumulator has what was put back, also if it is the register
itself. -/
theorem Replaces.leaves {outcome : Except Fault Value} (arranged : scene.file.Arranged)
    (plain : (scene.file.state accumulator).kind = .plain)
    (replaces : Replaces (beside neighbours) accumulator register value outcome scene last) :
    ∃ result, outcome = .ok result ∧ last.file.state accumulator = .plain result := by
  rcases replaces with ⟨between, answers, result, computed, puts⟩
  refine ⟨result, computed, ?_⟩
  rcases answers.plain arranged plain with ⟨old, plainBetween⟩
  have held := state_hold plainBetween result
  have stored : Accessed (some result) between.file (between.hold accumulator result).file := by
    apply accessed_update
    · rw [plainBetween]
      rfl
    · rintro _ ⟨⟩
      rfl
  have arrangedBetween := (answers.accessed arranged).arranged arranged
  have accessed := puts.accessed (stored.arranged arrangedBetween)
  have kind := accessed.kinds accumulator
  rw [held] at kind
  rcases Register.plain_of_kind kind with ⟨last, holds⟩
  -- Putting back changes a plain register only to the result, which is there already.
  rcases accessed.plain accumulator last holds with before | written
  · rw [holds, ← held, before]
  · cases written
    exact holds

/-- Incrementing agrees with adding one. Decrementing agrees with subtracting one
unless the register yields a text, to which the one appends `-1` and of which the
other keeps the first character. The register may be of any kind, and may be the
accumulator; it yields no reference. To agree is to come from the same scene to
the same scenes, with all registers and all output in them, whatever the
neighbours do. -/
theorem step_agrees_with_operators (neighbours : Board → Board → Prop)
    (accumulator register : RegisterRef) {scene : Scene} {value : Value}
    (arranged : scene.file.Arranged) (plain : (scene.file.state accumulator).kind = .plain)
    (flat : value.isFlat) :
    let leads (instructions : List Instruction) (last : Scene) : Prop :=
      PerformsOn (beside neighbours) (instructions.forM (·.execute accumulator)).run register value
        scene last
    (∀ last, leads [.increment register] last ↔
      leads (detour accumulator register (.add (.int 1))) last) ∧
    ((∀ text, value ≠ .str text) → ∀ last, leads [.decrement register] last ↔
      leads (detour accumulator register (.subtract (.int 1))) last) ∧
    ∀ text, value = .str text → ∀ last,
      (leads [.decrement register] last →
        last.file.state accumulator = .plain (.str (text ++ "-1"))) ∧
      (leads (detour accumulator register (.subtract (.int 1))) last →
        last.file.state accumulator = .plain (.str (String.ofList (text.toList.take 1)))) := by
  intro leads
  let replaces (outcome : Except Fault Value) (last : Scene) : Prop :=
    Replaces (beside neighbours) accumulator register value outcome scene last
  have increments : ∀ last, leads [.increment register] last ↔
      replaces (value.add (.int 1)) last := by
    intro last
    simp only [leads, List.forM, bind_pure_unit]
    exact performsOn_step arranged plain flat 1
  have decrements : ∀ last, leads [.decrement register] last ↔
      replaces (value.add (.int (-1))) last := by
    intro last
    simp only [leads, List.forM, bind_pure_unit]
    exact performsOn_step arranged plain flat (-1)
  have adds : ∀ last, leads (detour accumulator register (.add (.int 1))) last ↔
      replaces (value.add (.int 1)) last :=
    fun last => performsOn_detour (by simp [Value.operators]) rfl arranged plain flat rfl
  have subtracts : ∀ last, leads (detour accumulator register (.subtract (.int 1))) last ↔
      replaces (value.sub (.int 1)) last :=
    fun last => performsOn_detour (by simp [Value.operators]) rfl arranged plain flat rfl
  refine ⟨fun last => (increments last).trans (adds last).symm, fun noText last => ?_, ?_⟩
  · rw [decrements, subtracts, Value.add_minus_one noText]
  · rintro text rfl last
    constructor
    · intro performs
      rcases Replaces.leaves arranged plain ((decrements last).mp performs) with
        ⟨result, added, holds⟩
      rw [holds, Value.text_add_minus_one added]
    · intro performs
      rcases Replaces.leaves arranged plain ((subtracts last).mp performs) with
        ⟨result, cut, holds⟩
      cases cut
      exact holds

/-- The greatest integer in a ring of two cells, at an offset of five. -/
theorem step_agrees_with_operators_ring :
    let accumulator : RegisterRef := ⟨"acc", 2⟩
    let cursor : RegisterRef := ⟨"ring_i", 7⟩
    let ring : RegisterRef := ⟨"ring", 8⟩
    let program : Program := ⟨#[], [], { (defaultRegisters 500).1 with
      named := (defaultRegisters 500).1.named ++ [cursor, ring] }⟩
    let scene (held : Value) (offset : Int32) (cell : Value) : Scene :=
      ⟨.ofNode (.ofProgram program
          #[.null, .clock (.ofSpeed 500), .plain held, .tape (.ofSink .output),
            .input (.ofSource (.console [])), .tape (.ofSink .errors), .random .unseeded,
            .offset offset, .sized cursor #[.null, cell]] none),
        Board.ofInput [] 0⟩
    let history : List Answered := [⟨.write cursor (.int 1), .ok ()⟩,
      ⟨.write ring (.int 2147483647), .ok ()⟩, ⟨.write cursor (.int 5), .ok ()⟩]
    (Program.parse .empty (Board.ofInput [] 0) .default none "*ring[2]").result =
        .ok (program, (scene (.int 0) 0 .null).file) ∧
      (host (beside fun _ _ => False)).Gives (scene (.int 0) 0 .null) history
        (scene (.int 0) 5 (.int 2147483647)) ∧
      PerformsOn (beside fun _ _ => False)
        ((detour accumulator ring (.add (.int 1))).forM (·.execute accumulator)).run ring
        (.int 2147483647) (scene (.int 0) 5 (.int 2147483647))
        (scene (.int (-2147483648)) 1 (.int (-2147483648))) := by
  intro accumulator cursor ring program scene history
  have parsed : (Program.parse .empty (Board.ofInput [] 0) .default none "*ring[2]").result =
      .ok (program, (scene (.int 0) 0 .null).file) := by
    decide +kernel
  have gives : (host (beside fun _ _ => False)).Gives (scene (.int 0) 0 .null) history
      (scene (.int 0) 5 (.int 2147483647)) :=
    .next (.answered rfl) (.next (.answered rfl) (.next (.answered rfl) .none))
  have yields : host (beside fun _ _ => False) (.read ring) (scene (.int 0) 5 (.int 2147483647))
      (.ok (.int 2147483647)) (scene (.int 0) 1 (.int 2147483647)) :=
    .answered (by with_unfolding_all rfl)
  have fetches : host (beside fun _ _ => False) (.write accumulator (.int (-2147483648)))
      (scene (.int 0) 1 (.int 2147483647)) (.ok ())
      (scene (.int (-2147483648)) 1 (.int 2147483647)) := .answered rfl
  have stores : host (beside fun _ _ => False) (.write ring (.int (-2147483648)))
      (scene (.int (-2147483648)) 1 (.int 2147483647)) (.ok ())
      (scene (.int (-2147483648)) 1 (.int (-2147483648))) := .answered rfl
  have increments : PerformsOn (beside fun _ _ => False)
      ([Instruction.increment ring].forM (·.execute accumulator)).run ring (.int 2147483647)
      (scene (.int 0) 5 (.int 2147483647)) (scene (.int (-2147483648)) 1 (.int (-2147483648))) :=
    ⟨[⟨.write accumulator (.int (-2147483648)), .ok ()⟩,
        ⟨.write ring (.int (-2147483648)), .ok ()⟩],
      .ask (.ask (.ask .here)), .next yields (.next fetches (.next stores .none))⟩
  rcases Program.arranged_of_parse parsed with ⟨arranged, plain⟩
  rcases accessed_of_gives arranged gives with ⟨arrangedLater, kinds⟩
  have flat : (Value.int 2147483647).isFlat := rfl
  have agrees := step_agrees_with_operators (fun _ _ => False) accumulator ring arrangedLater
    ((kinds accumulator).trans plain) flat
  exact ⟨parsed, gives, (agrees.1 _).mp increments⟩

/-- Decrementing a text does not agree with subtracting one. -/
theorem decrement_of_text_disagrees :
    let accumulator : RegisterRef := ⟨"acc", 0⟩
    let register : RegisterRef := ⟨"r", 1⟩
    let program : Program := ⟨#[], [], ⟨[accumulator, register], accumulator, accumulator⟩⟩
    let scene (held text : Value) : Scene :=
      ⟨.ofNode (.ofProgram program #[.plain held, .plain text] none), Board.ofInput [] 0⟩
    let leads (instructions : List Instruction) (last : Scene) : Prop :=
      PerformsOn (beside fun _ _ => False) (instructions.forM (·.execute accumulator)).run register
        (.str "abc") (scene (.int 0) (.str "abc")) last
    leads [.decrement register] (scene (.str "abc-1") (.str "abc-1")) ∧
      leads (detour accumulator register (.subtract (.int 1))) (scene (.str "a") (.str "a")) ∧
      ¬leads (detour accumulator register (.subtract (.int 1)))
        (scene (.str "abc-1") (.str "abc-1")) := by
  intro accumulator register program scene leads
  have arranged : (scene (.int 0) (.str "abc")).file.Arranged := by
    rintro ⟨name, _ | _ | cell⟩ cursor isMemory <;> cases isMemory
  have subtracts : ∀ last, leads (detour accumulator register (.subtract (.int 1))) last ↔
      Replaces (beside fun _ _ => False) accumulator register (.str "abc") (.ok (.str "a"))
        (scene (.int 0) (.str "abc")) last := by
    intro last
    have member : Value.sub ∈ Value.operators := by simp [Value.operators]
    have flat : (Value.str "abc").isFlat := rfl
    have operandFlat : (Value.int 1).isFlat := rfl
    exact performsOn_detour member rfl arranged rfl flat operandFlat
  refine ⟨⟨[⟨.write accumulator (.str "abc-1"), .ok ()⟩, ⟨.write register (.str "abc-1"), .ok ()⟩],
    .ask (.ask (.ask .here)), ?_⟩, (subtracts _).mpr ?_, fun performs => ?_⟩
  · exact .next (.answered rfl) (.next (.answered rfl) (.next (.answered rfl) .none))
  · exact ⟨scene (.int 0) (.str "abc"), .answered rfl, _, rfl, .answered rfl⟩
  · rcases ((subtracts _).mp performs).leaves arranged rfl with ⟨result, computed, holds⟩
    cases computed
    have same : Value.str "abc-1" = .str "a" := Register.plain.inj holds
    exact absurd same (by decide)

end Scene

end NodeAssembly
