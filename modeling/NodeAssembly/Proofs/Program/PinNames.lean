import NodeAssembly.Proofs.Program.Layout
import NodeAssembly.Proofs.Program.Naming

/-! What a pin that is written with a dollar sign stands for. Every register that
the lines of a program declare, in front of an instruction or among its
operands, is in the table. A name like that of a pin is then connected to the
channel that the registry has for the pin, except if the program has a memory
of the same name. -/

namespace NodeAssembly

open NodeAssembly.Assembly NodeAssembly.Text

/-! ## What the lines declare -/

namespace Line

/-- What the operands of the line declare, branches on the line included. -/
def operandDeclarations (line : Line) : List Declaration :=
  match Token.scan line.code with
  | .ok tokens => tokens.flatMap Token.declarations
  | .error _ => []

/-- What the line declares. -/
def declarations (line : Line) : List Declaration :=
  (Heading.read line.text).declarations ++ line.body.operandDeclarations

theorem operandDeclarations_of_sign {line : Line} {sign : Sign}
    (signed : line.sign? = some sign) :
    line.unsigned.operandDeclarations = line.operandDeclarations := by
  rw [operandDeclarations, operandDeclarations, code_of_sign signed]

theorem declarations_of_sign {line : Line} (signed : line.sign?.isSome) :
    line.declarations = line.operandDeclarations := by
  rw [declarations, body_of_sign signed, read_of_sign signed, List.nil_append]

theorem operandDeclarations_of_word {line : Line} {word : String} {operands : List Token}
    (scanned : Token.scan line.text = .ok (.word word :: operands)) :
    line.operandDeclarations = (Token.word word :: operands).flatMap Token.declarations := by
  simp only [operandDeclarations, code_of_none (sign?_of_word scanned), scanned]

theorem operandDeclarations_of_empty {line : Line} (empty : line.text = []) :
    line.operandDeclarations = [] := by
  rw [operandDeclarations, code, empty, peelSigns, Token.scan, Lexeme.scan]
  rfl

end Line

namespace Branches

theorem declarations_prepend (sign : Sign) (statements : List Statement) (rest : Branches) :
    (prepend sign statements rest).declarations =
      statements.flatMap Statement.declarations ++ rest.declarations := by
  induction statements with
  | nil => rfl
  | cons head tail induction =>
      rw [prepend_cons, declarations, induction, List.flatMap_cons, List.append_assoc]

end Branches

/-- Branches on the line of their test declare what the tokens declare. -/
theorem splitInline_declarations (line : Line) (tokens : List Token) :
    (splitInline line tokens).1.flatMap Token.declarations ++
        (splitInline line tokens).2.declarations = tokens.flatMap Token.declarations := by
  induction tokens with
  | nil => rfl
  | cons token rest induction =>
      rw [splitInline]
      rcases split : splitInline line rest with ⟨group, branches⟩
      rw [split] at induction
      cases sign : token.sign? with
      | none =>
          simp only [List.flatMap_cons, List.append_assoc]
          rw [← induction]
      | some isSign =>
          have nothing : token.declarations = [] := by
            cases token with
            | positive => rfl
            | negative => rfl
            | _ => cases sign
          simp only [List.flatMap_nil, List.nil_append, List.flatMap_cons, nothing]
          rw [← induction]
          split
          next empty => rw [List.isEmpty_iff.mp empty, List.flatMap_nil, List.nil_append]
          next =>
            rw [Branches.declarations, Statement.declarations, Branches.declarations, ite_self,
              List.append_nil]

theorem isTest_splitInline (line : Line) {tokens : List Token} (test : isTest tokens = true) :
    isTest (splitInline line tokens).1 = true := by
  rcases word_of_isTest test with ⟨word, operands, rfl⟩
  exact test

theorem Line.flatMap_operandDeclarations_unsigned {lines : List Line} {sign : Sign}
    (signed : ∀ line ∈ lines, line.sign? = some sign) :
    (lines.map unsigned).flatMap operandDeclarations = lines.flatMap operandDeclarations := by
  rw [List.flatMap_map]
  exact List.flatMap_congr fun line member => operandDeclarations_of_sign (signed line member)

mutual

/-- A statement declares what its line and the lines that it takes declare. -/
theorem Statement.LaidOut.declarations_eq {line : Line} {taken : List Line}
    {statement : Statement} {instruction : Instruction}
    (laidOut : Statement.LaidOut line taken statement instruction) :
    statement.declarations =
      line.operandDeclarations ++ taken.flatMap Line.operandDeclarations := by
  match laidOut with
  | .plain scanned _ noTest _ =>
      rw [Line.operandDeclarations_of_word scanned, Statement.declarations, noTest]
      rfl
  | .inline scanned test _ =>
      rw [Line.operandDeclarations_of_word scanned, Statement.declarations,
        if_pos (isTest_splitInline line test), splitInline_declarations, List.flatMap_nil,
        List.append_nil]
  | @Statement.LaidOut.test _ word operands _ _ _ _ _ positiveLines negativeLines
      positiveStatements negativeStatements lead scanned named isPositive isNegative positiveBlock
      negativeBlock =>
      have inPositive := positiveBlock.declarations_eq
      have inNegative := negativeBlock.declarations_eq
      have branch : ∀ sign : Sign,
          (sign.choose positiveStatements negativeStatements).flatMap Statement.declarations =
            (sign.choose positiveLines negativeLines).flatMap Line.operandDeclarations := by
        intro sign
        cases sign with
        | positive => exact inPositive.trans (Line.flatMap_operandDeclarations_unsigned isPositive)
        | negative => exact inNegative.trans (Line.flatMap_operandDeclarations_unsigned isNegative)
      rw [Line.operandDeclarations_of_word scanned, Statement.declarations,
        if_pos (isTest_of_test named operands), Branches.declarations_prepend,
        Branches.declarations_prepend, Branches.declarations, List.append_nil, branch lead,
        branch lead.opposite, List.flatMap_append]

theorem Block.LaidOut.declarations_eq {lines : List Line} {statements : List Statement}
    {block : Block} (laidOut : Block.LaidOut lines statements block) :
    statements.flatMap Statement.declarations = lines.flatMap Line.operandDeclarations := by
  match laidOut with
  | .nil => rfl
  | .blank empty below =>
      rw [List.flatMap_cons, Line.operandDeclarations_of_empty empty, List.nil_append]
      exact below.declarations_eq
  | .cons isHead isTail =>
      rw [List.flatMap_cons, isHead.declarations_eq, isTail.declarations_eq, List.flatMap_cons,
        List.flatMap_append, List.append_assoc]

end

/-- The items of a program declare what the lines declare, in the same order. -/
theorem Layout.declarations_eq {lines : List Line} {items : List Item} {entries : List Entry}
    (layout : Layout lines items entries) :
    items.flatMap Item.allDeclarations = lines.flatMap Line.declarations := by
  induction layout with
  | nil => rfl
  | blank empty below induction =>
      rw [List.flatMap_cons, List.flatMap_cons, induction, Line.declarations,
        Line.operandDeclarations_of_empty empty]
      rfl
  | @entry line taken lines statement items entry entries laidOut signed number below induction =>
      have inTaken : taken.flatMap Line.operandDeclarations = taken.flatMap Line.declarations :=
        List.flatMap_congr fun other member =>
          (Line.declarations_of_sign (signed other member)).symm
      have here : Item.allDeclarations ⟨line, (Heading.read line.text).declarations,
          .entry entry.once statement⟩ = line.declarations ++ taken.flatMap Line.declarations := by
        change (Heading.read line.text).declarations ++ statement.declarations = _
        rw [laidOut.declarations_eq, inTaken, Line.declarations, List.append_assoc]
      rw [List.flatMap_cons, List.flatMap_cons, here, induction, List.flatMap_append,
        List.append_assoc]

/-! ## Names of pins -/

theorem pinOfName?_registerName {pin : Nat} (below : pin < 0x100000000) (kind : PinKind) :
    pinOfName? (kind.registerName pin).toList = some (kind, pin) := by
  rw [PinKind.registerName, String.toList_ofList]
  cases kind with
  | power =>
      change (pinNumber? (decimalNat pin)).map _ = _
      rw [pinNumber?, readNatural_decimalNat below]
      rfl
  | xbus =>
      change (pinNumber? (decimalNat pin)).map _ = _
      rw [pinNumber?, readNatural_decimalNat below]
      rfl

theorem PinRegistry.find?_of_channel {registry larger : PinRegistry} {channels after : Channels}
    {pin place : Nat} {kind : PinKind}
    (bound : registry.channel channels pin kind = (.ok place, larger, after)) :
    registry.bindings <+: larger.bindings ∧ larger.find? pin = some ⟨pin, kind, place⟩ := by
  unfold PinRegistry.channel at bound
  split at bound
  next binding found =>
    split at bound
    next same =>
      cases bound
      rcases mem_of_find? found with ⟨_, rfl⟩
      exact ⟨List.prefix_refl _, same ▸ found⟩
    next => cases bound
  next free =>
    cases bound
    refine ⟨List.prefix_append _ _, ?_⟩
    have absent : registry.bindings.find? (·.pin == pin) = none := free
    rw [find?, List.find?_append, absent]
    simp

/-- The register is connected to the channel that the registry has for the pin. -/
def RegisterFile.Connects (file : RegisterFile) (register : RegisterRef) (registry : PinRegistry)
    (kind : PinKind) (pin : Nat) : Prop :=
  ∃ channel, file.state register = .pin kind channel ∧
    registry.find? pin = some ⟨pin, kind, channel⟩

namespace Assembler

variable {taken : String → Prop} {before after : Assembler} {declaration : Declaration}

/-- Registers with the name of a pin are connected to the pin, unless their name
was taken for something else. -/
structure Pinned (taken : String → Prop) (assembler : Assembler) : Prop where
  filed : assembler.Filed
  connects : ∀ (kind : PinKind) (pin : Nat) (register : RegisterRef), pin < 0x100000000 →
    assembler.table.find? (kind.registerName pin) = some register →
    assembler.file.Connects register assembler.registry kind pin ∨ taken (kind.registerName pin)

namespace Pinned

theorem of_eq (pinned : before.Pinned taken) (table : after.table = before.table)
    (file : after.file = before.file)
    (grows : before.registry.bindings <+: after.registry.bindings) : after.Pinned taken where
  filed := pinned.filed.of_eq table file
  connects := by
    intro kind pin register below found
    rw [table] at found
    rw [file]
    rcases pinned.connects kind pin register below found with ⟨channel, state, bound⟩ | isTaken
    · exact .inl ⟨channel, state, PinRegistry.find?_extend grows bound⟩
    · exact .inr isTaken

/-- A new register may have the name of a pin only if it is connected to it or
takes the name. -/
theorem create (pinned : before.Pinned taken) {name : String} {state : Register}
    (free : before.table.find? name = none)
    (filed : (before.create name state).2.Filed)
    (fits : ∀ (kind : PinKind) (pin : Nat), pin < 0x100000000 → name = kind.registerName pin →
      (∃ channel, state = .pin kind channel ∧
        before.registry.find? pin = some ⟨pin, kind, channel⟩) ∨ taken name) :
    (before.create name state).2.Pinned taken where
  filed := filed
  connects := by
    intro kind pin register below found
    rw [find?_create free] at found
    split at found
    next same =>
      cases found
      rcases fits kind pin below same with ⟨channel, isPin, bound⟩ | isTaken
      · exact .inl ⟨channel, (state_create_new before name state).trans isPin, bound⟩
      · exact .inr (same ▸ isTaken)
    next =>
      have inside := pinned.filed.inside register (RegisterTable.name_of_find? found).2
      rcases pinned.connects kind pin register below found with ⟨channel, isPin, bound⟩ | isTaken
      · exact .inl ⟨channel, ((Retains.create state free).state_eq inside).trans isPin, bound⟩
      · exact .inr isTaken

theorem of_declared (pinned : before.Pinned taken) (declared : before.Declared declaration after)
    (takes : ∀ name size, declaration = .memory name size → taken name) : after.Pinned taken := by
  have filed := pinned.filed.of_declared declared
  cases declared with
  | known => exact pinned
  | @pin _ kind pin channel registry channels isPin free bound =>
      rcases PinRegistry.find?_of_channel bound with ⟨grows, found⟩
      have connected : (before.connect kind pin registry channels).Pinned taken :=
        pinned.of_eq rfl rfl grows
      refine connected.create free filed fun other number _ same => ?_
      rcases PinKind.registerName_inj same with ⟨rfl, rfl⟩
      exact .inl ⟨channel, rfl, found⟩
  | @plain name noPin free =>
      -- A plain register has no such name, since its number would be a pin.
      refine pinned.create free filed fun kind pin below same => ?_
      rw [same, pinOfName?_registerName below kind] at noPin
      cases noPin
  | @memory plan free cursorFree =>
      have cursor : (before.create plan.cursorName (.offset 0)).2.Pinned taken := by
        refine pinned.create cursorFree (pinned.filed.create cursorFree nofun)
          fun kind pin below same => ?_
        have noPin := pinOfName?_cursorName plan
        rw [same, pinOfName?_registerName below kind] at noPin
        cases noPin
      exact cursor.create (find?_name_of_cursor free cursorFree) filed
        fun _ _ _ _ => .inr (takes plan.name plan.size rfl)
  | label => exact pinned.of_eq rfl rfl (List.prefix_refl _)

end Pinned

theorem pinned_start (taken : String → Prop) (registry : PinRegistry) (board : Board)
    (config : Config) (logger : Option Logger) :
    (Assembler.start registry board config logger).Pinned taken where
  filed := filed_start registry board config logger
  connects := by
    intro kind pin register below found
    have noPins : ∀ register ∈ (defaultRegisters config.clockSpeed).1.named,
        pinOfName? register.name.toList = none := by
      change ∀ register ∈ (defaultRegisters 0).1.named, pinOfName? register.name.toList = none
      decide
    rcases RegisterTable.name_of_find? found with ⟨named, member⟩
    have noPin := noPins register member
    rw [named, pinOfName?_registerName below kind] at noPin
    cases noPin

/-- After some declarations, a name of a pin is one unless a memory has it. -/
theorem Declares.pinned {declarations : List Declaration} {registry : PinRegistry} {board : Board}
    {config : Config} {logger : Option Logger}
    (declares : (Assembler.start registry board config logger).Declares declarations after) :
    after.Pinned fun name => ∃ size, .memory name size ∈ declarations := by
  refine declares.induct _ ?_ ?_ (pinned_start _ registry board config logger)
  · intro before after declaration member declared pinned
    refine pinned.of_declared declared ?_
    rintro name size rfl
    exact ⟨size, member⟩
  · intro before after apart pinned
    have grows : before.registry.bindings <+: after.registry.bindings :=
      apart.registry ▸ List.prefix_refl _
    exact pinned.of_eq apart.table apart.file grows

end Assembler

/-! ## Programs -/

namespace Program

variable {registry : PinRegistry} {board : Board} {config : Config} {logger : Option Logger}
  {source : String} {program : Program} {file : RegisterFile}

/-- Every line of a program is read, and what it declares is declared. -/
theorem sourceDeclarations_eq
    (parsed : (parse registry board config logger source).result = .ok (program, file)) :
    sourceDeclarations source = (Line.ofSource source).flatMap Line.declarations :=
  (layout_of_parse parsed).declarations_eq

/-- A pin that is written with a dollar sign anywhere in a program is connected
to the channel that the registry has for it, except if there is a memory of this
name. The operands of the instructions are what the table has for them. -/
theorem pin_names_connected_iff
    (parsed : (parse registry board config logger source).result = .ok (program, file)) :
    (∀ line ∈ Line.ofSource source, ∀ declaration ∈ line.declarations, ∀ kind pin,
      declaration.pin? = some (kind, pin) → pin < 0x100000000 →
      ∃ register, program.table.find? (kind.registerName pin) = some register ∧
        (file.Connects register (parse registry board config logger source).registry kind pin ↔
          ∀ other ∈ Line.ofSource source, ∀ size,
            .memory (kind.registerName pin) size ∉ other.declarations)) ∧
    List.Forall₂ (Item.Means program.table file) ((Item.ofSource source).filter Item.isEntry)
      program.entries.toList := by
  rcases parse_means parsed with ⟨last, declares, table, rfl, sameRegistry, means⟩
  refine ⟨fun line isLine declaration written kind pin isPin below => ?_, means⟩
  rw [sourceDeclarations_eq parsed] at declares
  have declared := List.mem_flatMap.mpr ⟨line, isLine, written⟩
  rcases declares.find?_of_mem declared (Declaration.registerName?_of_pin isPin) with
    ⟨register, found⟩
  refine ⟨register, table ▸ found, ?_⟩
  rw [sameRegistry]
  constructor
  · rintro ⟨channel, isPinned, _⟩ other isOther size isMemory
    rcases declares.memory_of_mem (List.mem_flatMap.mpr ⟨other, isOther, isMemory⟩) with
      ⟨memory, cursor, memoryFound, isCursor⟩
    cases found.symm.trans memoryFound
    rw [isPinned] at isCursor
    cases isCursor
  · intro noMemory
    rcases declares.pinned.connects kind pin register below found with connects | ⟨size, isMemory⟩
    · exact connects
    · rcases List.mem_flatMap.mp isMemory with ⟨other, isOther, isDeclared⟩
      exact absurd isDeclared (noMemory other isOther size)

/-- One pin in a branch on the line of its test, and one with the name of a
memory. -/
theorem pin_names_connected_iff_branch :
    let source := "&p1\n$x2 teq $p1 1 + mov $p03 acc"
    let program : Program := ⟨#[⟨.test .equal (.ref ⟨"p1", 8⟩) (.int 1)
      (.ofList [.move (.ref ⟨"p3", 10⟩) ⟨"acc", 2⟩]) .nil, false, 2⟩], [],
      { (defaultRegisters 500).1 with
        named := (defaultRegisters 500).1.named ++
          [⟨"p1_i", 7⟩, ⟨"p1", 8⟩, ⟨"x2", 9⟩, ⟨"p3", 10⟩] }⟩
    let file : RegisterFile := (defaultRegisters 500).2 ++
      #[.offset 0, .growing ⟨"p1_i", 7⟩ #[], .pin .xbus 0, .pin .power 1]
    let parsed := parse .empty (Board.ofInput [] 0) .default none source
    parsed.result = .ok (program, file) ∧
      file.Connects ⟨"p3", 10⟩ parsed.registry .power 3 ∧
      ¬ file.Connects ⟨"p1", 8⟩ parsed.registry .power 1 := by
  intro source program file parsed
  have isParsed : parsed.result = .ok (program, file) := by
    decide +kernel
  have lines : Line.ofSource source = [.ofRaw 1 "&p1".toList,
      .ofRaw 2 "$x2 teq $p1 1 + mov $p03 acc".toList] := by
    decide +kernel
  have memory : (Line.ofRaw 1 "&p1".toList).declarations = [.memory "p1" none] := by
    decide +kernel
  have pins : (Line.ofRaw 2 "$x2 teq $p1 1 + mov $p03 acc".toList).declarations =
      [.pin .xbus 2, .register "p1", .register "p03"] := by
    decide +kernel
  have each := (pin_names_connected_iff isParsed).1
    (.ofRaw 2 "$x2 teq $p1 1 + mov $p03 acc".toList) (by simp [lines])
  rw [pins, lines] at each
  refine ⟨isParsed, ?_, ?_⟩
  · rcases each (.register "p03") (by simp) .power 3 (by decide +kernel) (by decide) with
      ⟨register, found, connects⟩
    have isThird : program.table.find? (PinKind.power.registerName 3) = some ⟨"p3", 10⟩ := by
      decide +kernel
    have otherName : "p1" ≠ PinKind.power.registerName 3 := by
      decide +kernel
    cases isThird.symm.trans found
    refine connects.mpr fun other isOther size isMemory => ?_
    simp only [List.mem_cons, List.not_mem_nil, or_false] at isOther
    rcases isOther with rfl | rfl
    · rw [memory, List.mem_singleton, Declaration.memory.injEq] at isMemory
      exact otherName isMemory.1.symm
    · rw [pins] at isMemory
      simp at isMemory
  · rcases each (.register "p1") (by simp) .power 1 (by decide +kernel) (by decide) with
      ⟨register, found, connects⟩
    have isFirst : program.table.find? (PinKind.power.registerName 1) = some ⟨"p1", 8⟩ := by
      decide +kernel
    have sameName : "p1" = PinKind.power.registerName 1 := by
      decide +kernel
    cases isFirst.symm.trans found
    intro isConnected
    refine connects.mp isConnected (.ofRaw 1 "&p1".toList) (by simp) none ?_
    rw [memory, ← sameName]
    exact List.mem_singleton.mpr rfl

/-- A memory may have the name of a pin, and then the pin is not bound. -/
theorem memory_hides_pin :
    let source := "*p0[4]\nmov 7 $p0\nend"
    let parsed := parse .empty (Board.ofInput [] 0) .default none source
    let program : Program := ⟨#[⟨.move (.int 7) ⟨"p0", 8⟩, false, 2⟩, ⟨.stop, false, 3⟩], [],
      { (defaultRegisters 500).1 with
        named := (defaultRegisters 500).1.named ++ [⟨"p0_i", 7⟩, ⟨"p0", 8⟩] }⟩
    let file : RegisterFile := (defaultRegisters 500).2 ++
      #[.offset 0, .sized ⟨"p0_i", 7⟩ (Array.replicate 4 .null)]
    parsed.result = .ok (program, file) ∧
      (∃ line ∈ Line.ofSource source, .register "p0" ∈ line.declarations) ∧
      (Declaration.register "p0").pin? = some (.power, 0) ∧
      parsed.registry = .empty ∧ ∀ register registry,
        program.table.find? (PinKind.power.registerName 0) = some register →
        ¬ file.Connects register registry .power 0 := by
  intro source parsed program file
  refine ⟨by decide +kernel, by decide +kernel, by decide +kernel, by decide +kernel, ?_⟩
  rintro register registry found ⟨channel, isPin, _⟩
  have isMemory : program.table.find? (PinKind.power.registerName 0) = some ⟨"p0", 8⟩ := by
    decide +kernel
  cases isMemory.symm.trans found
  cases isPin

end Program

end NodeAssembly
