import NodeAssembly.Proofs.Program.Layout
import NodeAssembly.Proofs.Program.Naming

/-! Every line with an instruction is parsed once, and where it is written. If no
test has its branches on its own line, the instructions of a program and the
lines with an instruction correspond one to one and in order: the signs of the
line are the branches that the instruction stands in. -/

namespace NodeAssembly

open NodeAssembly.Assembly NodeAssembly.Text

/-- An instruction with the branches that it stands in, the outermost first. -/
structure Placed where
  path : List Sign
  instruction : Instruction

mutual

/-- The instruction and those in its branches as they may be written one after
the other: a test comes before its branches, and either branch may be first. -/
inductive Instruction.Listed : List Sign → Instruction → List Placed → Prop
  | plain (path : List Sign) {instruction : Instruction} (noTest : instruction.isTest = false) :
      Instruction.Listed path instruction [⟨path, instruction⟩]
  | test {path : List Sign} (kind : TestKind) (left right : Value) (lead : Sign)
      {positive negative : Block} {inPositive inNegative : List Placed}
      (isPositive : Block.Listed (path ++ [.positive]) positive inPositive)
      (isNegative : Block.Listed (path ++ [.negative]) negative inNegative) :
      Instruction.Listed path (.test kind left right positive negative)
        (⟨path, .test kind left right positive negative⟩ ::
          (lead.choose inPositive inNegative ++ lead.opposite.choose inPositive inNegative))

inductive Block.Listed : List Sign → Block → List Placed → Prop
  | nil (path : List Sign) : Block.Listed path .nil []
  | cons {path : List Sign} {head : Instruction} {tail : Block} {first rest : List Placed}
      (isHead : Instruction.Listed path head first) (isTail : Block.Listed path tail rest) :
      Block.Listed path (.cons head tail) (first ++ rest)

end

mutual

/-- No instruction is left out and none is listed twice. -/
theorem Instruction.Listed.perm {path : List Sign} {instruction : Instruction}
    {nodes : List Placed} (listed : instruction.Listed path nodes) :
    (nodes.map (·.instruction)).Perm instruction.nodes := by
  cases listed with
  | plain _ noTest => rw [Instruction.nodes_of_noTest noTest]; exact .refl _
  | test kind left right lead isPositive isNegative =>
      have both := isPositive.perm.append isNegative.perm
      rw [Instruction.nodes, List.map_cons, List.map_append]
      apply List.Perm.cons
      cases lead with
      | positive => exact both
      | negative => exact List.perm_append_comm.trans both

theorem Block.Listed.perm {path : List Sign} {block : Block} {nodes : List Placed}
    (listed : block.Listed path nodes) : (nodes.map (·.instruction)).Perm block.nodes := by
  cases listed with
  | nil => exact .refl _
  | cons isHead isTail =>
      rw [Block.nodes, List.map_append]
      exact isHead.perm.append isTail.perm

end

namespace Line

/-- Whether anything is left of the line after its signs. -/
def hasCode (line : Line) : Bool :=
  !line.code.isEmpty

/-- Whether the line belongs to no test. -/
def isTop (line : Line) : Bool :=
  line.signs.isEmpty

/-- The line is where the instruction is written, in a block with the path. -/
def Holds (path : List Sign) (line : Line) (node : Placed) : Prop :=
  node.path = path ++ line.signs ∧
    node.instruction.opcode.mnemonic.toList = lowerCase line.word

/-- Lines with a sign hold what they hold without it in the branch of the
sign. -/
theorem holds_of_sign {sign : Sign} {path : List Sign} {lines : List Line} {nodes : List Placed}
    (signed : ∀ line ∈ lines, line.sign? = some sign)
    (holds : List.Forall₂ (Holds (path ++ [sign])) ((lines.map unsigned).filter hasCode) nodes) :
    List.Forall₂ (Holds path) (lines.filter hasCode) nodes := by
  induction lines generalizing nodes with
  | nil =>
      cases holds
      exact .nil
  | cons line rest induction =>
      have sign := signed line List.mem_cons_self
      have others := fun other member => signed other (List.mem_cons_of_mem line member)
      have sameCode : line.unsigned.hasCode = line.hasCode := by
        rw [hasCode, hasCode, code_of_sign sign]
      rw [List.map_cons, List.filter_cons, sameCode] at holds
      rw [List.filter_cons]
      split at holds
      next filled =>
        rw [if_pos filled]
        cases holds with
        | cons here further =>
            refine .cons ⟨?_, ?_⟩ (induction others further)
            · rw [here.1, signs_of_sign sign, List.append_assoc, List.singleton_append]
            · rw [here.2, word, word, code_of_sign sign]
      next empty =>
        rw [if_neg empty]
        exact induction others holds

end Line

theorem OpCode.mnemonic_of_ofMnemonic? {word : String} {opcode : OpCode}
    (named : OpCode.ofMnemonic? word = some opcode) :
    opcode.mnemonic.toList = lowerCase word.toList := by
  have same := List.find?_some named
  exact eq_of_beq same

namespace Line

variable {line : Line} {word : String} {operands : List Token}

theorem hasInline_of_word (scanned : Token.scan line.text = .ok (.word word :: operands)) :
    line.hasInline = (Token.word word :: operands).any Token.isBranch := by
  simp only [hasInline, code_of_none (sign?_of_word scanned), scanned]

theorem hasCode_of_word (scanned : Token.scan line.text = .ok (.word word :: operands)) :
    line.hasCode = true := by
  rw [hasCode, code_of_none (sign?_of_word scanned)]
  cases text : line.text with
  | nil =>
      rw [text, Token.scan, Lexeme.scan] at scanned
      cases scanned
  | cons first rest => rfl

theorem hasCode_of_empty (empty : line.text = []) : ¬line.hasCode = true := by
  rw [hasCode, code, empty, peelSigns]
  exact Bool.false_ne_true

/-- The line of an instruction starts with its mnemonic, in some case. -/
theorem holds_of_word (scanned : Token.scan line.text = .ok (.word word :: operands))
    {instruction : Instruction} (named : OpCode.ofMnemonic? word = some instruction.opcode)
    (path : List Sign) : line.Holds path ⟨path, instruction⟩ := by
  constructor
  · rw [signs_of_none (sign?_of_word scanned), List.append_nil]
  · rw [word_of_scan scanned]
    exact OpCode.mnemonic_of_ofMnemonic? named

theorem noInline_unsigned {lines : List Line} {sign : Sign}
    (signed : ∀ line ∈ lines, line.sign? = some sign)
    (noInline : ∀ line ∈ lines, line.hasInline = false) :
    ∀ line ∈ lines.map unsigned, line.hasInline = false := by
  intro line member
  rcases List.mem_map.mp member with ⟨other, isOther, rfl⟩
  have same := noInline other isOther
  rwa [hasInline, code_of_sign (signed other isOther)] at same

end Line

/-! ## Blocks -/

mutual

/-- An instruction is written on its line and on the lines that it takes. -/
theorem Statement.LaidOut.listed {line : Line} {taken : List Line} {statement : Statement}
    {instruction : Instruction} (laidOut : Statement.LaidOut line taken statement instruction) :
    (∀ other ∈ line :: taken, other.hasInline = false) → ∀ path, ∃ nodes,
      instruction.Listed path nodes ∧
        List.Forall₂ (Line.Holds path) (line :: taken.filter Line.hasCode) nodes := by
  intro noInline path
  cases laidOut with
  | plain scanned named _ noBranches =>
      exact ⟨_, .plain path noBranches, .cons (Line.holds_of_word scanned named path) .nil⟩
  | inline scanned _ inline =>
      have noBranch := noInline line List.mem_cons_self
      rw [Line.hasInline_of_word scanned, inline] at noBranch
      cases noBranch
  | @test _ _ _ kind left right positive negative positiveLines negativeLines _ _ lead scanned named
      isPositive isNegative positiveBlock negativeBlock =>
      have below : ∀ sign : Sign, ∀ other ∈ sign.choose positiveLines negativeLines,
          other.hasInline = false := by
        intro sign other member
        refine noInline other (List.mem_cons_of_mem _ (List.mem_append.mpr ?_))
        cases lead <;> cases sign
        · exact .inl member
        · exact .inr member
        · exact .inr member
        · exact .inl member
      rcases positiveBlock.listed (Line.noInline_unsigned isPositive (below .positive))
        (path ++ [.positive]) with ⟨inPositive, positiveListed, positiveHeld⟩
      rcases negativeBlock.listed (Line.noInline_unsigned isNegative (below .negative))
        (path ++ [.negative]) with ⟨inNegative, negativeListed, negativeHeld⟩
      have held : ∀ sign : Sign, List.Forall₂ (Line.Holds path)
          ((sign.choose positiveLines negativeLines).filter Line.hasCode)
          (sign.choose inPositive inNegative) := by
        intro sign
        cases sign with
        | positive => exact Line.holds_of_sign isPositive positiveHeld
        | negative => exact Line.holds_of_sign isNegative negativeHeld
      have here : line.Holds path ⟨path, .test kind left right positive negative⟩ := by
        refine Line.holds_of_word scanned ?_ path
        exact named
      refine ⟨_, .test kind left right lead positiveListed negativeListed, ?_⟩
      rw [List.filter_append]
      exact .cons here (List.rel_append (held lead) (held lead.opposite))

theorem Block.LaidOut.listed {lines : List Line} {statements : List Statement} {block : Block}
    (laidOut : Block.LaidOut lines statements block) :
    (∀ line ∈ lines, line.hasInline = false) → ∀ path, ∃ nodes, block.Listed path nodes ∧
      List.Forall₂ (Line.Holds path) (lines.filter Line.hasCode) nodes := by
  intro noInline path
  cases laidOut with
  | nil => exact ⟨[], .nil path, .nil⟩
  | blank empty below =>
      rw [List.filter_cons_of_neg (Line.hasCode_of_empty empty)]
      exact below.listed (fun other member => noInline other (List.mem_cons_of_mem _ member)) path
  | @cons line taken lines _ _ head tail isHead isTail =>
      have inHead : ∀ other ∈ line :: taken, other.hasInline = false :=
        fun other member => noInline other (List.mem_append_left lines member)
      have inTail : ∀ other ∈ lines, other.hasInline = false :=
        fun other member => noInline other (List.mem_append_right (line :: taken) member)
      rcases isHead.listed inHead path with ⟨nodes, listed, held⟩
      rcases isTail.listed inTail path with ⟨further, furtherListed, furtherHeld⟩
      rcases isHead.word with ⟨word, operands, scanned⟩
      refine ⟨nodes ++ further, .cons listed furtherListed, ?_⟩
      rw [List.filter_cons_of_pos (Line.hasCode_of_word scanned), List.filter_append,
        ← List.cons_append]
      exact List.rel_append held furtherHeld

end

/-! ## Entries -/

/-- Signed lines have nothing in front of their signs. -/
theorem Line.map_body_of_signed {lines : List Line} (signed : ∀ line ∈ lines, line.sign?.isSome) :
    lines.map body = lines := by
  rw [List.map_congr_left fun line member => body_of_sign (signed line member), List.map_id']

theorem Line.filter_top_of_signed {lines : List Line}
    (signed : ∀ line ∈ lines, line.sign?.isSome) : lines.filter isTop = [] := by
  rw [List.filter_eq_nil_iff]
  intro line member
  rcases Option.isSome_iff_exists.mp (signed line member) with ⟨sign, isSign⟩
  rw [isTop, signs_of_sign isSign]
  exact Bool.false_ne_true

/-- The lines hold the instructions of the entries, and the entries have the
numbers of the lines without signs. -/
theorem Layout.listed {lines : List Line} {items : List Item} {entries : List Entry}
    (layout : Layout lines items entries)
    (noInline : ∀ line ∈ lines, line.body.hasInline = false) :
    ∃ nodes, (Block.ofList (entries.map (·.instruction))).Listed [] nodes ∧
      List.Forall₂ (Line.Holds []) ((lines.map Line.body).filter Line.hasCode) nodes ∧
      entries.map (·.line) =
        (((lines.map Line.body).filter Line.hasCode).filter Line.isTop).map (·.number) := by
  induction layout with
  | nil => exact ⟨[], .nil [], .nil, rfl⟩
  | blank empty below induction =>
      rw [List.map_cons, List.filter_cons_of_neg (Line.hasCode_of_empty empty)]
      exact induction fun other member => noInline other (List.mem_cons_of_mem _ member)
  | @entry line taken lines _ _ entry entries laidOut signed number below induction =>
      have sameTaken := Line.map_body_of_signed signed
      have inHead : ∀ other ∈ line.body :: taken, other.hasInline = false := by
        intro other member
        rcases List.mem_cons.mp member with rfl | inTaken
        · exact noInline line List.mem_cons_self
        · rw [← Line.body_of_sign (signed other inTaken)]
          exact noInline other (List.mem_cons_of_mem _ (List.mem_append_left _ inTaken))
      rcases laidOut.listed inHead [] with ⟨nodes, listed, held⟩
      rcases induction fun other member => noInline other
        (List.mem_cons_of_mem _ (List.mem_append_right _ member)) with
        ⟨others, othersListed, othersHeld, numbers⟩
      rcases laidOut.word with ⟨word, operands, scanned⟩
      have split : ((line :: (taken ++ lines)).map Line.body).filter Line.hasCode =
          (line.body :: taken.filter Line.hasCode) ++
            (lines.map Line.body).filter Line.hasCode := by
        rw [List.map_cons, List.map_append, sameTaken,
          List.filter_cons_of_pos (Line.hasCode_of_word scanned), List.filter_append,
          List.cons_append]
      have isTop : line.body.isTop = true := by
        rw [Line.isTop, Line.signs_of_none (Line.sign?_of_word scanned)]
        rfl
      have noTop : (taken.filter Line.hasCode).filter Line.isTop = [] :=
        Line.filter_top_of_signed fun other member =>
          signed other (List.mem_of_mem_filter member)
      refine ⟨nodes ++ others, .cons listed othersListed, ?_, ?_⟩
      · rw [split]
        exact List.rel_append held othersHeld
      · rw [split, List.filter_append, List.filter_cons_of_pos isTop, noTop, List.singleton_append,
          List.map_cons, List.map_cons, numbers, number, Line.number_body]

/-! ## Programs -/

theorem Block.nodes_ofList (instructions : List Instruction) :
    (ofList instructions).nodes = instructions.flatMap Instruction.nodes := by
  induction instructions with
  | nil => rfl
  | cons head tail induction => rw [ofList, nodes, List.flatMap_cons, induction]

theorem Line.map_number_numberFrom (first : Nat) (texts : List (List Char)) :
    (numberFrom first texts).map (·.number) = List.range' first texts.length := by
  induction texts generalizing first with
  | nil => rfl
  | cons head tail induction =>
      rw [numberFrom, List.map_cons, induction, List.length_cons, List.range'_succ]
      rfl

theorem Line.number_lt_of_source (source : String) :
    ((ofSource source).map (·.number)).Pairwise (· < ·) := by
  rw [ofSource, map_number_numberFrom]
  exact List.pairwise_lt_range'

namespace Program

variable {registry : PinRegistry} {board : Board} {config : Config} {logger : Option Logger}
  {source : String} {program : Program} {file : RegisterFile}

/-- If no test has its branches on its own line, the lines with an instruction
and the instructions of the program correspond one to one, in order. The signs
of the line are the branches that the instruction stands in, its first word is
the mnemonic, and the lines without signs are those of the entries. -/
theorem lines_parsed_once
    (parsed : (parse registry board config logger source).result = .ok (program, file))
    (noInline : ∀ line ∈ Line.ofSource source, line.body.hasInline = false) :
    let lines := ((Line.ofSource source).map Line.body).filter Line.hasCode
    (∃ nodes, (Block.ofList (program.entries.toList.map (·.instruction))).Listed [] nodes ∧
      (nodes.map (·.instruction)).Perm (program.entries.toList.flatMap (·.instruction.nodes)) ∧
      List.Forall₂ (fun line node => node.path = line.signs ∧
        node.instruction.opcode.mnemonic.toList = lowerCase line.word) lines nodes) ∧
    program.entries.toList.map (·.line) = (lines.filter Line.isTop).map (·.number) ∧
    (program.entries.toList.map (·.line)).Pairwise (· < ·) := by
  intro lines
  rcases (layout_of_parse parsed).listed noInline with ⟨nodes, listed, held, numbers⟩
  refine ⟨⟨nodes, listed, ?_, held⟩, numbers, ?_⟩
  · have perm := listed.perm
    rwa [Block.nodes_ofList, List.flatMap_map] at perm
  · have inOrder := Line.number_lt_of_source source
    have sameNumbers : ((Line.ofSource source).map Line.body).map (·.number) =
        (Line.ofSource source).map (·.number) := by
      rw [List.map_map]
      exact List.map_congr_left fun line _ => line.number_body
    rw [numbers]
    rw [← sameNumbers] at inOrder
    exact inOrder.sublist ((List.filter_sublist.trans List.filter_sublist).map _)

/-- Tests inside a branch that is written before the other one. -/
theorem lines_parsed_once_nested :
    let source := "go: $a teq a 1 # start\n-\n- TGT acc 2\n- + nop\n- - tlt 1 2\n" ++
      "- - + end\n+ inc a\n\n@ mov 1 acc"
    let inner : Instruction := .test .less (.int 1) (.int 2) (.ofList [.stop]) .nil
    let outer : Instruction := .test .greater (.ref ⟨"acc", 2⟩) (.int 2) (.ofList [.noOperation])
      (.ofList [inner])
    let program : Program := ⟨#[⟨.test .equal (.ref ⟨"a", 7⟩) (.int 1)
      (.ofList [.increment ⟨"a", 7⟩]) (.ofList [outer]), false, 1⟩,
      ⟨.move (.int 1) ⟨"acc", 2⟩, true, 9⟩], [("go", 0)],
      { (defaultRegisters 500).1 with named := (defaultRegisters 500).1.named ++ [⟨"a", 7⟩] }⟩
    (parse .empty (Board.ofInput [] 0) .default none source).result =
        .ok (program, (defaultRegisters 500).2.push (.plain (.int 0))) ∧
      (∀ line ∈ Line.ofSource source, line.body.hasInline = false) ∧
      ∃ nodes, (Block.ofList (program.entries.toList.map (·.instruction))).Listed [] nodes ∧
        nodes.map (·.path) = [[], [.negative], [.negative, .positive], [.negative, .negative],
          [.negative, .negative, .positive], [.positive], []] := by
  intro source inner outer program
  have parsed : (parse .empty (Board.ofInput [] 0) .default none source).result =
      .ok (program, (defaultRegisters 500).2.push (.plain (.int 0))) := by
    decide +kernel
  have noInline : ∀ line ∈ Line.ofSource source, line.body.hasInline = false := by
    decide +kernel
  have signs : (((Line.ofSource source).map Line.body).filter Line.hasCode).map Line.signs =
      [[], [.negative], [.negative, .positive], [.negative, .negative],
        [.negative, .negative, .positive], [.positive], []] := by
    decide +kernel
  rcases lines_parsed_once parsed noInline with ⟨⟨nodes, listed, _, held⟩, _⟩
  refine ⟨parsed, noInline, nodes, listed, ?_⟩
  have paths : List.Forall₂ (· = ·) (((Line.ofSource source).map Line.body).filter
      Line.hasCode |>.map Line.signs) (nodes.map (·.path)) := by
    rw [List.forall₂_map_left_iff, List.forall₂_map_right_iff]
    exact held.imp fun _ _ both => both.1.symm
  rw [List.forall₂_eq_eq_eq] at paths
  rw [← paths, signs]

end Program

end NodeAssembly
