import NodeAssembly.Proofs.Program.Meaning
import NodeAssembly.Proofs.Source.Depth

/-! How the lines of a source text make up a program. A line with an instruction
takes the signed lines below it that belong to its branches, and without their
signs these are lines of a block in turn. What is said about the lines of a
program then follows by going through this layout, without reading the source
text again. -/

namespace NodeAssembly

open NodeAssembly.Assembly

mutual

/-- The statement of the instruction is written on the line and on the signed
lines below it. -/
inductive Statement.LaidOut : Line → List Line → Statement → Instruction → Prop
  | plain {line : Line} {word : String} {operands : List Token} {instruction : Instruction}
      (scanned : Token.scan line.text = .ok (.word word :: operands))
      (named : OpCode.ofMnemonic? word = some instruction.opcode)
      (noTest : isTest (.word word :: operands) = false) (noBranches : instruction.isTest = false) :
      Statement.LaidOut line [] (.instruction line (.word word :: operands) .nil) instruction
  /-- A test with its branches on its own line. -/
  | inline {line : Line} {word : String} {operands : List Token} {instruction : Instruction}
      (scanned : Token.scan line.text = .ok (.word word :: operands))
      (test : isTest (.word word :: operands) = true)
      (inline : (Token.word word :: operands).any Token.isBranch = true) :
      Statement.LaidOut line [] (.instruction line (splitInline line (.word word :: operands)).1
        (splitInline line (.word word :: operands)).2) instruction
  | test {line : Line} {word : String} {operands : List Token} {kind : TestKind}
      {left right : Value} {positive negative : Block} {positiveLines negativeLines : List Line}
      {positiveStatements negativeStatements : List Statement} (lead : Sign)
      (scanned : Token.scan line.text = .ok (.word word :: operands))
      (named : OpCode.ofMnemonic? word = some (.test kind))
      (isPositive : ∀ line ∈ positiveLines, line.sign? = some .positive)
      (isNegative : ∀ line ∈ negativeLines, line.sign? = some .negative)
      (positiveBlock : Block.LaidOut (positiveLines.map Line.unsigned) positiveStatements positive)
      (negativeBlock :
        Block.LaidOut (negativeLines.map Line.unsigned) negativeStatements negative) :
      Statement.LaidOut line
        (lead.choose positiveLines negativeLines ++
          lead.opposite.choose positiveLines negativeLines)
        (.instruction line (.word word :: operands)
          (.prepend lead (lead.choose positiveStatements negativeStatements)
            (.prepend lead.opposite (lead.opposite.choose positiveStatements negativeStatements)
              .nil)))
        (.test kind left right positive negative)

/-- The statements of the block are written on the lines. -/
inductive Block.LaidOut : List Line → List Statement → Block → Prop
  | nil : Block.LaidOut [] [] .nil
  | blank {line : Line} {lines : List Line} {statements : List Statement} {block : Block}
      (empty : line.text = []) (below : Block.LaidOut lines statements block) :
      Block.LaidOut (line :: lines) statements block
  | cons {line : Line} {taken lines : List Line} {statement : Statement}
      {statements : List Statement} {head : Instruction} {tail : Block}
      (isHead : Statement.LaidOut line taken statement head)
      (isTail : Block.LaidOut lines statements tail) :
      Block.LaidOut (line :: (taken ++ lines)) (statement :: statements) (.cons head tail)

end

/-- The items and the entries of a program are written on the lines. -/
inductive Layout : List Line → List Item → List Entry → Prop
  | nil : Layout [] [] []
  | blank {line : Line} {lines : List Line} {items : List Item} {entries : List Entry}
      (empty : line.body.text = []) (below : Layout lines items entries) :
      Layout (line :: lines)
        (⟨line, (Heading.read line.text).declarations, .blank⟩ :: items) entries
  | entry {line : Line} {taken lines : List Line} {statement : Statement} {items : List Item}
      {entry : Entry} {entries : List Entry}
      (laidOut : Statement.LaidOut line.body taken statement entry.instruction)
      (signed : ∀ line ∈ taken, line.sign?.isSome) (number : entry.line = line.number)
      (below : Layout lines items entries) :
      Layout (line :: (taken ++ lines))
        (⟨line, (Heading.read line.text).declarations, .entry entry.once statement⟩ :: items)
        (entry :: entries)

/-! ## Statements and blocks -/

theorem word_of_isTest {tokens : List Token} (test : isTest tokens = true) :
    ∃ word operands, tokens = .word word :: operands := by
  unfold isTest at test
  split at test
  · exact ⟨_, _, rfl⟩
  · cases test

/-- Every statement starts with a word. -/
theorem Statement.LaidOut.word {line : Line} {taken : List Line} {statement : Statement}
    {instruction : Instruction} (laidOut : Statement.LaidOut line taken statement instruction) :
    ∃ word operands, Token.scan line.text = .ok (.word word :: operands) := by
  cases laidOut with
  | plain scanned => exact ⟨_, _, scanned⟩
  | inline scanned => exact ⟨_, _, scanned⟩
  | test _ scanned => exact ⟨_, _, scanned⟩

theorem Branches.prepend_cons (sign : Sign) (head : Statement) (tail : List Statement)
    (rest : Branches) :
    prepend sign (head :: tail) rest = .cons sign head (prepend sign tail rest) := rfl

section

variable {table : RegisterTable} {file : RegisterFile}

/-- Statements of one sign are the first instructions of the block with the
sign. -/
theorem Branches.Means.of_prepend {sign : Sign} {statements : List Statement} {rest : Branches}
    {positive negative : Block}
    (means : (prepend sign statements rest).Means table file positive negative) :
    ∃ instructions further other, rest.Means table file further other ∧
      List.Forall₂ (Statement.Means table file) statements instructions ∧
      (sign.choose positive negative).toList =
        instructions ++ (sign.choose further other).toList ∧
      sign.opposite.choose positive negative = sign.opposite.choose further other := by
  induction statements generalizing positive negative with
  | nil => exact ⟨[], positive, negative, means, .nil, rfl, rfl⟩
  | cons head tail induction =>
      rw [prepend_cons] at means
      cases means with
      | positive here others =>
          rcases induction others with ⟨instructions, further, other, ends, each, own, same⟩
          exact ⟨_ :: instructions, further, other, ends, .cons here each,
            congrArg (List.cons _) own, same⟩
      | negative here others =>
          rcases induction others with ⟨instructions, further, other, ends, each, own, same⟩
          exact ⟨_ :: instructions, further, other, ends, .cons here each,
            congrArg (List.cons _) own, same⟩

/-- The blocks of a test say what the runs below it say. -/
theorem Runs.means_blocks {runs : Runs} {positive negative : Block}
    (means : runs.blocks.Means table file positive negative) :
    List.Forall₂ (Statement.Means table file) (gather (runs.first.map Line.unsigned))
        (runs.sign.choose positive negative).toList ∧
      List.Forall₂ (Statement.Means table file) (gather (runs.second.map Line.unsigned))
        (runs.sign.opposite.choose positive negative).toList := by
  rcases means.of_prepend with ⟨first, further, other, others, firstMeans, own, same⟩
  rcases others.of_prepend with ⟨second, _, _, ends, secondMeans, ownSecond, sameSecond⟩
  cases ends
  have involution : runs.sign.opposite.opposite = runs.sign := by
    cases runs.sign <;> rfl
  rw [involution] at sameSecond
  have emptyBlock : ∀ sign : Sign, (sign.choose Block.nil .nil).toList = [] := by
    intro sign
    cases sign <;> rfl
  rw [sameSecond, emptyBlock, List.append_nil] at own
  rw [emptyBlock, List.append_nil] at ownSecond
  rw [own, same, ownSecond]
  exact ⟨firstMeans, secondMeans⟩

/-- Tests are what tests are written as. -/
theorem Statement.Means.isTest_eq {line : Line} {tokens : List Token} {branches : Branches}
    {instruction : Instruction}
    (means : (Statement.instruction line tokens branches).Means table file instruction) :
    isTest tokens = instruction.isTest := by
  cases means with
  | plain named spelled =>
      have noTest : ∀ kind, instruction.opcode ≠ .test kind := by
        intro kind same
        have plain := spelled.noTest
        cases instruction <;> cases same
        cases plain
      rw [← spelled.opcode] at named
      rw [isTest_of_other named noTest, spelled.noTest]
  | test named => exact isTest_of_test named _

theorem Block.forall₂_cons {α : Type} {relates : α → Instruction → Prop} {head : α} {tail : List α}
    {block : Block} (related : List.Forall₂ relates (head :: tail) block.toList) :
    ∃ instruction rest, block = .cons instruction rest ∧ relates head instruction ∧
      List.Forall₂ relates tail rest.toList := by
  cases block with
  | nil => cases related
  | cons instruction rest =>
      cases related with
      | cons here others => exact ⟨instruction, rest, rfl, here, others⟩

/-- The lines are laid out wherever their statements are a block. -/
def Line.FormBlocks (table : RegisterTable) (file : RegisterFile) (lines : List Line) : Prop :=
  ∀ block : Block, List.Forall₂ (Statement.Means table file) (gather lines) block.toList →
    Block.LaidOut lines (gather lines) block

/-- A statement is laid out if its branches are. -/
theorem Statement.Means.laidOut {line : Line} {following : List Line} {statement : Statement}
    {count : Nat} {instruction : Instruction} (means : statement.Means table file instruction)
    (taken : Taken line following (statement, count))
    (first : Line.FormBlocks table file
      ((ownedRuns (Token.scan line.text) following).first.map Line.unsigned))
    (second : Line.FormBlocks table file
      ((ownedRuns (Token.scan line.text) following).second.map Line.unsigned)) :
    Statement.LaidOut line (following.take count) statement instruction := by
  cases taken with
  | illegible => cases means
  | plain scanned noTest =>
      have isSame := means.isTest_eq
      rw [noTest] at isSame
      cases means with
      | plain named spelled =>
          rw [← spelled.opcode] at named
          exact .plain scanned named noTest spelled.noTest
      | test => cases isSame
  | inline scanned test inline =>
      rcases word_of_isTest test with ⟨word, operands, rfl⟩
      exact .inline scanned test inline
  | test scanned test =>
      have isSame := means.isTest_eq
      rw [test] at isSame
      cases means with
      | plain named spelled =>
          rw [spelled.noTest] at isSame
          cases isSame
      | test named _ _ blocks =>
          rcases Runs.means_blocks blocks with ⟨firstMeans, secondMeans⟩
          have firstBlock := first _ firstMeans
          have secondBlock := second _ secondMeans
          have isFirst := sign?_ownedRuns_first (Token.scan line.text) following
          have isSecond := sign?_ownedRuns_second (Token.scan line.text) following
          -- The branch of the first run is the one that is written first.
          rw [take_ownedRuns]
          unfold Runs.blocks
          cases sign : (ownedRuns (Token.scan line.text) following).sign with
          | positive =>
              rw [sign] at firstBlock secondBlock isFirst isSecond
              exact .test .positive scanned named isFirst isSecond firstBlock secondBlock
          | negative =>
              rw [sign] at firstBlock secondBlock isFirst isSecond
              exact .test .negative scanned named isSecond isFirst secondBlock firstBlock

theorem Line.formBlocks (lines : List Line) : FormBlocks table file lines := by
  induction lines using gather.induct with
  | case1 =>
      intro block means
      rw [gather] at means ⊢
      cases block with
      | nil => exact .nil
      | cons => cases means
  | case2 line rest empty induction =>
      intro block means
      rw [gather, if_pos empty] at means ⊢
      exact .blank (List.isEmpty_iff.mp empty) (induction block means)
  | case3 line rest filled signed =>
      intro block means
      rw [gather, if_neg filled, if_pos signed] at means
      -- A stray line says nothing.
      rcases Block.forall₂_cons means with ⟨_, _, _, stray, _⟩
      cases stray
  | case4 line rest filled unsigned tokens runs first second induction =>
      intro block means
      rw [gather_cons (by simpa using filled) (by simpa using unsigned)] at means ⊢
      rcases Block.forall₂_cons means with ⟨instruction, tail, rfl, headMeans, tailMeans⟩
      have head := headMeans.laidOut (Statement.taken_ofLine line rest) first second
      have whole := Block.LaidOut.cons head (induction tail tailMeans)
      change Block.LaidOut (line :: (rest.take runs.length ++ rest.drop runs.length)) _ _ at whole
      rwa [List.take_append_drop] at whole

/-! ## Items -/

/-- The item is one that a program can have. -/
def Item.isSound (item : Item) : Bool :=
  match item.body with
  | .malformed _ => false
  | .stray => false
  | _ => true

theorem Assembly.items_sound {items : List Item} {before after : Assembler}
    (done : outcome (items.forM Assembly.item) before = (.ok (), after)) :
    ∀ item ∈ items, item.isSound = true := by
  induction items generalizing before with
  | nil => nofun
  | cons head tail induction =>
      rw [outcome_forM_cons] at done
      rcases outcome_bind_eq_ok done with ⟨_, between, here, rest⟩
      intro item member
      rcases List.mem_cons.mp member with rfl | later
      · rcases outcome_bind_eq_ok here with ⟨_, declared, _, ends⟩
        unfold Item.isSound
        split
        next construct body =>
          rw [body] at ends
          cases ends
        next body =>
          rw [body] at ends
          cases ends
        next => rfl
      · exact induction rest item later

/-- The lines of a source text are laid out if its items say something. -/
theorem Item.layout (lines : List Line) {entries : List Entry}
    (sound : ∀ item ∈ ofLines lines, item.isSound = true)
    (means : List.Forall₂ (Item.Means table file) ((ofLines lines).filter isEntry) entries) :
    Layout lines (ofLines lines) entries := by
  induction lines using Item.ofLines.induct generalizing entries with
  | case1 =>
      rw [ofLines] at means ⊢
      cases means
      exact .nil
  | case2 line rest item count isItem induction =>
      have signed := ofLine_signed line rest
      have taken := Item.taken_ofLine line rest
      rw [isItem] at signed taken
      have whole : ofLines (line :: rest) = item :: ofLines (rest.drop count) := by
        rw [ofLines, isItem]
      rw [whole] at means sound ⊢
      have isSound := sound item List.mem_cons_self
      have soundBelow := fun other member => sound other (List.mem_cons_of_mem item member)
      cases taken with
      | malformed construct body => simp [Item.isSound, body] at isSound
      | stray body => simp [Item.isSound, body] at isSound
      | blank empty => exact .blank empty (induction soundBelow means)
      | entry once =>
          rw [List.filter_cons_of_pos rfl] at means
          cases means with
          | cons here further =>
              rcases here with ⟨statement, isBody, number, statementMeans⟩
              cases isBody
              have laidOut := statementMeans.laidOut (Statement.taken_ofLine line.body rest)
                (Line.formBlocks _) (Line.formBlocks _)
              have whole := Layout.entry laidOut signed number (induction soundBelow further)
              change Layout (line :: (rest.take (Statement.ofLine line.body rest).2 ++
                rest.drop (Statement.ofLine line.body rest).2)) _ _ at whole
              rwa [List.take_append_drop] at whole

end

namespace Program

variable {registry : PinRegistry} {board : Board} {config : Config} {logger : Option Logger}
  {source : String} {program : Program} {file : RegisterFile}

/-- The program of a source text is laid out on its lines. -/
theorem layout_of_parse
    (parsed : (parse registry board config logger source).result = .ok (program, file)) :
    Layout (Line.ofSource source) (Item.ofSource source) program.entries.toList := by
  rcases parse_means parsed with ⟨_, _, _, _, _, means⟩
  rcases outcome_of_parse parsed with ⟨last, _, done⟩
  rcases outcome_bind_eq_ok done with ⟨_, _, itemsDone, _⟩
  exact Item.layout (Line.ofSource source) (items_sound itemsDone) means

end Program

end NodeAssembly
