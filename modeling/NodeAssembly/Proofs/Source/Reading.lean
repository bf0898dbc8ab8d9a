import NodeAssembly.Proofs.Source.Rendering

/-! Lines that were written down are read back as the statements they stand
for. The lines of a branch come with the sign of the branch in front, and the
lines of branches inside it with one more sign behind that, so the first sign
of a line tells the outermost test it belongs to. -/

namespace NodeAssembly

open NodeAssembly.Text

mutual

/-- The statement says what the instruction does, wherever it was found. -/
inductive Statement.Reads : Statement → Instruction → Prop
  | plain (line : Line) {instruction : Instruction} (noTest : instruction.isTest = false) :
      Statement.Reads (.instruction line instruction.tokens .nil) instruction
  | test (line : Line) (kind : TestKind) (left right : Value) {positive negative : Block}
      {branches : Branches} (reads : Branches.Reads branches positive negative) :
      Statement.Reads (.instruction line
        (Instruction.test kind left right positive negative).tokens branches)
        (.test kind left right positive negative)

inductive Branches.Reads : Branches → Block → Block → Prop
  | nil : Branches.Reads .nil .nil .nil
  | positive {statement : Statement} {head : Instruction} {rest : Branches} {tail negative : Block}
      (reads : Statement.Reads statement head) (others : Branches.Reads rest tail negative) :
      Branches.Reads (.cons .positive statement rest) (.cons head tail) negative
  | negative {statement : Statement} {head : Instruction} {rest : Branches} {positive tail : Block}
      (reads : Statement.Reads statement head) (others : Branches.Reads rest positive tail) :
      Branches.Reads (.cons .negative statement rest) positive (.cons head tail)

end

/-- The statements of a block, one for each instruction. -/
abbrev Block.ReadAs (block : Block) (statements : List Statement) : Prop :=
  List.Forall₂ Statement.Reads statements block.toList

namespace Branches

theorem reads_prepend_positive {statements : List Statement} {rest : Branches}
    {block negative : Block} (reads : block.ReadAs statements)
    (others : rest.Reads .nil negative) :
    (prepend .positive statements rest).Reads block negative := by
  induction statements generalizing block with
  | nil =>
      cases block with
      | nil => exact others
      | cons head tail => cases reads
  | cons statement further induction =>
      cases block with
      | nil => cases reads
      | cons head tail =>
          cases reads with
          | cons here later => exact .positive here (induction later)

theorem reads_prepend_negative {statements : List Statement} {rest : Branches}
    {block positive : Block} (reads : block.ReadAs statements)
    (others : rest.Reads positive .nil) :
    (prepend .negative statements rest).Reads positive block := by
  induction statements generalizing block with
  | nil =>
      cases block with
      | nil => exact others
      | cons head tail => cases reads
  | cons statement further induction =>
      cases block with
      | nil => cases reads
      | cons head tail =>
          cases reads with
          | cons here later => exact .negative here (induction later)

/-- The branches of a test, of which those with a given sign are `own`. -/
def ReadsAs (branches : Branches) (sign : Sign) (own other : Block) : Prop :=
  match sign with
  | .positive => branches.Reads own other
  | .negative => branches.Reads other own

theorem ReadsAs.opposite {branches : Branches} {sign : Sign} {own other : Block}
    (reads : branches.ReadsAs sign.opposite other own) : branches.ReadsAs sign own other := by
  cases sign <;> exact reads

theorem reads_of_readsAs {branches : Branches} {lead : Sign} {positive negative : Block}
    (reads : branches.ReadsAs lead (lead.choose positive negative)
      (lead.opposite.choose positive negative)) : branches.Reads positive negative := by
  cases lead <;> exact reads

theorem reads_prepend {sign : Sign} {first second : List Statement} {own other : Block}
    (reads : own.ReadAs first) (readsOther : other.ReadAs second) :
    (prepend sign first (prepend sign.opposite second .nil)).ReadsAs sign own other := by
  cases sign with
  | positive => exact reads_prepend_positive reads (reads_prepend_negative readsOther .nil)
  | negative => exact reads_prepend_negative reads (reads_prepend_positive readsOther .nil)

end Branches

/-! ## Signed lines -/

namespace Line

theorem sign?_of_mark {line : Line} {sign : Sign} {text : List Char}
    (marked : line.text = sign.char :: ' ' :: text) : line.sign? = some sign := by
  rw [sign?, marked]
  cases sign <;> rfl

theorem text_unsigned {line : Line} {sign : Sign} {text : List Char}
    (marked : line.text = sign.char :: ' ' :: text) (tidy : Tidy text) :
    line.unsigned.text = text := by
  unfold unsigned
  simp only [marked, List.tail_cons, tidy.trimStart_spaced]

theorem sign?_of_marks {lines : List Line} {sign : Sign} {texts : List (List Char)}
    (marked : lines.map Line.text = sign.mark texts) : ∀ line ∈ lines, line.sign? = some sign := by
  intro line member
  have inTexts : line.text ∈ sign.mark texts := by
    rw [← marked]
    exact List.mem_map_of_mem member
  rcases List.mem_map.mp inTexts with ⟨text, _, equal⟩
  exact sign?_of_mark equal.symm

theorem text_unsigned_of_marks {lines : List Line} {sign : Sign} {texts : List (List Char)}
    (marked : lines.map Line.text = sign.mark texts) (tidy : ∀ text ∈ texts, Tidy text) :
    (lines.map Line.unsigned).map Line.text = texts := by
  induction lines generalizing texts with
  | nil =>
      cases texts with
      | nil => rfl
      | cons text further => cases marked
  | cons line rest induction =>
      cases texts with
      | nil => cases marked
      | cons text further =>
          simp only [Sign.mark, List.map_cons, List.cons.injEq] at marked
          have others := induction marked.2 fun text member =>
            tidy text (List.mem_cons_of_mem _ member)
          rw [List.map_cons, List.map_cons, others,
            text_unsigned marked.1 (tidy text List.mem_cons_self)]

/-- No line at the start has a sign. -/
def Unmarked (lines : List Line) : Prop :=
  ∀ line ∈ lines.head?, line.sign? = none

end Line

namespace Runs

theorem takeWhile_signed {sign : Sign} {signed rest : List Line}
    (marked : ∀ line ∈ signed, line.sign? = some sign)
    (ends : ∀ line ∈ rest.head?, line.sign? ≠ some sign) :
    (signed ++ rest).takeWhile (fun line => line.sign? == some sign) = signed := by
  rw [List.takeWhile_append_of_pos fun line member => beq_iff_eq.mpr (marked line member)]
  cases rest with
  | nil => simp
  | cons head tail =>
      have other := ends head rfl
      simp [other]

theorem opposite_ne (sign : Sign) : some sign.opposite ≠ some sign := by
  cases sign <;> decide

/-- A run of one sign with a run of the other behind it. -/
theorem ofLines_append {sign : Sign} {head : Line} {tail second rest : List Line}
    (marked : ∀ line ∈ head :: tail, line.sign? = some sign)
    (markedToo : ∀ line ∈ second, line.sign? = some sign.opposite)
    (ends : Line.Unmarked rest) :
    ofLines (head :: tail ++ (second ++ rest)) = ⟨sign, head :: tail, second⟩ := by
  have first : (head :: tail ++ (second ++ rest)).takeWhile
      (fun line => line.sign? == some sign) = head :: tail := by
    apply takeWhile_signed marked
    intro line member
    cases second with
    | nil =>
        rw [ends line member]
        nofun
    | cons next further =>
        cases member
        rw [markedToo _ List.mem_cons_self]
        exact opposite_ne sign
  have other : (second ++ rest).takeWhile (fun line => line.sign? == some sign.opposite) =
      second := by
    apply takeWhile_signed markedToo
    intro line member
    rw [ends line member]
    nofun
  have starts : (head :: tail ++ (second ++ rest)).head?.bind Line.sign? = some sign :=
    marked head List.mem_cons_self
  unfold ofLines
  simp only [starts, first, List.drop_left, other]

theorem ofLines_unmarked {rest : List Line} (ends : Line.Unmarked rest) :
    ofLines rest = .empty := by
  have starts : rest.head?.bind Line.sign? = none := by
    cases rest with
    | nil => rfl
    | cons head tail => exact ends head rfl
  unfold ofLines
  simp only [starts]

/-- The statements of the runs. -/
def blocks (runs : Runs) : Branches :=
  .prepend runs.sign (gather (runs.first.map Line.unsigned))
    (.prepend runs.sign.opposite (gather (runs.second.map Line.unsigned)) .nil)

/-- The runs below a test are its two branches, whether or not they are empty. -/
theorem blocks_ofLines {sign : Sign} {first second rest : List Line} {own other : Block}
    (marked : ∀ line ∈ first, line.sign? = some sign)
    (markedToo : ∀ line ∈ second, line.sign? = some sign.opposite)
    (ends : Line.Unmarked rest)
    (reads : own.ReadAs (gather (first.map Line.unsigned)))
    (readsOther : other.ReadAs (gather (second.map Line.unsigned))) :
    (ofLines (first ++ (second ++ rest))).blocks.ReadsAs sign own other ∧
      (ofLines (first ++ (second ++ rest))).length = first.length + second.length := by
  cases first with
  | cons head tail =>
      rw [ofLines_append marked markedToo ends]
      exact ⟨Branches.reads_prepend reads readsOther, rfl⟩
  | nil =>
      cases second with
      | cons head tail =>
          have nothing : ∀ line ∈ ([] : List Line), line.sign? = some sign.opposite.opposite := nofun
          have runs := ofLines_append markedToo nothing ends
          rw [List.nil_append] at runs
          rw [List.nil_append, runs]
          refine ⟨Branches.ReadsAs.opposite (Branches.reads_prepend readsOther reads), ?_⟩
          exact Nat.add_comm _ _
      | nil =>
          rw [List.nil_append, List.nil_append, ofLines_unmarked ends]
          refine ⟨?_, rfl⟩
          cases sign with
          | positive => exact Branches.reads_prepend reads readsOther
          | negative =>
              exact Branches.ReadsAs.opposite (Branches.reads_prepend readsOther reads)

end Runs

/-! ## Statements -/

theorem gather_cons {line : Line} {rest : List Line} (filled : line.text ≠ [])
    (unsigned : line.sign? = none) :
    gather (line :: rest) = (Statement.ofLine line rest).1 ::
      gather (rest.drop (Statement.ofLine line rest).2) := by
  have notEmpty : line.text.isEmpty = false := by
    cases text : line.text with
    | nil => exact absurd text filled
    | cons head tail => rfl
  rw [gather]
  simp only [notEmpty, unsigned, Option.isSome_none, Bool.false_eq_true, if_false]
  rfl

theorem sign?_of_letter {line : Line} {head : Char} {tail : List Char}
    (starts : line.text = head :: tail) (letter : isLetter head) : line.sign? = none := by
  rw [Line.sign?, starts]
  change Sign.ofChar? head = none
  unfold Sign.ofChar?
  split
  · exact absurd letter (by decide)
  · exact absurd letter (by decide)
  · rfl

namespace Instruction

theorem header_starts (instruction : Instruction) :
    ∃ head tail, instruction.header.toList = head :: tail ∧ isLetter head := by
  have named := isName_mnemonic instruction.opcode
  rw [header_toList]
  cases chars : instruction.opcode.mnemonic.toList with
  | nil =>
      rw [chars] at named
      cases named
  | cons head tail =>
      rw [chars, isName, Bool.and_eq_true] at named
      cases instruction.operands.map String.toList with
      | nil => exact ⟨head, tail, by simp, named.1⟩
      | cons next rest => exact ⟨head, _, by rw [List.intercalate_cons_cons]; rfl, named.1⟩

/-- A written instruction starts with its header. -/
theorem Written.starts {instruction : Instruction} {texts : List (List Char)}
    (written : instruction.Written texts) : ∃ rest, texts = instruction.header.toList :: rest := by
  cases written with
  | plain noTest => exact ⟨[], by rw [text_eq_header noTest]⟩
  | test => exact ⟨_, rfl⟩

end Instruction

theorem Sign.mark_tidy (sign : Sign) {texts : List (List Char)} (tidy : ∀ text ∈ texts, Tidy text) :
    ∀ text ∈ sign.mark texts, Tidy text := by
  intro text member
  rcases List.mem_map.mp member with ⟨inner, inTexts, rfl⟩
  have solid : Tidy [sign.char] := by
    cases sign <;> exact .of_char (by decide)
  exact solid.spaced (tidy inner inTexts)

section

variable {kinds : Nat → PinKind} {labels : List String}

mutual

theorem Instruction.Written.tidy (named : ∀ label ∈ labels, isName label.toList)
    (instruction : Instruction) (proper : instruction.isProper kinds labels)
    {texts : List (List Char)} (written : instruction.Written texts) :
    ∀ text ∈ texts, Tidy text := by
  have header := (Instruction.legible_header named proper).2
  cases written with
  | plain noTest =>
      intro text member
      rw [List.mem_singleton.mp member, Instruction.text_eq_header noTest]
      exact header
  | @test kind left right lead positive negative positiveLines negativeLines writesPositive
      writesNegative =>
      simp only [Instruction.isProper, Bool.and_eq_true] at proper
      have branch : ∀ sign : Sign, ∀ text ∈ sign.choose positiveLines negativeLines, Tidy text := by
        intro sign
        cases sign with
        | positive => exact writesPositive.tidy named _ proper.1.2
        | negative => exact writesNegative.tidy named _ proper.2
      intro text member
      rcases List.mem_cons.mp member with rfl | inBranches
      · exact header
      · rcases List.mem_append.mp inBranches with inLead | inOther
        · exact Sign.mark_tidy _ (branch lead) text inLead
        · exact Sign.mark_tidy _ (branch lead.opposite) text inOther

theorem Block.Written.tidy (named : ∀ label ∈ labels, isName label.toList) (block : Block)
    (proper : block.isProper kinds labels) {texts : List (List Char)}
    (written : block.Written texts) : ∀ text ∈ texts, Tidy text := by
  cases written with
  | nil => nofun
  | cons writesHead writesTail =>
      simp only [Block.isProper, Bool.and_eq_true] at proper
      have head := writesHead.tidy named _ proper.1
      have tail := writesTail.tidy named _ proper.2
      intro text member
      rcases List.mem_append.mp member with inHead | inTail
      · exact head text inHead
      · exact tail text inTail

end

theorem isTest_tokens (instruction : Instruction) :
    NodeAssembly.isTest instruction.tokens = instruction.isTest := by
  simp only [Instruction.tokens, NodeAssembly.isTest, OpCode.ofMnemonic?_mnemonic]
  cases instruction <;> rfl

/-- A line whose instruction takes no other lines. -/
theorem ofLine_plain {line : Line} {following : List Line} {instruction : Instruction}
    (noTest : instruction.isTest = false)
    (scanned : Token.scan line.text = .ok instruction.tokens) :
    Statement.ofLine line following = (.instruction line instruction.tokens .nil, 0) := by
  have noBlocks : NodeAssembly.isTest instruction.tokens = false :=
    (isTest_tokens instruction).trans noTest
  have runs : ownedRuns (.ok instruction.tokens) following = .empty := by
    unfold ownedRuns ownsBlocks
    simp [noBlocks]
  unfold Statement.ofLine
  simp only [scanned, runs, Statement.ofTokens, noBlocks, Bool.false_and, Bool.false_eq_true,
    if_false]
  simp [Runs.empty, gather, Branches.prepend, Runs.length]

theorem isBranch_token (value : Value) : value.token.isBranch = false := by
  cases value <;> rfl

/-- A test takes the runs below it. -/
theorem ofLine_test {line : Line} {following : List Line} {kind : TestKind} {left right : Value}
    {positive negative : Block}
    (scanned : Token.scan line.text =
      .ok (Instruction.test kind left right positive negative).tokens) :
    Statement.ofLine line following =
      (.instruction line (Instruction.test kind left right positive negative).tokens
        (Runs.ofLines following).blocks, (Runs.ofLines following).length) := by
  have isTest : NodeAssembly.isTest (Instruction.test kind left right positive negative).tokens :=
    isTest_tokens _
  have noBranch :
      (Instruction.test kind left right positive negative).tokens.any Token.isBranch = false := by
    simp only [Instruction.tokens, Instruction.operandTokens, List.any_cons, List.any_nil,
      isBranch_token]
    rfl
  have runs : ownedRuns (.ok (Instruction.test kind left right positive negative).tokens)
      following = .ofLines following := by
    unfold ownedRuns ownsBlocks
    simp [isTest, noBranch]
  unfold Statement.ofLine
  simp only [scanned, runs, Statement.ofTokens, noBranch, Bool.and_false, Bool.false_eq_true,
    if_false]
  rfl

mutual

/-- An instruction is read back from its first line and the lines below. What
follows it has no sign. -/
theorem Instruction.Written.reads (named : ∀ label ∈ labels, isName label.toList)
    (instruction : Instruction) (proper : instruction.isProper kinds labels)
    {texts : List (List Char)} (written : instruction.Written texts) {line : Line}
    {own rest : List Line} (same : (line :: own).map Line.text = texts)
    (ends : Line.Unmarked rest) :
    ((Statement.ofLine line (own ++ rest)).1).Reads instruction ∧
      (Statement.ofLine line (own ++ rest)).2 = own.length := by
  have scanned := (Instruction.legible_header named proper).1
  cases written with
  | plain noTest =>
      rw [List.map_cons, List.cons.injEq, List.map_eq_nil_iff, Instruction.text_eq_header noTest]
        at same
      rw [← same.1] at scanned
      rw [ofLine_plain noTest scanned, same.2]
      exact ⟨.plain line noTest, rfl⟩
  | @test kind left right lead positive negative positiveLines negativeLines writesPositive
      writesNegative =>
      simp only [Instruction.isProper, Bool.and_eq_true] at proper
      rw [List.map_cons, List.cons.injEq] at same
      rcases List.map_eq_append_iff.mp same.2 with ⟨first, second, rfl, isFirst, isSecond⟩
      have branch : ∀ (sign : Sign) {lines : List Line},
          lines.map Line.text = sign.mark (sign.choose positiveLines negativeLines) →
          (sign.choose positive negative).ReadAs (gather (lines.map Line.unsigned)) := by
        intro sign lines marked
        cases sign with
        | positive =>
            exact writesPositive.reads named _ proper.1.2
              (Line.text_unsigned_of_marks marked (writesPositive.tidy named _ proper.1.2))
        | negative =>
            exact writesNegative.reads named _ proper.2
              (Line.text_unsigned_of_marks marked (writesNegative.tidy named _ proper.2))
      rcases Runs.blocks_ofLines (Line.sign?_of_marks isFirst) (Line.sign?_of_marks isSecond) ends
        (branch lead isFirst) (branch lead.opposite isSecond) with ⟨blocks, length⟩
      rw [← same.1] at scanned
      rw [List.append_assoc, ofLine_test scanned, List.length_append]
      exact ⟨.test line kind left right (Branches.reads_of_readsAs blocks), length⟩

theorem Block.Written.reads (named : ∀ label ∈ labels, isName label.toList) (block : Block)
    (proper : block.isProper kinds labels) {texts : List (List Char)}
    (written : block.Written texts) {lines : List Line} (same : lines.map Line.text = texts) :
    block.ReadAs (gather lines) := by
  cases written with
  | nil =>
      rw [List.map_eq_nil_iff.mp same, gather]
      exact .nil
  | @cons first others _ _ writesHead writesTail =>
      simp only [Block.isProper, Bool.and_eq_true] at proper
      rcases List.map_eq_append_iff.mp same with ⟨start, rest, rfl, isStart, isRest⟩
      have unmarked : Line.Unmarked rest := by
        intro line member
        cases writesTail with
        | nil =>
            rw [List.map_eq_nil_iff.mp isRest] at member
            cases member
        | @cons next _ _ _ writesNext _ =>
            rcases writesNext.starts with ⟨others, rfl⟩
            cases rest with
            | nil => cases member
            | cons follower further =>
                cases member
                rw [List.map_cons, List.cons_append, List.cons.injEq] at isRest
                rcases next.header_starts with ⟨head, tail, starts, letter⟩
                exact sign?_of_letter (isRest.1.trans starts) letter
      have tail := writesTail.reads named _ proper.2 isRest
      cases start with
      | nil =>
          rcases writesHead.starts with ⟨branches, rfl⟩
          cases isStart
      | cons line own =>
          rcases writesHead.reads named _ proper.1 isStart unmarked with ⟨reads, count⟩
          have starts : line.text = first.header.toList := by
            rcases writesHead.starts with ⟨branches, rfl⟩
            exact (List.cons.inj isStart).1
          rcases first.header_starts with ⟨letter, further, header, isLetter⟩
          rw [header] at starts
          have filled : line.text ≠ [] := by
            rw [starts]
            exact List.cons_ne_nil _ _
          rw [List.cons_append, gather_cons filled (sign?_of_letter starts isLetter), count,
            List.drop_left]
          exact .cons reads tail

end

end

end NodeAssembly
