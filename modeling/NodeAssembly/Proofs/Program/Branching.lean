import NodeAssembly.Proofs.Program.Layout
import NodeAssembly.Proofs.Program.Places
import NodeAssembly.Proofs.Source.Branching

/-! The branches of a test are the same instructions whether they stand behind it
on its line or on signed lines below it. The exception is a branch of nothing but
commas, which is left out behind the test and refused below it. -/

namespace NodeAssembly

open NodeAssembly.Text NodeAssembly.Assembly

mutual

/-- Whether the statement starts with a word, and so do those in its branches. -/
def Statement.isWorded : Statement → Bool
  | .instruction _ (.word word :: operands) branches =>
    !isTest (.word word :: operands) || branches.isWorded
  | _ => false

def Branches.isWorded : Branches → Bool
  | .nil => true
  | .cons _ statement rest => statement.isWorded && rest.isWorded

end

theorem Branches.isWorded_prepend (sign : Sign) (statements : List Statement) (rest : Branches) :
    (prepend sign statements rest).isWorded = (statements.all Statement.isWorded && rest.isWorded) := by
  induction statements with
  | nil => rfl
  | cons head tail induction =>
      change (Branches.cons sign head (prepend sign tail rest)).isWorded = _
      rw [Branches.isWorded, induction, List.all_cons, Bool.and_assoc]

theorem mnemonic_ok {line : Line} {tokens operands : List Token} {opcode : OpCode}
    {before after : Assembler}
    (done : outcome (mnemonic line tokens) before = (.ok (opcode, operands), after)) :
    ∃ word, tokens = .word word :: operands ∧ OpCode.ofMnemonic? word = some opcode ∧
      after = before := by
  unfold mnemonic at done
  split at done
  next word others =>
    split at done
    next found named =>
      cases done
      exact ⟨word, rfl, named, rfl⟩
    next => cases done
  next => cases done
  next => cases done

mutual

/-- Only what starts with a word becomes an instruction. -/
theorem Statement.isWorded_of_ok (statement : Statement) {before after : Assembler}
    {instruction : Instruction}
    (done : outcome statement.assemble before = (.ok instruction, after)) :
    statement.isWorded = true := by
  match statement with
  | .illegible _ _ => cases done
  | .stray _ => cases done
  | .instruction line tokens branches =>
      rw [Statement.assemble] at done
      rcases outcome_bind_eq_ok done with ⟨⟨opcode, operands⟩, between, first, rest⟩
      rcases mnemonic_ok first with ⟨word, rfl, named, rfl⟩
      rw [Statement.isWorded]
      cases opcode with
      | test kind =>
          simp only [isTest, named, Bool.not_true, Bool.false_or]
          split at rest
          next =>
            rcases outcome_bind_eq_ok rest with ⟨_, _, _, others⟩
            rcases outcome_bind_eq_ok others with ⟨_, _, _, below⟩
            rcases outcome_bind_eq_ok below with ⟨_, _, assembled, _⟩
            exact Branches.isWorded_of_ok branches assembled
          next same =>
            cases same
            cases rest
      | _ => simp only [isTest, named, Bool.not_false, Bool.true_or]

theorem Branches.isWorded_of_ok (branches : Branches) {before after : Assembler}
    {blocks : Block × Block} (done : outcome branches.assemble before = (.ok blocks, after)) :
    branches.isWorded = true := by
  match branches with
  | .nil => rfl
  | .cons sign statement rest =>
      rw [Branches.assemble] at done
      rcases outcome_bind_eq_ok done with ⟨instruction, between, here, further⟩
      rcases outcome_bind_eq_ok further with ⟨others, _, below, _⟩
      rw [Branches.isWorded, Statement.isWorded_of_ok statement (outcome_within_ok.mp here),
        Branches.isWorded_of_ok rest below]
      rfl

end

/-! ## Lines -/

/-- What the line has after its signs starts with a word, unless there is nothing. -/
def Line.HasWord (line : Line) : Prop :=
  line.code = [] ∨ ∃ word operands, Token.scan line.code = .ok (.word word :: operands)

theorem Line.hasWord_of_scan {line : Line} {word : String} {operands : List Token}
    (scanned : Token.scan line.text = .ok (.word word :: operands)) : line.HasWord := by
  refine .inr ⟨word, operands, ?_⟩
  rwa [Line.code_of_none (Line.sign?_of_word scanned)]

theorem ownedRuns_empty {tokens : List Token} (noBlocks : ownsBlocks (.ok tokens) = false)
    (following : List Line) : ownedRuns (.ok tokens) following = .empty := by
  rw [ownedRuns, noBlocks]
  rfl

/-- A statement with words comes of a line with a word and of blocks with words. -/
theorem Statement.Taken.worded {line : Line} {following : List Line} {statement : Statement}
    {count : Nat} (taken : Taken line following (statement, count))
    (worded : statement.isWorded = true) :
    line.HasWord ∧ (ownedRuns (Token.scan line.text) following).blocks.isWorded = true := by
  cases taken with
  | illegible => cases worded
  | @plain tokens scanned noTest =>
      have noBlocks : ownsBlocks (.ok tokens) = false := by
        simp only [ownsBlocks, noTest, Bool.false_and]
      rw [scanned, ownedRuns_empty noBlocks, Runs.blocks_empty]
      rw [Statement.isWorded.eq_def] at worded
      split at worded
      next same =>
        cases same
        exact ⟨Line.hasWord_of_scan scanned, rfl⟩
      next => cases worded
  | @inline tokens scanned test inline =>
      have noBlocks : ownsBlocks (.ok tokens) = false := by
        simp only [ownsBlocks, test, inline]
        rfl
      rcases word_of_isTest test with ⟨word, operands, rfl⟩
      have hasWord := Line.hasWord_of_scan scanned
      rw [scanned, ownedRuns_empty noBlocks, Runs.blocks_empty]
      exact ⟨hasWord, rfl⟩
  | @test tokens scanned test noInline =>
      rcases word_of_isTest test with ⟨word, operands, rfl⟩
      rw [Statement.isWorded, test, Bool.not_true, Bool.false_or] at worded
      exact ⟨Line.hasWord_of_scan scanned, worded⟩

/-- If all statements of the lines start with words, so do the lines. -/
def Line.WordsShow (lines : List Line) : Prop :=
  (gather lines).all Statement.isWorded = true → ∀ line ∈ lines, line.HasWord

theorem Line.wordsShow (lines : List Line) : WordsShow lines := by
  induction lines using gather.induct with
  | case1 => exact fun _ _ member => absurd member List.not_mem_nil
  | case2 line rest empty induction =>
      intro worded
      rw [gather, if_pos empty] at worded
      refine List.forall_mem_cons.mpr ⟨.inl ?_, induction worded⟩
      rw [Line.code, List.isEmpty_iff.mp empty, peelSigns]
  | case3 line rest filled signed =>
      intro worded
      rw [gather, if_neg filled, if_pos signed, List.all_cons] at worded
      cases worded
  | case4 line rest filled unsigned tokens runs first second induction =>
      intro worded
      rw [gather_cons (by simpa using filled) (by simpa using unsigned), List.all_cons,
        Bool.and_eq_true] at worded
      have below := induction worded.2
      rcases (Statement.taken_ofLine line rest).worded worded.1 with ⟨here, blocks⟩
      rw [Runs.blocks, Branches.isWorded_prepend, Branches.isWorded_prepend, Bool.and_eq_true,
        Bool.and_eq_true] at blocks
      refine List.forall_mem_cons.mpr ⟨here, fun other member => ?_⟩
      rw [← List.take_append_drop runs.length rest, List.mem_append] at member
      rcases member with owned | further
      · rw [take_ownedRuns, List.mem_append] at owned
        rcases owned with inFirst | inSecond
        · have code := Line.code_of_sign (sign?_ownedRuns_first tokens rest other inFirst)
          have hasWord := first blocks.1 _ (List.mem_map_of_mem inFirst)
          rwa [HasWord, ← code] at hasWord
        · have code := Line.code_of_sign (sign?_ownedRuns_second tokens rest other inSecond)
          have hasWord := second blocks.2.1 _ (List.mem_map_of_mem inSecond)
          rwa [HasWord, ← code] at hasWord
      · exact below other further

/-! ## Texts -/

/-- A sign at the start of a text without sign tokens is that of a number. -/
theorem number_of_sign {char : Char} {rest : List Char} (fragment : isFragment (char :: rest))
    {sign : Sign} (signed : Sign.ofChar? char = some sign) :
    ∃ next tail, rest = next :: tail ∧ (isDigit next = true ∨ next = '.') := by
  have tokens := Token.scan_eq_ok.mp (Fragment.scan_eq fragment)
  have noSigns := Fragment.sign?_eq_none fragment
  have noSeparator : Lexeme.isSeparator char = false := by
    unfold Sign.ofChar? at signed
    split at signed <;> first | rfl | cases signed
  rw [Lexeme.scan, noSeparator] at tokens
  -- No token behind the sign is the sign itself.
  have first : ∀ token, (Lexeme.found char rest).token = some token → token.sign? = none := by
    intro token isToken
    cases isTokens : Token.ofText (char :: rest) with
    | nil =>
        rw [isTokens] at tokens
        cases tokens
    | cons head tail =>
        rw [isTokens] at tokens noSigns
        have same : (Lexeme.found char rest).token = some head := (List.cons.inj tokens).1
        rw [isToken] at same
        cases same
        exact noSigns token List.mem_cons_self
  unfold Sign.ofChar? at signed
  split at signed
  · cases first .positive rfl
  · cases rest with
    | nil => cases first .negative rfl
    | cons next tail =>
        refine ⟨next, tail, rfl, ?_⟩
        by_cases isPoint : next = '.'
        · exact .inr isPoint
        · refine .inl ?_
          cases digit : isDigit next with
          | true => rfl
          | false =>
              have isSign : (Lexeme.found '-' (next :: tail)).token = some .negative := by
                have shape : Lexeme.shapeAt '-' (next :: tail) = (.negative, 0) := by
                  change Lexeme.minus (next :: tail) = _
                  rw [Lexeme.minus_of_other isPoint, digit]
                  rfl
                rw [Lexeme.found, shape]
                rfl
              cases first .negative isSign
  · cases signed

/-- Behind the sign of a number there is no word. -/
theorem Line.not_hasWord_of_sign {line : Line} (fragment : isFragment line.text) {sign : Sign}
    (signed : line.sign? = some sign) : ¬line.HasWord := by
  cases text : line.text with
  | nil =>
      rw [sign?, text] at signed
      cases signed
  | cons char rest =>
      have isSign : Sign.ofChar? char = some sign := by
        rw [sign?, text] at signed
        exact signed
      rw [text] at fragment
      rcases number_of_sign fragment isSign with ⟨next, tail, rfl, starts⟩
      have solid : isBlank next = false ∧ Sign.ofChar? next = none ∧
          Lexeme.isSeparator next = false ∧ isLetter next = false := by
        rcases starts with digit | rfl
        · have isWord := Lexeme.isWordChar_of_isDigit digit
          have blank := isSolid_of_isWordChar isWord
          simp only [isSolid, Bool.and_eq_true, Bool.not_eq_true'] at blank
          refine ⟨blank.1.1.1, ?_, Lexeme.isSeparator_of_isWordChar isWord, ?_⟩
          · unfold Sign.ofChar?
            split
            · cases digit
            · cases digit
            · rfl
          · cases letter : isLetter next with
            | false => rfl
            | true =>
                rw [Lexeme.isDigit_of_isLetter letter] at digit
                cases digit
        · decide
      rcases solid with ⟨noBlank, noSign, noSeparator, noLetter⟩
      have unsigned : line.unsigned.text = next :: tail := by
        rw [Line.unsigned, text]
        exact trimStart_of_starts (by rintro _ ⟨⟩; exact noBlank)
      have plain : line.unsigned.sign? = none := by
        rw [sign?, unsigned]
        exact noSign
      rw [HasWord, Line.code_of_sign signed, Line.code_of_none plain, unsigned]
      rintro (empty | ⟨word, operands, scanned⟩)
      · cases empty
      · rcases Token.scan_word scanned with ⟨first, others, same, letter, _⟩
        rw [List.dropWhile_cons_of_neg (by simp [noSeparator])] at same
        cases same
        rw [noLetter] at letter
        cases letter

/-- A text with a word on its line starts with it, unless it is empty. -/
theorem Line.HasWord.worded {line : Line} (hasWord : line.HasWord) (fragment : isFragment line.text) :
    (Token.ofText line.text = [] → line.text = []) ∧ Token.isWorded (Token.ofText line.text) := by
  cases signed : line.sign? with
  | none =>
      rw [HasWord, Line.code_of_none signed] at hasWord
      rcases hasWord with empty | ⟨word, operands, scanned⟩
      · rw [empty, Token.ofText_nil]
        exact ⟨fun _ => rfl, rfl⟩
      · rw [Token.ofText, scanned]
        exact ⟨fun empty => absurd empty (List.cons_ne_nil _ _), rfl⟩
  | some sign => exact absurd hasWord (Line.not_hasWord_of_sign fragment signed)

/-! ## Written tests -/

/-- An entry without declarations is assembled from its statement. -/
theorem Assembly.entry_ok {line : Line} {once : Bool} {statement : Statement}
    {before after : Assembler}
    (done : outcome (Assembly.item ⟨line, [], .entry once statement⟩) before = (.ok (), after)) :
    ∃ instruction, after.entries = ⟨instruction, once, line.number⟩ :: before.entries ∧
      ∃ between, outcome statement.assemble before = (.ok instruction, between) := by
  rcases outcome_bind_eq_ok done with ⟨_, _, nothing, rest⟩
  cases nothing
  rcases outcome_bind_eq_ok rest with ⟨instruction, between, assembled, added⟩
  have assembled := outcome_within_ok.mp assembled
  rcases statement.assemble_notesJumps before trivial with ⟨grows, _⟩
  rw [assembled] at grows
  have earlier : between.entries = before.entries := grows.entries_eq
  cases added
  exact ⟨instruction, congrArg (List.cons _) earlier, between, assembled⟩

namespace WrittenTest

variable (test : WrittenTest) (number : Nat) {before after : Assembler}

theorem isTest_of_ok {line : Line} {branches : Branches} {instruction : Instruction}
    (done : outcome (Statement.instruction line test.tokens branches).assemble before =
      (.ok instruction, after)) :
    ∃ left right positive negative, instruction = .test test.kind left right positive negative := by
  rw [Statement.assemble] at done
  rcases outcome_bind_eq_ok done with ⟨⟨opcode, operands⟩, between, first, rest⟩
  rcases mnemonic_ok first with ⟨word, same, named, rfl⟩
  cases same
  rw [test.named] at named
  cases named
  split at rest
  next same =>
    cases (Prod.mk.inj same).1
    rcases outcome_bind_eq_ok rest with ⟨left, _, _, others⟩
    rcases outcome_bind_eq_ok others with ⟨right, _, _, below⟩
    rcases outcome_bind_eq_ok below with ⟨⟨positive, negative⟩, _, _, ends⟩
    cases ends
    exact ⟨left, right, positive, negative, rfl⟩
  next same =>
    cases same
    cases rest

theorem worded_of_lines {texts : List (List Char)} (fragments : ∀ text ∈ texts, isFragment text)
    {lines : List Line} (same : lines.map Line.text = texts.map trim)
    (worded : (gather lines).all Statement.isWorded = true) :
    ∀ text ∈ texts,
      (Token.ofText text = [] → isAllBlank text) ∧ Token.isWorded (Token.ofText text) := by
  intro text member
  have fragment := fragments text member
  have isTrimmed : trim text ∈ lines.map Line.text := same ▸ List.mem_map_of_mem member
  rcases List.mem_map.mp isTrimmed with ⟨line, isLine, isText⟩
  have hasWord := Line.wordsShow lines worded line isLine
  have whole := hasWord.worded (by rw [isText]; exact isFragment_trim fragment)
  rwa [isText, ofText_trim fragment, trim_eq_nil_iff] at whole

/-- Below the test, every text has to start with a word or be blank. -/
theorem worded_of_block
    (done : outcome (Assembly.item (test.blockItem number)) before = (.ok (), after)) :
    test.IsWorded := by
  rcases Assembly.entry_ok done with ⟨instruction, _, between, assembled⟩
  have worded := Statement.isWorded_of_ok _ assembled
  have isTest := test.isTest_tokens []
  rw [List.append_nil] at isTest
  rw [tokens, Statement.isWorded, ← tokens, isTest, Bool.not_true, Bool.false_or, blocks,
    Branches.isWorded_prepend, Branches.isWorded_prepend, Bool.and_eq_true, Bool.and_eq_true] at worded
  intro text member
  rcases List.mem_append.mp member with isFirst | isSecond
  · have same := (Line.numberFrom_mark test.isFirst test.lead (number + 1)).2
    exact worded_of_lines test.isFirst same worded.1 text isFirst
  · have same := (Line.numberFrom_mark test.isSecond test.lead.opposite
      (number + 1 + test.first.length)).2
    exact worded_of_lines test.isSecond same worded.2.1 text isSecond

theorem isWorded_tokens {line : Line} {tokens : List Token} {branches : Branches}
    (worded : (Statement.instruction line tokens branches).isWorded = true) :
    Token.isWorded tokens := by
  cases tokens with
  | nil => rfl
  | cons first rest =>
      cases first with
      | word word => rfl
      | _ => cases worded

theorem isWorded_groups {line : Line} {groups : List (Sign × List Token)}
    (worded : (groups.foldr (Branches.addGroup line) .nil).isWorded = true) :
    ∀ group ∈ groups, Token.isWorded group.2 := by
  induction groups with
  | nil => nofun
  | cons head tail induction =>
      rw [List.foldr_cons, Branches.addGroup] at worded
      split at worded
      next empty =>
        refine List.forall_mem_cons.mpr ⟨?_, induction worded⟩
        rw [List.isEmpty_iff.mp empty]
        rfl
      next =>
        rw [Branches.isWorded, Bool.and_eq_true] at worded
        refine List.forall_mem_cons.mpr ⟨?_, induction worded.2⟩
        exact isWorded_tokens worded.1

/-- Behind the test, every text with tokens has to start with a word. -/
theorem worded_of_inline
    (done : outcome (Assembly.item (test.inlineItem number)) before = (.ok (), after)) :
    ∀ text ∈ test.first ++ test.second, Token.isWorded (Token.ofText text) := by
  rcases Assembly.entry_ok done with ⟨instruction, _, between, assembled⟩
  have worded := Statement.isWorded_of_ok _ assembled
  have isTest := test.isTest_tokens []
  rw [List.append_nil] at isTest
  rw [tokens, Statement.isWorded, ← tokens, isTest, Bool.not_true, Bool.false_or] at worded
  have groups := isWorded_groups worded
  intro text member
  rcases List.mem_append.mp member with isFirst | isSecond
  · exact groups (test.lead, _) (List.mem_append_left _ (List.mem_map_of_mem isFirst))
  · exact groups (test.lead.opposite, _) (List.mem_append_right _ (List.mem_map_of_mem isSecond))

end WrittenTest

/-- Both ways to write the branches of a test come to the same, for the same test in
the same place of a program. The test with its branches below it is accepted exactly
if the one with its branches behind it is, and no text of a branch has commas in it
and nothing else. Then the two leave the same entry, the same registers and pins,
and jumps to the same labels in the same order. -/
theorem inline_iff_block (test : WrittenTest) (number : Nat) {following : List Line}
    (ends : Line.Unmarked following) (before : Assembler) :
    let inline := Item.ofLine (.ofRaw number test.inline) following
    let block := Item.ofLine (.ofRaw number test.header)
      (Line.numberFrom (number + 1) test.marked ++ following)
    inline.2 = 0 ∧ block.2 = test.marked.length ∧
    ((∃ after, outcome (Assembly.item block.1) before = (.ok (), after)) ↔
      (∃ after, outcome (Assembly.item inline.1) before = (.ok (), after)) ∧
        ∀ text ∈ test.first ++ test.second, Token.scan text = .ok [] → isAllBlank text) ∧
    ∀ afterInline afterBlock,
      outcome (Assembly.item inline.1) before = (.ok (), afterInline) →
      outcome (Assembly.item block.1) before = (.ok (), afterBlock) →
      (∃ left right positive negative, afterBlock.entries =
        ⟨.test test.kind left right positive negative, false, number⟩ :: before.entries) ∧
      afterInline.entries = afterBlock.entries ∧ afterInline.table = afterBlock.table ∧
      afterInline.file = afterBlock.file ∧ afterInline.registry = afterBlock.registry ∧
      afterInline.board = afterBlock.board ∧
      afterInline.jumps.map (·.label) = afterBlock.jumps.map (·.label) := by
  intro inline block
  have isInline : inline = (test.inlineItem number, 0) := test.ofLine_inline number ends
  have isBlock : block = (test.blockItem number, test.marked.length) := test.ofLine_block number ends
  rw [isInline, isBlock]
  have reflects (worded : test.IsWorded) := parallel_item (fun _ _ => id)
    (test.mirrors_items worded number) rfl before before (.refl (fun _ => trivial) before)
  refine ⟨rfl, rfl, ⟨?_, ?_⟩, ?_⟩
  · rintro ⟨after, done⟩
    have worded := test.worded_of_block number done
    have both := reflects worded
    rw [done] at both
    refine ⟨?_, fun text member scanned => (worded text member).1 (by rw [Token.ofText, scanned])⟩
    generalize outcome (Assembly.item (test.inlineItem number)) before = whole at both ⊢
    cases both with
    | ok _ mirrors => exact ⟨_, rfl⟩
  · rintro ⟨⟨after, done⟩, blank⟩
    have worded : test.IsWorded := by
      intro text member
      refine ⟨fun empty => blank text member ?_, test.worded_of_inline number done text member⟩
      rw [Fragment.scan_eq (test.isFragment_of_mem member), empty]
    have both := reflects worded
    rw [done] at both
    generalize outcome (Assembly.item (test.blockItem number)) before = whole at both ⊢
    cases both with
    | ok _ mirrors => exact ⟨_, rfl⟩
  · intro afterInline afterBlock doneInline doneBlock
    have both := reflects (test.worded_of_block number doneBlock)
    rcases Assembly.entry_ok doneBlock with ⟨instruction, entries, _, assembled⟩
    rcases test.isTest_of_ok assembled with ⟨left, right, positive, negative, rfl⟩
    rw [doneInline, doneBlock] at both
    cases both with
    | ok _ mirrors =>
        refine ⟨⟨left, right, positive, negative, entries⟩, mirrors.entries, mirrors.table,
          mirrors.file, mirrors.registry, mirrors.board, mirrors.jumps_label⟩

/-- A test with a test inside of it, an empty text, and the negative branch first. -/
theorem inline_iff_block_nested :
    let test : WrittenTest := {
      mnemonic := "teq"
      kind := .equal
      left := "acc".toList
      right := "\"#\"".toList
      lead := .negative
      first := ["tgt 1, 2".toList, "".toList, "jmp next".toList]
      second := ["mov -5 $a".toList]
      named := by decide +kernel
      isLeft := by decide +kernel
      isRight := by decide +kernel
      isFirst := by decide +kernel
      isSecond := by decide +kernel }
    let before := Assembler.start .empty (Board.ofInput [] 0) .default none
    test.inline = "teq acc \"#\" - tgt 1, 2 -  - jmp next + mov -5 $a".toList ∧
      (∃ after, outcome (Assembly.item (Item.ofLine (.ofRaw 1 test.inline) []).1) before =
        (.ok (), after)) ∧
      ∃ after, outcome (Assembly.item (Item.ofLine (.ofRaw 1 test.header)
        (Line.numberFrom 2 test.marked)).1) before = (.ok (), after) := by
  intro test before
  have unmarked : Line.Unmarked [] := nofun
  have whole := inline_iff_block test 1 unmarked before
  rw [List.append_nil] at whole
  have accepted : (outcome (Assembly.item (Item.ofLine (.ofRaw 1 test.inline) []).1) before).1 =
      .ok () := by
    decide +kernel
  have inline : ∃ after, outcome (Assembly.item (Item.ofLine (.ofRaw 1 test.inline) []).1) before =
      (.ok (), after) := ⟨_, Prod.ext accepted rfl⟩
  have blank : ∀ text ∈ test.first ++ test.second, Token.scan text = .ok [] → isAllBlank text := by
    decide +kernel
  exact ⟨by decide +kernel, inline, whole.2.2.1.mpr ⟨inline, blank⟩⟩

/-- A comma alone behind a sign is nothing on the line of a test, and an error on a
line of its own. -/
theorem comma_below_test_refused :
    let before := Assembler.start .empty (Board.ofInput [] 0) .default none
    isFragment ",".toList = true ∧
      (outcome (Assembly.item (Item.ofLine (.ofRaw 1 "teq 1 1 + ,".toList) []).1) before).1 =
        .ok () ∧
      (outcome (Assembly.item (Item.ofLine (.ofRaw 1 "teq 1 1".toList)
        [.ofRaw 2 "+ ,".toList]).1) before).1 =
          .error ⟨2, "+ ,", .unknownInstruction "" none, [.instruction, .branch]⟩ := by
  decide +kernel

end NodeAssembly
