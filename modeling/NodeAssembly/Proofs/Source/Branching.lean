import NodeAssembly.Proofs.Source.Comments
import NodeAssembly.Proofs.Source.Depth
import NodeAssembly.Proofs.Source.Listing
import NodeAssembly.Proofs.Source.Places

/-! The two ways to write the branches of a test: behind it on its own line, and on
signed lines below it. Tokens are split at the signs in one way and lines in the
other. -/

namespace NodeAssembly

open NodeAssembly.Text

/-- The tokens of a text that can be scanned. -/
def Token.ofText (text : List Char) : List Token :=
  match Token.scan text with
  | .ok tokens => tokens
  | .error _ => []

theorem Token.ofText_nil : Token.ofText [] = [] := by
  rw [Token.ofText, Token.scan, Lexeme.scan]
  rfl

/-- Whether the text may stand in a branch: it can be scanned, and has no signs that
would open another branch. -/
def isFragment (text : List Char) : Bool :=
  match Token.scan text with
  | .ok tokens => !tokens.any Token.isBranch
  | .error _ => false

/-- The token of a sign. -/
def Sign.token : Sign → Token
  | .positive => .positive
  | .negative => .negative

@[simp] theorem Sign.sign?_token (sign : Sign) : sign.token.sign? = some sign := by
  cases sign <;> rfl

@[simp] theorem Sign.isBranch_token (sign : Sign) : sign.token.isBranch = true := by
  cases sign <;> rfl

namespace Fragment

variable {text : List Char}

theorem scan_eq (fragment : isFragment text) : Token.scan text = .ok (Token.ofText text) := by
  unfold isFragment at fragment
  unfold Token.ofText
  split at fragment
  · assumption
  · cases fragment

theorem unsigned (fragment : isFragment text) : (Token.ofText text).any Token.isBranch = false := by
  unfold isFragment at fragment
  unfold Token.ofText
  split at fragment
  · simpa using fragment
  · cases fragment

theorem sign?_eq_none (fragment : isFragment text) : ∀ token ∈ Token.ofText text, token.sign? = none := by
  intro token member
  have noBranch := List.any_eq_false.mp (unsigned fragment) token member
  cases token with
  | positive => exact absurd rfl noBranch
  | negative => exact absurd rfl noBranch
  | _ => rfl

/-- A text with a sign in front. -/
theorem scan_mark (fragment : isFragment text) (sign : Sign) :
    Token.scan (sign.char :: ' ' :: text) = .ok (sign.token :: Token.ofText text) := by
  have alone : Token.scan [sign.char] = .ok [sign.token] := by
    cases sign <;> decide +kernel
  exact Token.scan_join alone rfl (scan_eq fragment)

end Fragment

/-! ## Lines -/

/-- A text that can be scanned has no comment. -/
theorem Token.stripComment_of_scan {text : List Char} {tokens : List Token}
    (scanned : Token.scan text = .ok tokens) : stripComment text = text :=
  Quotation.stripComment_of_quiet (Token.balanced_of_scan scanned).quiet

theorem Line.text_ofRaw {raw : List Char} {tokens : List Token}
    (scanned : Token.scan raw = .ok tokens) (number : Nat) : (Line.ofRaw number raw).text = trim raw := by
  rw [Line.ofRaw, Token.stripComment_of_scan scanned]

namespace Text

theorem trimEnd_append (front text : List Char) :
    trimEnd (front ++ text) = if isAllBlank text then trimEnd front else front ++ trimEnd text := by
  have blank : (text.reverse.dropWhile isBlank).isEmpty = isAllBlank text := by
    have same := trimStart_eq_nil_iff text.reverse
    rw [isAllBlank, List.all_reverse, ← isAllBlank] at same
    rw [Bool.eq_iff_iff, List.isEmpty_iff]
    exact same
  rw [trimEnd, List.reverse_append, List.dropWhile_append, blank]
  split
  · rfl
  · rw [List.reverse_append, List.reverse_reverse]
    rfl

theorem trimEnd_of_blank {text : List Char} (blank : isAllBlank text = true) : trimEnd text = [] := by
  have whole := trimEnd_append [] text
  rwa [if_pos blank] at whole

theorem isAllBlank_trimStart (text : List Char) : isAllBlank (trimStart text) = isAllBlank text := by
  induction text with
  | nil => rfl
  | cons head tail induction =>
      rw [trimStart, List.dropWhile_cons]
      split
      next blank =>
        rw [← trimStart, induction, isAllBlank, isAllBlank, List.all_cons, blank, Bool.true_and]
      next => rfl

theorem trimStart_of_starts {text : List Char} (starts : ∀ char ∈ text.head?, isBlank char = false) :
    trimStart text = text := by
  cases text with
  | nil => rfl
  | cons head tail =>
      rw [trimStart, List.dropWhile_cons_of_neg]
      simp [starts head rfl]

/-- Blanks may be dropped at either end first. -/
theorem trimStart_trimEnd (text : List Char) : trimStart (trimEnd text) = trim text := by
  cases blank : isAllBlank text with
  | true =>
      rw [trimEnd_of_blank blank, trim, (trimStart_eq_nil_iff text).mpr blank]
      rfl
  | false =>
      have split : text = text.takeWhile isBlank ++ trimStart text :=
        List.takeWhile_append_dropWhile.symm
      have blanks : ∀ char ∈ text.takeWhile isBlank, isBlank char := fun _ => List.mem_takeWhile_imp
      have filled : isAllBlank (trimStart text) = false := (isAllBlank_trimStart text).trans blank
      conv_lhs => rw [split, trimEnd_append, filled]
      simp only [Bool.false_eq_true, if_false]
      rw [trimStart, List.dropWhile_append_of_pos blanks]
      exact trimStart_of_starts (head?_trim text)

theorem trim_eq_nil_iff (text : List Char) : trim text = [] ↔ isAllBlank text = true := by
  rw [trim, trimEnd, List.reverse_eq_nil_iff, ← trimStart, trimStart_eq_nil_iff, isAllBlank,
    List.all_reverse, ← isAllBlank, isAllBlank_trimStart]

end Text

namespace Line

theorem ofRaw_mark {text : List Char} (fragment : isFragment text) (sign : Sign) (number : Nat) :
    (Line.ofRaw number (sign.char :: ' ' :: text)).sign? = some sign ∧
      (Line.ofRaw number (sign.char :: ' ' :: text)).unsigned.text = trim text := by
  have starts : isBlank sign.char = false := by
    cases sign <;> rfl
  have isText : (Line.ofRaw number (sign.char :: ' ' :: text)).text =
      trimEnd ([sign.char, ' '] ++ text) := by
    rw [Line.text_ofRaw (Fragment.scan_mark fragment sign), trim, trimStart,
      List.dropWhile_cons_of_neg (by simp [starts])]
    rfl
  rw [trimEnd_append] at isText
  cases blank : isAllBlank text with
  | true =>
      have only : trimEnd [sign.char, ' '] = [sign.char] := by
        cases sign <;> rfl
      rw [blank, if_pos rfl, only] at isText
      rw [sign?, unsigned, isText, trim, (trimStart_eq_nil_iff text).mpr blank]
      exact ⟨by cases sign <;> rfl, rfl⟩
  | false =>
      rw [blank, if_neg Bool.false_ne_true] at isText
      have spaced : trimStart (' ' :: trimEnd text) = trim text := trimStart_trimEnd text
      rw [sign?, unsigned, isText]
      exact ⟨by cases sign <;> rfl, spaced⟩

end Line

/-! ## Lines of a block -/

/-- Whether a text is empty or starts with a word. -/
def Token.isWorded : List Token → Bool
  | [] => true
  | .word _ :: _ => true
  | _ => false

/-- The lines have nothing on them but plain instructions, and tests without
branches of their own. -/
structure Line.IsPlain (line : Line) : Prop where
  fragment : isFragment line.text
  empty : Token.ofText line.text = [] → line.text = []
  worded : Token.isWorded (Token.ofText line.text)

theorem Line.IsPlain.sign?_eq {line : Line} (plain : line.IsPlain) : line.sign? = none := by
  have scanned := Fragment.scan_eq plain.fragment
  have worded := plain.worded
  cases tokens : Token.ofText line.text with
  | nil =>
      rw [sign?, plain.empty tokens]
      rfl
  | cons first rest =>
      rw [tokens] at scanned worded
      cases first with
      | word word => exact sign?_of_word scanned
      | _ => cases worded

/-- A line takes no lines that have no sign. -/
theorem Statement.ofLine_unmarked {line : Line} {tokens : List Token}
    (scanned : Token.scan line.text = .ok tokens) (noBranch : tokens.any Token.isBranch = false)
    {rest : List Line} (unmarked : Line.Unmarked rest) :
    Statement.ofLine line rest = (.instruction line tokens .nil, 0) := by
  have owned : ownedRuns (.ok tokens) rest = .empty := by
    unfold ownedRuns
    split
    · exact Runs.ofLines_unmarked unmarked
    · rfl
  have whole : Statement.ofLine line rest =
      (.ofTokens line (Token.scan line.text) (ownedRuns (Token.scan line.text) rest).blocks,
        (ownedRuns (Token.scan line.text) rest).length) := rfl
  rw [whole, scanned, owned, Runs.blocks_empty, Statement.ofTokens, noBranch, Bool.and_false]
  rfl

/-- Adds what was written behind a sign to the branches after it. A sign with nothing
behind it adds nothing. -/
def Branches.addGroup (line : Line) (group : Sign × List Token) (rest : Branches) : Branches :=
  if group.2.isEmpty then rest else .cons group.1 (.instruction line group.2 .nil) rest

/-- The statements of plain lines are those of their tokens behind one sign. -/
theorem Branches.mirrors_gather {near : Place → Place → Prop} (all : ∀ here there, near here there)
    (line : Line) (sign : Sign) {lines : List Line} (plain : ∀ line ∈ lines, line.IsPlain)
    {rest others : Branches} (mirrors : rest.Mirrors near others) :
    ((lines.map fun line => (sign, Token.ofText line.text)).foldr (addGroup line) rest).Mirrors near
      (prepend sign (gather lines) others) := by
  induction lines with
  | nil =>
      rw [gather]
      exact mirrors
  | cons head tail induction =>
      rcases List.forall_mem_cons.mp plain with ⟨here, further⟩
      have below := induction further
      rw [List.map_cons, List.foldr_cons, addGroup]
      split
      next empty =>
        rw [gather, if_pos (List.isEmpty_iff.mpr (here.empty (List.isEmpty_iff.mp empty)))]
        exact below
      next filled =>
        have isFilled : head.text ≠ [] := by
          intro isEmpty
          apply filled
          rw [isEmpty, Token.ofText_nil]
          rfl
        have unmarked : Line.Unmarked tail := by
          intro next isNext
          exact (further next (List.mem_of_mem_head? isNext)).sign?_eq
        rw [gather_cons isFilled here.sign?_eq, Statement.ofLine_unmarked
          (Fragment.scan_eq here.fragment) (Fragment.unsigned here.fragment) unmarked]
        exact .cons sign (.instruction (all _ _) _ .nil) below

/-! ## Tokens of a line -/

/-- The tokens of a branch behind its sign. -/
def Sign.group (group : Sign × List Token) : List Token :=
  group.1.token :: group.2

theorem splitInline_append (line : Line) {tokens : List Token}
    (unsigned : ∀ token ∈ tokens, token.sign? = none) (rest : List Token) :
    splitInline line (tokens ++ rest) =
      (tokens ++ (splitInline line rest).1, (splitInline line rest).2) := by
  induction tokens with
  | nil => rfl
  | cons head tail induction =>
      rcases List.forall_mem_cons.mp unsigned with ⟨here, further⟩
      rw [List.cons_append, splitInline, induction further]
      simp only [here, List.cons_append]

theorem splitInline_groups (line : Line) {groups : List (Sign × List Token)}
    (unsigned : ∀ group ∈ groups, ∀ token ∈ group.2, token.sign? = none) :
    splitInline line (groups.flatMap Sign.group) =
      ([], groups.foldr (Branches.addGroup line) .nil) := by
  induction groups with
  | nil => rfl
  | cons head tail induction =>
      rcases List.forall_mem_cons.mp unsigned with ⟨here, further⟩
      rw [List.flatMap_cons, Sign.group, List.cons_append, splitInline,
        splitInline_append line here, induction further, List.append_nil]
      simp only [Sign.sign?_token]
      rfl

/-! ## Signed lines -/

theorem Line.numberFrom_mark {texts : List (List Char)} (fragments : ∀ text ∈ texts, isFragment text)
    (sign : Sign) (first : Nat) :
    (∀ line ∈ numberFrom first (sign.mark texts), line.sign? = some sign) ∧
      ((numberFrom first (sign.mark texts)).map Line.unsigned).map Line.text = texts.map trim := by
  induction texts generalizing first with
  | nil => exact ⟨nofun, rfl⟩
  | cons head tail induction =>
      rcases List.forall_mem_cons.mp fragments with ⟨here, further⟩
      rcases Line.ofRaw_mark here sign first with ⟨signed, text⟩
      rcases induction further (first + 1) with ⟨signedBelow, texts⟩
      refine ⟨List.forall_mem_cons.mpr ⟨signed, signedBelow⟩, ?_⟩
      exact congrArg₂ List.cons text texts

theorem Runs.blocks_marked {sign : Sign} {first second rest : List Line}
    (marked : ∀ line ∈ first, line.sign? = some sign)
    (markedToo : ∀ line ∈ second, line.sign? = some sign.opposite) (ends : Line.Unmarked rest) :
    (ofLines (first ++ (second ++ rest))).blocks =
        .prepend sign (gather (first.map Line.unsigned))
          (.prepend sign.opposite (gather (second.map Line.unsigned)) .nil) ∧
      (ofLines (first ++ (second ++ rest))).length = first.length + second.length := by
  have nothing : gather (([] : List Line).map Line.unsigned) = [] := by
    rw [List.map_nil, gather]
  cases first with
  | cons head tail =>
      rw [ofLines_append marked markedToo ends]
      exact ⟨rfl, rfl⟩
  | nil =>
      cases second with
      | cons head tail =>
          have none : ∀ line ∈ ([] : List Line), line.sign? = some sign.opposite.opposite := nofun
          have runs := ofLines_append markedToo none ends
          rw [List.nil_append] at runs
          rw [List.nil_append, runs, nothing, blocks, nothing]
          exact ⟨rfl, Nat.add_comm _ _⟩
      | nil =>
          rw [List.nil_append, List.nil_append, ofLines_unmarked ends, nothing, blocks_empty]
          exact ⟨rfl, rfl⟩

/-! ## Items -/

theorem Lexeme.shapeAt_of_letter {char : Char} (letter : isLetter char) (rest : List Char) :
    shapeAt char rest = (.word, run isWordChar rest) := by
  unfold shapeAt
  rw [isDigit_of_isLetter letter, if_neg Bool.false_ne_true, if_pos letter]

theorem Declaration.readAt_separator {char : Char} (separates : Lexeme.isSeparator char)
    (rest : List Char) : Declaration.readAt char rest = .absent := by
  rcases Lexeme.separator_cases separates with rfl | rfl | rfl | rfl | rfl | rfl <;> rfl

/-- A text that starts with a word declares nothing. -/
theorem Heading.read_of_word {text : List Char} {word : String} {operands : List Token}
    (scanned : Token.scan text = .ok (.word word :: operands)) : read text = ⟨[], .ok text⟩ := by
  have legible := Token.legible_of_scan scanned
  have tokens := Token.scan_eq_ok.mp scanned
  cases text with
  | nil => rw [read]
  | cons first rest =>
      apply read_of_absent
      cases separates : Lexeme.isSeparator first with
      | true => exact Declaration.readAt_separator separates rest
      | false =>
          unfold Lexeme.Legible at legible
          rw [Lexeme.scan, separates] at tokens legible
          rcases List.forall_mem_cons.mp legible with ⟨_, below⟩
          have isWord : (Lexeme.found first rest).token = some (.word word) := (List.cons.inj tokens).1
          have letter := (Lexeme.found_word isWord).1
          have extent : (Lexeme.shapeAt first rest).2 = (rest.takeWhile isWordChar).length := by
            rw [Lexeme.shapeAt_of_letter letter]
            rfl
          have length : nameLength (first :: rest) = (rest.takeWhile isWordChar).length + 1 := by
            simp [nameLength, letter]
          rw [readAt_of_letter letter, Declaration.readLabel, length]
          rw [extent] at below
          simp only
          split
          next colon =>
            rw [colon, Lexeme.scan] at below
            exact absurd rfl (below _ List.mem_cons_self)
          next => rfl

/-- A line that starts with a word is an entry. -/
theorem Item.ofLine_of_word {line : Line} {word : String} {operands : List Token}
    (scanned : Token.scan line.text = .ok (.word word :: operands)) (following : List Line) :
    Item.ofLine line following =
      (⟨line, [], .entry false (Statement.ofLine line following).1⟩,
        (Statement.ofLine line following).2) := by
  have unmarked : ∀ text, line.text ≠ '@' :: text := by
    intro text marked
    rcases Token.scan_word scanned with ⟨first, rest, starts, letter, _⟩
    rw [marked] at starts
    cases starts
    cases letter
  have filled : line.text ≠ [] := by
    intro empty
    rw [empty, Token.scan, Lexeme.scan] at scanned
    cases scanned
  have body : readBody line following =
      (.entry false (Statement.ofLine line following).1, (Statement.ofLine line following).2) := by
    unfold readBody
    rw [Line.sign?_of_word scanned]
    split
    next isSome => cases isSome
    next empty => exact absurd empty filled
    next marked => exact absurd marked (unmarked _)
    next => rfl
  rw [ofLine, Heading.read_of_word scanned]
  simp only [body]

/-! ## Mnemonics -/

theorem isLetter_of_lower {char : Char}
    (letters : ∀ lowered ∈ lower char, isLetter lowered ∧ lowered ≠ 'k') : isLetter char := by
  unfold lower at letters
  split at letters
  next upper => simp only [isLetter, upper, Bool.or_true]
  next =>
    split at letters
    · exact absurd (letters '\u0307' (by decide)).1 (by decide)
    · split at letters
      · exact absurd rfl (letters 'k' (by decide)).2
      · exact (letters char List.mem_cons_self).1

/-- Mnemonics are names, also in capitals. -/
theorem OpCode.isName_of_ofMnemonic? {word : String} {opcode : OpCode}
    (named : ofMnemonic? word = some opcode) : isName word.toList := by
  simp only [ofMnemonic?] at named
  have found := List.find?_some named
  have same : opcode.mnemonic.toList = lowerCase word.toList := eq_of_beq found
  have spelled : opcode.mnemonic.toList ≠ [] ∧
      ∀ char ∈ opcode.mnemonic.toList, isLetter char ∧ char ≠ 'k' := by
    have all : ∀ opcode ∈ OpCode.all, (!opcode.mnemonic.toList.isEmpty &&
        opcode.mnemonic.toList.all fun char => isLetter char && char != 'k') = true := by
      decide +kernel
    rcases (Bool.and_eq_true _ _).mp (all opcode (List.mem_of_find?_eq_some named)) with
      ⟨filled, letters⟩
    refine ⟨by simpa using filled, fun char member => ?_⟩
    simpa using List.all_eq_true.mp letters char member
  rw [same] at spelled
  have letters : ∀ char ∈ word.toList, isLetter char := by
    intro char member
    apply isLetter_of_lower
    intro lowered isLowered
    exact spelled.2 lowered (List.mem_flatMap.mpr ⟨char, member, isLowered⟩)
  generalize word.toList = chars at letters spelled
  cases chars with
  | nil => exact absurd rfl spelled.1
  | cons head tail =>
      rcases List.forall_mem_cons.mp letters with ⟨first, others⟩
      simp only [isName, first, Bool.true_and, List.all_eq_true]
      exact fun char member => Lexeme.isWordChar_of_isLetter (others char member)

/-! ## Written tests -/

/-- A test as it is written: its mnemonic, its operands, and the texts of its branches
with those of the leading sign first. -/
structure WrittenTest where
  mnemonic : String
  kind : TestKind
  left : List Char
  right : List Char
  lead : Sign
  first : List (List Char)
  second : List (List Char)
  named : OpCode.ofMnemonic? mnemonic = some (.test kind)
  isLeft : isFragment left
  isRight : isFragment right
  isFirst : ∀ text ∈ first, isFragment text
  isSecond : ∀ text ∈ second, isFragment text

namespace WrittenTest

variable (test : WrittenTest)

/-- The test without its branches. -/
def header : List Char :=
  test.mnemonic.toList ++ ' ' :: (test.left ++ ' ' :: test.right)

/-- The texts of the branches, with their signs. -/
def marked : List (List Char) :=
  test.lead.mark test.first ++ test.lead.opposite.mark test.second

/-- The test on one line. -/
def inline : List Char :=
  test.header ++ test.marked.flatMap (List.cons ' ')

def tokens : List Token :=
  .word test.mnemonic :: (Token.ofText test.left ++ Token.ofText test.right)

def groups : List (Sign × List Token) :=
  (test.first.map fun text => (test.lead, Token.ofText text)) ++
    test.second.map fun text => (test.lead.opposite, Token.ofText text)

theorem isFragment_of_mem {text : List Char} (member : text ∈ test.first ++ test.second) :
    isFragment text := by
  rcases List.mem_append.mp member with isFirst | isSecond
  · exact test.isFirst text isFirst
  · exact test.isSecond text isSecond

theorem scan_header : Token.scan test.header = .ok test.tokens := by
  have isWord : Token.scan test.mnemonic.toList = .ok [.word test.mnemonic] := by
    have spells := Token.spells_word (OpCode.isName_of_ofMnemonic? test.named) [] Lexeme.breaks_nil
    rw [List.append_nil, Lexeme.scan] at spells
    rw [Token.scan, spells]
    rfl
  have operands : Token.scan (test.left ++ ' ' :: test.right) =
      .ok (Token.ofText test.left ++ Token.ofText test.right) :=
    Token.scan_join (Fragment.scan_eq test.isLeft) rfl (Fragment.scan_eq test.isRight)
  exact Token.scan_join isWord rfl operands

theorem scan_marks {front : List Char} {tokens : List Token}
    (scanned : Token.scan front = .ok tokens) (sign : Sign) {texts : List (List Char)}
    (fragments : ∀ text ∈ texts, isFragment text) :
    Token.scan (front ++ (sign.mark texts).flatMap (List.cons ' ')) =
      .ok (tokens ++ (texts.map fun text => (sign, Token.ofText text)).flatMap Sign.group) := by
  induction texts generalizing front tokens with
  | nil =>
      rw [Sign.mark, List.map_nil, List.flatMap_nil, List.append_nil, scanned, List.map_nil,
        List.flatMap_nil, List.append_nil]
  | cons head tail induction =>
      rcases List.forall_mem_cons.mp fragments with ⟨here, further⟩
      have joined : Token.scan (front ++ ' ' :: sign.char :: ' ' :: head) =
          .ok (tokens ++ sign.token :: Token.ofText head) :=
        Token.scan_join scanned rfl (Fragment.scan_mark here sign)
      have whole := induction joined further
      rw [Sign.mark, List.map_cons, ← Sign.mark, List.flatMap_cons, List.map_cons, List.flatMap_cons,
        ← List.append_assoc, ← List.append_assoc]
      exact whole

theorem scan_inline : Token.scan test.inline = .ok (test.tokens ++ test.groups.flatMap Sign.group) := by
  have first := scan_marks test.scan_header test.lead test.isFirst
  have both := scan_marks first test.lead.opposite test.isSecond
  rw [inline, marked, groups, List.flatMap_append, List.flatMap_append, ← List.append_assoc,
    ← List.append_assoc]
  exact both

/-! ### On one line -/

theorem isTest_tokens (more : List Token) : isTest (test.tokens ++ more) = true := by
  simp only [isTest, tokens, List.cons_append, test.named]

theorem noBranch_tokens : test.tokens.any Token.isBranch = false := by
  simp only [tokens, List.any_cons, List.any_append, Fragment.unsigned test.isLeft,
    Fragment.unsigned test.isRight]
  rfl

theorem sign?_tokens : ∀ token ∈ test.tokens, token.sign? = none := by
  refine List.forall_mem_cons.mpr ⟨rfl, fun token member => ?_⟩
  rcases List.mem_append.mp member with left | right
  · exact Fragment.sign?_eq_none test.isLeft token left
  · exact Fragment.sign?_eq_none test.isRight token right

theorem sign?_groups : ∀ group ∈ test.groups, ∀ token ∈ group.2, token.sign? = none := by
  intro group member
  rcases List.mem_append.mp member with isFirst | isSecond
  · rcases List.mem_map.mp isFirst with ⟨text, isText, rfl⟩
    exact Fragment.sign?_eq_none (test.isFirst text isText)
  · rcases List.mem_map.mp isSecond with ⟨text, isText, rfl⟩
    exact Fragment.sign?_eq_none (test.isSecond text isText)

def inlineLine (number : Nat) : Line :=
  .ofRaw number test.inline

theorem scan_inlineLine (number : Nat) :
    Token.scan (test.inlineLine number).text = .ok (test.tokens ++ test.groups.flatMap Sign.group) := by
  rw [inlineLine, Line.text_ofRaw test.scan_inline]
  exact Token.scan_trim test.scan_inline

/-- The item of the test on one line. -/
def inlineItem (number : Nat) : Item :=
  ⟨test.inlineLine number, [], .entry false (.instruction (test.inlineLine number) test.tokens
    (test.groups.foldr (Branches.addGroup (test.inlineLine number)) .nil))⟩

theorem ofLine_inline (number : Nat) {following : List Line} (ends : Line.Unmarked following) :
    Item.ofLine (test.inlineLine number) following = (test.inlineItem number, 0) := by
  have scanned := test.scan_inlineLine number
  have split := splitInline_append (test.inlineLine number) test.sign?_tokens
    (test.groups.flatMap Sign.group)
  rw [splitInline_groups _ test.sign?_groups, List.append_nil] at split
  have statement : Statement.ofLine (test.inlineLine number) following =
      (.instruction (test.inlineLine number) test.tokens
        (test.groups.foldr (Branches.addGroup (test.inlineLine number)) .nil), 0) := by
    cases isGroups : test.groups with
    | nil =>
        rw [isGroups, List.flatMap_nil, List.append_nil] at scanned
        exact Statement.ofLine_unmarked scanned test.noBranch_tokens ends
    | cons head tail =>
        have inline : (test.tokens ++ test.groups.flatMap Sign.group).any Token.isBranch = true := by
          simp [isGroups, Sign.group]
        have taken := Statement.taken_ofLine (test.inlineLine number) following
        rw [← isGroups]
        generalize Statement.ofLine (test.inlineLine number) following = statement at taken
        cases taken with
        | illegible isScanned =>
            rw [scanned] at isScanned
            cases isScanned
        | plain isScanned noTest =>
            rw [scanned] at isScanned
            cases isScanned
            rw [test.isTest_tokens] at noTest
            cases noTest
        | inline isScanned =>
            rw [scanned] at isScanned
            cases isScanned
            rw [split]
        | test isScanned _ noInline =>
            rw [scanned] at isScanned
            cases isScanned
            rw [inline] at noInline
            cases noInline
  rw [Item.ofLine_of_word scanned, statement]
  rfl

/-! ### On lines of its own -/

def headerLine (number : Nat) : Line :=
  .ofRaw number test.header

theorem scan_headerLine (number : Nat) : Token.scan (test.headerLine number).text = .ok test.tokens := by
  rw [headerLine, Line.text_ofRaw test.scan_header]
  exact Token.scan_trim test.scan_header

def firstLines (number : Nat) : List Line :=
  Line.numberFrom (number + 1) (test.lead.mark test.first)

def secondLines (number : Nat) : List Line :=
  Line.numberFrom (number + 1 + test.first.length) (test.lead.opposite.mark test.second)

/-- The branches that the signed lines become. -/
def blocks (number : Nat) : Branches :=
  .prepend test.lead (gather ((test.firstLines number).map Line.unsigned))
    (.prepend test.lead.opposite (gather ((test.secondLines number).map Line.unsigned)) .nil)

/-- The item of the test with its branches below it. -/
def blockItem (number : Nat) : Item :=
  ⟨test.headerLine number, [],
    .entry false (.instruction (test.headerLine number) test.tokens (test.blocks number))⟩

theorem ofLine_block (number : Nat) {following : List Line} (ends : Line.Unmarked following) :
    Item.ofLine (test.headerLine number) (Line.numberFrom (number + 1) test.marked ++ following) =
      (test.blockItem number, test.marked.length) := by
  have scanned := test.scan_headerLine number
  have owns : ownsBlocks (.ok test.tokens) = true := by
    have isTest := test.isTest_tokens []
    rw [List.append_nil] at isTest
    simp only [ownsBlocks, isTest, test.noBranch_tokens]
    rfl
  have lines : Line.numberFrom (number + 1) test.marked ++ following =
      test.firstLines number ++ (test.secondLines number ++ following) := by
    have length : (test.lead.mark test.first).length = test.first.length := List.length_map _
    rw [marked, Line.numberFrom_append, length, List.append_assoc]
    rfl
  have runs := Runs.blocks_marked (Line.numberFrom_mark test.isFirst test.lead (number + 1)).1
    (Line.numberFrom_mark test.isSecond test.lead.opposite (number + 1 + test.first.length)).1 ends
  have length : test.marked.length = (test.firstLines number).length + (test.secondLines number).length := by
    rw [firstLines, secondLines, Line.length_numberFrom, Line.length_numberFrom, marked,
      List.length_append]
  have statement : Statement.ofLine (test.headerLine number)
      (test.firstLines number ++ (test.secondLines number ++ following)) =
        (.instruction (test.headerLine number) test.tokens (test.blocks number), test.marked.length) := by
    have whole : ∀ rest, Statement.ofLine (test.headerLine number) rest =
        (.ofTokens (test.headerLine number) (Token.scan (test.headerLine number).text)
          (ownedRuns (Token.scan (test.headerLine number).text) rest).blocks,
          (ownedRuns (Token.scan (test.headerLine number).text) rest).length) := fun _ => rfl
    rw [whole, scanned, ownedRuns, if_pos owns, Statement.ofTokens, test.noBranch_tokens,
      Bool.and_false, length]
    exact Prod.ext (congrArg (Statement.instruction _ _) runs.1) runs.2
  rw [lines, Item.ofLine_of_word scanned, statement]
  rfl

/-! ### Both ways -/

/-- Every text of a branch starts with a word, unless there is nothing in it but
blanks. -/
def IsWorded : Prop :=
  ∀ text ∈ test.first ++ test.second,
    (Token.ofText text = [] → isAllBlank text) ∧ Token.isWorded (Token.ofText text)

theorem ofText_trim {text : List Char} (fragment : isFragment text) :
    Token.ofText (trim text) = Token.ofText text := by
  have scanned := Token.scan_trim (Fragment.scan_eq fragment)
  unfold Token.ofText at scanned ⊢
  rw [scanned]

theorem isFragment_trim {text : List Char} (fragment : isFragment text) : isFragment (trim text) := by
  have scanned := Token.scan_trim (Fragment.scan_eq fragment)
  simp [isFragment, scanned, Fragment.unsigned fragment]

theorem isPlain_unsigned {texts : List (List Char)} (fragments : ∀ text ∈ texts, isFragment text)
    (worded : ∀ text ∈ texts,
      (Token.ofText text = [] → isAllBlank text) ∧ Token.isWorded (Token.ofText text))
    {lines : List Line} (same : lines.map Line.text = texts.map trim) :
    ∀ line ∈ lines, line.IsPlain := by
  intro line member
  have isText := List.mem_map_of_mem (f := Line.text) member
  rw [same] at isText
  rcases List.mem_map.mp isText with ⟨text, isText, trimmed⟩
  have fragment := fragments text isText
  rcases worded text isText with ⟨empty, word⟩
  refine ⟨?_, ?_, ?_⟩
  · rw [← trimmed]
    exact isFragment_trim fragment
  · rw [← trimmed, ofText_trim fragment, trim_eq_nil_iff]
    exact empty
  · rw [← trimmed, ofText_trim fragment]
    exact word

theorem groups_unsigned {texts : List (List Char)} (fragments : ∀ text ∈ texts, isFragment text)
    (sign : Sign) {lines : List Line} (same : lines.map Line.text = texts.map trim) :
    (lines.map fun line => (sign, Token.ofText line.text)) =
      texts.map fun text => (sign, Token.ofText text) := by
  have split : (lines.map fun line => (sign, Token.ofText line.text)) =
      (lines.map Line.text).map fun text => (sign, Token.ofText text) := by
    rw [List.map_map]
    rfl
  rw [split, same, List.map_map]
  refine List.map_congr_left fun text member => ?_
  exact congrArg (Prod.mk sign) (ofText_trim (fragments text member))

/-- If every text starts with a word, both ways to write the test are read as the
same. -/
theorem mirrors_items (worded : test.IsWorded) (number : Nat) :
    (test.inlineItem number).Mirrors (fun _ _ => True) (test.blockItem number) := by
  have first := (Line.numberFrom_mark test.isFirst test.lead (number + 1)).2
  have second := (Line.numberFrom_mark test.isSecond test.lead.opposite
    (number + 1 + test.first.length)).2
  have all : ∀ here there : Place, (fun _ _ => True : Place → Place → Prop) here there :=
    fun _ _ => trivial
  have below := Branches.mirrors_gather all (test.inlineLine number) test.lead.opposite
    (isPlain_unsigned test.isSecond (fun text member => worded text (List.mem_append_right _ member))
      second) Branches.Mirrors.nil
  have whole := Branches.mirrors_gather all (test.inlineLine number) test.lead
    (isPlain_unsigned test.isFirst (fun text member => worded text (List.mem_append_left _ member))
      first) below
  rw [groups_unsigned test.isFirst test.lead first,
    groups_unsigned test.isSecond test.lead.opposite second, ← List.foldr_append] at whole
  exact ⟨trivial, rfl, .entry false (.instruction trivial test.tokens whole)⟩

end WrittenTest

end NodeAssembly
