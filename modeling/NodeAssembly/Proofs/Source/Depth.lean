import NodeAssembly.Proofs.Source.Entries
import NodeAssembly.Proofs.Source.Reading

/-! What is written on a single line: the declarations in front, the signs that
say how deep the instruction stands and in which branches, and the instruction
itself. All of this is read off the line without looking at other lines. Reading
a source text takes every line once, either as a statement of its own or in the
branch that its signs name. -/

namespace NodeAssembly

open NodeAssembly.Text

/-! ## Lines -/

/-- The signs at the start of a text, and what follows them. -/
def peelSigns (text : List Char) : List Sign × List Char :=
  match text with
  | [] => ([], [])
  | char :: rest =>
    match Sign.ofChar? char with
    | none => ([], char :: rest)
    | some sign =>
      let (signs, code) := peelSigns (trimStart rest)
      (sign :: signs, code)
termination_by text.length
decreasing_by
  have shorter := (List.dropWhile_suffix isBlank (l := rest)).length_le
  simp only [trimStart, List.length_cons]
  omega

/-- A text without the mark of an instruction that runs once. -/
def dropMark : List Char → List Char
  | '@' :: text => trimStart text
  | text => text

namespace Line

/-- The line after its declarations and the mark. -/
def body (line : Line) : Line :=
  match (Heading.read line.text).rest with
  | .ok rest => { line with text := dropMark rest }
  | .error _ => line

/-- The signs that the line starts with. -/
def signs (line : Line) : List Sign :=
  (peelSigns line.text).1

/-- What the line has after its signs. -/
def code (line : Line) : List Char :=
  (peelSigns line.text).2

/-- The first word after the signs. -/
def word (line : Line) : List Char :=
  (line.code.dropWhile Lexeme.isSeparator).takeWhile isWordChar

/-- Whether there is a sign among the tokens after those at the start. -/
def hasInline (line : Line) : Bool :=
  match Token.scan line.code with
  | .ok tokens => tokens.any Token.isBranch
  | .error _ => false

@[simp] theorem number_body (line : Line) : line.body.number = line.number := by
  unfold body
  split <;> rfl

theorem peelSigns_of_none {line : Line} (plain : line.sign? = none) :
    peelSigns line.text = ([], line.text) := by
  unfold sign? at plain
  cases text : line.text with
  | nil => rw [peelSigns]
  | cons first rest =>
      rw [text] at plain
      have noSign : Sign.ofChar? first = none := plain
      rw [peelSigns, noSign]

theorem signs_of_none {line : Line} (plain : line.sign? = none) : line.signs = [] := by
  rw [signs, peelSigns_of_none plain]

theorem code_of_none {line : Line} (plain : line.sign? = none) : line.code = line.text := by
  rw [code, peelSigns_of_none plain]

theorem peelSigns_of_sign {line : Line} {sign : Sign} (signed : line.sign? = some sign) :
    peelSigns line.text = (sign :: line.unsigned.signs, line.unsigned.code) := by
  unfold sign? at signed
  cases text : line.text with
  | nil =>
      rw [text] at signed
      cases signed
  | cons first rest =>
      rw [text] at signed
      have isSign : Sign.ofChar? first = some sign := signed
      rw [peelSigns, isSign]
      simp only [signs, code, unsigned, text, List.tail_cons]

theorem signs_of_sign {line : Line} {sign : Sign} (signed : line.sign? = some sign) :
    line.signs = sign :: line.unsigned.signs := by
  rw [signs, peelSigns_of_sign signed]

theorem code_of_sign {line : Line} {sign : Sign} (signed : line.sign? = some sign) :
    line.code = line.unsigned.code := by
  rw [code, peelSigns_of_sign signed]

theorem body_of_sign {line : Line} (signed : line.sign?.isSome) : line.body = line := by
  have unmarked : dropMark line.text = line.text := by
    unfold sign? at signed
    cases text : line.text with
    | nil => rfl
    | cons first rest =>
        rw [text] at signed
        unfold dropMark
        split
        next same =>
          cases same
          cases signed
        next => rfl
  unfold body
  simp only [read_of_sign signed, unmarked]

end Line

/-! ## First words -/

namespace Lexeme

theorem number_ne_word (rest : List Char) : (number rest).1 ≠ .word := by
  unfold number
  simp only
  split <;> nofun

theorem fraction_ne_word {otherwise : Shape} (other : otherwise ≠ .word) (rest : List Char) :
    (fraction otherwise rest).1 ≠ .word := by
  unfold fraction
  split
  · exact other
  · nofun

theorem quotedShape_ne_word (quote : Char) (rest : List Char) :
    (quotedShape quote rest).1 ≠ .word := by
  unfold quotedShape
  simp only
  split <;> nofun

theorem minus_ne_word (rest : List Char) : (minus rest).1 ≠ .word := by
  unfold minus
  split
  next digits =>
    have noWord : (fraction .negative digits).1 ≠ .word := by
      apply fraction_ne_word
      nofun
    split
    next => nofun
    next => exact noWord
  next digit tail _ =>
    split
    · exact number_ne_word tail
    · nofun
  next => nofun

/-- Only a letter starts a word, which goes on as far as it can. -/
theorem shapeAt_word {first : Char} {rest : List Char}
    (isWord : (shapeAt first rest).1 = .word) :
    isLetter first ∧ (shapeAt first rest).2 = run isWordChar rest := by
  unfold shapeAt at isWord ⊢
  by_cases digit : isDigit first
  · rw [if_pos digit] at isWord
    exact absurd isWord (number_ne_word rest)
  · rw [if_neg digit] at isWord ⊢
    by_cases letter : isLetter first
    · rw [if_pos letter]
      exact ⟨letter, rfl⟩
    · rw [if_neg letter] at isWord
      split at isWord
      · exact absurd isWord (minus_ne_word rest)
      · have other : Shape.stray ≠ .word := nofun
        exact absurd isWord (fraction_ne_word other rest)
      · cases isWord
      · exact absurd isWord (quotedShape_ne_word _ rest)
      · exact absurd isWord (quotedShape_ne_word _ rest)
      · split at isWord
        · split at isWord <;> cases isWord
        · cases isWord
      · cases isWord

theorem found_word {first : Char} {rest : List Char} {word : String}
    (isWord : (found first rest).token = some (.word word)) :
    isLetter first ∧ word.toList = first :: rest.takeWhile isWordChar := by
  unfold found at isWord
  simp only at isWord
  have shape : (shapeAt first rest).1 = .word := by
    cases isShape : (shapeAt first rest).1 with
    | word => rfl
    | _ =>
        rw [isShape] at isWord
        simp [Shape.token?] at isWord
  rcases shapeAt_word shape with ⟨letter, extent⟩
  rw [shape, extent] at isWord
  cases isWord
  refine ⟨letter, ?_⟩
  rw [String.toList_ofList, run]
  exact congrArg _ (List.prefix_iff_eq_take.mp (List.takeWhile_prefix _)).symm

end Lexeme

/-- A text whose first token is a word starts with that word, separators
aside. -/
theorem Token.scan_word {text : List Char} {word : String} {operands : List Token}
    (scanned : Token.scan text = .ok (.word word :: operands)) :
    ∃ first rest, text.dropWhile Lexeme.isSeparator = first :: rest ∧ isLetter first ∧
      word.toList = first :: rest.takeWhile isWordChar := by
  induction text with
  | nil =>
      rw [Token.scan, Lexeme.scan] at scanned
      cases scanned
  | cons first rest induction =>
      rw [Token.scan, Lexeme.scan] at scanned
      by_cases separator : Lexeme.isSeparator first
      · rw [if_pos separator] at scanned
        rw [List.dropWhile_cons_of_pos separator]
        exact induction scanned
      · rw [if_neg separator, List.mapM_cons] at scanned
        refine ⟨first, rest, List.dropWhile_cons_of_neg separator, ?_⟩
        cases token : (Lexeme.found first rest).token with
        | none =>
            rw [token] at scanned
            cases scanned
        | some found =>
            rw [token] at scanned
            apply Lexeme.found_word
            simp only [bind, Except.bind] at scanned
            split at scanned
            · cases scanned
            · cases scanned
              exact token

namespace Line

/-- No sign stands in front of an instruction. -/
theorem sign?_of_word {line : Line} {word : String} {operands : List Token}
    (scanned : Token.scan line.text = .ok (.word word :: operands)) : line.sign? = none := by
  rcases Token.scan_word scanned with ⟨first, rest, starts, letter, _⟩
  cases sign : line.sign? with
  | none => rfl
  | some sign =>
      unfold sign? at sign
      cases text : line.text with
      | nil =>
          rw [text] at sign
          cases sign
      | cons head tail =>
          rw [text] at sign starts
          have isSign : Sign.ofChar? head = some _ := sign
          unfold Sign.ofChar? at isSign
          split at isSign
          · cases starts
            cases letter
          · cases starts
            cases letter
          · cases isSign

theorem word_of_scan {line : Line} {word : String} {operands : List Token}
    (scanned : Token.scan line.text = .ok (.word word :: operands)) : line.word = word.toList := by
  rcases Token.scan_word scanned with ⟨first, rest, starts, letter, isWord⟩
  have wordChar : isWordChar first := by
    simp [isWordChar, letter]
  rw [Line.word, code_of_none (sign?_of_word scanned), starts, List.takeWhile_cons_of_pos wordChar,
    isWord]

end Line

/-! ## Blocks -/

namespace Runs

theorem sign?_first {lines : List Line} {line : Line} (member : line ∈ (ofLines lines).first) :
    line.sign? = some (ofLines lines).sign := by
  unfold ofLines at member ⊢
  split at member
  · cases member
  · have signed := List.mem_takeWhile_imp member
    exact eq_of_beq signed

theorem sign?_second {lines : List Line} {line : Line} (member : line ∈ (ofLines lines).second) :
    line.sign? = some (ofLines lines).sign.opposite := by
  unfold ofLines at member ⊢
  split at member
  · cases member
  · have signed := List.mem_takeWhile_imp member
    exact eq_of_beq signed

end Runs

/-- The runs of an instruction are the lines below that it takes. -/
theorem take_ownedRuns (tokens : Except String (List Token)) (following : List Line) :
    following.take (ownedRuns tokens following).length =
      (ownedRuns tokens following).first ++ (ownedRuns tokens following).second := by
  unfold ownedRuns
  split
  · exact Runs.take_length_eq following
  · rfl

theorem sign?_ownedRuns_first (tokens : Except String (List Token)) (following : List Line) :
    ∀ line ∈ (ownedRuns tokens following).first,
      line.sign? = some (ownedRuns tokens following).sign := by
  unfold ownedRuns
  split
  · exact fun line => Runs.sign?_first
  · nofun

theorem sign?_ownedRuns_second (tokens : Except String (List Token)) (following : List Line) :
    ∀ line ∈ (ownedRuns tokens following).second,
      line.sign? = some (ownedRuns tokens following).sign.opposite := by
  unfold ownedRuns
  split
  · exact fun line => Runs.sign?_second
  · nofun

theorem Runs.blocks_empty : Runs.empty.blocks = .nil := by
  simp [Runs.blocks, Runs.empty, gather, Branches.prepend]

/-- What a line with an instruction becomes, and how many lines below it takes. -/
inductive Statement.Taken (line : Line) (following : List Line) : Statement × Nat → Prop
  | illegible {slice : String} (scanned : Token.scan line.text = .error slice) :
      Taken line following (.illegible line slice, 0)
  | plain {tokens : List Token} (scanned : Token.scan line.text = .ok tokens)
      (noTest : isTest tokens = false) : Taken line following (.instruction line tokens .nil, 0)
  | inline {tokens : List Token} (scanned : Token.scan line.text = .ok tokens)
      (test : isTest tokens = true) (inline : tokens.any Token.isBranch = true) :
      Taken line following
        (.instruction line (splitInline line tokens).1 (splitInline line tokens).2, 0)
  | test {tokens : List Token} (scanned : Token.scan line.text = .ok tokens)
      (test : isTest tokens = true) (noInline : tokens.any Token.isBranch = false) :
      Taken line following
        (.instruction line tokens (ownedRuns (Token.scan line.text) following).blocks,
          (ownedRuns (Token.scan line.text) following).length)

theorem Statement.taken_ofLine (line : Line) (following : List Line) :
    Taken line following (Statement.ofLine line following) := by
  have whole : Statement.ofLine line following =
      (.ofTokens line (Token.scan line.text) (ownedRuns (Token.scan line.text) following).blocks,
        (ownedRuns (Token.scan line.text) following).length) := rfl
  rw [whole]
  cases scanned : Token.scan line.text with
  | error slice => exact .illegible scanned
  | ok tokens =>
      cases test : isTest tokens with
      | false =>
          have owned : ownedRuns (.ok tokens) following = .empty := by
            simp [ownedRuns, ownsBlocks, test]
          simp only [ofTokens, owned, test, Bool.false_and, Bool.false_eq_true, if_false,
            Runs.blocks_empty]
          exact .plain scanned test
      | true =>
          cases inline : tokens.any Token.isBranch with
          | true =>
              have owned : ownedRuns (.ok tokens) following = .empty := by
                simp only [ownedRuns, ownsBlocks, test, inline]
                rfl
              simp only [ofTokens, owned, test, inline, Bool.true_and, if_true]
              exact .inline scanned test inline
          | false =>
              simp only [ofTokens, test, inline, Bool.true_and, Bool.false_eq_true, if_false]
              rw [← scanned]
              exact .test scanned test inline

/-- What a line becomes as an item, and how many lines below it takes. -/
inductive Item.Taken (line : Line) (following : List Line) : Item × Nat → Prop
  | malformed {item : Item} (construct : Construct) (body : item.body = .malformed construct) :
      Taken line following (item, 0)
  | stray {item : Item} (body : item.body = .stray) : Taken line following (item, 0)
  | blank (empty : line.body.text = []) :
      Taken line following (⟨line, (Heading.read line.text).declarations, .blank⟩, 0)
  | entry (once : Bool) :
      Taken line following
        (⟨line, (Heading.read line.text).declarations,
          .entry once (Statement.ofLine line.body following).1⟩,
          (Statement.ofLine line.body following).2)

theorem Item.taken_ofLine (line : Line) (following : List Line) :
    Taken line following (Item.ofLine line following) := by
  have isBody : ∀ rest, (Heading.read line.text).rest = .ok rest →
      line.body = { line with text := dropMark rest } := by
    intro rest isRest
    simp only [Line.body, isRest]
  unfold Item.ofLine
  simp only
  cases isRest : (Heading.read line.text).rest with
  | error construct => exact .malformed construct rfl
  | ok rest =>
      have body := isBody rest isRest
      simp only [readBody, Line.sign?]
      cases rest with
      | nil => exact .blank (by rw [body]; rfl)
      | cons first tail =>
          simp only [List.head?_cons, Option.bind_some]
          cases Sign.ofChar? first with
          | some sign => exact .stray rfl
          | none =>
              by_cases marked : first = '@'
              · subst marked
                have same : line.body = { line with text := trimStart tail } := body
                simp only [← same]
                exact .entry true
              · have same : line.body = { line with text := first :: tail } := by
                  rw [body, dropMark]
                  rintro text ⟨⟩
                  exact marked rfl
                simp only [← same]
                split
                next isSome => cases isSome
                next isNil => cases isNil
                next isMarked =>
                  cases isMarked
                  exact absurd rfl marked
                next => exact .entry false

end NodeAssembly
