import Mathlib.Data.List.TakeWhile
import NodeAssembly.Proofs.Token.Joining

/-! Comments and quotes. A comment is found by following the quotes of a line
character by character, and tokens by scanning for the longest match. The two
agree: what is scanned without a fault has all its quotes closed and no comment
in it, and a comment never starts inside of what is scanned as quoted. -/

namespace NodeAssembly

open NodeAssembly.Text

namespace Quotation

/-- Where the place after a text is. -/
def through (quotation : Quotation) (text : List Char) : Quotation :=
  text.foldl after quotation

/-- No comment starts in the text. -/
def Quiet (quotation : Quotation) : List Char → Prop
  | [] => True
  | char :: rest =>
    ¬(quotation = .outside ∧ isCommentMark char = true) ∧ (quotation.after char).Quiet rest

/-- Between quotes no comment starts. -/
theorem quiet_cons {quotation : Quotation} (quoted : quotation ≠ .outside) {char : Char}
    {rest : List Char} (below : (quotation.after char).Quiet rest) :
    quotation.Quiet (char :: rest) :=
  ⟨fun mark => quoted mark.1, below⟩

theorem quiet_append {quotation : Quotation} {first second : List Char} :
    quotation.Quiet (first ++ second) ↔
      quotation.Quiet first ∧ (quotation.through first).Quiet second := by
  induction first generalizing quotation with
  | nil => simp [Quiet, through]
  | cons head tail induction =>
      rw [List.cons_append, Quiet, Quiet, induction, and_assoc]
      rfl

theorem through_append (quotation : Quotation) (first second : List Char) :
    quotation.through (first ++ second) = (quotation.through first).through second :=
  List.foldl_append

theorem stripComment_append {quotation : Quotation} {first : List Char}
    (quiet : quotation.Quiet first) (second : List Char) :
    stripCommentFrom quotation (first ++ second) =
      first ++ stripCommentFrom (quotation.through first) second := by
  induction first generalizing quotation with
  | nil => rfl
  | cons head tail induction =>
      rw [List.cons_append, stripCommentFrom, if_neg quiet.1, induction quiet.2]
      rfl

theorem stripComment_of_quiet {quotation : Quotation} {text : List Char}
    (quiet : quotation.Quiet text) : stripCommentFrom quotation text = text := by
  have whole := stripComment_append quiet []
  rwa [stripCommentFrom, List.append_nil] at whole

/-- A line is either free of comments or cut at a comment mark outside of
quotes. -/
inductive Cut (quotation : Quotation) (text : List Char) : List Char → Prop
  | uncut (quiet : quotation.Quiet text) : Cut quotation text text
  | cut {kept rest : List Char} {mark : Char} (split : text = kept ++ mark :: rest)
      (isMark : isCommentMark mark = true) (quiet : quotation.Quiet kept)
      (ends : quotation.through kept = .outside) : Cut quotation text kept

theorem cut_stripComment (quotation : Quotation) (text : List Char) :
    Cut quotation text (stripCommentFrom quotation text) := by
  induction text generalizing quotation with
  | nil => exact .uncut trivial
  | cons head tail induction =>
      rw [stripCommentFrom]
      by_cases starts : quotation = .outside ∧ isCommentMark head = true
      · rw [if_pos starts]
        exact .cut rfl starts.2 trivial starts.1
      · rw [if_neg starts]
        have below := induction (quotation.after head)
        generalize stripCommentFrom (quotation.after head) tail = stripped at below
        cases below with
        | uncut quiet => exact .uncut ⟨starts, quiet⟩
        | cut split isMark quiet ends =>
            exact .cut (congrArg (List.cons head) split) isMark ⟨starts, quiet⟩ ends

theorem Cut.isPrefix {quotation : Quotation} {text stripped : List Char}
    (cut : quotation.Cut text stripped) : stripped <+: text := by
  cases cut with
  | uncut quiet => exact List.prefix_rfl
  | cut split isMark quiet ends => exact split ▸ List.prefix_append _ _

theorem Cut.quiet {quotation : Quotation} {text stripped : List Char}
    (cut : quotation.Cut text stripped) : quotation.Quiet stripped := by
  cases cut with
  | uncut quiet => exact quiet
  | cut split isMark quiet ends => exact quiet

/-- What is left of a line after blanks at its ends are gone has no comment
either. -/
theorem quiet_trim {text : List Char} (quiet : Quotation.outside.Quiet text) :
    Quotation.outside.Quiet (trim text) := by
  have starts : Quotation.outside.Quiet (trimStart text) := by
    induction text with
    | nil => exact trivial
    | cons head tail induction =>
        rw [trimStart, List.dropWhile_cons]
        split
        next blank =>
          have outside : Quotation.outside.after head = .outside := by
            unfold after
            refine if_neg fun isQuote => ?_
            rcases Bool.or_eq_true_iff.mp isQuote with double | single
            · rw [eq_of_beq double] at blank
              cases blank
            · rw [eq_of_beq single] at blank
              cases blank
          apply induction
          rw [← outside]
          exact quiet.2
        next => exact quiet
  rcases trim_isPrefix text with ⟨blanks, split⟩
  rw [← split] at starts
  exact (quiet_append.mp starts).1

end Quotation

/-- All quotes of the text are closed, and no comment starts in it. -/
structure Balanced (text : List Char) : Prop where
  quiet : Quotation.outside.Quiet text
  closed : Quotation.outside.through text = .outside

namespace Balanced

variable {first second : List Char}

theorem append (left : Balanced first) (right : Balanced second) : Balanced (first ++ second) where
  quiet := by
    refine Quotation.quiet_append.mpr ⟨left.quiet, ?_⟩
    rw [left.closed]
    exact right.quiet
  closed := by rw [Quotation.through_append, left.closed, right.closed]

/-- The rest of a text after a balanced part of it. -/
theorem of_append (left : Balanced first) (both : Balanced (first ++ second)) :
    Balanced second where
  quiet := by
    have quiet := (Quotation.quiet_append.mp both.quiet).2
    rwa [left.closed] at quiet
  closed := by
    have closed := both.closed
    rwa [Quotation.through_append, left.closed] at closed

theorem stripComment_append (balanced : Balanced first) (rest : List Char) :
    stripComment (first ++ rest) = first ++ stripComment rest := by
  rw [stripComment, Quotation.stripComment_append balanced.quiet, balanced.closed]
  rfl

/-- A comment is cut off behind a balanced text. -/
theorem stripComment_mark (balanced : Balanced first) {mark : Char} (isMark : isCommentMark mark)
    (rest : List Char) : stripComment (first ++ mark :: rest) = first := by
  have nothing : stripComment (mark :: rest) = [] := if_pos ⟨rfl, isMark⟩
  rw [balanced.stripComment_append, nothing, List.append_nil]

end Balanced

/-! ## Lexemes -/

/-- A character that means nothing for quotes and comments. -/
def isCalm (char : Char) : Bool :=
  !isCommentMark char && char != '"' && char != '\''

theorem balanced_of_calm {text : List Char} (calm : ∀ char ∈ text, isCalm char) :
    Balanced text := by
  induction text with
  | nil => exact ⟨trivial, rfl⟩
  | cons head tail induction =>
      have here := calm head List.mem_cons_self
      simp only [isCalm, Bool.and_eq_true, Bool.not_eq_true', bne_iff_ne] at here
      rcases here with ⟨⟨unmarked, noDouble⟩, noSingle⟩
      have single : Balanced [head] := by
        refine ⟨⟨fun marked => ?_, trivial⟩, ?_⟩
        · rw [unmarked] at marked
          exact Bool.false_ne_true marked.2
        · simp [Quotation.through, Quotation.after, noDouble, noSingle]
      exact single.append (induction fun char member => calm char (List.mem_cons_of_mem _ member))

theorem isCalm_of_isWordChar {char : Char} (isWord : isWordChar char) : isCalm char := by
  cases calm : isCalm char with
  | true => rfl
  | false =>
      exfalso
      simp only [isCalm, isCommentMark, Bool.and_eq_false_iff, Bool.not_eq_false', bne_eq_false_iff_eq,
        Bool.or_eq_true, beq_iff_eq] at calm
      rcases calm with ((rfl | rfl) | rfl) | rfl <;> exact absurd isWord (by decide)

theorem isCalm_of_separator {char : Char} (separates : Lexeme.isSeparator char) : isCalm char := by
  rcases Lexeme.separator_cases separates with rfl | rfl | rfl | rfl | rfl | rfl <;> decide

namespace Lexeme

theorem calm_run {condition : Char → Bool} (calm : ∀ char, condition char → isCalm char)
    (text : List Char) : ∀ char ∈ text.take (run condition text), isCalm char := by
  intro char member
  rw [take_run] at member
  exact calm char (List.mem_takeWhile_imp member)

theorem isCalm_of_isDigit (char : Char) (digit : isDigit char) : isCalm char :=
  isCalm_of_isWordChar (isWordChar_of_isDigit digit)

theorem calm_number (rest : List Char) : ∀ char ∈ rest.take (number rest).2, isCalm char := by
  have digits := calm_run isCalm_of_isDigit rest
  unfold number
  simp only
  split
  next fraction point =>
    intro char member
    rw [Nat.add_assoc, List.take_add, point, Nat.add_comm 1, List.take_succ_cons] at member
    rcases List.mem_append.mp member with whole | part
    · exact digits char whole
    · rcases List.mem_cons.mp part with rfl | decimals
      · decide
      · exact calm_run isCalm_of_isDigit fraction char decimals
  next => exact digits

theorem calm_fraction (otherwise : Shape) (rest : List Char) :
    ∀ char ∈ rest.take (fraction otherwise rest).2, isCalm char := by
  have digits := calm_run isCalm_of_isDigit rest
  unfold fraction
  split
  · nofun
  · exact digits

theorem calm_minus (rest : List Char) : ∀ char ∈ rest.take (minus rest).2, isCalm char := by
  unfold minus
  split
  next digits =>
    have decimals := calm_fraction .negative digits
    split
    next extent isFraction =>
      rw [isFraction] at decimals
      intro char member
      rcases List.mem_cons.mp member with rfl | inside
      · decide
      · exact decimals char inside
    next other isOther =>
      have nothing : (fraction .negative digits).2 = 0 := by
        unfold fraction at isOther ⊢
        split
        · rfl
        next positive =>
          refine absurd ?_ (isOther (run isDigit digits))
          split
          next none => exact absurd none positive
          next => rfl
      rw [nothing]
      nofun
  next digit tail _ =>
    have digits := calm_number tail
    split
    next isDigit =>
      intro char member
      rcases List.mem_cons.mp member with rfl | inside
      · exact isCalm_of_isDigit _ isDigit
      · exact digits char inside
    next => nofun
  next => nofun

/-- How the longest match at a place has to do with quotes and comments. -/
inductive Formed (char : Char) (rest : List Char) : Shape × Nat → Prop
  | quoted {extent : Nat} (isQuote : char = '"' ∨ char = '\'')
      (closed : quotedExtent char rest = (extent, true)) : Formed char rest (.quoted, extent)
  | unclosed {extent : Nat} (isQuote : char = '"' ∨ char = '\'')
      (unclosed : quotedExtent char rest = (extent, false)) : Formed char rest (.unclosed, extent)
  | calm {shape : Shape} {extent : Nat}
      (calm : ∀ other ∈ char :: rest.take extent, isCalm other) : Formed char rest (shape, extent)
  | mark (isMark : isCommentMark char = true) : Formed char rest (.stray, 0)

theorem formed_calm {char : Char} {rest : List Char} {match_ : Shape × Nat} (first : isCalm char)
    (others : ∀ other ∈ rest.take match_.2, isCalm other) : Formed char rest match_ :=
  .calm (List.forall_mem_cons.mpr ⟨first, others⟩)

theorem formed_quoted {quote : Char} (isQuote : quote = '"' ∨ quote = '\'') (rest : List Char) :
    Formed quote rest (quotedShape quote rest) := by
  unfold quotedShape
  rcases extent : quotedExtent quote rest with ⟨length, closed⟩
  cases closed with
  | true => exact .quoted isQuote extent
  | false => exact .unclosed isQuote extent

theorem shapeAt_formed (char : Char) (rest : List Char) : Formed char rest (shapeAt char rest) := by
  have words (text : List Char) := calm_run (fun _ => isCalm_of_isWordChar) text
  have alone (shape : Shape) (isCalmHere : isCalm char) : Formed char rest (shape, 0) :=
    formed_calm isCalmHere nofun
  unfold shapeAt
  split
  next digit => exact formed_calm (isCalm_of_isDigit char digit) (calm_number rest)
  next =>
    split
    next letter =>
      exact formed_calm (isCalm_of_isWordChar (isWordChar_of_isLetter letter)) (words rest)
    next =>
      split
      · exact formed_calm (by decide) (calm_minus rest)
      · exact formed_calm (by decide) (calm_fraction .stray rest)
      · exact alone .positive (by decide)
      · exact formed_quoted (.inl rfl) rest
      · exact formed_quoted (.inr rfl) rest
      · split
        next first tail =>
          split
          next letter =>
            refine formed_calm (by decide) fun other member => ?_
            rcases List.mem_cons.mp member with rfl | inside
            · exact isCalm_of_isWordChar (isWordChar_of_isLetter letter)
            · exact words tail other inside
          next => exact alone .stray (by decide)
        next => exact alone .stray (by decide)
      next noDouble noSingle _ =>
        cases isMark : isCommentMark char with
        | true => exact .mark isMark
        | false =>
            apply alone
            simp only [isCalm, isMark, Bool.not_false, Bool.true_and, Bool.and_eq_true, bne_iff_ne]
            exact ⟨noDouble, noSingle⟩

theorem after_plain {quote char : Char} {rest : List Char} (noEnd : char = '\\' → rest = [] → False)
    (noEscape : ∀ next tail, char = '\\' → rest = next :: tail → False) (other : char ≠ quote) :
    (Quotation.inside quote).after char = .inside quote := by
  simp [Quotation.after, noBackslash_of noEnd noEscape, other]

/-- A closed text in quotes ends where the quotes around it do. -/
theorem quiet_quoted {quote : Char} (noBackslash : quote ≠ '\\') {rest : List Char} {extent : Nat}
    (closed : quotedExtent quote rest = (extent, true)) :
    (Quotation.inside quote).Quiet (rest.take extent) ∧
      (Quotation.inside quote).through (rest.take extent) = .outside := by
  fun_induction quotedExtent quote rest generalizing extent with
  | case1 => cases closed
  | case2 => cases closed
  | case3 => cases closed
  | case4 escaped rest _ length isClosed further induction =>
      cases closed
      have below := induction further
      constructor
      · exact Quotation.quiet_cons Quotation.noConfusion
          (Quotation.quiet_cons Quotation.noConfusion below.1)
      · exact below.2
  | case5 rest _ _ _ =>
      cases closed
      constructor
      · exact Quotation.quiet_cons Quotation.noConfusion trivial
      · simp [Quotation.through, Quotation.after, noBackslash]
  | case6 char rest noEnd noBreak noEscape other length isClosed further induction =>
      cases closed
      have below := induction further
      have stays := after_plain noEnd noEscape other
      rw [List.take_succ_cons]
      constructor
      · exact Quotation.quiet_cons Quotation.noConfusion (stays.symm ▸ below.1)
      · rw [Quotation.through, List.foldl_cons, stays]
        exact below.2

/-- A text in quotes that is not closed leaves the line inside of them. -/
theorem through_unclosed {quote : Char} {rest : List Char} (unbroken : '\n' ∉ rest) {extent : Nat}
    (unclosed : quotedExtent quote rest = (extent, false)) :
    (Quotation.inside quote).through rest ≠ .outside := by
  fun_induction quotedExtent quote rest generalizing extent with
  | case1 => exact Quotation.noConfusion
  | case2 => exact Quotation.noConfusion
  | case3 => exact absurd (List.mem_cons_of_mem _ List.mem_cons_self) unbroken
  | case4 escaped rest _ length isClosed further induction =>
      cases unclosed
      exact induction (fun inside => unbroken (List.mem_cons_of_mem _ (List.mem_cons_of_mem _ inside)))
        further
  | case5 => cases unclosed
  | case6 char rest noEnd noBreak noEscape other length isClosed further induction =>
      cases unclosed
      have stays := after_plain noEnd noEscape other
      rw [Quotation.through, List.foldl_cons, stays]
      exact induction (fun inside => unbroken (List.mem_cons_of_mem _ inside)) further

/-- A lexeme that opens quotes but is no token, so that they are not closed. -/
def isUnclosed (lexeme : Lexeme) : Bool :=
  lexeme.token.isNone && lexeme.slice.head?.any fun char => char == '"' || char == '\''

theorem balanced_quoted {quote : Char} (isQuote : quote = '"' ∨ quote = '\'') {rest : List Char}
    {extent : Nat} (closed : quotedExtent quote rest = (extent, true)) :
    Balanced (quote :: rest.take extent) := by
  have opens : Quotation.outside.after quote = .inside quote := by
    rcases isQuote with rfl | rfl <;> rfl
  have noBackslash : quote ≠ '\\' := by
    rcases isQuote with rfl | rfl <;> decide
  have unmarked : isCommentMark quote = false := by
    rcases isQuote with rfl | rfl <;> rfl
  have inside := quiet_quoted noBackslash closed
  constructor
  · exact ⟨by simp [unmarked], opens.symm ▸ inside.1⟩
  · rw [Quotation.through, List.foldl_cons, opens]
    exact inside.2

theorem balanced_found {char : Char} {rest : List Char} {token : Token}
    (isToken : (found char rest).token = some token) :
    Balanced (char :: rest.take (shapeAt char rest).2) := by
  have formed := shapeAt_formed char rest
  unfold found at isToken
  generalize shapeAt char rest = match_ at formed isToken
  cases formed with
  | quoted isQuote closed => exact balanced_quoted isQuote closed
  | unclosed isQuote unclosed => cases isToken
  | calm calm => exact balanced_of_calm calm
  | mark isMark => cases isToken

theorem found_of_balanced {char : Char} {rest : List Char} (unbroken : '\n' ∉ rest)
    (balanced : Balanced (char :: rest)) :
    (found char rest).isUnclosed = false ∧ Balanced (char :: rest.take (shapeAt char rest).2) := by
  have formed := shapeAt_formed char rest
  unfold found
  generalize shapeAt char rest = match_ at formed
  cases formed with
  | quoted isQuote closed => exact ⟨rfl, balanced_quoted isQuote closed⟩
  | unclosed isQuote unclosed =>
      have opens : Quotation.outside.after char = .inside char := by
        rcases isQuote with rfl | rfl <;> rfl
      have closed := balanced.closed
      rw [Quotation.through, List.foldl_cons, opens] at closed
      exact absurd closed (through_unclosed unbroken unclosed)
  | calm calm =>
      have here := calm char List.mem_cons_self
      simp only [isCalm, Bool.and_eq_true, bne_iff_ne] at here
      refine ⟨?_, balanced_of_calm calm⟩
      simp [isUnclosed, here]
  | mark isMark => exact absurd ⟨rfl, isMark⟩ balanced.quiet.1

theorem balanced_separator {char : Char} (separates : isSeparator char) : Balanced [char] :=
  balanced_of_calm (List.forall_mem_singleton.mpr (isCalm_of_separator separates))

theorem balanced_of_legible {text : List Char} (legible : Legible text) : Balanced text := by
  unfold Legible at legible
  fun_induction scan text with
  | case1 => exact ⟨trivial, rfl⟩
  | case2 char rest separates induction => exact (balanced_separator separates).append (induction legible)
  | case3 char rest separates induction =>
      rcases List.forall_mem_cons.mp legible with ⟨here, further⟩
      obtain ⟨token, isToken⟩ := Option.ne_none_iff_exists'.mp here
      have whole := (balanced_found isToken).append (induction further)
      rwa [List.cons_append, List.take_append_drop] at whole

theorem closed_of_balanced {text : List Char} (unbroken : '\n' ∉ text) (balanced : Balanced text) :
    ∀ lexeme ∈ scan text, lexeme.isUnclosed = false := by
  fun_induction scan text with
  | case1 => exact fun _ member => absurd member List.not_mem_nil
  | case2 char rest separates induction =>
      exact induction (fun inside => unbroken (List.mem_cons_of_mem _ inside))
        ((balanced_separator separates).of_append balanced)
  | case3 char rest separates induction =>
      have unbrokenRest : '\n' ∉ rest := fun inside => unbroken (List.mem_cons_of_mem _ inside)
      have here := found_of_balanced unbrokenRest balanced
      refine List.forall_mem_cons.mpr ⟨here.1, induction (fun inside => ?_) (here.2.of_append ?_)⟩
      · exact unbrokenRest (List.mem_of_mem_drop inside)
      · rwa [List.cons_append, List.take_append_drop]

end Lexeme

theorem Token.balanced_of_scan {text : List Char} {tokens : List Token}
    (scanned : Token.scan text = .ok tokens) : Balanced text :=
  Lexeme.balanced_of_legible (Token.legible_of_scan scanned)

end NodeAssembly
