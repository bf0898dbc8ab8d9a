import Mathlib.Data.List.TakeWhile
import NodeAssembly.Proofs.Token.Joining
import NodeAssembly.Proofs.Token.Pattern

/-! What is matched at one place. Each shape other than the faulty ones has a
pattern: what is matched is in it, a text in it is matched as a whole, and a
match is never shorter in a longer text. -/

namespace NodeAssembly

open NodeAssembly.Text
open scoped Computability

namespace Lexeme

/-! ## What begins at a place -/

namespace Shape

/-- Whether a shape is one that a pattern matches. -/
def isMatch : Shape → Bool
  | .unclosed => false
  | .stray => false
  | _ => true

def isNumber : Shape → Bool
  | .integer => true
  | .decimal => true
  | _ => false

/-- The pattern of a number without its sign. -/
def unsigned : Shape → Language Char
  | .integer => Pattern.many Pattern.digit
  | .decimal => Pattern.pointed
  | _ => 0

def pattern : Shape → Language Char
  | .integer => Pattern.integer
  | .decimal => Pattern.decimal
  | .quoted => Pattern.quoted '"' + Pattern.quoted '\''
  | .unclosed => 0
  | .register => Pattern.register
  | .word => Pattern.name
  | .positive => Pattern.exactly '+'
  | .negative => Pattern.exactly '-'
  | .stray => 0

theorem isMatch_of_isNumber {shape : Shape} (isNumber : shape.isNumber) : shape.isMatch := by
  cases shape <;> first | rfl | cases isNumber

theorem pattern_of_isNumber {shape : Shape} (isNumber : shape.isNumber) :
    shape.pattern = Pattern.sign * shape.unsigned := by
  cases shape with
  | integer => rfl
  | decimal => exact Pattern.decimal_eq
  | _ => cases isNumber

theorem mem_quoted {text : List Char} :
    text ∈ quoted.pattern ↔ ∃ quote body, (quote = '"' ∨ quote = '\'') ∧
      body ∈ Pattern.content quote ∧ text = quote :: (body ++ [quote]) := by
  rw [pattern, Language.mem_add, Pattern.mem_quoted, Pattern.mem_quoted]
  constructor
  · rintro (⟨body, inside, same⟩ | ⟨body, inside, same⟩)
    · exact ⟨'"', body, .inl rfl, inside, same⟩
    · exact ⟨'\'', body, .inr rfl, inside, same⟩
  · rintro ⟨_, body, rfl | rfl, inside, same⟩
    · exact .inl ⟨body, inside, same⟩
    · exact .inr ⟨body, inside, same⟩

end Shape

/-- What is matched at a place, by the character there. -/
inductive Starts : Char → List Char → Shape × Nat → Prop
  | number {char : Char} {rest : List Char} (digit : isDigit char) : Starts char rest (number rest)
  | word {char : Char} {rest : List Char} (letter : isLetter char) :
      Starts char rest (.word, run isWordChar rest)
  | minus {rest : List Char} : Starts '-' rest (minus rest)
  | point {rest : List Char} : Starts '.' rest (fraction .stray rest)
  | plus {rest : List Char} : Starts '+' rest (.positive, 0)
  | quote {quote : Char} {rest : List Char} (isQuote : quote = '"' ∨ quote = '\'') :
      Starts quote rest (quotedShape quote rest)
  | register {letter : Char} {tail : List Char} (isLetter : isLetter letter) :
      Starts '$' (letter :: tail) (.register, run isWordChar tail + 1)
  | stray {char : Char} {rest : List Char} (noDouble : char ≠ '"') (noSingle : char ≠ '\'') :
      Starts char rest (.stray, 0)

theorem shapeAt_starts (char : Char) (rest : List Char) : Starts char rest (shapeAt char rest) := by
  unfold shapeAt
  split
  next digit => exact .number digit
  next =>
    split
    next letter => exact .word letter
    next =>
      split
      · exact .minus
      · exact .point
      · exact .plus
      · exact .quote (.inl rfl)
      · exact .quote (.inr rfl)
      · split
        · split
          next letter => exact .register letter
          next => exact .stray (by decide) (by decide)
        · exact .stray (by decide) (by decide)
      next noDouble noSingle _ => exact .stray noDouble noSingle

section

variable {char : Char} {rest : List Char}

theorem shapeAt_digit (digit : isDigit char) : shapeAt char rest = number rest := by
  unfold shapeAt
  rw [if_pos digit]

theorem shapeAt_letter (letter : isLetter char) :
    shapeAt char rest = (.word, run isWordChar rest) := by
  simp [shapeAt, isDigit_of_isLetter letter, letter]

theorem shapeAt_register (letter : isLetter char) :
    shapeAt '$' (char :: rest) = (.register, run isWordChar rest + 1) := by
  have noDigit : isDigit '$' = false := by decide
  have noLetter : isLetter '$' = false := by decide
  simp [shapeAt, noDigit, noLetter, letter]

theorem shapeAt_separator (separates : isSeparator char) : shapeAt char rest = (.stray, 0) := by
  rcases separator_cases separates with rfl | rfl | rfl | rfl | rfl | rfl <;> rfl

end

theorem fraction_zero {otherwise : Shape} {text : List Char} (none : run isDigit text = 0) :
    fraction otherwise text = (otherwise, 0) := by
  simp only [fraction, none]

theorem fraction_pos {otherwise : Shape} {text : List Char} (some : 0 < run isDigit text) :
    fraction otherwise text = (.decimal, run isDigit text) := by
  unfold fraction
  split
  next none => exact absurd some (none ▸ Nat.lt_irrefl 0)
  next => rfl

theorem number_isNumber (text : List Char) : (number text).1.isNumber := by
  unfold number
  simp only
  split <;> rfl

theorem digits_of_isMatch {text : List Char} (isMatch : (fraction .stray text).1.isMatch) :
    0 < run isDigit text := by
  rcases Nat.eq_zero_or_pos (run isDigit text) with none | some
  · rw [fraction_zero none] at isMatch
    cases isMatch
  · exact some

theorem quotedShape_cases (quote : Char) (text : List Char) :
    (quotedShape quote text).1 = .quoted ∨ (quotedShape quote text).1 = .unclosed := by
  unfold quotedShape
  rcases quotedExtent quote text with ⟨extent, _ | _⟩
  · exact .inr rfl
  · exact .inl rfl

theorem quotedExtent_of_isMatch {quote : Char} {text : List Char}
    (isMatch : (quotedShape quote text).1.isMatch) :
    ∃ extent, quotedExtent quote text = (extent, true) := by
  apply quotedExtent_of_shape
  intro unclosed
  rw [unclosed] at isMatch
  cases isMatch

/-! ## Numbers -/

section

variable {first : Char} {rest : List Char}

theorem first_of_isNumber (isNumber : (shapeAt first rest).1.isNumber) :
    first = '-' ∨ first = '.' ∨ isDigit first := by
  have starts := shapeAt_starts first rest
  generalize shapeAt first rest = found at isNumber starts
  cases starts with
  | number digit => exact .inr (.inr digit)
  | minus => exact .inl rfl
  | point => exact .inr (.inl rfl)
  | quote =>
      rcases quotedShape_cases first rest with isShape | isShape <;>
        · rw [isShape] at isNumber
          cases isNumber
  | word | plus | register | stray => cases isNumber

/-- After a minus sign stands a number without a sign, or the minus is alone. -/
theorem minus_of_unsigned (noMinus : first ≠ '-') :
    minus (first :: rest) =
      if (shapeAt first rest).1.isNumber then
        ((shapeAt first rest).1, (shapeAt first rest).2 + 1)
      else (.negative, 0) := by
  by_cases isPoint : first = '.'
  · subst isPoint
    have shaped : shapeAt '.' rest = fraction .stray rest := rfl
    rw [shaped, minus]
    rcases Nat.eq_zero_or_pos (run isDigit rest) with none | some
    · rw [fraction_zero none, fraction_zero none]
      rfl
    · rw [fraction_pos some, fraction_pos some]
      rfl
  · rw [minus_of_other isPoint]
    by_cases digit : isDigit first
    · rw [if_pos digit, shapeAt_digit digit, if_pos (number_isNumber rest)]
    · rw [if_neg digit, if_neg]
      intro isNumber
      rcases first_of_isNumber isNumber with isMinus | isPoint' | isDigit
      · exact noMinus isMinus
      · exact isPoint isPoint'
      · exact digit isDigit

theorem minus_cases (rest : List Char) : minus rest = (.negative, 0) ∨
    ∃ first tail, rest = first :: tail ∧ first ≠ '-' ∧ (shapeAt first tail).1.isNumber ∧
      minus rest = ((shapeAt first tail).1, (shapeAt first tail).2 + 1) := by
  cases rest with
  | nil => exact .inl rfl
  | cons first tail =>
      by_cases isMinus : first = '-'
      · subst isMinus
        exact .inl rfl
      · rw [minus_of_unsigned isMinus]
        split
        next isNumber => exact .inr ⟨first, tail, rfl, isMinus, isNumber, rfl⟩
        next => exact .inl rfl

theorem take_number (rest : List Char) :
    (number rest).1 = .integer ∧ rest.take (number rest).2 = rest.takeWhile isDigit ∨
    (number rest).1 = .decimal ∧ ∃ fraction, (∀ char ∈ fraction, isDigit char) ∧
      rest.take (number rest).2 = rest.takeWhile isDigit ++ '.' :: fraction := by
  by_cases point : (rest.drop (run isDigit rest)).head? = some '.'
  · obtain ⟨fraction, isPoint⟩ := List.head?_eq_some_iff.mp point
    rw [number_of_point isPoint]
    refine .inr ⟨rfl, fraction.takeWhile isDigit, fun _ => List.mem_takeWhile_imp, ?_⟩
    rw [Nat.add_assoc, List.take_add, isPoint, Nat.add_comm 1, List.take_succ_cons, take_run,
      take_run]
  · rw [number_of_other point]
    exact .inl ⟨rfl, take_run isDigit rest⟩

/-- An unsigned number matches its pattern. -/
theorem take_unsigned (noMinus : first ≠ '-') (isNumber : (shapeAt first rest).1.isNumber) :
    first :: rest.take (shapeAt first rest).2 ∈ (shapeAt first rest).1.unsigned := by
  rcases first_of_isNumber isNumber with isMinus | rfl | digit
  · exact absurd isMinus noMinus
  · have some := digits_of_isMatch (Shape.isMatch_of_isNumber isNumber)
    change '.' :: rest.take (fraction .stray rest).2 ∈ (fraction .stray rest).1.unsigned
    rw [fraction_pos some, take_run]
    exact Pattern.mem_pointed.mpr ⟨[], _, rfl, nofun, fun _ => List.mem_takeWhile_imp,
      .inr (List.length_pos_iff.mp some)⟩
  · rw [shapeAt_digit digit]
    have digits : ∀ char ∈ first :: rest.takeWhile isDigit, isDigit char :=
      List.forall_mem_cons.mpr ⟨digit, fun _ => List.mem_takeWhile_imp⟩
    rcases take_number rest with ⟨shape, slice⟩ | ⟨shape, fraction, others, slice⟩
    · rw [shape, slice]
      exact Pattern.mem_many_digit.mpr ⟨List.cons_ne_nil _ _, digits⟩
    · rw [shape, slice]
      exact Pattern.mem_pointed.mpr ⟨_, fraction, rfl, digits, others, .inl (List.cons_ne_nil _ _)⟩

theorem run_all {condition : Char → Bool} {text : List Char}
    (holds : ∀ char ∈ text, condition char) : run condition text = text.length := by
  rw [run, List.takeWhile_eq_self_iff.mpr holds]

/-- A text in the pattern of an unsigned number is that number as a whole. -/
theorem shapeAt_of_unsigned {shape : Shape} (member : first :: rest ∈ shape.unsigned) :
    first ≠ '-' ∧ shapeAt first rest = (shape, rest.length) := by
  have noMinus (digit : isDigit first) : first ≠ '-' := by
    rintro rfl
    exact absurd digit (by decide)
  cases shape with
  | integer =>
      rcases List.forall_mem_cons.mp (Pattern.mem_many_digit.mp member).2 with ⟨digit, others⟩
      refine ⟨noMinus digit, ?_⟩
      rw [shapeAt_digit digit, number_of_other, run_all others]
      rw [run_all others, List.drop_length]
      nofun
  | decimal =>
      rcases Pattern.mem_pointed.mp member with ⟨whole, decimals, slice, areDigits, others, filled⟩
      cases whole with
      | nil =>
          rcases List.cons.inj slice with ⟨rfl, rfl⟩
          refine ⟨by decide, ?_⟩
          have some : 0 < run isDigit rest := by
            rw [run_all others]
            exact List.length_pos_iff.mpr (filled.resolve_left fun filled => filled rfl)
          change fraction .stray rest = _
          rw [fraction_pos some, run_all others]
      | cons digit digits =>
          rw [List.cons_append, List.cons.injEq] at slice
          rcases slice with ⟨rfl, rfl⟩
          rcases List.forall_mem_cons.mp areDigits with ⟨isFirst, areDigits⟩
          refine ⟨noMinus isFirst, ?_⟩
          have length : run isDigit (digits ++ '.' :: decimals) = digits.length := by
            rw [run_gap (by decide), run_all areDigits]
          have point : (digits ++ '.' :: decimals).drop (run isDigit (digits ++ '.' :: decimals)) =
              '.' :: decimals := by
            rw [length, List.drop_left]
          rw [shapeAt_digit isFirst, number_of_point point, length, run_all others,
            List.length_append, List.length_cons, Nat.add_right_comm, Nat.add_assoc]
  | _ => exact absurd member (Language.notMem_zero _)

end

/-! ## Quotes -/

section

variable {quote : Char} {body text : List Char}

/-- What may stand in quotes is passed over. -/
theorem quotedExtent_content (inside : body ∈ Pattern.content quote) (more : List Char) :
    quotedExtent quote (body ++ more) =
      (body.length + (quotedExtent quote more).1, (quotedExtent quote more).2) := by
  fun_induction quotedExtent quote body with
  | case1 => simp
  | case2 => exact absurd inside Pattern.backslash_not_mem_content
  | case3 => exact absurd rfl (Pattern.mem_content_escape.mp inside).1
  | case4 escaped rest noBreak extent closed further induction =>
      have others := induction (Pattern.mem_content_escape.mp inside).2
      rw [List.cons_append, List.cons_append, quotedExtent, others, List.length_cons,
        List.length_cons]
      · simp only [Prod.mk.injEq, and_true]
        omega
      · exact noBreak
  | case5 rest noEnd _ noEscape =>
      exact absurd rfl ((Pattern.mem_content_cons (noBackslash_of noEnd noEscape)).mp inside).1
  | case6 char rest noEnd noBreak noEscape other extent closed further induction =>
      have plain := noBackslash_of noEnd noEscape
      have others := induction ((Pattern.mem_content_cons plain).mp inside).2
      rw [List.cons_append, quotedExtent_plain plain, if_neg other, others, List.length_cons,
        Nat.add_right_comm]

theorem quotedExtent_closing (noBackslash : quote ≠ '\\') (inside : body ∈ Pattern.content quote)
    (more : List Char) :
    quotedExtent quote (body ++ quote :: more) = (body.length + 1, true) := by
  rw [quotedExtent_content inside, quotedExtent_plain noBackslash, if_pos rfl]

/-- What is passed over may stand in quotes, up to the quote that closes them. -/
theorem take_quoted (quote : Char) (text : List Char) :
    ∃ body ∈ Pattern.content quote, text.take (quotedExtent quote text).1 =
      if (quotedExtent quote text).2 then body ++ [quote] else body := by
  have nothing : [] ∈ Pattern.content quote := Language.nil_mem_kstar _
  fun_induction quotedExtent quote text with
  | case1 => exact ⟨[], nothing, rfl⟩
  | case2 => exact ⟨[], nothing, rfl⟩
  | case3 => exact ⟨[], nothing, rfl⟩
  | case4 escaped rest noBreak extent closed further induction =>
      rcases induction with ⟨body, inside, slice⟩
      refine ⟨'\\' :: escaped :: body, Pattern.mem_content_escape.mpr ⟨noBreak, inside⟩, ?_⟩
      rw [further] at slice
      simp only [List.take_succ_cons, slice]
      split <;> rfl
  | case5 rest => exact ⟨[], nothing, rfl⟩
  | case6 char rest noEnd noBreak noEscape other extent closed further induction =>
      rcases induction with ⟨body, inside, slice⟩
      have plain := noBackslash_of noEnd noEscape
      refine ⟨char :: body, (Pattern.mem_content_cons plain).mpr ⟨other, inside⟩, ?_⟩
      rw [further] at slice
      simp only [List.take_succ_cons, slice]
      split <;> rfl

end

/-! ## Longer texts -/

section

variable {char : Char} {text : List Char}

theorem run_le_append (condition : Char → Bool) (text more : List Char) :
    run condition text ≤ run condition (text ++ more) := by
  rw [run, run, List.takeWhile_append]
  split
  next all =>
    rw [List.length_append, all]
    exact Nat.le_add_right _ _
  next => exact Nat.le.refl

theorem run_le_number (text : List Char) : run isDigit text ≤ (number text).2 := by
  unfold number
  simp only
  split
  · omega
  · exact Nat.le.refl

theorem number_le_append (text more : List Char) : (number text).2 ≤ (number (text ++ more)).2 := by
  by_cases point : (text.drop (run isDigit text)).head? = some '.'
  · obtain ⟨fraction, isPoint⟩ := List.head?_eq_some_iff.mp point
    -- The point ends the digits before it, whatever follows the text.
    have parts : text = text.takeWhile isDigit ++ '.' :: fraction := by
      conv_lhs => rw [← List.take_append_drop (run isDigit text) text, take_run, isPoint]
    have same : run isDigit (text ++ more) = run isDigit text := by
      conv_lhs => rw [parts, List.append_assoc, List.cons_append]
      conv_rhs => rw [parts]
      rw [run_gap (by decide), run_gap (by decide)]
    have isPointToo :
        (text ++ more).drop (run isDigit (text ++ more)) = '.' :: (fraction ++ more) := by
      rw [same, List.drop_append_of_le_length (run_le isDigit text), isPoint, List.cons_append]
    rw [number_of_point isPoint, number_of_point isPointToo, same]
    exact Nat.add_le_add_left (run_le_append isDigit fraction more) _
  · rw [number_of_other point]
    exact (run_le_append isDigit text more).trans (run_le_number _)

theorem unsigned_le_append (noMinus : char ≠ '-') (isNumber : (shapeAt char text).1.isNumber)
    (more : List Char) : (shapeAt char (text ++ more)).1.isNumber ∧
      (shapeAt char text).2 ≤ (shapeAt char (text ++ more)).2 := by
  rcases first_of_isNumber isNumber with isMinus | rfl | digit
  · exact absurd isMinus noMinus
  · have some := digits_of_isMatch (Shape.isMatch_of_isNumber isNumber)
    have longer := run_le_append isDigit text more
    change (fraction .stray (text ++ more)).1.isNumber ∧
      (fraction .stray text).2 ≤ (fraction .stray (text ++ more)).2
    rw [fraction_pos some, fraction_pos (Nat.lt_of_lt_of_le some longer)]
    exact ⟨rfl, longer⟩
  · rw [shapeAt_digit digit, shapeAt_digit digit]
    exact ⟨number_isNumber _, number_le_append text more⟩

theorem minus_isMatch (text : List Char) : (minus text).1.isMatch := by
  rcases minus_cases text with alone | ⟨first, tail, rfl, _, isNumber, signed⟩
  · rw [alone]
    rfl
  · rw [signed]
    exact Shape.isMatch_of_isNumber isNumber

theorem minus_le_append (text more : List Char) : (minus text).2 ≤ (minus (text ++ more)).2 := by
  rcases minus_cases text with alone | ⟨first, tail, rfl, noMinus, isNumber, signed⟩
  · rw [alone]
    exact Nat.zero_le _
  · rcases unsigned_le_append noMinus isNumber more with ⟨isNumberToo, longer⟩
    rw [signed, List.cons_append, minus_of_unsigned noMinus, if_pos isNumberToo]
    exact Nat.succ_le_succ longer

/-- A match is still one in a longer text, and no shorter. -/
theorem shapeAt_le_append (isMatch : (shapeAt char text).1.isMatch) (more : List Char) :
    (shapeAt char (text ++ more)).1.isMatch ∧
      (shapeAt char text).2 ≤ (shapeAt char (text ++ more)).2 := by
  have starts := shapeAt_starts char text
  generalize found : shapeAt char text = match_ at isMatch starts
  cases starts with
  | number digit =>
      rw [shapeAt_digit digit]
      exact ⟨Shape.isMatch_of_isNumber (number_isNumber _), number_le_append text more⟩
  | word letter =>
      rw [shapeAt_letter letter]
      exact ⟨rfl, run_le_append isWordChar text more⟩
  | minus => exact ⟨minus_isMatch _, minus_le_append text more⟩
  | point =>
      have isNumber : (shapeAt '.' text).1.isNumber := by
        rw [found, fraction_pos (digits_of_isMatch isMatch)]
        rfl
      rcases unsigned_le_append (by decide) isNumber more with ⟨isNumberToo, longer⟩
      rw [found] at longer
      exact ⟨Shape.isMatch_of_isNumber isNumberToo, longer⟩
  | plus => exact ⟨rfl, Nat.le.refl⟩
  | quote isQuote =>
      rcases quotedExtent_of_isMatch isMatch with ⟨extent, isClosed⟩
      rw [shapeAt_quote isQuote, quotedShape_of_closed isClosed,
        quotedShape_of_closed (quotedExtent_append isClosed more)]
      exact ⟨rfl, Nat.le.refl⟩
  | @register letter tail isLetter =>
      rw [List.cons_append, shapeAt_register isLetter]
      exact ⟨rfl, Nat.succ_le_succ (run_le_append isWordChar tail more)⟩
  | stray => cases isMatch

end

/-! ## Patterns and shapes -/

section

variable {char : Char} {rest : List Char}

theorem take_isNumber {shape : Shape} (isNumber : shape.isNumber) {text : List Char}
    (member : text ∈ shape.unsigned) : text ∈ shape.pattern ∧ '-' :: text ∈ shape.pattern := by
  rw [Shape.pattern_of_isNumber isNumber, Pattern.mem_sign_mul, Pattern.mem_sign_mul]
  exact ⟨.inl member, .inr ⟨text, rfl, member⟩⟩

/-- What is matched is in its pattern. -/
theorem take_shapeAt (isMatch : (shapeAt char rest).1.isMatch) :
    char :: rest.take (shapeAt char rest).2 ∈ (shapeAt char rest).1.pattern := by
  have starts := shapeAt_starts char rest
  generalize found : shapeAt char rest = match_ at isMatch starts
  have unsigned (noMinus : char ≠ '-') (isNumber : match_.1.isNumber) :
      char :: rest.take match_.2 ∈ match_.1.pattern := by
    rw [← found] at isNumber ⊢
    exact (take_isNumber isNumber (take_unsigned noMinus isNumber)).1
  cases starts with
  | number digit =>
      refine unsigned ?_ (number_isNumber rest)
      rintro rfl
      exact absurd digit (by decide)
  | word letter =>
      rw [take_run]
      exact Pattern.cons_mem_name.mpr ⟨letter, fun _ => List.mem_takeWhile_imp⟩
  | minus =>
      rcases minus_cases rest with alone | ⟨first, tail, rfl, noMinus, isNumber, signed⟩
      · rw [alone]
        exact Pattern.mem_exactly.mpr rfl
      · rw [signed, List.take_succ_cons]
        exact (take_isNumber isNumber (take_unsigned noMinus isNumber)).2
  | point =>
      refine unsigned (by decide) ?_
      rw [fraction_pos (digits_of_isMatch isMatch)]
      rfl
  | plus => exact Pattern.mem_exactly.mpr rfl
  | quote isQuote =>
      rcases quotedExtent_of_isMatch isMatch with ⟨extent, isClosed⟩
      rcases take_quoted char rest with ⟨body, inside, slice⟩
      rw [isClosed, if_pos rfl] at slice
      rw [quotedShape_of_closed isClosed, slice]
      exact Shape.mem_quoted.mpr ⟨char, body, isQuote, inside, rfl⟩
  | @register letter tail isLetter =>
      rw [List.take_succ_cons, take_run]
      exact Pattern.mem_exactly_mul.mpr ⟨_, rfl,
        Pattern.cons_mem_name.mpr ⟨isLetter, fun _ => List.mem_takeWhile_imp⟩⟩
  | stray => cases isMatch

theorem shapeAt_of_quoted (member : char :: rest ∈ Shape.quoted.pattern) :
    shapeAt char rest = (.quoted, rest.length) := by
  rcases Shape.mem_quoted.mp member with ⟨quote, body, isQuote, inside, slice⟩
  rcases List.cons.inj slice with ⟨rfl, rfl⟩
  have noBackslash : char ≠ '\\' := by
    rcases isQuote with rfl | rfl <;> decide
  rw [shapeAt_quote isQuote, quotedShape_of_closed (quotedExtent_closing noBackslash inside []),
    List.length_append, List.length_singleton]

theorem nil_not_mem_unsigned (shape : Shape) : [] ∉ shape.unsigned := by
  intro member
  cases shape with
  | integer => exact (Pattern.mem_many_digit.mp member).1 rfl
  | decimal =>
      rcases Pattern.mem_pointed.mp member with ⟨whole, _, slice, _⟩
      simp at slice
  | _ => exact Language.notMem_zero _ member

/-- A text in a pattern is matched as a whole, and by that pattern only. -/
theorem shapeAt_of_pattern {shape : Shape} (member : char :: rest ∈ shape.pattern) :
    shapeAt char rest = (shape, rest.length) := by
  have number (isNumber : shape.isNumber) : shapeAt char rest = (shape, rest.length) := by
    rw [Shape.pattern_of_isNumber isNumber, Pattern.mem_sign_mul] at member
    rcases member with unsigned | ⟨_, same, unsigned⟩
    · exact (shapeAt_of_unsigned unsigned).2
    · rcases List.cons.inj same with ⟨rfl, rfl⟩
      cases rest with
      | nil => exact absurd unsigned (nil_not_mem_unsigned shape)
      | cons first tail =>
          rcases shapeAt_of_unsigned unsigned with ⟨noMinus, shaped⟩
          change minus (first :: tail) = _
          rw [minus_of_unsigned noMinus, shaped, if_pos isNumber, List.length_cons]
  cases shape with
  | integer => exact number rfl
  | decimal => exact number rfl
  | quoted => exact shapeAt_of_quoted member
  | register =>
      rcases Pattern.mem_exactly_mul.mp member with ⟨_, same, isName⟩
      rcases List.cons.inj same with ⟨rfl, rfl⟩
      cases rest with
      | nil =>
          rcases Pattern.mem_one_mul.mp isName with ⟨_, _, same, _⟩
          cases same
      | cons first tail =>
          rcases Pattern.cons_mem_name.mp isName with ⟨letter, others⟩
          rw [shapeAt_register letter, run_all others, List.length_cons]
  | word =>
      rcases Pattern.cons_mem_name.mp member with ⟨letter, others⟩
      rw [shapeAt_letter letter, run_all others]
  | positive =>
      cases Pattern.mem_exactly.mp member
      rfl
  | negative =>
      cases Pattern.mem_exactly.mp member
      rfl
  | unclosed => exact absurd member (Language.notMem_zero _)
  | stray => exact absurd member (Language.notMem_zero _)

theorem nil_not_mem_pattern (shape : Shape) : [] ∉ shape.pattern := by
  intro member
  by_cases isNumber : shape.isNumber
  · rw [Shape.pattern_of_isNumber isNumber, Pattern.mem_sign_mul] at member
    rcases member with unsigned | ⟨_, empty, _⟩
    · exact nil_not_mem_unsigned shape unsigned
    · cases empty
  · cases shape with
    | integer => exact isNumber rfl
    | decimal => exact isNumber rfl
    | quoted =>
        rcases Shape.mem_quoted.mp member with ⟨_, _, _, _, empty⟩
        cases empty
    | register =>
        rcases Pattern.mem_exactly_mul.mp member with ⟨_, empty, _⟩
        cases empty
    | word =>
        rcases Pattern.mem_one_mul.mp member with ⟨_, _, empty, _⟩
        cases empty
    | positive => cases Pattern.mem_exactly.mp member
    | negative => cases Pattern.mem_exactly.mp member
    | unclosed => exact Language.notMem_zero _ member
    | stray => exact Language.notMem_zero _ member

theorem isMatch_of_pattern {shape : Shape} {text : List Char} (member : text ∈ shape.pattern) :
    shape.isMatch := by
  cases shape <;> first | rfl | exact absurd member (Language.notMem_zero _)

end

end Lexeme

end NodeAssembly
