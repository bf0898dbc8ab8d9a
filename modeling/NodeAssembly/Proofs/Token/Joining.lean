import Mathlib.Data.List.Induction
import NodeAssembly.Proofs.Source.Rendering
import NodeAssembly.Proofs.Token.Spelling

/-! Scanning texts piece by piece. Texts that scan on their own scan one after the
other when a separator is put between them, and blanks around a text do not
matter. -/

namespace NodeAssembly

open NodeAssembly.Text

namespace Lexeme

/-- A character that no token goes on with: one that is blank or a separator. -/
def isGap (char : Char) : Bool :=
  isSeparator char || isBlank char

/-- What a gap is not. -/
structure Stops (char : Char) : Prop where
  noWord : isWordChar char = false
  noPoint : char ≠ '.'
  noDouble : char ≠ '"'
  noSingle : char ≠ '\''

theorem stops_of_gap {char : Char} (gap : isGap char) : Stops char := by
  rcases Bool.or_eq_true_iff.mp gap with separates | blank
  · rcases separator_cases separates with rfl | rfl | rfl | rfl | rfl | rfl <;>
      exact ⟨by decide, by decide, by decide, by decide⟩
  · refine ⟨?_, ?_, ?_, ?_⟩
    · cases isWord : isWordChar char with
      | false => rfl
      | true =>
          have solid := isSolid_of_isWordChar isWord
          simp [isSolid, blank] at solid
    all_goals
      rintro rfl
      cases blank

theorem Stops.noDigit {char : Char} (stops : Stops char) : isDigit char = false :=
  isDigit_of_isWordChar_false stops.noWord

theorem Stops.noLetter {char : Char} (stops : Stops char) : isLetter char = false := by
  have noWord := stops.noWord
  simp only [isWordChar, Bool.or_eq_false_iff] at noWord
  exact noWord.1.1

variable {gap : Char}

theorem run_gap {condition : Char → Bool} (fails : condition gap = false) (text more : List Char) :
    run condition (text ++ gap :: more) = run condition text := by
  have nothing : (gap :: more).takeWhile condition = [] :=
    List.takeWhile_cons_of_neg (by simp [fails])
  rw [run, run, List.takeWhile_append, nothing, List.append_nil]
  split
  next all => exact all.symm
  next => rfl

theorem run_le (condition : Char → Bool) (text : List Char) : run condition text ≤ text.length :=
  (List.takeWhile_sublist condition).length_le

theorem take_run (condition : Char → Bool) (text : List Char) :
    text.take (run condition text) = text.takeWhile condition :=
  (List.prefix_iff_eq_take.mp (List.takeWhile_prefix condition)).symm

theorem number_of_point {text fraction : List Char}
    (point : text.drop (run isDigit text) = '.' :: fraction) :
    number text = (.decimal, run isDigit text + 1 + run isDigit fraction) := by
  simp only [number, point]

theorem number_of_other {text : List Char}
    (noPoint : (text.drop (run isDigit text)).head? ≠ some '.') :
    number text = (.integer, run isDigit text) := by
  unfold number
  simp only
  split
  next point =>
    rw [point] at noPoint
    exact absurd rfl noPoint
  next => rfl

theorem number_gap (stops : Stops gap) (text more : List Char) :
    number (text ++ gap :: more) = number text := by
  have digits : run isDigit (text ++ gap :: more) = run isDigit text := run_gap stops.noDigit text more
  have rest : (text ++ gap :: more).drop (run isDigit (text ++ gap :: more)) =
      text.drop (run isDigit text) ++ gap :: more := by
    rw [digits]
    exact List.drop_append_of_le_length (run_le isDigit text)
  by_cases point : (text.drop (run isDigit text)).head? = some '.'
  · obtain ⟨fraction, isPoint⟩ := List.head?_eq_some_iff.mp point
    rw [isPoint, List.cons_append] at rest
    rw [number_of_point rest, number_of_point isPoint, digits, run_gap stops.noDigit]
  · have noPoint : ((text ++ gap :: more).drop (run isDigit (text ++ gap :: more))).head? ≠ some '.' := by
      rw [rest]
      cases isRest : text.drop (run isDigit text) with
      | nil =>
          intro isPoint
          exact stops.noPoint (Option.some.inj isPoint)
      | cons head tail =>
          rw [isRest] at point
          exact point
    rw [number_of_other noPoint, number_of_other point, digits]

theorem number_le (text : List Char) : (number text).2 ≤ text.length := by
  have digits := run_le isDigit text
  unfold number
  simp only
  split
  next fraction isPoint =>
    have more := run_le isDigit fraction
    have length := congrArg List.length isPoint
    rw [List.length_drop, List.length_cons] at length
    simp only
    omega
  next => exact digits

theorem fraction_gap (stops : Stops gap) (otherwise : Shape) (text more : List Char) :
    fraction otherwise (text ++ gap :: more) = fraction otherwise text := by
  rw [fraction, fraction, run_gap stops.noDigit]

theorem fraction_le (otherwise : Shape) (text : List Char) :
    (fraction otherwise text).2 ≤ text.length := by
  unfold fraction
  split
  · exact Nat.zero_le _
  · exact run_le isDigit text

theorem minus_of_other {first : Char} (noPoint : first ≠ '.') (rest : List Char) :
    minus (first :: rest) =
      if isDigit first then ((number rest).1, (number rest).2 + 1) else (.negative, 0) := by
  rw [minus]
  exact noPoint

theorem minus_gap (stops : Stops gap) (text more : List Char) :
    minus (text ++ gap :: more) = minus text := by
  cases text with
  | nil =>
      rw [List.nil_append, minus_of_other stops.noPoint, stops.noDigit]
      rfl
  | cons head tail =>
      by_cases isPoint : head = '.'
      · subst isPoint
        simp only [List.cons_append, minus, fraction_gap stops]
      · rw [List.cons_append, minus_of_other isPoint, minus_of_other isPoint, number_gap stops]

theorem minus_le (text : List Char) : (minus text).2 ≤ text.length := by
  cases text with
  | nil => exact Nat.le.refl
  | cons head tail =>
      by_cases isPoint : head = '.'
      · subst isPoint
        have digits := fraction_le .negative tail
        unfold minus
        simp only
        split
        next extent isFraction =>
          rw [isFraction] at digits
          exact Nat.succ_le_succ digits
        next => exact Nat.le_succ_of_le digits
      · have digits := number_le tail
        rw [minus_of_other isPoint, List.length_cons]
        split
        · exact Nat.succ_le_succ digits
        · exact Nat.zero_le _

theorem quotedExtent_le (quote : Char) (text : List Char) :
    (quotedExtent quote text).1 ≤ text.length := by
  fun_induction quotedExtent quote text with
  | case1 => exact Nat.le.refl
  | case2 => exact Nat.zero_le _
  | case3 => exact Nat.zero_le _
  | case4 escaped rest _ extent closed further induction =>
      rw [further] at induction
      simp only [List.length_cons]
      omega
  | case5 rest => simp
  | case6 char rest _ _ _ _ extent closed further induction =>
      rw [further] at induction
      simp only [List.length_cons]
      omega

/-- A character that no escape starts with. -/
theorem noBackslash_of {char : Char} {rest : List Char} (noEnd : char = '\\' → rest = [] → False)
    (noEscape : ∀ next tail, char = '\\' → rest = next :: tail → False) : char ≠ '\\' := by
  intro isBackslash
  cases rest with
  | nil => exact noEnd isBackslash rfl
  | cons next rest => exact noEscape next rest isBackslash rfl

theorem quotedExtent_plain {quote char : Char} (plain : char ≠ '\\') (rest : List Char) :
    quotedExtent quote (char :: rest) =
      if char = quote then (1, true)
      else ((quotedExtent quote rest).1 + 1, (quotedExtent quote rest).2) := by
  rw [quotedExtent]
  · exact fun isBackslash _ => plain isBackslash
  · exact fun _ isBackslash _ => plain isBackslash
  · exact fun _ _ isBackslash _ => plain isBackslash

/-- What follows closed quotes does not matter to them. -/
theorem quotedExtent_append {quote : Char} {text : List Char} {extent : Nat}
    (closed : quotedExtent quote text = (extent, true)) (more : List Char) :
    quotedExtent quote (text ++ more) = (extent, true) := by
  fun_induction quotedExtent quote text generalizing extent with
  | case1 => cases closed
  | case2 => cases closed
  | case3 => cases closed
  | case4 escaped rest noBreak extent isClosed further induction =>
      cases closed
      rw [List.cons_append, List.cons_append, quotedExtent, induction further]
      exact noBreak
  | case5 rest noEnd _ noEscape =>
      rw [List.cons_append, quotedExtent_plain (noBackslash_of noEnd noEscape), if_pos rfl, closed]
  | case6 char rest noEnd noBreak noEscape other extent isClosed further induction =>
      cases closed
      rw [List.cons_append, quotedExtent_plain (noBackslash_of noEnd noEscape), if_neg other,
        induction further]

/-- Quotes that are closed are closed before a character that is no quote. -/
theorem quotedExtent_of_append {quote char : Char} (noQuote : char ≠ quote) {text : List Char}
    {extent : Nat} (closed : quotedExtent quote (text ++ [char]) = (extent, true)) :
    quotedExtent quote text = (extent, true) := by
  fun_induction quotedExtent quote text generalizing extent with
  | case1 =>
      by_cases isBackslash : char = '\\'
      · subst isBackslash
        cases closed
      · rw [List.nil_append, quotedExtent_plain isBackslash, if_neg noQuote] at closed
        cases closed
  | case2 =>
      by_cases isBreak : char = '\n'
      · subst isBreak
        cases closed
      · rw [List.cons_append, List.nil_append, quotedExtent] at closed
        · cases closed
        · exact isBreak
  | case3 => cases closed
  | case4 escaped rest noBreak extent isClosed further induction =>
      rw [List.cons_append, List.cons_append, quotedExtent] at closed
      · rcases inner : quotedExtent quote (rest ++ [char]) with ⟨length, ends⟩
        rw [inner] at closed
        cases closed
        rw [induction inner] at further
        cases further
        rfl
      · exact noBreak
  | case5 rest noEnd _ noEscape =>
      rwa [List.cons_append, quotedExtent_plain (noBackslash_of noEnd noEscape), if_pos rfl] at closed
  | case6 first rest noEnd noBreak noEscape other extent isClosed further induction =>
      rw [List.cons_append, quotedExtent_plain (noBackslash_of noEnd noEscape), if_neg other] at closed
      rcases inner : quotedExtent quote (rest ++ [char]) with ⟨length, ends⟩
      rw [inner] at closed
      cases closed
      rw [induction inner] at further
      cases further
      rfl

/-! ## Lexemes -/

theorem quotedShape_le (quote : Char) (text : List Char) :
    (quotedShape quote text).2 ≤ text.length :=
  quotedExtent_le quote text

theorem shapeAt_le (char : Char) (rest : List Char) : (shapeAt char rest).2 ≤ rest.length := by
  unfold shapeAt
  split
  · exact number_le rest
  · split
    · exact run_le isWordChar rest
    · split
      · exact minus_le rest
      · exact fraction_le .stray rest
      · exact Nat.zero_le _
      · exact quotedShape_le _ rest
      · exact quotedShape_le _ rest
      · split
        next letter tail =>
          split
          · exact Nat.succ_le_succ (run_le isWordChar tail)
          · exact Nat.zero_le _
        next => exact Nat.zero_le _
      · exact Nat.zero_le _

theorem quotedShape_of_closed {quote : Char} {text : List Char} {extent : Nat}
    (closed : quotedExtent quote text = (extent, true)) : quotedShape quote text = (.quoted, extent) := by
  rw [quotedShape, closed]
  rfl

theorem quotedExtent_of_shape {quote : Char} {text : List Char}
    (closed : (quotedShape quote text).1 ≠ .unclosed) :
    ∃ extent, quotedExtent quote text = (extent, true) := by
  unfold quotedShape at closed
  rcases extent : quotedExtent quote text with ⟨length, _ | _⟩
  · rw [extent] at closed
    exact absurd rfl closed
  · exact ⟨length, rfl⟩

theorem shapeAt_quote {quote : Char} (isQuote : quote = '"' ∨ quote = '\'') (rest : List Char) :
    shapeAt quote rest = quotedShape quote rest := by
  rcases isQuote with rfl | rfl <;> rfl

theorem shapeAt_gap_of_other (stops : Stops gap) {char : Char} (noDouble : char ≠ '"')
    (noSingle : char ≠ '\'') (rest more : List Char) :
    shapeAt char (rest ++ gap :: more) = shapeAt char rest := by
  unfold shapeAt
  split
  · exact number_gap stops rest more
  · split
    · rw [run_gap stops.noWord]
    · split
      · exact minus_gap stops rest more
      · exact fraction_gap stops .stray rest more
      · rfl
      · exact absurd rfl noDouble
      · exact absurd rfl noSingle
      · cases rest with
        | nil => simp [stops.noLetter]
        | cons letter tail => simp only [List.cons_append, run_gap stops.noWord]
      · rfl

/-- A match that is no open quote ends before a gap. -/
theorem shapeAt_gap (stops : Stops gap) {char : Char} {rest : List Char}
    (closed : (shapeAt char rest).1 ≠ .unclosed) (more : List Char) :
    shapeAt char (rest ++ gap :: more) = shapeAt char rest := by
  by_cases isQuote : char = '"' ∨ char = '\''
  · rw [shapeAt_quote isQuote] at closed ⊢
    rw [shapeAt_quote isQuote]
    rcases quotedExtent_of_shape closed with ⟨extent, isClosed⟩
    rw [quotedShape_of_closed isClosed, quotedShape_of_closed (quotedExtent_append isClosed _)]
  · rw [not_or] at isQuote
    exact shapeAt_gap_of_other stops isQuote.1 isQuote.2 rest more

theorem shapeAt_of_gap (stops : Stops gap) {char : Char} {rest : List Char}
    (closed : (shapeAt char (rest ++ [gap])).1 ≠ .unclosed) :
    shapeAt char (rest ++ [gap]) = shapeAt char rest := by
  by_cases isQuote : char = '"' ∨ char = '\''
  · rw [shapeAt_quote isQuote] at closed ⊢
    rw [shapeAt_quote isQuote]
    have noQuote : gap ≠ char := by
      rcases isQuote with rfl | rfl
      · exact stops.noDouble
      · exact stops.noSingle
    rcases quotedExtent_of_shape closed with ⟨extent, isClosed⟩
    rw [quotedShape_of_closed isClosed, quotedShape_of_closed (quotedExtent_of_append noQuote isClosed)]
  · rw [not_or] at isQuote
    exact shapeAt_gap_of_other stops isQuote.1 isQuote.2 rest []

theorem closed_of_token {char : Char} {rest : List Char} (isToken : (found char rest).token ≠ none) :
    (shapeAt char rest).1 ≠ .unclosed := by
  intro unclosed
  apply isToken
  simp only [found, unclosed]
  rfl

theorem found_of_shapeAt {char : Char} {rest : List Char} {more : List Char}
    (same : shapeAt char (rest ++ more) = shapeAt char rest) :
    found char (rest ++ more) = found char rest ∧
      (rest ++ more).drop (shapeAt char (rest ++ more)).2 =
        rest.drop (shapeAt char rest).2 ++ more := by
  have within := shapeAt_le char rest
  refine ⟨?_, ?_⟩
  · simp only [found, same, List.take_append_of_le_length within]
  · rw [same, List.drop_append_of_le_length within]

/-- All lexemes of the text are tokens. -/
def Legible (text : List Char) : Prop :=
  ∀ lexeme ∈ scan text, lexeme.token ≠ none

theorem scan_append {first : List Char} (legible : Legible first) {separator : Char}
    (separates : isSeparator separator) (second : List Char) :
    scan (first ++ separator :: second) = scan first ++ scan second := by
  have stops : Stops separator := stops_of_gap (by simp [isGap, separates])
  unfold Legible at legible
  fun_induction scan first with
  | case1 => exact scan_separator separates second
  | case2 char rest separatesToo induction =>
      rw [List.cons_append, scan_separator separatesToo, induction legible]
  | case3 char rest noSeparator induction =>
      rcases List.forall_mem_cons.mp legible with ⟨here, further⟩
      rcases found_of_shapeAt (shapeAt_gap stops (closed_of_token here) second) with ⟨same, below⟩
      rw [List.cons_append, scan, if_neg noSeparator, same, below, induction further,
        List.cons_append]

/-- A blank that is no separator is no token. -/
theorem found_blank {char : Char} (blank : isBlank char) (rest : List Char) :
    (found char rest).token = none := by
  have stops : Stops char := stops_of_gap (by simp [isGap, blank])
  have isStray : shapeAt char rest = (.stray, 0) := by
    unfold shapeAt
    rw [stops.noDigit, stops.noLetter]
    simp only [Bool.false_eq_true, if_false]
    split
    · cases blank
    · cases blank
    · cases blank
    · cases blank
    · cases blank
    · cases blank
    · rfl
  simp only [found, isStray]
  rfl

theorem legible_cons_blank {char : Char} (blank : isBlank char) {rest : List Char}
    (legible : Legible (char :: rest)) : isSeparator char = true := by
  cases separates : isSeparator char with
  | true => rfl
  | false =>
      unfold Legible at legible
      rw [scan, separates] at legible
      exact absurd (found_blank blank rest) (legible _ List.mem_cons_self)

theorem scan_concat {text : List Char} {char : Char} (blank : isBlank char)
    (legible : Legible (text ++ [char])) : scan (text ++ [char]) = scan text := by
  have stops : Stops char := stops_of_gap (by simp [isGap, blank])
  unfold Legible at legible
  fun_induction scan text with
  | case1 =>
      rw [List.nil_append, scan_separator (legible_cons_blank blank legible), scan]
  | case2 first rest separates induction =>
      rw [List.cons_append, scan_separator separates] at legible ⊢
      exact induction legible
  | case3 first rest noSeparator induction =>
      rw [List.cons_append, scan, if_neg noSeparator] at legible ⊢
      rcases List.forall_mem_cons.mp legible with ⟨here, further⟩
      rcases found_of_shapeAt (shapeAt_of_gap stops (closed_of_token here)) with ⟨same, below⟩
      rw [below] at further ⊢
      rw [same, induction further]

theorem scan_trimStart {text : List Char} (legible : Legible text) :
    scan (trimStart text) = scan text := by
  induction text with
  | nil => rfl
  | cons head tail induction =>
      rw [trimStart, List.dropWhile_cons]
      split
      next blank =>
        have separates := legible_cons_blank blank legible
        unfold Legible at legible
        rw [scan_separator separates] at legible ⊢
        exact induction legible
      next => rfl

theorem scan_trimEnd {text : List Char} (legible : Legible text) :
    scan (trimEnd text) = scan text := by
  induction text using List.reverseRecOn with
  | nil => rfl
  | append_singleton init char induction =>
      rw [trimEnd, List.reverse_append, List.reverse_singleton, List.singleton_append,
        List.dropWhile_cons]
      split
      next blank =>
        have same := scan_concat blank legible
        unfold Legible at legible
        rw [same] at legible ⊢
        exact induction legible
      next => rw [List.reverse_cons, List.reverse_reverse]

theorem scan_trim {text : List Char} (legible : Legible text) : scan (trim text) = scan text := by
  have starts := scan_trimStart legible
  rw [trim, scan_trimEnd, starts]
  unfold Legible
  rw [starts]
  exact legible

end Lexeme

theorem Token.legible_of_scan {text : List Char} {tokens : List Token}
    (scanned : Token.scan text = .ok tokens) : Lexeme.Legible text := by
  intro lexeme member isNone
  have listed := List.mem_map_of_mem (f := Lexeme.token) member
  rw [Token.scan_eq_ok.mp scanned, isNone] at listed
  simp at listed

/-- Texts with a separator between them are scanned one after the other. -/
theorem Token.scan_join {first second : List Char} {tokens others : List Token} {separator : Char}
    (scanned : Token.scan first = .ok tokens) (separates : Lexeme.isSeparator separator)
    (scannedToo : Token.scan second = .ok others) :
    Token.scan (first ++ separator :: second) = .ok (tokens ++ others) := by
  rw [Token.scan_eq_ok, Lexeme.scan_append (Token.legible_of_scan scanned) separates, List.map_append,
    Token.scan_eq_ok.mp scanned, Token.scan_eq_ok.mp scannedToo, List.map_append]

theorem Token.scan_trim {text : List Char} {tokens : List Token}
    (scanned : Token.scan text = .ok tokens) : Token.scan (trim text) = .ok tokens := by
  rw [Token.scan_eq_ok, Lexeme.scan_trim (Token.legible_of_scan scanned)]
  exact Token.scan_eq_ok.mp scanned

end NodeAssembly
