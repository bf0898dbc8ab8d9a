import NodeAssembly.Proofs.Token.Shape
import NodeAssembly.Proofs.Value.Digits

/-! Scanning by longest match. A text is cut into lexemes and the gaps between
them, without a character lost or repeated. A lexeme that is a token is the
longest start of the remaining text that any pattern matches, and the faulty ones
are integers that are too large and what stands where nothing matches. -/

namespace NodeAssembly

open NodeAssembly.Text
open scoped Computability

namespace Lexeme

/-- What slices of each pattern are read as. -/
inductive Decodes : List Char → Token → Prop
  | int {slice : List Char} {number : Int32} (matched : slice ∈ Pattern.integer)
      (value : denoted slice = number.toInt) : Decodes slice (.int number)
  | float {slice : List Char} {number : Float32} (matched : slice ∈ Pattern.decimal)
      (value : Decimal.readFloat slice = some number) : Decodes slice (.float number)
  | str {quote : Char} {body : List Char} (isQuote : quote = '"' ∨ quote = '\'')
      (inside : body ∈ Pattern.content quote) :
      Decodes (quote :: (body ++ [quote])) (.str (String.ofList (unescape body)))
  | register {name : List Char} (isName : name ∈ Pattern.name) :
      Decodes ('$' :: name) (.register (String.ofList name))
  | word {name : List Char} (isName : name ∈ Pattern.name) :
      Decodes name (.word (String.ofList name))
  | positive : Decodes ['+'] .positive
  | negative : Decodes ['-'] .negative

/-- What a lexeme is before the rest of the text: a token, or one of the faults.
The quotes of an unclosed text end where they cannot be continued. -/
inductive Stands : Lexeme → List Char → Prop
  | token {slice rest : List Char} {token : Token} (decodes : Decodes slice token)
      (longest : Pattern.IsLongest Pattern.any slice rest) : Stands ⟨slice, some token⟩ rest
  | overflow {slice rest : List Char} (matched : slice ∈ Pattern.integer)
      (large : ¬InRange (denoted slice))
      (longest : Pattern.IsLongest Pattern.any slice rest) : Stands ⟨slice, none⟩ rest
  | unclosed {quote : Char} {body rest : List Char} (isQuote : quote = '"' ∨ quote = '\'')
      (furthest : Pattern.IsLongest (Pattern.content quote) body rest)
      (unmatched : Pattern.Avoids Pattern.any (quote :: (body ++ rest))) :
      Stands ⟨quote :: body, none⟩ rest
  | stray {char : Char} {rest : List Char} (noDouble : char ≠ '"') (noSingle : char ≠ '\'')
      (unmatched : Pattern.Avoids Pattern.any (char :: rest)) : Stands ⟨[char], none⟩ rest

/-- The text is the slices of the lexemes in their order, with separators or
nothing before, between and behind them. -/
inductive Laid : List Char → List Lexeme → Prop
  | last {gap : List Char} (separates : ∀ char ∈ gap, isSeparator char) : Laid gap []
  | next {gap : List Char} {lexeme : Lexeme} {rest : List Char} {lexemes : List Lexeme}
      (separates : ∀ char ∈ gap, isSeparator char) (stands : Stands lexeme rest)
      (others : Laid rest lexemes) : Laid (gap ++ (lexeme.slice ++ rest)) (lexeme :: lexemes)

/-! ## Longest matches -/

section

variable {char : Char} {tail rest : List Char}

theorem mem_any {text : List Char} :
    text ∈ Pattern.any ↔ text ∈ Pattern.separators ∨ ∃ shape : Shape, text ∈ shape.pattern := by
  constructor
  · rintro ((((((((separators | member) | member) | member) | member) | member) | member) |
      member) | member)
    · exact .inl separators
    · exact .inr ⟨.integer, member⟩
    · exact .inr ⟨.decimal, member⟩
    · exact .inr ⟨.quoted, .inl member⟩
    · exact .inr ⟨.quoted, .inr member⟩
    · exact .inr ⟨.register, member⟩
    · exact .inr ⟨.word, member⟩
    · exact .inr ⟨.positive, member⟩
    · exact .inr ⟨.negative, member⟩
  · simp only [Pattern.any, Language.mem_add]
    rintro (separators | ⟨shape, member⟩)
    · simp only [separators, true_or]
    · cases shape with
      | quoted =>
          rcases (Language.mem_add _ _ _).mp member with double | single
          · simp [double]
          · simp [single]
      | unclosed => exact absurd member (Language.notMem_zero text)
      | stray => exact absurd member (Language.notMem_zero text)
      | _ =>
          rw [Shape.pattern] at member
          simp [member]

theorem noSeparator_of_pattern {shape : Shape} (member : char :: tail ∈ shape.pattern) :
    isSeparator char = false := by
  cases separates : isSeparator char with
  | false => rfl
  | true =>
      have shaped := shapeAt_of_pattern member
      rw [shapeAt_separator separates, Prod.mk.injEq] at shaped
      rw [← shaped.1] at member
      exact absurd member (Language.notMem_zero _)

theorem separator_mem_any (separates : isSeparator char) : [char] ∈ Pattern.any :=
  mem_any.mpr (.inl (Pattern.mem_many_one.mpr
    ⟨List.cons_ne_nil char [], List.forall_mem_singleton.mpr separates⟩))

/-- What is matched at the start of the text is matched in the whole text, too. -/
theorem shapeAt_of_beginning (noSeparator : isSeparator char = false) {slice : List Char}
    (starts : slice <+: char :: rest) (member : slice ∈ Pattern.any) :
    (shapeAt char rest).1.isMatch ∧ slice.length ≤ (shapeAt char rest).2 + 1 := by
  rcases mem_any.mp member with separators | ⟨shape, member⟩
  · rcases Pattern.mem_many_one.mp separators with ⟨filled, separates⟩
    rcases List.exists_cons_of_ne_nil filled with ⟨first, tail, rfl⟩
    rcases List.cons_prefix_cons.mp starts with ⟨rfl, _⟩
    rw [separates first List.mem_cons_self] at noSeparator
    cases noSeparator
  · cases slice with
    | nil => exact absurd member (nil_not_mem_pattern shape)
    | cons first tail =>
        rcases List.cons_prefix_cons.mp starts with ⟨rfl, more, rfl⟩
        have shaped := shapeAt_of_pattern member
        have isMatch : (shapeAt first tail).1.isMatch := by
          rw [shaped]
          exact isMatch_of_pattern member
        rcases shapeAt_le_append isMatch more with ⟨isMatchToo, longer⟩
        rw [shaped] at longer
        exact ⟨isMatchToo, Nat.succ_le_succ longer⟩

theorem longest_take (noSeparator : isSeparator char = false)
    (isMatch : (shapeAt char rest).1.isMatch) :
    Pattern.IsLongest Pattern.any (char :: rest.take (shapeAt char rest).2)
      (rest.drop (shapeAt char rest).2) := by
  refine ⟨mem_any.mpr (.inr ⟨_, take_shapeAt isMatch⟩), fun longer starts member => ?_⟩
  rw [List.cons_append, List.take_append_drop] at starts
  rw [List.length_cons, List.length_take_of_le (shapeAt_le char rest)]
  exact (shapeAt_of_beginning noSeparator starts member).2

theorem avoids_of_fault (noSeparator : isSeparator char = false)
    (fails : (shapeAt char rest).1.isMatch = false) :
    Pattern.Avoids Pattern.any (char :: rest) := by
  intro slice starts member
  have isMatch := (shapeAt_of_beginning noSeparator starts member).1
  rw [fails] at isMatch
  cases isMatch

theorem fault_of_avoids (unmatched : Pattern.Avoids Pattern.any (char :: rest)) :
    isSeparator char = false ∧ (shapeAt char rest).1.isMatch = false := by
  constructor
  · by_contra separates
    exact unmatched [char] (List.cons_prefix_cons.mpr ⟨rfl, List.nil_prefix⟩)
      (separator_mem_any (Bool.not_eq_false _ ▸ separates))
  · by_contra isMatch
    exact unmatched _ (List.cons_prefix_cons.mpr ⟨rfl, List.take_prefix _ _⟩)
      (mem_any.mpr (.inr ⟨_, take_shapeAt (Bool.not_eq_false _ ▸ isMatch)⟩))

/-- Where a slice is the longest match, that is what is found. -/
theorem shapeAt_of_longest {shape : Shape} (member : char :: tail ∈ shape.pattern)
    (longest : Pattern.IsLongest Pattern.any (char :: tail) rest) :
    shapeAt char (tail ++ rest) = (shape, tail.length) := by
  have noSeparator := noSeparator_of_pattern member
  have starts : char :: tail <+: char :: (tail ++ rest) := List.prefix_append (char :: tail) rest
  rcases shapeAt_of_beginning noSeparator starts longest.1 with ⟨isMatch, longer⟩
  have matched := take_shapeAt isMatch
  have shorter :
      ((tail ++ rest).take (shapeAt char (tail ++ rest)).2).length + 1 ≤ tail.length + 1 :=
    longest.2 _ (List.cons_prefix_cons.mpr ⟨rfl, List.take_prefix _ _⟩)
      (mem_any.mpr (.inr ⟨_, matched⟩))
  rw [List.length_take_of_le (shapeAt_le char (tail ++ rest))] at shorter
  rw [List.length_cons] at longer
  have length : (shapeAt char (tail ++ rest)).2 = tail.length := by omega
  rw [length, List.take_left'] at matched
  · have same := (shapeAt_of_pattern matched).symm.trans (shapeAt_of_pattern member)
    exact Prod.ext (Prod.mk.inj same).1 length
  · rfl

end

/-! ## Decoding -/

section

variable {text : List Char}

theorem isNumeral_of_integer (member : text ∈ Pattern.integer) : IsNumeral text := by
  rcases Pattern.mem_sign_mul.mp member with digits | ⟨digits, rfl, others⟩
  · rcases Pattern.mem_many_digit.mp digits with ⟨filled, areDigits⟩
    exact ⟨text, filled, areDigits, .inl rfl⟩
  · rcases Pattern.mem_many_digit.mp others with ⟨filled, areDigits⟩
    exact ⟨digits, filled, areDigits, .inr rfl⟩

theorem readScientific_of_pointed (member : text ∈ Pattern.pointed) :
    ∃ number, Decimal.readScientific text = some number := by
  rcases Pattern.mem_pointed.mp member with ⟨whole, decimals, rfl, areDigits, others, filled⟩
  have before : (whole ++ '.' :: decimals).takeWhile isDigit = whole := by
    rw [List.takeWhile_append_of_pos areDigits, List.takeWhile_cons_of_neg (by decide),
      List.append_nil]
  have behind : (whole ++ '.' :: decimals).dropWhile isDigit = '.' :: decimals := by
    rw [List.dropWhile_append_of_pos areDigits, List.dropWhile_cons_of_neg (by decide)]
  have all : decimals.takeWhile isDigit = decimals := List.takeWhile_eq_self_iff.mpr others
  have nothing : decimals.dropWhile isDigit = [] := List.dropWhile_eq_nil_iff.mpr others
  have some : ¬(whole.isEmpty && decimals.isEmpty) = true := by
    rw [Bool.and_eq_true, List.isEmpty_iff, List.isEmpty_iff]
    rintro ⟨rfl, rfl⟩
    exact filled.elim (fun filled => filled rfl) fun filled => filled rfl
  unfold Decimal.readScientific
  simp only [before, behind, all, nothing, if_neg some]
  exact ⟨_, rfl⟩

theorem readUnsignedFloat_of_pointed (member : text ∈ Pattern.pointed) :
    ∃ number, Decimal.readUnsignedFloat text = some number := by
  rcases readScientific_of_pointed member with ⟨number, read⟩
  unfold Decimal.readUnsignedFloat
  simp only [read]
  split
  · exact ⟨_, rfl⟩
  · split <;> exact ⟨_, rfl⟩

/-- A number with a point is always one that can be represented. -/
theorem readFloat_of_decimal (member : text ∈ Pattern.decimal) :
    ∃ number, Decimal.readFloat text = some number := by
  rw [Pattern.decimal_eq, Pattern.mem_sign_mul] at member
  rcases member with unsigned | ⟨rest, rfl, unsigned⟩
  · unfold Decimal.readFloat
    split
    next rest =>
      have starts : '-' :: rest ∈ Shape.decimal.unsigned := unsigned
      exact absurd rfl (shapeAt_of_unsigned starts).1
    next rest =>
      have starts : '+' :: rest ∈ Shape.decimal.unsigned := unsigned
      cases (shapeAt_of_unsigned starts).2
    next => exact readUnsignedFloat_of_pointed unsigned
  · rcases readUnsignedFloat_of_pointed unsigned with ⟨number, read⟩
    rw [Decimal.readFloat, read]
    exact ⟨_, rfl⟩

theorem token?_integer (member : text ∈ Pattern.integer) :
    Shape.integer.token? text =
      if InRange (denoted text) then some (.int (Int32.ofInt (denoted text))) else none := by
  rw [Shape.token?, readInt32_of_isNumeral (isNumeral_of_integer member)]
  split <;> rfl

theorem toInt_ofInt_of_inRange {number : Int} (inRange : InRange number) :
    (Int32.ofInt number).toInt = number :=
  Int32.toInt_ofInt_of_le inRange.1 inRange.2

theorem token?_quoted (quote : Char) (body : List Char) :
    Shape.quoted.token? (quote :: (body ++ [quote])) =
      some (.str (String.ofList (unescape body))) := by
  rw [Shape.token?, List.tail_cons, List.dropLast_concat]

theorem pattern_of_decodes {slice : List Char} {token : Token} (decodes : Decodes slice token) :
    ∃ shape : Shape, slice ∈ shape.pattern ∧ shape.token? slice = some token := by
  cases decodes with
  | int matched value =>
      refine ⟨.integer, matched, ?_⟩
      rw [token?_integer matched, value, if_pos (inRange_toInt _), Int32.ofInt_toInt]
  | float matched value =>
      refine ⟨.decimal, matched, ?_⟩
      rw [Shape.token?, value]
      rfl
  | @str quote body isQuote inside =>
      have member := Shape.mem_quoted.mpr ⟨quote, body, isQuote, inside, rfl⟩
      exact ⟨.quoted, member, token?_quoted quote body⟩
  | register isName => exact ⟨.register, Pattern.mem_exactly_mul.mpr ⟨_, rfl, isName⟩, rfl⟩
  | word isName => exact ⟨.word, isName, rfl⟩
  | positive => exact ⟨.positive, Pattern.mem_exactly.mpr rfl, rfl⟩
  | negative => exact ⟨.negative, Pattern.mem_exactly.mpr rfl, rfl⟩

theorem decodes_of_pattern {shape : Shape} {slice : List Char} {token : Token}
    (member : slice ∈ shape.pattern) (read : shape.token? slice = some token) :
    Decodes slice token := by
  cases shape with
  | integer =>
      rw [token?_integer member] at read
      split at read
      next inRange =>
        cases read
        exact .int member (toInt_ofInt_of_inRange inRange).symm
      next => cases read
  | decimal =>
      rcases readFloat_of_decimal member with ⟨number, value⟩
      rw [Shape.token?, value] at read
      cases read
      exact .float member value
  | quoted =>
      rcases Shape.mem_quoted.mp member with ⟨quote, body, isQuote, inside, rfl⟩
      rw [token?_quoted] at read
      cases read
      exact .str isQuote inside
  | register =>
      rcases Pattern.mem_exactly_mul.mp member with ⟨name, rfl, isName⟩
      cases read
      exact .register isName
  | word =>
      cases read
      exact .word member
  | positive =>
      cases Pattern.mem_exactly.mp member
      cases read
      exact .positive
  | negative =>
      cases Pattern.mem_exactly.mp member
      cases read
      exact .negative
  | unclosed => cases read
  | stray => cases read

/-- Only an integer can match its pattern and be no token. -/
theorem overflow_of_none {shape : Shape} (member : text ∈ shape.pattern)
    (faulty : shape.token? text = none) :
    text ∈ Pattern.integer ∧ ¬InRange (denoted text) := by
  cases shape with
  | integer =>
      rw [token?_integer member] at faulty
      split at faulty
      next => cases faulty
      next large => exact ⟨member, large⟩
  | decimal =>
      rcases readFloat_of_decimal member with ⟨number, value⟩
      rw [Shape.token?, value] at faulty
      cases faulty
  | unclosed => exact absurd member (Language.notMem_zero _)
  | stray => exact absurd member (Language.notMem_zero _)
  | _ => cases faulty

end

/-! ## Lexemes -/

section

variable {char : Char} {rest : List Char}

/-- What is not matched is an open quote, or some other character on its own. -/
theorem fault_cases (fails : (shapeAt char rest).1.isMatch = false) :
    (char = '"' ∨ char = '\'') ∧ (quotedExtent char rest).2 = false ∧
        shapeAt char rest = (.unclosed, (quotedExtent char rest).1) ∨
      char ≠ '"' ∧ char ≠ '\'' ∧ shapeAt char rest = (.stray, 0) := by
  have starts := shapeAt_starts char rest
  generalize shapeAt char rest = found at fails starts
  cases starts with
  | number =>
      rw [Shape.isMatch_of_isNumber (number_isNumber rest)] at fails
      cases fails
  | minus =>
      rw [minus_isMatch] at fails
      cases fails
  | point =>
      rcases Nat.eq_zero_or_pos (run isDigit rest) with none | some
      · rw [fraction_zero none]
        exact .inr ⟨by decide, by decide, rfl⟩
      · rw [fraction_pos some] at fails
        cases fails
  | quote isQuote =>
      rcases extent : quotedExtent char rest with ⟨length, _ | _⟩
      · rw [quotedShape, extent]
        exact .inl ⟨isQuote, rfl, rfl⟩
      · rw [quotedShape_of_closed extent] at fails
        cases fails
  | stray noDouble noSingle => exact .inr ⟨noDouble, noSingle, rfl⟩
  | word | plus | register => cases fails

/-- Open quotes reach as far as their content can be continued. -/
theorem furthest_take {quote : Char} {text : List Char}
    (isOpen : (quotedExtent quote text).2 = false) :
    Pattern.IsLongest (Pattern.content quote) (text.take (quotedExtent quote text).1)
      (text.drop (quotedExtent quote text).1) := by
  rcases take_quoted quote text with ⟨body, inside, slice⟩
  rw [isOpen, if_neg Bool.false_ne_true] at slice
  refine ⟨slice ▸ inside, fun longer starts member => ?_⟩
  rw [List.take_append_drop] at starts
  rcases starts with ⟨more, rfl⟩
  rw [List.length_take_of_le (quotedExtent_le quote (longer ++ more)), quotedExtent_content member]
  exact Nat.le_add_right _ _

/-- What is between open quotes if it cannot be continued. -/
theorem quotedExtent_of_furthest {quote : Char} {body : List Char}
    (furthest : Pattern.IsLongest (Pattern.content quote) body rest)
    (isOpen : (quotedExtent quote (body ++ rest)).2 = false) :
    (quotedExtent quote (body ++ rest)).1 = body.length := by
  rcases furthest_take isOpen with ⟨inside, _⟩
  have shorter := furthest.2 _ (List.take_prefix _ _) inside
  rw [List.length_take_of_le (quotedExtent_le quote (body ++ rest)),
    quotedExtent_content furthest.1] at shorter
  rw [quotedExtent_content furthest.1]
  exact Nat.le_antisymm shorter (Nat.le_add_right _ _)

theorem stands_found (noSeparator : isSeparator char = false) :
    Stands (found char rest) (rest.drop (shapeAt char rest).2) := by
  unfold found
  cases isMatch : (shapeAt char rest).1.isMatch with
  | true =>
      have longest := longest_take noSeparator isMatch
      have member := take_shapeAt isMatch
      simp only
      cases read : (shapeAt char rest).1.token? (char :: rest.take (shapeAt char rest).2) with
      | some token => exact .token (decodes_of_pattern member read) longest
      | none =>
          rcases overflow_of_none member read with ⟨integer, large⟩
          exact .overflow integer large longest
  | false =>
      have unmatched := avoids_of_fault noSeparator isMatch
      rcases fault_cases isMatch with ⟨isQuote, isOpen, shaped⟩ | ⟨noDouble, noSingle, shaped⟩
      · rw [shaped]
        refine .unclosed isQuote (furthest_take isOpen) ?_
        rwa [List.take_append_drop]
      · rw [shaped]
        exact .stray noDouble noSingle unmatched

/-- A lexeme that stands before the rest of the text is found there. -/
theorem scan_of_stands {lexeme : Lexeme} (stands : Stands lexeme rest) :
    scan (lexeme.slice ++ rest) = lexeme :: scan rest := by
  have matched {shape : Shape} {slice : List Char} (member : slice ∈ shape.pattern)
      (longest : Pattern.IsLongest Pattern.any slice rest) :
      scan (slice ++ rest) = ⟨slice, shape.token? slice⟩ :: scan rest := by
    cases slice with
    | nil => exact absurd member (nil_not_mem_pattern shape)
    | cons char tail =>
        exact scan_of_shapeAt (noSeparator_of_pattern member) (shapeAt_of_longest member longest)
  cases stands with
  | token decodes longest =>
      rcases pattern_of_decodes decodes with ⟨shape, member, read⟩
      rw [matched member longest, read]
  | overflow integer large longest =>
      have member : _ ∈ Shape.integer.pattern := integer
      rw [matched member longest, token?_integer integer, if_neg large]
  | @unclosed quote body _ isQuote furthest unmatched =>
      rcases fault_of_avoids unmatched with ⟨noSeparator, fails⟩
      rcases fault_cases fails with ⟨_, isOpen, shaped⟩ | ⟨noDouble, noSingle, _⟩
      · rw [quotedExtent_of_furthest furthest isOpen] at shaped
        exact scan_of_shapeAt noSeparator shaped
      · exact absurd isQuote (not_or.mpr ⟨noDouble, noSingle⟩)
  | @stray char _ noDouble noSingle unmatched =>
      rcases fault_of_avoids unmatched with ⟨noSeparator, fails⟩
      rcases fault_cases fails with ⟨isQuote, _⟩ | ⟨_, _, shaped⟩
      · exact absurd isQuote (not_or.mpr ⟨noDouble, noSingle⟩)
      · have alone : shapeAt char ([] ++ rest) = (.stray, 0) := shaped
        exact scan_of_shapeAt noSeparator alone

end

theorem Laid.cons_separator {char : Char} {text : List Char} {lexemes : List Lexeme}
    (separates : isSeparator char) (laid : Laid text lexemes) : Laid (char :: text) lexemes := by
  cases laid with
  | last gap => exact .last (List.forall_mem_cons.mpr ⟨separates, gap⟩)
  | @next gap _ _ _ isGap stands others =>
      have isLonger : ∀ other ∈ char :: gap, isSeparator other :=
        List.forall_mem_cons.mpr ⟨separates, isGap⟩
      exact .next isLonger stands others

theorem laid_scan (text : List Char) : Laid text (scan text) := by
  fun_induction scan text with
  | case1 => exact .last (List.forall_mem_nil _)
  | case2 char rest separates induction => exact induction.cons_separator separates
  | case3 char rest noSeparator induction =>
      have laid := @Laid.next [] _ _ _ (List.forall_mem_nil _)
        (stands_found (Bool.eq_false_of_not_eq_true noSeparator)) induction
      have whole : (found char rest).slice ++ rest.drop (shapeAt char rest).2 = char :: rest :=
        congrArg (char :: ·) (List.take_append_drop _ rest)
      rwa [List.nil_append, whole] at laid

theorem scan_of_laid {text : List Char} {lexemes : List Lexeme} (laid : Laid text lexemes) :
    scan text = lexemes := by
  induction laid with
  | @last gap separates =>
      have gapOnly := scan_gap separates []
      rwa [List.append_nil, scan] at gapOnly
  | next separates stands _ induction => rw [scan_gap separates, scan_of_stands stands, induction]

/-- A text is laid out in its lexemes, and in no others. No lexeme is empty, so
that every character is in one of them or in a gap. -/
theorem scan_takes_longest (text : List Char) (lexemes : List Lexeme) :
    (scan text = lexemes ↔ Laid text lexemes) ∧ ∀ lexeme ∈ scan text, lexeme.slice ≠ [] := by
  refine ⟨⟨fun scanned => scanned ▸ laid_scan text, scan_of_laid⟩, ?_⟩
  fun_induction scan text with
  | case1 => exact List.forall_mem_nil _
  | case2 _ _ _ induction => exact induction
  | case3 char rest _ induction =>
      exact List.forall_mem_cons.mpr ⟨List.cons_ne_nil char _, induction⟩

/-- A point may end a number, a sign may be alone, and an open text ends before a
backslash that has nothing to escape. -/
example : (scan "5.-.5, -'it\\'s\\".toList).map (fun lexeme => String.ofList lexeme.slice) =
    ["5.", "-.5", "-", "'it\\'s", "\\"] := by
  decide +kernel

end Lexeme

end NodeAssembly
