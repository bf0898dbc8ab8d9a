import Mathlib.Data.List.Forall2
import NodeAssembly.Proofs.Text.Numeral
import NodeAssembly.Proofs.Text.Quoted
import NodeAssembly.Token.Lexer

/-! How tokens are written. A text spells a token if it is scanned as that token
wherever a separator or nothing follows. Texts with blanks between them are
then scanned as their tokens, one by one. -/

namespace NodeAssembly

open NodeAssembly.Text

/-- A letter, and then letters, digits and underscores. -/
def Text.isName : List Char → Bool
  | head :: tail => isLetter head && tail.all isWordChar
  | [] => false

namespace Lexeme

/-- A token may end before this text. -/
def Breaks (rest : List Char) : Prop :=
  ∀ char ∈ rest.head?, isSeparator char

theorem breaks_nil : Breaks [] :=
  nofun

theorem separator_cases {char : Char} (separates : isSeparator char) :
    char = ' ' ∨ char = '\t' ∨ char = '\r' ∨ char = '\n' ∨ char = '\x0c' ∨ char = ',' := by
  simpa [isSeparator, or_assoc] using separates

theorem isWordChar_of_separator {char : Char} (separates : isSeparator char) :
    isWordChar char = false := by
  rcases separator_cases separates with rfl | rfl | rfl | rfl | rfl | rfl <;> decide

theorem isDigit_of_isWordChar_false {char : Char} (noWord : isWordChar char = false) :
    isDigit char = false := by
  simp only [isWordChar, Bool.or_eq_false_iff] at noWord
  exact noWord.1.2

theorem isSeparator_of_isWordChar {char : Char} (isWord : isWordChar char) :
    isSeparator char = false := by
  cases separates : isSeparator char with
  | false => rfl
  | true =>
      rw [isWordChar_of_separator separates] at isWord
      cases isWord

theorem isWordChar_of_isLetter {char : Char} (letter : isLetter char) : isWordChar char := by
  simp [isWordChar, letter]

theorem isWordChar_of_isDigit {char : Char} (digit : isDigit char) : isWordChar char := by
  simp [isWordChar, digit]

theorem isDigit_of_isLetter {char : Char} (letter : isLetter char) : isDigit char = false := by
  cases digit : isDigit char with
  | false => rfl
  | true =>
      exfalso
      simp only [isLetter, isDigit, Bool.or_eq_true, Bool.and_eq_true, decide_eq_true_eq,
        Char.le_def, UInt32.le_iff_toNat_le] at letter digit
      simp at letter digit
      omega

/-- A run that ends where the text does. -/
theorem run_append {condition : Char → Bool} {text rest : List Char}
    (holds : ∀ char ∈ text, condition char) (ends : ∀ char ∈ rest.head?, condition char = false) :
    run condition (text ++ rest) = text.length := by
  rw [run, List.takeWhile_append_of_pos holds]
  cases rest with
  | nil => simp
  | cons head tail => simp [ends head rfl]

/-- A slice of the matched length is the first lexeme. -/
theorem scan_of_shapeAt {char : Char} {tail rest : List Char} {shape : Shape}
    (starts : isSeparator char = false) (shaped : shapeAt char (tail ++ rest) = (shape, tail.length)) :
    scan (char :: tail ++ rest) = ⟨char :: tail, shape.token? (char :: tail)⟩ :: scan rest := by
  rw [List.cons_append, scan]
  simp [starts, found, shaped]

/-- A name after a dollar sign is a register wherever the name ends. -/
theorem scan_register {name rest : List Char} (named : isName name)
    (ends : ∀ char ∈ rest.head?, isWordChar char = false) :
    scan ('$' :: name ++ rest) =
      ⟨'$' :: name, some (.register (String.ofList name))⟩ :: scan rest := by
  cases name with
  | nil => cases named
  | cons head tail =>
      rw [isName, Bool.and_eq_true, List.all_eq_true] at named
      have shaped : shapeAt '$' (head :: tail ++ rest) = (.register, (head :: tail).length) := by
        have noDigit : isDigit '$' = false := by decide
        have noLetter : isLetter '$' = false := by decide
        simp [shapeAt, noDigit, noLetter, named.1, run_append named.2 ends]
      rw [scan_of_shapeAt (by decide) shaped]
      rfl

end Lexeme

namespace Token

/-- The text is scanned as the token wherever a token may end behind it. -/
def Spells (token : Token) (text : List Char) : Prop :=
  ∀ rest, Lexeme.Breaks rest →
    Lexeme.scan (text ++ rest) = ⟨text, some token⟩ :: Lexeme.scan rest

theorem spells_of_shape {token : Token} {char : Char} {tail : List Char} {shape : Lexeme.Shape}
    (starts : Lexeme.isSeparator char = false)
    (shaped : ∀ rest, Lexeme.Breaks rest → Lexeme.shapeAt char (tail ++ rest) = (shape, tail.length))
    (read : shape.token? (char :: tail) = some token) : token.Spells (char :: tail) := by
  intro rest breaks
  rw [Lexeme.scan_of_shapeAt starts (shaped rest breaks), read]

theorem spells_word {name : String} (isName : isName name.toList) :
    (word name).Spells name.toList := by
  cases chars : name.toList with
  | nil =>
      rw [chars] at isName
      cases isName
  | cons head tail =>
      rw [chars, Text.isName, Bool.and_eq_true, List.all_eq_true] at isName
      apply @spells_of_shape _ _ _ .word
      · exact Lexeme.isSeparator_of_isWordChar (Lexeme.isWordChar_of_isLetter isName.1)
      · intro rest breaks
        have length : Lexeme.run isWordChar (tail ++ rest) = tail.length :=
          Lexeme.run_append isName.2 fun char member =>
            Lexeme.isWordChar_of_separator (breaks char member)
        simp [Lexeme.shapeAt, Lexeme.isDigit_of_isLetter isName.1, isName.1, length]
      · simp [Lexeme.Shape.token?, ← chars]

theorem spells_register {name : String} (isName : isName name.toList) :
    (register name).Spells ('$' :: name.toList) := by
  intro rest breaks
  have scanned := Lexeme.scan_register isName fun char member =>
    Lexeme.isWordChar_of_separator (breaks char member)
  rwa [String.ofList_toList] at scanned

/-- A number that ends where its digits do. -/
theorem number_append {digits rest : List Char} (areDigits : ∀ char ∈ digits, isDigit char)
    (breaks : Lexeme.Breaks rest) :
    Lexeme.number (digits ++ rest) = (.integer, digits.length) := by
  have length : Lexeme.run isDigit (digits ++ rest) = digits.length :=
    Lexeme.run_append areDigits fun char member =>
      Lexeme.isDigit_of_isWordChar_false (Lexeme.isWordChar_of_separator (breaks char member))
  unfold Lexeme.number
  simp only [length, List.drop_left]
  split
  next => exact absurd (breaks '.' rfl) (by decide)
  next => rfl

theorem spells_int (number : Int32) : (int number).Spells (decimal number.toInt) := by
  have read := readInt32_decimal number
  rcases head_decimalNat number.toInt.natAbs with ⟨head, tail, digits, isDigit⟩
  have areDigits : ∀ char ∈ tail, Text.isDigit char := by
    intro char member
    apply isDigit_of_mem_decimalNat
    rw [digits]
    exact List.mem_cons_of_mem head member
  rw [decimal, digits] at read ⊢
  split
  next negative =>
    rw [if_pos negative] at read
    apply @spells_of_shape _ _ _ .integer
    · rfl
    · intro rest breaks
      have noDigit : Text.isDigit '-' = false := by decide
      have noLetter : isLetter '-' = false := by decide
      have noPoint : head ≠ '.' := by
        rintro rfl
        exact absurd isDigit (by decide)
      simp [Lexeme.shapeAt, noDigit, noLetter, Lexeme.minus, isDigit,
        number_append areDigits breaks]
    · simp [Lexeme.Shape.token?, read]
  next natural =>
    rw [if_neg natural] at read
    apply @spells_of_shape _ _ _ .integer
    · exact Lexeme.isSeparator_of_isWordChar (Lexeme.isWordChar_of_isDigit isDigit)
    · intro rest breaks
      simp [Lexeme.shapeAt, isDigit, number_append areDigits breaks]
    · simp [Lexeme.Shape.token?, read]

theorem quotedExtent_escape {text : List Char} (typable : ∀ char ∈ text, isTypable char)
    (rest : List Char) :
    Lexeme.quotedExtent '"' (text.flatMap escape ++ '"' :: rest) =
      ((text.flatMap escape).length + 1, true) := by
  induction text with
  | nil => simp [Lexeme.quotedExtent]
  | cons head tail induction =>
      have further := induction fun char member => typable char (List.mem_cons_of_mem head member)
      rw [List.flatMap_cons, List.append_assoc]
      generalize escaped : escape head = shown
      have cases := escape_escaped (typable head List.mem_cons_self)
      rw [escaped] at cases
      cases cases with
      | same noQuote noBackslash inLine noReturn =>
          simp [Lexeme.quotedExtent, noQuote, noBackslash, further]
      | short code stands coded =>
          have inLine : code ≠ '\n' := by
            rintro rfl
            simp at coded
          simp [Lexeme.quotedExtent, further]

theorem unescape_escape {text : List Char} (typable : ∀ char ∈ text, isTypable char) :
    Lexeme.unescape (text.flatMap escape) = text := by
  induction text with
  | nil => rfl
  | cons head tail induction =>
      have further := induction fun char member => typable char (List.mem_cons_of_mem head member)
      rw [List.flatMap_cons]
      generalize escaped : escape head = shown
      have cases := escape_escaped (typable head List.mem_cons_self)
      rw [escaped] at cases
      cases cases with
      | same noQuote noBackslash inLine noReturn =>
          simp [Lexeme.unescape, noBackslash, further]
      | short code stands coded =>
          simp only [List.mem_cons, Prod.mk.injEq, List.not_mem_nil, or_false] at coded
          rcases coded with ⟨rfl, rfl⟩ | ⟨rfl, rfl⟩ | ⟨rfl, rfl⟩ | ⟨rfl, rfl⟩ | ⟨rfl, rfl⟩ <;>
            simp [Lexeme.unescape, Lexeme.unescapeChar, further]

theorem spells_str {text : String} (typable : ∀ char ∈ text.toList, isTypable char) :
    (str text).Spells (quote text.toList) := by
  have quotes : quote text.toList = '"' :: (text.toList.flatMap escape ++ ['"']) := rfl
  rw [quotes]
  apply @spells_of_shape _ _ _ .quoted
  · rfl
  · intro rest breaks
    have noDigit : isDigit '"' = false := by decide
    have noLetter : isLetter '"' = false := by decide
    have extent := quotedExtent_escape typable rest
    simp only [List.append_assoc, List.singleton_append]
    simp [Lexeme.shapeAt, noDigit, noLetter, Lexeme.quotedShape, extent]
  · have inner : (('"' :: (text.toList.flatMap escape ++ ['"'])).tail).dropLast =
        text.toList.flatMap escape := by
      simp
    simp only [Lexeme.Shape.token?, inner, unescape_escape typable, String.ofList_toList]

/-! Signs are written alone. -/

theorem spells_positive : positive.Spells ['+'] := by
  apply @spells_of_shape _ _ _ .positive
  · rfl
  · intro rest breaks
    rfl
  · rfl

theorem spells_negative : negative.Spells ['-'] := by
  apply @spells_of_shape _ _ _ .negative
  · rfl
  · intro rest breaks
    have noDigit : isDigit '-' = false := by decide
    have noLetter : isLetter '-' = false := by decide
    cases rest with
    | nil => rfl
    | cons head tail =>
        -- Neither a digit nor a point goes on with the sign.
        have separates := breaks head rfl
        have noPoint : head ≠ '.' := by
          rintro rfl
          exact absurd separates (by decide)
        have noNumber : isDigit head = false :=
          Lexeme.isDigit_of_isWordChar_false (Lexeme.isWordChar_of_separator separates)
        simp [Lexeme.shapeAt, noDigit, noLetter, Lexeme.minus, noNumber]
  · rfl

/-! ## Texts with separators between them -/

/-- The tokens of a text are those of all its lexemes. -/
theorem scan_eq_ok {text : List Char} {tokens : List Token} :
    scan text = .ok tokens ↔ (Lexeme.scan text).map Lexeme.token = tokens.map some := by
  unfold scan
  induction Lexeme.scan text generalizing tokens with
  | nil =>
      rw [List.mapM_nil]
      cases tokens with
      | nil => exact ⟨fun _ => rfl, fun _ => rfl⟩
      | cons first rest => exact ⟨nofun, nofun⟩
  | cons head tail induction =>
      rw [List.mapM_cons, List.map_cons]
      cases isToken : head.token with
      | none =>
          refine ⟨nofun, fun alike => ?_⟩
          cases tokens <;> cases alike
      | some token =>
          generalize (tail.mapM _ : Except String (List Token)) = rest at induction ⊢
          cases rest with
          | error slice =>
              refine ⟨nofun, fun alike => ?_⟩
              cases tokens with
              | nil => cases alike
              | cons first others => cases induction.mpr (List.cons.inj alike).2
          | ok found =>
              cases tokens with
              | nil => exact ⟨nofun, nofun⟩
              | cons first others =>
                  rw [List.map_cons, List.cons.injEq, ← induction]
                  simp [bind, Except.bind, pure, Except.pure]

end Token

namespace Lexeme

/-- Texts one after the other, with at least one separator between each two of
them. -/
inductive Joined : List (List Char) → List Char → Prop
  | nil : Joined [] []
  | single (text : List Char) : Joined [text] text
  | cons (text gap : List Char) {next joined : List Char} {rest : List (List Char)}
      (filled : gap ≠ []) (separates : ∀ char ∈ gap, isSeparator char)
      (others : Joined (next :: rest) joined) :
      Joined (text :: next :: rest) (text ++ (gap ++ joined))

/-- One blank is separator enough. -/
theorem joined_intercalate (texts : List (List Char)) :
    Joined texts ([' '].intercalate texts) := by
  induction texts with
  | nil => exact .nil
  | cons text rest induction =>
      cases rest with
      | nil =>
          rw [List.intercalate_singleton]
          exact .single text
      | cons next others =>
          rw [List.intercalate_cons_cons, List.append_assoc]
          refine .cons text [' '] (by simp) (fun char member => ?_) induction
          cases List.mem_singleton.mp member
          rfl

theorem scan_separator {char : Char} (separates : isSeparator char) (rest : List Char) :
    scan (char :: rest) = scan rest := by
  rw [scan, if_pos separates]

theorem scan_gap {gap : List Char} (separates : ∀ char ∈ gap, isSeparator char)
    (rest : List Char) : scan (gap ++ rest) = scan rest := by
  induction gap with
  | nil => rfl
  | cons head tail induction =>
      rcases List.forall_mem_cons.mp separates with ⟨first, others⟩
      rw [List.cons_append, scan_separator first, induction others]

theorem breaks_gap {gap : List Char} (filled : gap ≠ [])
    (separates : ∀ char ∈ gap, isSeparator char) (rest : List Char) : Breaks (gap ++ rest) := by
  cases gap with
  | nil => exact absurd rfl filled
  | cons head tail =>
      intro char member
      cases member
      exact separates head List.mem_cons_self

/-- The lexemes of joined texts are the texts. -/
theorem scan_joined {tokens : List Token} {texts : List (List Char)} {joined : List Char}
    (spelled : List.Forall₂ Token.Spells tokens texts) (isJoined : Joined texts joined) :
    scan joined = List.zipWith (fun token text => ⟨text, some token⟩) tokens texts := by
  induction isJoined generalizing tokens with
  | nil =>
      cases spelled
      exact scan.eq_1
  | single text =>
      cases spelled with
      | cons here others =>
          cases others
          have alone := here [] breaks_nil
          rw [List.append_nil, scan.eq_1] at alone
          exact alone
  | cons text gap filled separates _ induction =>
      cases spelled with
      | cons here others =>
          rw [here _ (breaks_gap filled separates _), scan_gap separates, induction others]
          rfl

end Lexeme

namespace Token

theorem scan_of_joined {tokens : List Token} {texts : List (List Char)} {joined : List Char}
    (spelled : List.Forall₂ Spells tokens texts) (isJoined : Lexeme.Joined texts joined) :
    scan joined = .ok tokens := by
  rw [scan_eq_ok, Lexeme.scan_joined spelled isJoined]
  clear isJoined
  induction spelled with
  | nil => rfl
  | cons _ _ induction => rw [List.zipWith_cons_cons, List.map_cons, List.map_cons, induction]

/-- Texts with a blank between each two of them. -/
theorem scan_intercalate {tokens : List Token} {texts : List (List Char)}
    (spelled : List.Forall₂ Spells tokens texts) :
    scan ([' '].intercalate texts) = .ok tokens :=
  scan_of_joined spelled (Lexeme.joined_intercalate texts)

end Token

end NodeAssembly
