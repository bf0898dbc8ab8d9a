import Mathlib.Algebra.Group.Int.Defs
import Mathlib.Algebra.GroupWithZero.Nat
import Mathlib.Data.Nat.Log
import NodeAssembly.Proofs.Text.Numeral
import NodeAssembly.Value.Arithmetic

/-! Digits of integers are read and overwritten in the decimal form, in which a
minus sign takes a position of its own. The form with one character replaced is
a numeral again, though it need not be the decimal form of what it denotes: it
may start with zeros, or be too large. Where it is one, a digit that was written
is read back, the others are left alone, and what was written last counts. -/

namespace NodeAssembly

open NodeAssembly.Text

namespace Text

/-! ## What numerals denote -/

/-- The integer that a decimal numeral denotes. -/
def denoted : List Char → Int
  | '-' :: digits => -(Nat.ofDigitChars 10 digits 0 : Int)
  | digits => Nat.ofDigitChars 10 digits 0

/-- At least one digit, and at most a minus sign before it. -/
def IsNumeral (text : List Char) : Prop :=
  ∃ digits, digits ≠ [] ∧ (∀ char ∈ digits, isDigit char) ∧
    (text = digits ∨ text = '-' :: digits)

/-- An integer of 32 bits. -/
def InRange (number : Int) : Prop :=
  -2 ^ 31 ≤ number ∧ number < 2 ^ 31

instance (number : Int) : Decidable (InRange number) :=
  inferInstanceAs (Decidable (_ ∧ _))

theorem inRange_toInt (number : Int32) : InRange number.toInt :=
  ⟨number.le_toInt, number.toInt_lt⟩

theorem denoted_of_digits {digits : List Char} (areDigits : ∀ char ∈ digits, isDigit char) :
    denoted digits = Nat.ofDigitChars 10 digits 0 := by
  unfold denoted
  split
  next rest =>
    have sign := areDigits '-' List.mem_cons_self
    exact absurd sign (by decide)
  next => rfl

/-! A natural number is read with or without a minus sign before it, up to the
bound of the integers on its side. -/

section

variable {base number : Nat} {digits : List Char}

theorem readInt32_negative
    (read : ∀ limit, readNatural base limit digits = if number < limit then some number else none) :
    readInt32 base ('-' :: digits) =
      if InRange (-number) then some (Int32.ofInt (-number)) else none := by
  rw [readInt32, read]
  by_cases below : number < 0x80000001
  · have inside : InRange (-number) := ⟨by omega, by omega⟩
    rw [if_pos below, if_pos inside]
    rfl
  · have outside : ¬InRange (-number) := fun inside => by
      have least := inside.1
      omega
    rw [if_neg below, if_neg outside]
    rfl

theorem readInt32_natural
    (read : ∀ limit, readNatural base limit digits = if number < limit then some number else none)
    (noMinus : '-' ∉ digits) (noPlus : '+' ∉ digits) :
    readInt32 base digits = if InRange number then some (Int32.ofInt number) else none := by
  unfold readInt32
  split
  next => exact absurd List.mem_cons_self noMinus
  next => exact absurd List.mem_cons_self noPlus
  next =>
    rw [read]
    by_cases below : number < 0x80000000
    · have inside : InRange number := ⟨by omega, by omega⟩
      rw [if_pos below, if_pos inside]
      rfl
    · have outside : ¬InRange number := fun inside => by
        have most := inside.2
        omega
      rw [if_neg below, if_neg outside]
      rfl

end

/-- A numeral is read as what it denotes, if that is an integer of 32 bits. -/
theorem readInt32_of_isNumeral {text : List Char} (numeral : IsNumeral text) :
    readInt32 10 text =
      if InRange (denoted text) then some (Int32.ofInt (denoted text)) else none := by
  rcases numeral with ⟨digits, nonempty, areDigits, rfl | rfl⟩
  · rw [denoted_of_digits areDigits]
    apply readInt32_natural (readNatural_ten nonempty areDigits)
    · intro member
      exact absurd (areDigits '-' member) (by decide)
    · intro member
      exact absurd (areDigits '+' member) (by decide)
  · rw [denoted]
    exact readInt32_negative (readNatural_ten nonempty areDigits)

theorem isNumeral_decimal (number : Int) : IsNumeral (decimal number) := by
  refine ⟨decimalNat number.natAbs, decimalNat_ne_nil _, fun _ => isDigit_of_mem_decimalNat, ?_⟩
  unfold decimal
  split
  · exact .inr rfl
  · exact .inl rfl

theorem denoted_decimal (number : Int) : denoted (decimal number) = number := by
  unfold decimal
  split
  next negative =>
    rw [denoted, decimalNat, Nat.ofDigitChars_ten_toDigits]
    omega
  next natural =>
    rw [denoted_of_digits fun _ => isDigit_of_mem_decimalNat, decimalNat,
      Nat.ofDigitChars_ten_toDigits]
    omega

/-- A numeral stays one when any of its characters is replaced by a digit, also
if that is the sign. -/
theorem IsNumeral.set {text : List Char} (numeral : IsNumeral text) {position : Nat}
    (inside : position < text.length) {char : Char} (digit : isDigit char) :
    IsNumeral (text.set position char) := by
  rcases numeral with ⟨digits, nonempty, areDigits, rfl | rfl⟩
  · refine ⟨text.set position char, ?_, ?_, .inl rfl⟩
    · rwa [ne_eq, List.set_eq_nil_iff]
    · intro other member
      rcases List.mem_or_eq_of_mem_set member with old | rfl
      · exact areDigits other old
      · exact digit
  · cases position with
    | zero =>
        refine ⟨char :: digits, List.cons_ne_nil char digits, ?_, .inl rfl⟩
        intro other member
        rcases List.mem_cons.mp member with rfl | old
        · exact digit
        · exact areDigits other old
    | succ position =>
        refine ⟨digits.set position char, ?_, ?_, .inr rfl⟩
        · rwa [ne_eq, List.set_eq_nil_iff]
        · intro other member
          rcases List.mem_or_eq_of_mem_set member with old | rfl
          · exact areDigits other old
          · exact digit

/-! ## The first digit -/

def leadingDigit (number : Nat) : Nat :=
  number / 10 ^ Nat.log 10 number

theorem leadingDigit_lt (number : Nat) : leadingDigit number < 10 := by
  apply Nat.div_lt_of_lt_mul
  rw [← Nat.pow_succ]
  exact Nat.lt_pow_succ_log_self (by decide) number

theorem leadingDigit_div {number : Nat} (several : 10 ≤ number) :
    leadingDigit (number / 10) = leadingDigit number := by
  rw [leadingDigit, leadingDigit, Nat.log_of_one_lt_of_le (by decide) several, Nat.pow_succ',
    Nat.div_div_eq_div_mul]

theorem take_one_decimalNat (number : Nat) :
    (decimalNat number).take 1 = [Nat.digitChar (leadingDigit number)] := by
  induction number using Nat.strong_induction_on with
  | h number induction =>
      by_cases several : 10 ≤ number
      · have shorter := induction (number / 10) (Nat.div_lt_self (by omega) (by decide))
        have first : 1 ≤ (decimalNat (number / 10)).length :=
          List.length_pos_iff.mpr (decimalNat_ne_nil _)
        rw [decimalNat, Nat.toDigits_of_base_le (by decide) several, ← decimalNat,
          List.take_append_of_le_length first, shorter, leadingDigit_div several]
      · have single : number < 10 := Nat.lt_of_not_le several
        rw [decimalNat, Nat.toDigits_of_lt_base single, leadingDigit, Nat.log_of_lt single]
        simp

theorem isDigit_digitChar {digit : Nat} (small : digit < 10) : isDigit (Nat.digitChar digit) :=
  Nat.isDigit_digitChar.trans (decide_eq_true small)

theorem digitIn_digitChar {digit : Nat} (small : digit < 10) :
    digitIn 10 (Nat.digitChar digit) = some digit := by
  rw [digitIn_ten (isDigit_digitChar small), Nat.toNat_digitChar_of_lt_ten small]
  exact congrArg some (Nat.add_sub_cancel_left ..)

theorem leadingDigit_of_lt {digit : Nat} (small : digit < 10) : leadingDigit digit = digit := by
  rw [leadingDigit, Nat.log_of_lt small, Nat.pow_zero, Nat.div_one]

end Text

/-! ## Positions in a number -/

namespace Value

variable {number index : Int32} {position : Nat}

/-- The decimal form of a number, with the first digit of another number at a
position. -/
def overwritten (number : Int32) (position : Nat) (replacement : Int32) : List Char :=
  (decimal number.toInt).set position (Nat.digitChar (leadingDigit replacement.toInt.natAbs))

theorem length_overwritten (number : Int32) (position : Nat) (replacement : Int32) :
    (overwritten number position replacement).length = (decimal number.toInt).length :=
  List.length_set

theorem isNumeral_overwritten (inside : position < (decimal number.toInt).length)
    (replacement : Int32) : IsNumeral (overwritten number position replacement) :=
  (isNumeral_decimal _).set inside (isDigit_digitChar (leadingDigit_lt _))

theorem position?_of_negative (negative : index.toInt < 0) : position? index = none := by
  rw [position?, if_pos]
  rwa [Int32.lt_iff_toInt_lt]

theorem position?_of_natural (located : index.toInt = position) :
    position? index = some position := by
  have natural : ¬index < 0 := by
    rw [Int32.lt_iff_toInt_lt, Int32.toInt_zero]
    omega
  rw [position?, if_neg natural, located]
  rfl

theorem setDigitOfNumber_outside (outside : (decimal number.toInt).length ≤ position)
    (replacement : Int32) : setDigitOfNumber number position replacement = number := by
  rw [setDigitOfNumber, replaceAt, if_neg (Nat.not_lt.mpr outside)]
  rfl

theorem setDigitOfNumber_inside (inside : position < (decimal number.toInt).length)
    (replacement : Int32) :
    setDigitOfNumber number position replacement =
      if InRange (denoted (overwritten number position replacement)) then
        Int32.ofInt (denoted (overwritten number position replacement))
      else number := by
  have replaced : replaceAt (decimal number.toInt) position
      ((decimalNat replacement.toInt.natAbs).take 1) =
        some (overwritten number position replacement) := by
    rw [replaceAt, if_pos inside, take_one_decimalNat, overwritten,
      List.set_eq_take_append_cons_drop, if_pos inside, List.append_assoc]
    rfl
  rw [setDigitOfNumber, replaced, Option.bind_some,
    readInt32_of_isNumeral (isNumeral_overwritten inside replacement)]
  split <;> rfl

/-- Where the form that was overwritten is a decimal form again, the number of
that form comes out. -/
theorem setDigitOfNumber_of_decimal (inside : position < (decimal number.toInt).length)
    {replacement other : Int32}
    (form : overwritten number position replacement = decimal other.toInt) :
    setDigitOfNumber number position replacement = other := by
  rw [setDigitOfNumber_inside inside, form, denoted_decimal, if_pos (inRange_toInt other),
    Int32.ofInt_toInt]

theorem digitAt_none (number : Int32) : digitAt number none = 0 :=
  rfl

theorem digitAt_of_char {char : Char} (found : (decimal number.toInt)[position]? = some char)
    (digit : isDigit char) : digitAt number (some position) = char.toNat - '0'.toNat := by
  rw [digitAt, Option.bind_some, found, Option.bind_some, digitIn_ten digit]
  rfl

/-- A digit that is put back where it was read leaves the number as it is. -/
theorem setDigitOfNumber_digitAt {char : Char}
    (found : (decimal number.toInt)[position]? = some char) (digit : isDigit char) :
    setDigitOfNumber number position (Int32.ofNat (digitAt number (some position))) = number := by
  rcases List.getElem?_eq_some_iff.mp found with ⟨inside, same⟩
  rcases digitChar_of_isDigit digit with ⟨rebuilt, small⟩
  apply setDigitOfNumber_of_decimal inside
  have word : (Int32.ofNat (char.toNat - '0'.toNat)).toInt = (char.toNat - '0'.toNat : Nat) :=
    Int32.toInt_ofNat_of_lt (Nat.lt_trans small (by decide))
  rw [digitAt_of_char found digit, overwritten, word, Int.natAbs_natCast,
    leadingDigit_of_lt small, rebuilt, ← same, List.set_getElem_self]

/-- Digits are read where they were written, and elsewhere as before. -/
theorem digitAt_overwritten (inside : position < (decimal number.toInt).length)
    {replacement other : Int32}
    (form : overwritten number position replacement = decimal other.toInt) (elsewhere : Nat) :
    digitAt other (some elsewhere) =
      if position = elsewhere then leadingDigit replacement.toInt.natAbs
      else digitAt number (some elsewhere) := by
  rw [digitAt, Option.bind_some, ← form, overwritten, List.getElem?_set, if_pos inside]
  split
  · rw [Option.bind_some, digitIn_digitChar (leadingDigit_lt _)]
    rfl
  · rfl

/-- A digit that is written over another one counts as if it had been written
first. -/
theorem overwritten_overwritten {replacement other : Int32}
    (form : overwritten number position replacement = decimal other.toInt) (second : Int32) :
    overwritten other position second = overwritten number position second := by
  rw [overwritten, ← form, overwritten, List.set_set, overwritten]

/-! ## Digits of values -/

theorem setDigit_int (located : index.toInt = position) (number replacement : Int32) :
    (Value.int number).setDigit index (.int replacement) =
      .int (setDigitOfNumber number position replacement) := by
  rw [setDigit, position?_of_natural located]
  rfl

theorem digit_int (located : index.toInt = position) (number : Int32) :
    (Value.int number).digit index = .int (Int32.ofNat (digitAt number (some position))) := by
  rw [digit, position?_of_natural located]

theorem digit_outside (outside : index.toInt < 0 ∨ (decimal number.toInt).length ≤ index.toInt) :
    (Value.int number).digit index = .int 0 := by
  rcases outside with negative | beyond
  · rw [digit, position?_of_negative negative, digitAt_none]
    rfl
  · have located : index.toInt = index.toInt.toNat := by omega
    have absent : (decimal number.toInt)[index.toInt.toNat]? = none :=
      List.getElem?_eq_none (by omega)
    rw [digit_int located, digitAt, Option.bind_some, absent]
    rfl

theorem setDigit_outside (outside : index.toInt < 0 ∨ (decimal number.toInt).length ≤ index.toInt)
    (replacement : Int32) :
    (Value.int number).setDigit index (.int replacement) = .int number := by
  rcases outside with negative | beyond
  · rw [setDigit, position?_of_negative negative]
  · have located : index.toInt = index.toInt.toNat := by omega
    rw [setDigit_int located, setDigitOfNumber_outside (by omega)]

theorem digit_elsewhere (located : index.toInt = position)
    (inside : position < (decimal number.toInt).length) {replacement other elsewhere : Int32}
    (form : overwritten number position replacement = decimal other.toInt)
    (apart : elsewhere ≠ index) :
    (Value.int other).digit elsewhere = (Value.int number).digit elsewhere := by
  by_cases negative : elsewhere.toInt < 0
  · rw [digit, digit, position?_of_negative negative, digitAt_none, digitAt_none]
  · have place : elsewhere.toInt = elsewhere.toInt.toNat := by omega
    have different : position ≠ elsewhere.toInt.toNat := by
      intro same
      apply apart
      apply Int32.toInt_inj.mp
      omega
    rw [digit_int place, digit_int place, digitAt_overwritten inside form, if_neg different]

/-- Reading and overwriting digits of an integer. Outside its decimal form there
is no digit to read or to overwrite. Inside, the integer becomes what the form
denotes with the first digit of the replacement at the position, and stays as it
is if that does not fit into 32 bits. So it stays the same when a digit is put
back where it was read; and if the new form is the decimal form of an integer, the
digit is read where it was written, the other digits are as before, and a digit
written over it makes the difference that it would have made at first. -/
theorem digits_form_lens (number index replacement : Int32) :
    let text := decimal number.toInt
    let changed := (Value.int number).setDigit index (.int replacement)
    (index.toInt < 0 ∨ text.length ≤ index.toInt →
      changed = .int number ∧ (Value.int number).digit index = .int 0) ∧
    ∀ position : Nat, index.toInt = position → ∀ inside : position < text.length,
      (InRange (denoted (overwritten number position replacement)) →
        ∃ result : Int32, changed = .int result ∧
          result.toInt = denoted (overwritten number position replacement)) ∧
      (¬InRange (denoted (overwritten number position replacement)) → changed = .int number) ∧
      (isDigit text[position] →
        (Value.int number).setDigit index ((Value.int number).digit index) = .int number) ∧
      ∀ other : Int32, overwritten number position replacement = decimal other.toInt →
        changed.digit index = .int (Int32.ofNat (leadingDigit replacement.toInt.natAbs)) ∧
        (∀ elsewhere, elsewhere ≠ index →
          changed.digit elsewhere = (Value.int number).digit elsewhere) ∧
        ∀ second : Int32, InRange (denoted (overwritten number position second)) →
          changed.setDigit index (.int second) =
            (Value.int number).setDigit index (.int second) := by
  intro text changed
  refine ⟨fun outside => ⟨setDigit_outside outside replacement, digit_outside outside⟩, ?_⟩
  intro position located inside
  have becomes : changed = .int (setDigitOfNumber number position replacement) :=
    setDigit_int located number replacement
  have decided := setDigitOfNumber_inside inside replacement
  refine ⟨fun fits => ?_, fun large => ?_, fun isDigit => ?_, fun other form => ?_⟩
  · rw [if_pos fits] at decided
    exact ⟨_, becomes.trans (congrArg Value.int decided),
      Int32.toInt_ofInt_of_le fits.1 fits.2⟩
  · rw [becomes, decided, if_neg large]
  · rw [digit_int located, setDigit_int located,
      setDigitOfNumber_digitAt (List.getElem?_eq_getElem inside) isDigit]
  · have isOther : changed = .int other :=
      becomes.trans (congrArg Value.int (setDigitOfNumber_of_decimal inside form))
    have length : (decimal other.toInt).length = text.length := by
      rw [← form, length_overwritten]
    rw [isOther]
    refine ⟨?_, fun elsewhere apart => digit_elsewhere located inside form apart,
      fun second fits => ?_⟩
    · rw [digit_int located, digitAt_overwritten inside form, if_pos rfl]
    · rw [setDigit_int located, setDigit_int located, setDigitOfNumber_inside inside,
        setDigitOfNumber_inside (length ▸ inside), overwritten_overwritten form, if_pos fits,
        if_pos fits]

/-- The sign of a number is overwritten by the first digit of another number,
and that digit by a third one. -/
theorem digits_form_lens_sign :
    (Value.int (-12)).setDigit 0 (.int (-38)) = .int 312 ∧
      (Value.int 312).digit 0 = .int 3 ∧ (Value.int 312).digit 2 = (Value.int (-12)).digit 2 ∧
      (Value.int 312).setDigit 0 (.int 7) = (Value.int (-12)).setDigit 0 (.int 7) := by
  have form : overwritten (-12) 0 (-38) = decimal (312 : Int32).toInt := rfl
  have inside : 0 < (decimal (-12 : Int32).toInt).length := by decide
  have fits : InRange (denoted (overwritten (-12) 0 7)) := by decide
  have becomes : (Value.int (-12)).setDigit 0 (.int (-38)) = .int 312 := rfl
  rcases (digits_form_lens (-12) 0 (-38)).2 0 rfl inside with ⟨_, _, _, laws⟩
  rcases laws 312 form with ⟨read, others, again⟩
  rw [becomes] at read others again
  exact ⟨becomes, read, others 2 (by decide), again 7 fits⟩

end Value

end NodeAssembly
