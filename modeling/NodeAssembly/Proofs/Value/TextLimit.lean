import Mathlib.Algebra.GroupWithZero.Nat
import NodeAssembly.Proofs.Value.Operators

/-! How long the texts are that the operators make of texts within the limit.
Most operators check the length of their result or cannot make a text longer.
Two do neither: the complement of a text can take twice as many bytes as the
text, and a character can be replaced by a text of any length. -/

namespace NodeAssembly

open NodeAssembly.Text

namespace Text

/-- The bytes that some characters take in a text. -/
def size (chars : List Char) : Nat :=
  (chars.map Char.utf8Size).sum

@[simp] theorem size_nil : size [] = 0 := rfl

@[simp] theorem size_cons (char : Char) (rest : List Char) :
    size (char :: rest) = char.utf8Size + size rest :=
  List.sum_cons

@[simp] theorem size_append (first second : List Char) :
    size (first ++ second) = size first + size second := by
  simp only [size, List.map_append, List.sum_append]

@[simp] theorem utf8ByteSize_ofList (chars : List Char) :
    (String.ofList chars).utf8ByteSize = size chars := by
  induction chars with
  | nil => rfl
  | cons char rest induction =>
      rw [String.ofList_cons, String.utf8ByteSize_append, String.utf8ByteSize_singleton, induction,
        size_cons]

@[simp] theorem size_toList (text : String) : size text.toList = text.utf8ByteSize := by
  rw [← utf8ByteSize_ofList, String.ofList_toList]

theorem size_le_of_sublist {short long : List Char} (sublist : short.Sublist long) :
    size short ≤ size long := by
  induction sublist with
  | slnil => exact Nat.le_refl 0
  | cons char _ induction =>
      rw [size_cons]
      exact Nat.le_add_left_of_le induction
  | cons_cons char _ induction =>
      rw [size_cons, size_cons]
      exact Nat.add_le_add_left induction _

theorem size_le_length_mul {chars : List Char} {most : Nat}
    (each : ∀ char ∈ chars, char.utf8Size ≤ most) : size chars ≤ chars.length * most := by
  induction chars with
  | nil => exact Nat.zero_le _
  | cons char rest induction =>
      have head := each char List.mem_cons_self
      have tail := induction fun other member => each other (List.mem_cons_of_mem char member)
      rw [size_cons, List.length_cons, Nat.succ_mul]
      omega

theorem size_le_four_mul (chars : List Char) : size chars ≤ chars.length * 4 :=
  size_le_length_mul fun char _ => char.utf8Size_le_four

theorem size_replicate (count : Nat) (char : Char) :
    size (List.replicate count char) = count * char.utf8Size := by
  rw [size, List.map_replicate, List.sum_replicate_nat]

theorem length_decimalNat_le {number digits : Nat} (positive : 0 < digits)
    (below : number < Nat.pow 10 digits) : (decimalNat number).length ≤ digits :=
  (Nat.length_toDigits_le_iff (by decide) positive).mpr below

end Text

/-- The value is no text, or a text within the limit. -/
def Value.Fits : Value → Prop
  | .str text => text.utf8ByteSize ≤ textLimit
  | _ => True

/-- An outcome with a value that fits, or with a fault. -/
def Value.Within : Except Fault Value → Prop
  | .ok value => value.Fits
  | .error _ => True

/-- An operator with the operands that come after the left one. -/
inductive Operation where
  | add (right : Value)
  | sub (right : Value)
  | mul (right : Value)
  | div (right : Value)
  | not
  | digit (index : Int32)
  | setDigit (index : Int32) (replacement : Value)
  | cast (kind : Value)

namespace Operation

def apply : Operation → Value → Except Fault Value
  | .add right, left => left.add right
  | .sub right, left => left.sub right
  | .mul right, left => left.mul right
  | .div right, left => left.div right
  | .not, left => .ok left.not
  | .digit index, left => .ok (left.digit index)
  | .setDigit index replacement, left => .ok (left.setDigit index replacement)
  | .cast kind, left => left.cast kind

def operands : Operation → List Value
  | .add right => [right]
  | .sub right => [right]
  | .mul right => [right]
  | .div right => [right]
  | .not => []
  | .digit _ => []
  | .setDigit _ replacement => [replacement]
  | .cast kind => [kind]

/-- The operation makes a text longer than the limit. A complement takes two
bytes if the lowest byte of the character is that of an ASCII character, and
one byte otherwise; a replacement comes in the place of one character. -/
def Oversteps : Operation → Value → Prop
  | .not, .str text =>
    textLimit < text.length + text.toList.countP fun char => char.toNat % 256 < 128
  | .setDigit index replacement, .str text =>
    ∃ char, (Value.position? index).bind (text.toList[·]?) = some char ∧
      textLimit + char.utf8Size < text.utf8ByteSize + replacement.text.utf8ByteSize
  | _, _ => False

end Operation

namespace Value

/-! ## Results that are checked -/

theorem within_check {length : Nat} {value : Value} (fits : length ≤ textLimit → value.Fits) :
    Within (checkLength length >>= fun _ => pure value) := by
  unfold checkLength
  split
  next => trivial
  next within => exact fits (Nat.le_of_not_lt within)

theorem within_joined (first second : String) : Within (joined first second) := by
  apply within_check
  intro short
  exact Nat.le_trans (Nat.le_of_eq String.utf8ByteSize_append) short

theorem within_add {left : Value} (fits : left.Fits) (right : Value) :
    Within (left.add right) := by
  unfold add
  split
  case h_2 => exact within_joined _ _
  case h_5 => exact fits
  case h_6 => exact within_joined _ _
  all_goals trivial

theorem size_copies (text : List Char) (count : Nat) :
    size (copies text count) = size text * count := by
  unfold copies
  split
  next empty =>
    rw [List.isEmpty_iff.mp empty]
    exact (Nat.zero_mul count).symm
  next =>
    induction count with
    | zero => rfl
    | succ count induction =>
        rw [List.replicate_succ, List.flatten_cons, size_append, induction, Nat.mul_succ,
          Nat.add_comm]

theorem le_widest {text : List Char} {char : Char} (member : char ∈ text) :
    char.utf8Size ≤ widest text := by
  have grows : ∀ (chars : List Char) (most : Nat),
      most ≤ chars.foldl (fun most char => max most char.utf8Size) most := by
    intro chars
    induction chars with
    | nil => exact Nat.le_refl
    | cons head tail induction => exact fun most => Nat.le_trans (Nat.le_max_left _ _) (induction _)
  unfold widest
  generalize 0 = least
  induction text generalizing least with
  | nil => cases member
  | cons head tail induction =>
      rcases List.mem_cons.mp member with rfl | member
      · exact Nat.le_trans (Nat.le_max_right _ _) (grows tail _)
      · exact induction member _

theorem mem_cycled {text : List Char} {count : Nat} {char : Char}
    (member : char ∈ cycled text count) : char ∈ text := by
  unfold cycled copies at member
  rcases List.mem_append.mp member with repeated | last
  · split at repeated
    · cases repeated
    · rcases List.mem_flatten.mp repeated with ⟨copy, isCopy, inCopy⟩
      rwa [(List.mem_replicate.mp isCopy).2] at inCopy
  · exact List.mem_of_mem_take last

theorem length_cycled_le (text : List Char) (count : Nat) :
    (cycled text count).length ≤ count := by
  unfold cycled copies
  split
  next empty => simp [List.isEmpty_iff.mp empty]
  next =>
    have parts := Nat.div_add_mod' count text.length
    simp only [List.length_append, List.length_flatten, List.map_replicate,
      List.sum_replicate_nat, List.length_take]
    omega

theorem within_stretched (text : List Char) (factor : Float32) :
    Within (stretched text factor) := by
  unfold stretched
  simp only
  split
  · exact Nat.zero_le _
  · apply within_check
    intro short
    generalize Int.toNat _ = total at short
    have wide : size (cycled text total) ≤ total * widest text :=
      Nat.le_trans (size_le_length_mul fun char member => le_widest (mem_cycled member))
        (Nat.mul_le_mul_right _ (length_cycled_le text total))
    rw [Fits, utf8ByteSize_ofList]
    unfold textLimit at short ⊢
    omega

theorem size_pairs (first second : List Char) :
    size (pairs first second) = second.length * size first + first.length * size second := by
  have row (left : Char) : size (second.flatMap fun right => [left, right]) =
      second.length * left.utf8Size + size second := by
    induction second with
    | nil => simp
    | cons right rest induction =>
        rw [List.flatMap_cons, size_append, induction]
        simp only [size_cons, size_nil, List.length_cons, Nat.succ_mul]
        omega
  induction first with
  | nil => simp [pairs]
  | cons left rest induction =>
      rw [pairs, List.flatMap_cons, size_append, row]
      rw [pairs] at induction
      rw [induction]
      simp only [size_cons, List.length_cons, Nat.succ_mul, Nat.mul_add]
      omega

theorem within_mul {left : Value} (fits : left.Fits) (right : Value) :
    Within (left.mul right) := by
  unfold mul
  split
  case h_4 =>
    apply within_check
    intro short
    rwa [Fits, utf8ByteSize_ofList, size_copies, size_toList]
  case h_5 => exact within_stretched _ _
  case h_6 => exact Nat.zero_le _
  case h_7 =>
    apply within_check
    intro short
    rwa [Fits, utf8ByteSize_ofList, size_pairs, size_toList, size_toList, String.length_toList,
      String.length_toList]
  case h_8 => exact fits
  all_goals trivial

/-! ## Results that are no longer than the text -/

theorem fits_of_sublist {text : String} {chars : List Char} (fits : (Value.str text).Fits)
    (sublist : chars.Sublist text.toList) : (Value.str (String.ofList chars)).Fits := by
  rw [Fits, ← size_toList] at fits
  rw [Fits, utf8ByteSize_ofList]
  exact Nat.le_trans (size_le_of_sublist sublist) fits

theorem removeWithin_sublist (pattern : List Char) (places : Nat) (before text : List Char) :
    (removeWithin pattern places before text).Sublist (before.reverse ++ text) := by
  induction places generalizing before text with
  | zero => simp only [removeWithin, List.reverseAux_eq, List.Sublist.refl]
  | succ places induction =>
      cases text with
      | nil => simp only [removeWithin, List.append_nil, List.Sublist.refl]
      | cons char rest =>
          rw [removeWithin]
          split
          · rw [List.reverseAux_eq]
            exact (List.Sublist.refl _).append (List.drop_sublist _ _)
          · have kept := induction (char :: before) rest
            rwa [List.reverse_cons, List.append_assoc, List.singleton_append] at kept

theorem removeFirst_sublist (pattern text : List Char) :
    (removeFirst pattern text).Sublist text :=
  removeWithin_sublist pattern _ [] text

theorem within_sub {left : Value} (fits : left.Fits) (right : Value) :
    Within (left.sub right) := by
  unfold sub
  split
  case h_4 => exact fits_of_sublist fits (removeFirst_sublist _ _)
  case h_5 => exact fits_of_sublist fits (List.take_sublist _ _)
  case h_6 => exact fits_of_sublist fits (List.take_sublist _ _)
  case h_7 => exact fits
  all_goals trivial

theorem within_div {left : Value} (fits : left.Fits) (right : Value) :
    Within (left.div right) := by
  unfold div
  split
  case h_1 => trivial
  case h_2 =>
    simp only
    split <;> trivial
  case h_3 =>
    simp only
    split <;> trivial
  case h_4 => exact fits

theorem fits_of_length_le {chars : List Char} (short : chars.length ≤ 1000) :
    (Value.str (String.ofList chars)).Fits := by
  have size := size_le_four_mul chars
  rw [Fits, utf8ByteSize_ofList]
  unfold textLimit
  omega

theorem fits_digit (value : Value) (index : Int32) : (value.digit index).Fits := by
  cases value with
  | str text =>
      apply fits_of_length_le
      have one : ∀ found : Option Char, found.toList.length ≤ 1000 := by
        intro found
        cases found <;> simp
      exact one _
  | _ => trivial

/-! ## Texts of numbers -/

theorem length_decimal_le (number : Int32) : (decimal number.toInt).length ≤ 11 := by
  have most := number.toInt_lt
  have least := number.le_toInt
  have digits : (decimalNat number.toInt.natAbs).length ≤ 10 := by
    apply length_decimalNat_le (by decide)
    change _ < 10000000000
    omega
  unfold decimal
  split
  · rw [List.length_cons]
    omega
  · omega

end Value

namespace Decimal

theorem Binary.mantissa_lt (number : Float32) : (ofFloat number).mantissa < 0x1000000 := by
  have fraction : (ofFloat number).fraction < 0x800000 := Nat.mod_lt _ (by decide)
  unfold mantissa
  split <;> omega

theorem Binary.exponent_le (number : Float32) : (ofFloat number).exponent.toNat ≤ 105 := by
  have field : (ofFloat number).field < 256 := Nat.mod_lt _ (by decide)
  unfold exponent
  split <;> omega

theorem roundHalfEven_le (numerator denominator : Nat) :
    roundHalfEven numerator denominator ≤ numerator + 1 := by
  have quotient := Nat.div_le_self numerator denominator
  unfold roundHalfEven
  simp only
  split
  · omega
  · split <;> omega

/-- A number to eight places has at most fifty digits. -/
theorem Binary.rounded_lt (number : Float32) :
    roundHalfEven ((ofFloat number).ratio (Nat.pow 10 8)).1
      ((ofFloat number).ratio (Nat.pow 10 8)).2 < Nat.pow 10 50 := by
  have mantissa : (ofFloat number).mantissa ≤ Nat.pow 10 8 :=
    Nat.le_trans (Nat.le_of_lt (mantissa_lt number)) (by decide)
  have power : Nat.pow 2 (ofFloat number).exponent.toNat ≤ Nat.pow 2 105 :=
    Nat.pow_le_pow_right (by decide) (exponent_le number)
  have numerator : ((ofFloat number).ratio (Nat.pow 10 8)).1 ≤
      Nat.pow 10 8 * Nat.pow 10 8 * Nat.pow 2 105 :=
    Nat.mul_le_mul (Nat.mul_le_mul_right _ mantissa) power
  have rounded := Nat.le_trans (roundHalfEven_le _ ((ofFloat number).ratio (Nat.pow 10 8)).2)
    (Nat.succ_le_succ numerator)
  exact Nat.lt_of_le_of_lt rounded (by decide)

theorem length_fixedDigits_le {places digits : Nat} {parts : Binary} (several : 0 < places)
    (positive : 0 < digits) (below : roundHalfEven (parts.ratio (Nat.pow 10 places)).1
      (parts.ratio (Nat.pow 10 places)).2 < Nat.pow 10 digits) :
    (fixedDigits places parts).length ≤ digits + 1 + places := by
  unfold fixedDigits
  simp only
  generalize roundHalfEven _ _ = scaled at below ⊢
  have whole : (decimalNat (scaled / Nat.pow 10 places)).length ≤ digits :=
    length_decimalNat_le positive (Nat.lt_of_le_of_lt (Nat.div_le_self _ _) below)
  have fraction : (decimalNat (scaled % Nat.pow 10 places)).length ≤ places :=
    length_decimalNat_le several (Nat.mod_lt _ (Nat.pow_pos (by decide)))
  simp only [List.length_append, List.length_cons, List.length_replicate]
  omega

end Decimal

namespace Value

theorem fits_fixedText (number : Float32) : (Value.str (Decimal.fixedText 8 number)).Fits := by
  have digits := Decimal.length_fixedDigits_le (by decide) (by decide)
    (Decimal.Binary.rounded_lt number)
  unfold Decimal.fixedText Decimal.signedText
  simp only
  split
  · change "NaN".utf8ByteSize ≤ textLimit
    decide
  · apply fits_of_length_le
    have size : (if (Decimal.Binary.ofFloat number).isFinite then
        Decimal.fixedDigits 8 (Decimal.Binary.ofFloat number) else "inf".toList).length ≤ 59 := by
      split
      · exact digits
      · decide
    split
    · rw [List.length_cons]
      omega
    · omega

/-- The text of a value that fits is a text that fits. -/
theorem fits_text {value : Value} (fits : value.Fits) : (Value.str value.text).Fits := by
  cases value with
  | int number => exact fits_of_length_le (Nat.le_trans (length_decimal_le number) (by decide))
  | float number => exact fits_fixedText number
  | str text => exact fits
  | null =>
      change "null".utf8ByteSize ≤ textLimit
      decide
  | ref register => exact Nat.zero_le _

theorem fits_castCharacter (value : Value) : value.castCharacter.Fits := by
  cases value with
  | int code =>
      change (Value.str (characterText code)).Fits
      unfold characterText
      simp only
      split
      · exact fits_of_length_le (Nat.le_of_ble_eq_true rfl)
      · exact Nat.zero_le _
  | _ => trivial

theorem within_castRadix (value : Value) (name : String) : Within (value.castRadix name) := by
  unfold castRadix
  split
  · split <;> trivial
  · trivial

theorem within_cast {value : Value} (fits : value.Fits) (kind : Value) :
    Within (value.cast kind) := by
  cases kind with
  | str name =>
      change Within (value.castNamed name)
      unfold castNamed
      split
      case h_1 => exact fits_castCharacter value
      case h_4 => exact fits_text fits
      case h_5 =>
        split
        · exact within_castRadix value name
        · trivial
      all_goals trivial
  | ref register => exact fits
  | _ => trivial

/-! ## Results that are not checked -/

theorem utf8Size_complement (char : Char) :
    (complement char).utf8Size = 1 + if char.toNat % 256 < 128 then 1 else 0 := by
  have bytes : ∀ byte < 256,
      (Char.ofNat (255 - byte)).utf8Size = 1 + if byte < 128 then 1 else 0 := by
    decide +kernel
  exact bytes (char.toNat % 256) (Nat.mod_lt _ (by decide))

theorem size_map_complement (text : List Char) :
    size (text.map complement) =
      text.length + text.countP fun char => char.toNat % 256 < 128 := by
  induction text with
  | nil => rfl
  | cons char rest induction =>
      rw [List.map_cons, size_cons, induction, utf8Size_complement, List.length_cons,
        List.countP_cons]
      simp only [decide_eq_true_eq]
      omega

theorem within_not_iff (left : Value) :
    Within (Operation.not.apply left) ↔ ¬ Operation.not.Oversteps left := by
  cases left with
  | str text =>
      change (String.ofList (text.toList.map complement)).utf8ByteSize ≤ textLimit ↔ ¬ _ < _
      rw [utf8ByteSize_ofList, size_map_complement, String.length_toList, Nat.not_lt]
  | _ => exact iff_of_true trivial id

theorem size_replaceAt {text : List Char} {index : Nat} {char : Char}
    (found : text[index]? = some char) (replacement : List Char) :
    ∃ replaced, replaceAt text index replacement = some replaced ∧
      size replaced + char.utf8Size = size text + size replacement := by
  rcases List.getElem?_eq_some_iff.mp found with ⟨inside, rfl⟩
  refine ⟨_, if_pos inside, ?_⟩
  have split : text.take index ++ text[index] :: text.drop (index + 1) = text := by
    rw [List.getElem_cons_drop, List.take_append_drop]
  have whole := congrArg size split
  simp only [size_append, size_cons] at whole ⊢
  omega

theorem within_setDigit_iff {left : Value} (fits : left.Fits) (index : Int32)
    (replacement : Value) : Within ((Operation.setDigit index replacement).apply left) ↔
      ¬ (Operation.setDigit index replacement).Oversteps left := by
  change (left.setDigit index replacement).Fits ↔ _
  unfold setDigit
  cases left with
  | str text =>
      change _ ↔ ¬ ∃ char, (position? index).bind (text.toList[·]?) = some char ∧
        textLimit + char.utf8Size < text.utf8ByteSize + replacement.text.utf8ByteSize
      cases position? index with
      | none => exact iff_of_true fits (by simp)
      | some position =>
          simp only [Option.bind_some]
          cases found : text.toList[position]? with
          | none =>
              have outside : replaceAt text.toList position replacement.text.toList = none :=
                if_neg (Nat.not_lt.mpr (List.getElem?_eq_none_iff.mp found))
              rw [outside]
              exact iff_of_true fits (by simp)
          | some char =>
              rcases size_replaceAt found replacement.text.toList with ⟨replaced, made, size⟩
              rw [made]
              rw [size_toList, size_toList] at size
              simp only [Fits, utf8ByteSize_ofList, Option.some.injEq, exists_eq_left', Nat.not_lt]
              omega
  | _ =>
      refine iff_of_true ?_ id
      split <;> trivial

end Value

/-- Of texts within the limit the operators make texts within the limit, or
fail, except where a complement or a replacement is too long. -/
theorem operation_within_limit_iff (operation : Operation) {left : Value} (fits : left.Fits)
    (operandsFit : ∀ operand ∈ operation.operands, operand.Fits) :
    Value.Within (operation.apply left) ↔ ¬ operation.Oversteps left := by
  cases operation with
  | add right => exact iff_of_true (Value.within_add fits right) id
  | sub right => exact iff_of_true (Value.within_sub fits right) id
  | mul right => exact iff_of_true (Value.within_mul fits right) id
  | div right => exact iff_of_true (Value.within_div fits right) id
  | not => exact Value.within_not_iff left
  | digit index => exact iff_of_true (Value.fits_digit left index) id
  | setDigit index replacement => exact Value.within_setDigit_iff fits index replacement
  | cast kind => exact iff_of_true (Value.within_cast fits kind) id

/-- A character of a short text is replaced by three. -/
theorem operation_within_limit_iff_replaced :
    (Value.str "abc").Fits ∧ (Value.str "xyz").Fits ∧
      Value.Within ((Operation.setDigit 1 (.str "xyz")).apply (.str "abc")) := by
  have fits : (Value.str "abc").Fits := by
    change "abc".utf8ByteSize ≤ textLimit
    decide
  have operandFits : (Value.str "xyz").Fits := by
    change "xyz".utf8ByteSize ≤ textLimit
    decide
  have operandsFit : ∀ operand ∈ [Value.str "xyz"], operand.Fits := by
    intro operand member
    rwa [List.mem_singleton.mp member]
  refine ⟨fits, operandFits, ?_⟩
  apply (operation_within_limit_iff (.setDigit 1 (.str "xyz")) fits operandsFit).mpr
  rintro ⟨char, found, long⟩
  cases found
  revert long
  decide

namespace Value

/-- The text of so many equal letters. -/
def letters (count : Nat) : Value :=
  .str (String.ofList (List.replicate count 'a'))

theorem fits_letters_iff (count : Nat) : (letters count).Fits ↔ count ≤ textLimit := by
  rw [letters, Fits, utf8ByteSize_ofList, size_replicate]
  exact iff_of_eq (congrArg (· ≤ textLimit) (Nat.mul_one count))

theorem not_letters_oversteps {count : Nat} (long : textLimit < count + count) :
    ¬ Within (Operation.not.apply (letters count)) := by
  rw [within_not_iff, Classical.not_not, letters, Operation.Oversteps, String.length_ofList,
    String.toList_ofList, List.length_replicate, List.countP_replicate]
  exact long

theorem setDigit_letters_oversteps {count : Nat} (fits : count ≤ textLimit)
    (long : textLimit < count + 1) :
    ¬ Within ((Operation.setDigit 0 (.str "bb")).apply (letters count)) := by
  rw [within_setDigit_iff ((fits_letters_iff count).mpr fits), Classical.not_not]
  have first : (List.replicate count 'a')[0]? = some 'a' := by
    rw [List.getElem?_replicate, if_pos]
    unfold textLimit at long
    omega
  refine ⟨'a', ?_, ?_⟩
  · rw [String.toList_ofList]
    exact first
  · rw [utf8ByteSize_ofList, size_replicate]
    change textLimit + 1 < count * 1 + 2
    omega

end Value

/-- The complement of a text of a little more than half the limit is longer
than the limit, and so is a text of the length of the limit with two letters in
the place of one. -/
theorem complement_and_replacement_overstep :
    ((Value.letters 524289).isFlat ∧ (Value.letters 524289).Fits ∧
      ¬ Value.Within (Operation.not.apply (Value.letters 524289))) ∧
    ((Value.letters 1048576).isFlat ∧ (Value.letters 1048576).Fits ∧
      (Value.str "bb").isFlat ∧ (Value.str "bb").Fits ∧
      ¬ Value.Within ((Operation.setDigit 0 (.str "bb")).apply (Value.letters 1048576))) := by
  have half : 524289 ≤ textLimit := by decide
  have whole : 1048576 ≤ textLimit := by decide
  have pair : (Value.str "bb").Fits := by
    change "bb".utf8ByteSize ≤ textLimit
    decide
  exact ⟨⟨rfl, (Value.fits_letters_iff _).mpr half, Value.not_letters_oversteps (by decide)⟩,
    rfl, (Value.fits_letters_iff _).mpr whole, rfl, pair,
    Value.setDigit_letters_oversteps whole (by decide)⟩

end NodeAssembly
