import Mathlib.Data.Nat.Digits.Defs
import NodeAssembly.Proofs.Text.Tidy
import NodeAssembly.Proofs.Value.Digits
import NodeAssembly.Value.Cast

/-! Numerals in the bases from 2 to 36, and the names of the casts that read
them. An integer of 32 bits is read back from its digits in any of these bases,
in whichever case its letters are written, and any other integer is refused. The
name of such a cast is the letter `i` with the base in decimal. -/

namespace NodeAssembly

open NodeAssembly.Text

namespace Text

/-! ## Digits -/

/-- How a digit is written: the letters after the nine are written in either
case. -/
def digitCharacters (digit : Nat) : List Char :=
  if digit < 10 then [Char.ofNat ('0'.toNat + digit)]
  else [Char.ofNat ('a'.toNat + (digit - 10)), Char.ofNat ('A'.toNat + (digit - 10))]

/-- The characters are one for each digit. -/
def Spell (digits : List Nat) (chars : List Char) : Prop :=
  List.Forall₂ (fun digit char => char ∈ digitCharacters digit) digits chars

/-- The digits of a number, the most significant one first. Zero has one
digit. -/
def digitsOf (base number : Nat) : List Nat :=
  if number = 0 then [0] else (Nat.digits base number).reverse

/-- The text is the integer written in a base. -/
def Writes (base : Nat) (number : Int) (text : List Char) : Prop :=
  ∃ chars, Spell (digitsOf base number.natAbs) chars ∧
    text = if number < 0 then '-' :: chars else chars

section

variable {base number : Nat} {digits : List Nat} {chars : List Char}

theorem digitValue_of_mem {digit : Nat} (small : digit < 36) {char : Char}
    (member : char ∈ digitCharacters digit) :
    digitValue char = some digit ∧ isBlank char = false := by
  have all : ∀ digit : Fin 36, (digitCharacters digit).all fun char =>
      digitValue char == some digit.val && !isBlank char := by decide
  have here := List.all_eq_true.mp (all ⟨digit, small⟩) char member
  rwa [Bool.and_eq_true, beq_iff_eq, Bool.not_eq_true'] at here

theorem digitIn_of_mem {digit : Nat} (below : digit < base) (most : base ≤ 36) {char : Char}
    (member : char ∈ digitCharacters digit) : digitIn base char = some digit := by
  rw [digitIn, (digitValue_of_mem (Nat.lt_of_lt_of_le below most) member).1]
  exact Option.filter_eq_some_iff.mpr ⟨rfl, decide_eq_true below⟩

theorem Spell.map_digitIn (spell : Spell digits chars) (below : ∀ digit ∈ digits, digit < base)
    (most : base ≤ 36) : chars.map (digitIn base) = digits.map some := by
  induction spell with
  | nil => rfl
  | @cons digit char digits chars here _ induction =>
      have first := digitIn_of_mem (below digit List.mem_cons_self) most here
      rw [List.map_cons, List.map_cons, first,
        induction fun other member => below other (List.mem_cons_of_mem digit member)]

theorem Spell.digitValue_of_mem (spell : Spell digits chars) (below : ∀ digit ∈ digits, digit < 36)
    {char : Char} (member : char ∈ chars) :
    (∃ digit, digitValue char = some digit) ∧ isBlank char = false := by
  induction spell with
  | nil => cases member
  | @cons digit first digits chars here _ induction =>
      rcases List.mem_cons.mp member with rfl | inTail
      · rcases Text.digitValue_of_mem (below digit List.mem_cons_self) here with ⟨value, solid⟩
        exact ⟨⟨digit, value⟩, solid⟩
      · exact induction (fun other isOther => below other (List.mem_cons_of_mem digit isOther)) inTail

theorem digitsOf_ne_nil (base number : Nat) : digitsOf base number ≠ [] := by
  unfold digitsOf
  split
  · exact List.cons_ne_nil 0 []
  next positive => rwa [ne_eq, List.reverse_eq_nil_iff, Nat.digits_eq_nil_iff_eq_zero]

theorem digitsOf_lt (two : 2 ≤ base) {digit : Nat} (member : digit ∈ digitsOf base number) :
    digit < base := by
  unfold digitsOf at member
  split at member
  · rw [List.mem_singleton.mp member]
    omega
  · exact Nat.digits_lt_base two (List.mem_reverse.mp member)

theorem foldl_digitsOf (base number : Nat) :
    (digitsOf base number).foldl (fun total digit => base * total + digit) 0 = number := by
  unfold digitsOf
  split
  next zero => simp [zero]
  next =>
    have value := Nat.ofDigits_digits base number
    rw [Nat.ofDigits_eq_foldr] at value
    rw [List.foldl_reverse]
    calc (Nat.digits base number).foldr (fun digit total => base * total + digit) 0
        = (Nat.digits base number).foldr (fun digit total => digit + base * total) 0 := by
          simp only [Nat.add_comm]
      _ = number := value

theorem Spell.ne_nil (spell : Spell (digitsOf base number) chars) : chars ≠ [] := by
  rintro rfl
  cases digits : digitsOf base number with
  | nil => exact digitsOf_ne_nil base number digits
  | cons head tail =>
      rw [digits] at spell
      cases spell

/-- A sign is no digit. -/
theorem Spell.not_mem (spell : Spell (digitsOf base number) chars) (two : 2 ≤ base)
    (most : base ≤ 36) {sign : Char} (noDigit : digitValue sign = none) : sign ∉ chars := by
  intro member
  have below : ∀ digit ∈ digitsOf base number, digit < 36 :=
    fun digit isDigit => Nat.lt_of_lt_of_le (digitsOf_lt two isDigit) most
  rcases (spell.digitValue_of_mem below member).1 with ⟨digit, value⟩
  rw [noDigit] at value
  cases value

theorem readNatural_digitsOf (two : 2 ≤ base) (most : base ≤ 36)
    (spell : Spell (digitsOf base number) chars) (limit : Nat) :
    readNatural base limit chars = if number < limit then some number else none := by
  have spelled := spell.map_digitIn (fun _ member => digitsOf_lt two member) most
  exact readNatural_spelled (by omega) limit spell.ne_nil spelled (foldl_digitsOf base number)

end

section

variable {base : Nat} {number : Int} {text : List Char}

/-- An integer of 32 bits is read from its digits, and no other one is. -/
theorem readInt32_writes (two : 2 ≤ base) (most : base ≤ 36) (writes : Writes base number text) :
    readInt32 base text = if InRange number then some (Int32.ofInt number) else none := by
  rcases writes with ⟨chars, spell, rfl⟩
  have read := readNatural_digitsOf two most spell
  split
  next negative =>
    have same : -(number.natAbs : Int) = number := by omega
    rw [readInt32_negative read, same]
  next natural =>
    have same : (number.natAbs : Int) = number := by omega
    rw [readInt32_natural read (spell.not_mem two most rfl) (spell.not_mem two most rfl), same]

theorem Writes.ne_nil (writes : Writes base number text) : text ≠ [] := by
  rcases writes with ⟨chars, spell, rfl⟩
  split
  · exact List.cons_ne_nil '-' chars
  · exact spell.ne_nil

theorem Writes.solid (two : 2 ≤ base) (most : base ≤ 36) (writes : Writes base number text)
    {char : Char} (member : char ∈ text) : isBlank char = false := by
  rcases writes with ⟨chars, spell, rfl⟩
  have below : ∀ digit ∈ digitsOf base number.natAbs, digit < 36 :=
    fun digit isDigit => Nat.lt_of_lt_of_le (digitsOf_lt two isDigit) most
  split at member
  · rcases List.mem_cons.mp member with rfl | inChars
    · rfl
    · exact (spell.digitValue_of_mem below inChars).2
  · exact (spell.digitValue_of_mem below member).2

/-- Blanks around an integer make no difference. -/
theorem Writes.trim_eq (two : 2 ≤ base) (most : base ≤ 36) (writes : Writes base number text)
    {before after : List Char} (blankBefore : ∀ char ∈ before, isBlank char)
    (blankAfter : ∀ char ∈ after, isBlank char) : trim (before ++ text ++ after) = text :=
  trim_surrounded blankBefore blankAfter
    (fun _ starts => writes.solid two most (List.mem_of_mem_head? starts))
    (fun _ ends => writes.solid two most (List.mem_of_mem_getLast? ends)) writes.ne_nil

end

end Text

/-! ## Names of casts -/

namespace CastType

/-- The letter `i` with a base in decimal, which may have leading zeros and a
plus sign. -/
def IsRadixName (name : String) (base : Nat) : Prop :=
  2 ≤ base ∧ base ≤ 36 ∧ ∃ digits : List Char, digits ≠ [] ∧ (∀ char ∈ digits, isDigit char) ∧
    Nat.ofDigitChars 10 digits 0 = base ∧
    (name.toList = 'i' :: digits ∨ name.toList = 'i' :: '+' :: digits)

theorem readUnsigned_eq_some_iff {limit number : Nat} {chars : List Char} :
    readUnsigned 10 limit chars = some number ↔
      number < limit ∧ ∃ digits : List Char, digits ≠ [] ∧ (∀ char ∈ digits, isDigit char) ∧
        Nat.ofDigitChars 10 digits 0 = number ∧ (chars = digits ∨ chars = '+' :: digits) := by
  unfold readUnsigned
  split
  next digits =>
    rw [readNatural_ten_eq_some_iff]
    constructor
    · rintro ⟨filled, areDigits, value, below⟩
      exact ⟨below, digits, filled, areDigits, value, .inr rfl⟩
    · rintro ⟨below, others, filled, areDigits, value, rfl | same⟩
      · exact absurd (areDigits '+' List.mem_cons_self) (by decide)
      · cases same
        exact ⟨filled, areDigits, value, below⟩
  next noSign =>
    rw [readNatural_ten_eq_some_iff]
    constructor
    · rintro ⟨filled, areDigits, value, below⟩
      exact ⟨below, chars, filled, areDigits, value, .inl rfl⟩
    · rintro ⟨below, digits, filled, areDigits, value, rfl | same⟩
      · exact ⟨filled, areDigits, value, below⟩
      · exact absurd same (noSign digits)

theorem IsRadixName.letter {name : String} {base : Nat} (isRadix : IsRadixName name base) :
    ∃ next rest, name.toList = 'i' :: next :: rest := by
  rcases isRadix with ⟨_, _, digits, filled, _, _, spelled | spelled⟩
  · rcases List.exists_cons_of_ne_nil filled with ⟨head, tail, rfl⟩
    exact ⟨head, tail, spelled⟩
  · exact ⟨'+', digits, spelled⟩

theorem IsRadixName.read {name : String} {base : Nat} (isRadix : IsRadixName name base) :
    readUnsigned 10 0x100000000 name.toList.tail = some base := by
  rcases isRadix with ⟨two, most, digits, filled, areDigits, value, written⟩
  refine readUnsigned_eq_some_iff.mpr ⟨by omega, digits, filled, areDigits, value, ?_⟩
  rcases written with spelled | spelled
  · exact .inl (by rw [spelled, List.tail_cons])
  · exact .inr (by rw [spelled, List.tail_cons])

theorem isName_of_isRadixName {name : String} {base : Nat} (isRadix : IsRadixName name base) :
    isName name := by
  rcases isRadix.letter with ⟨next, rest, spelled⟩
  have read := isRadix.read
  rw [spelled, List.tail_cons] at read
  unfold isName
  rw [spelled]
  change (readUnsigned 10 0x100000000 (next :: rest)).any _ = true
  rw [read]
  simp [isRadix.1, isRadix.2.1]

/-- The names that are accepted when a program is assembled. -/
theorem isName_iff {name : String} :
    isName name ↔ name ∈ ["i", "f", "s", "c"] ∨ ∃ base, IsRadixName name base := by
  constructor
  · intro named
    unfold isName at named
    split at named
    case h_5 digits _ spelled =>
      cases read : readUnsigned 10 0x100000000 digits with
      | none =>
          rw [read] at named
          cases named
      | some base =>
          simp only [read, Option.any_some, Bool.and_eq_true, decide_eq_true_eq] at named
          rcases (readUnsigned_eq_some_iff.mp read).2 with ⟨digits, filled, areDigits, value, written⟩
          refine .inr ⟨base, named.1, named.2, digits, filled, areDigits, value, ?_⟩
          rw [spelled]
          exact written.imp (congrArg _) (congrArg _)
    case h_6 => cases named
    all_goals
      next spelled =>
        rw [← String.ofList_toList (s := name), spelled]
        exact .inl (by decide)
  · rintro (member | ⟨base, isRadix⟩)
    · simp only [List.mem_cons, List.not_mem_nil, or_false] at member
      rcases member with rfl | rfl | rfl | rfl <;> rfl
    · exact isName_of_isRadixName isRadix

/-- Every base has the name with its decimal form. -/
theorem isRadixName_natural {base : Nat} (two : 2 ≤ base) (most : base ≤ 36) :
    IsRadixName ("i" ++ natural base) base := by
  refine ⟨two, most, decimalNat base, decimalNat_ne_nil base,
    fun _ => isDigit_of_mem_decimalNat, Nat.ofDigitChars_ten_toDigits, .inl ?_⟩
  simp [natural]

end CastType

end NodeAssembly
