import Mathlib.Data.List.Induction
import NodeAssembly.Text.Numeral

/-! Decimal numerals are read back as the numbers they were written for. -/

namespace NodeAssembly.Text

theorem digitIn_ten {char : Char} (digit : isDigit char) :
    digitIn 10 char = some (char.toNat - '0'.toNat) := by
  have bounds : 48 ≤ char.toNat ∧ char.toNat ≤ 57 := by
    rw [isDigit, Bool.and_eq_true, decide_eq_true_eq, decide_eq_true_eq] at digit
    exact digit
  have small : char.toNat - 48 < 10 := by omega
  rw [digitIn, digitValue, if_pos digit]
  simp [Option.filter, small]

/-- Digits are added up, and the sum is cut off at the limit. -/
theorem readDigits_spelled {base : Nat} (positive : 0 < base) (limit : Nat) {chars : List Char}
    {digits : List Nat} (spelled : chars.map (digitIn base) = digits.map some) (total : Nat) :
    readDigits base limit (min limit total) chars =
      some (min limit (digits.foldl (fun total digit => base * total + digit) total)) := by
  induction chars generalizing digits total with
  | nil =>
      cases digits with
      | nil => rfl
      | cons digit digits => cases spelled
  | cons head tail induction =>
      cases digits with
      | nil => cases spelled
      | cons digit digits =>
          rw [List.map_cons, List.map_cons, List.cons.injEq] at spelled
          have cut : appendDigit base limit (min limit total) digit =
              min limit (base * total + digit) := by
            unfold appendDigit
            rw [Nat.mul_comm]
            rcases Nat.le_total limit total with above | below
            · have grows : limit ≤ base * limit := Nat.le_mul_of_pos_left limit positive
              have more : base * limit ≤ base * total := Nat.mul_le_mul_left base above
              rw [Nat.min_eq_left above]
              omega
            · rw [Nat.min_eq_right below]
          rw [readDigits, spelled.1]
          simp only [cut, List.foldl_cons]
          exact induction spelled.2 _

/-- A numeral is read as the sum of its digits, if that is below the limit. -/
theorem readNatural_spelled {base : Nat} (positive : 0 < base) (limit : Nat) {chars : List Char}
    (nonempty : chars ≠ []) {digits : List Nat}
    (spelled : chars.map (digitIn base) = digits.map some) {number : Nat}
    (sum : digits.foldl (fun total digit => base * total + digit) 0 = number) :
    readNatural base limit chars = if number < limit then some number else none := by
  have read := readDigits_spelled positive limit spelled 0
  rw [Nat.min_zero, sum] at read
  unfold readNatural
  split
  next => exact absurd rfl nonempty
  next =>
    rw [read]
    by_cases below : number < limit
    · simp [Option.filter, below, Nat.min_eq_right (Nat.le_of_lt below)]
    · simp [Option.filter, below, Nat.min_eq_left (Nat.le_of_not_lt below)]

theorem readNatural_ten {digits : List Char} (nonempty : digits ≠ [])
    (areDigits : ∀ char ∈ digits, isDigit char) (limit : Nat) :
    readNatural 10 limit digits =
      if Nat.ofDigitChars 10 digits 0 < limit then some (Nat.ofDigitChars 10 digits 0)
      else none := by
  have spelled : digits.map (digitIn 10) =
      (digits.map fun char => char.toNat - '0'.toNat).map some := by
    rw [List.map_map]
    exact List.map_congr_left fun char member => digitIn_ten (areDigits char member)
  exact readNatural_spelled (by decide) limit nonempty spelled List.foldl_map

theorem isDigit_of_digitIn {char : Char} {digit : Nat} (read : digitIn 10 char = some digit) :
    isDigit char := by
  unfold digitIn digitValue at read
  split at read
  next digit => exact digit
  next =>
    -- The letters stand for more than nine.
    simp only [Option.filter_eq_some_iff, decide_eq_true_eq] at read
    rcases read with ⟨value, small⟩
    split at value
    · cases value
      omega
    · split at value
      · cases value
        omega
      · cases value

theorem areDigits_of_readDigits {limit total result : Nat} {chars : List Char}
    (read : readDigits 10 limit total chars = some result) : ∀ char ∈ chars, isDigit char := by
  induction chars generalizing total with
  | nil => nofun
  | cons head tail induction =>
      rw [readDigits] at read
      split at read
      next digit isRead =>
        intro char member
        rcases List.mem_cons.mp member with rfl | inTail
        · exact isDigit_of_digitIn isRead
        · exact induction read char inTail
      next => cases read

theorem readNatural_ten_eq_some_iff {limit number : Nat} {chars : List Char} :
    readNatural 10 limit chars = some number ↔
      chars ≠ [] ∧ (∀ char ∈ chars, isDigit char) ∧ Nat.ofDigitChars 10 chars 0 = number ∧
        number < limit := by
  constructor
  · intro read
    have filled : chars ≠ [] := by
      rintro rfl
      cases read
    have areDigits : ∀ char ∈ chars, isDigit char := by
      unfold readNatural at read
      split at read
      next => cases read
      next => exact areDigits_of_readDigits (Option.filter_eq_some_iff.mp read).1
    rw [readNatural_ten filled areDigits] at read
    split at read
    next below =>
      cases read
      exact ⟨filled, areDigits, rfl, below⟩
    next => cases read
  · rintro ⟨filled, areDigits, rfl, below⟩
    rw [readNatural_ten filled areDigits, if_pos below]

/-- Digits alone are the same number where a sign may stand in front of them. -/
theorem readUnsigned_of_digits (limit : Nat) {digits : List Char}
    (areDigits : ∀ char ∈ digits, isDigit char) :
    readUnsigned 10 limit digits = readNatural 10 limit digits := by
  unfold readUnsigned
  split
  next rest => exact absurd (areDigits '+' List.mem_cons_self) (by decide)
  next => rfl

theorem isDigit_of_mem_decimalNat {number : Nat} {char : Char} (member : char ∈ decimalNat number) :
    isDigit char :=
  Nat.isDigit_of_mem_toDigits (by decide) (by decide) member

theorem decimalNat_ne_nil (number : Nat) : decimalNat number ≠ [] :=
  Nat.toDigits_ne_nil

theorem decimalNat_injective : Function.Injective decimalNat := by
  intro first second same
  have read := congrArg (Nat.ofDigitChars 10 · 0) same
  simpa only [decimalNat, Nat.ofDigitChars_ten_toDigits] using read

theorem readNatural_decimalNat {number limit : Nat} (below : number < limit) :
    readNatural 10 limit (decimalNat number) = some number := by
  rw [readNatural_ten (decimalNat_ne_nil number) fun _ => isDigit_of_mem_decimalNat, decimalNat,
    Nat.ofDigitChars_ten_toDigits, if_pos below]

theorem digitChar_of_isDigit {char : Char} (digit : isDigit char) :
    Nat.digitChar (char.toNat - '0'.toNat) = char ∧ char.toNat - '0'.toNat < 10 := by
  have bounds : 48 ≤ char.toNat ∧ char.toNat ≤ 57 := by
    rw [isDigit, Bool.and_eq_true, decide_eq_true_eq, decide_eq_true_eq] at digit
    exact digit
  have small : char.toNat - '0'.toNat < 10 := by
    change char.toNat - 48 < 10
    omega
  refine ⟨Char.toNat_inj.mp ?_, small⟩
  rw [Nat.toNat_digitChar_of_lt_ten small]
  change 48 + (char.toNat - 48) = char.toNat
  omega

/-- Digits are the decimal form of the number that they denote, with zeros before
it. -/
theorem exists_zeros {digits : List Char} (filled : digits ≠ [])
    (areDigits : ∀ char ∈ digits, isDigit char) :
    ∃ zeros, (∀ char ∈ zeros, char = '0') ∧
      digits = zeros ++ decimalNat (Nat.ofDigitChars 10 digits 0) := by
  induction digits using List.reverseRecOn with
  | nil => exact absurd rfl filled
  | append_singleton init char induction =>
      rcases digitChar_of_isDigit (areDigits char (by simp)) with ⟨rebuilt, small⟩
      have single : decimalNat (char.toNat - '0'.toNat) = [char] := by
        rw [decimalNat, Nat.toDigits_of_lt_base small, rebuilt]
      rw [Nat.ofDigitChars_append, Nat.ofDigitChars_cons, Nat.ofDigitChars_nil]
      by_cases empty : init = []
      · subst empty
        refine ⟨[], nofun, ?_⟩
        rw [Nat.ofDigitChars_nil, Nat.mul_zero, Nat.zero_add, single]
      · have others : ∀ char ∈ init, isDigit char := fun other member =>
          areDigits other (List.mem_append_left [char] member)
        rcases induction empty others with ⟨zeros, areZeros, spelled⟩
        generalize Nat.ofDigitChars 10 init 0 = number at spelled ⊢
        rcases Nat.eq_zero_or_pos number with rfl | positive
        · refine ⟨init, ?_, ?_⟩
          · rw [spelled]
            intro other member
            rcases List.mem_append.mp member with inZeros | last
            · exact areZeros other inZeros
            · exact List.mem_singleton.mp last
          · rw [Nat.mul_zero, Nat.zero_add, single]
        · refine ⟨zeros, areZeros, ?_⟩
          rw [decimalNat, ← Nat.toDigits_append_toDigits (by decide) positive small, ← decimalNat,
            ← decimalNat, single, ← List.append_assoc, ← spelled]

/-- A numeral starts with a digit, so it has no sign of its own. -/
theorem head_decimalNat (number : Nat) :
    ∃ head tail, decimalNat number = head :: tail ∧ isDigit head := by
  cases digits : decimalNat number with
  | nil => exact absurd digits (decimalNat_ne_nil number)
  | cons head tail =>
      have member : head ∈ decimalNat number := by
        rw [digits]
        exact List.mem_cons_self
      exact ⟨head, tail, rfl, isDigit_of_mem_decimalNat member⟩

theorem readInt32_decimal (number : Int32) : readInt32 10 (decimal number.toInt) = some number := by
  have lower := number.le_toInt
  have upper := number.toInt_lt
  unfold decimal
  split
  next negative =>
    have inside : number.toInt.natAbs < 0x80000001 := by omega
    have same : -(number.toInt.natAbs : Int) = number.toInt := by omega
    simp only [readInt32, readNatural_decimalNat inside]
    change some (Int32.ofInt (-(number.toInt.natAbs : Int))) = some number
    rw [same, Int32.ofInt_toInt]
  next natural =>
    have inside : number.toInt.natAbs < 0x80000000 := by omega
    have same : (number.toInt.natAbs : Int) = number.toInt := by omega
    rcases head_decimalNat number.toInt.natAbs with ⟨head, tail, digits, isDigit⟩
    have read := readNatural_decimalNat inside
    rw [digits] at read ⊢
    unfold readInt32
    split
    next equal =>
      cases equal
      exact absurd isDigit (by decide)
    next equal =>
      cases equal
      exact absurd isDigit (by decide)
    next =>
      simp only [read]
      change some (Int32.ofInt (number.toInt.natAbs : Int)) = some number
      rw [same, Int32.ofInt_toInt]

end NodeAssembly.Text
