import Mathlib.Algebra.GroupWithZero.Nat
import NodeAssembly.Proofs.Program.Declaring
import NodeAssembly.Proofs.Source.Listing

/-! Names after a dollar sign. In front of an instruction such a name is read as a
declaration, among the operands as a token, and the two are read in different
ways. They mean the same: the same pin or the same register, found or made alike,
or refused for the same reason. -/

namespace NodeAssembly

open NodeAssembly.Text NodeAssembly.Assembly

/-- The letter of a kind and then only digits, which denote a number of 32 bits. -/
def NamesPin (name : String) (kind : PinKind) (number : Nat) : Prop :=
  ∃ digits, name.toList = kind.letter :: digits ∧ digits ≠ [] ∧ (∀ char ∈ digits, isDigit char) ∧
    Nat.ofDigitChars 10 digits 0 = number ∧ number < 2 ^ 32

/-- What a name after a dollar sign declares, and the name that the register has
then: that of a pin without the zeros that lead its number, or the name as it is. -/
inductive DeclaredAs (name : String) : Declaration → String → Prop
  | pin {kind : PinKind} {number : Nat} {zeros : List Char} (isPin : NamesPin name kind number)
      (areZeros : ∀ char ∈ zeros, char = '0')
      (spelled : name.toList = kind.letter :: (zeros ++ decimalNat number)) :
      DeclaredAs name (.pin kind number) (String.ofList (kind.letter :: decimalNat number))
  | plain (noPin : ∀ kind number, ¬NamesPin name kind number) :
      DeclaredAs name (.register name) name

/-! ## Reading names -/

section

variable {name : String} {kind : PinKind} {number : Nat}

theorem pinOfName?_eq_some_iff {chars : List Char} :
    pinOfName? chars = some (kind, number) ↔
      ∃ digits, chars = kind.letter :: digits ∧ pinNumber? digits = some number := by
  constructor
  · intro isPin
    unfold pinOfName? at isPin
    split at isPin
    · rcases Option.map_eq_some_iff.mp isPin with ⟨_, read, same⟩
      cases same
      exact ⟨_, rfl, read⟩
    · rcases Option.map_eq_some_iff.mp isPin with ⟨_, read, same⟩
      cases same
      exact ⟨_, rfl, read⟩
    · cases isPin
  · rintro ⟨digits, rfl, read⟩
    cases kind with
    | power => exact Option.map_eq_some_iff.mpr ⟨number, read, rfl⟩
    | xbus => exact Option.map_eq_some_iff.mpr ⟨number, read, rfl⟩

theorem namesPin_iff :
    NamesPin name kind number ↔ pinOfName? name.toList = some (kind, number) := by
  simp only [pinOfName?_eq_some_iff, pinNumber?, readNatural_ten_eq_some_iff]
  exact Iff.rfl

theorem areDigits_of_pin {letter : Char} {digits : List Char} {pin : PinKind × Nat}
    (isPin : pinOfName? (letter :: digits) = some pin) : ∀ char ∈ digits, isDigit char := by
  rcases pinOfName?_eq_some_iff.mp isPin with ⟨_, same, read⟩
  cases same
  exact (readNatural_ten_eq_some_iff.mp read).2.1

theorem exists_first_other {chars : List Char} (others : ¬∀ char ∈ chars, isDigit char) :
    ∃ first char more, chars = first ++ char :: more ∧ (∀ other ∈ first, isDigit other) ∧
      isDigit char = false := by
  cases found : chars.find? (!isDigit ·) with
  | none =>
      rw [List.find?_eq_none] at found
      exact absurd (fun char member => by simpa using found char member) others
  | some char =>
      rcases List.find?_eq_some_iff_append.mp found with ⟨noDigit, first, more, same, areDigits⟩
      refine ⟨first, char, more, same, fun other member => ?_, by simpa using noDigit⟩
      simpa using areDigits other member

end

namespace Declaration

/-- The declaration of a name after a dollar sign. -/
def ofName (name : String) : Declaration :=
  match pinOfName? name.toList with
  | some (kind, number) => .pin kind number
  | none => .register name

theorem declaredAs_ofName (name : String) : DeclaredAs name (ofName name) (canonicalName name) := by
  cases isPin : pinOfName? name.toList with
  | some pin =>
      rcases pin with ⟨kind, number⟩
      have named := namesPin_iff.mpr isPin
      rcases named with ⟨digits, spelled, filled, areDigits, rfl, below⟩
      rcases exists_zeros filled areDigits with ⟨zeros, areZeros, stripped⟩
      rw [ofName, canonicalName_of_pin isPin]
      simp only [isPin]
      refine .pin (namesPin_iff.mpr isPin) areZeros ?_
      rw [spelled, ← stripped]
  | none =>
      rw [ofName, canonicalName_of_noPin isPin]
      simp only [isPin]
      refine .plain fun kind number named => ?_
      rw [namesPin_iff.mp named] at isPin
      cases isPin

/-- A declaration and an operand take the same letters and digits for a pin. -/
theorem pinOfName?_of_digits (letter : Char) {digits : List Char}
    (areDigits : ∀ char ∈ digits, isDigit char) :
    pinOfName? (letter :: digits) =
      (readKind? letter).bind fun kind => (readUnsigned 10 0x100000000 digits).map (kind, ·) := by
  rw [readUnsigned_of_digits _ areDigits]
  unfold readKind? pinOfName? pinNumber?
  split
  next same =>
    cases same
    rfl
  next same =>
    cases same
    rfl
  next noPower noBus =>
    split
    · exact absurd rfl (noPower digits)
    · exact absurd rfl (noBus digits)
    · rfl

theorem readPin?_of_digits {letter : Char} {digits rest : List Char}
    (areDigits : ∀ char ∈ digits, isDigit char)
    (ends : ∀ char ∈ rest.head?, isWordChar char = false) :
    readPin? (letter :: (digits ++ rest)) =
      (pinOfName? (letter :: digits)).map fun pin => (.pin pin.1 pin.2, digits.length + 1) := by
  have ended : rest.head?.any isWordChar = false ∧ rest.takeWhile isDigit = [] := by
    cases rest with
    | nil => exact ⟨rfl, rfl⟩
    | cons char more =>
        have noWord := ends char rfl
        refine ⟨noWord, List.takeWhile_cons_of_neg ?_⟩
        rw [Lexeme.isDigit_of_isWordChar_false noWord]
        exact Bool.false_ne_true
  have taken : (digits ++ rest).takeWhile isDigit = digits := by
    rw [List.takeWhile_append_of_pos areDigits, ended.2, List.append_nil]
  rw [pinOfName?_of_digits letter areDigits]
  unfold readPin?
  simp only [taken, List.drop_left, ended.1, Bool.false_eq_true, if_false]
  cases readKind? letter with
  | none => rfl
  | some kind => cases readUnsigned 10 0x100000000 digits <;> rfl

theorem readPin?_of_other {letter char : Char} {digits more : List Char}
    (areDigits : ∀ char ∈ digits, isDigit char) (noDigit : isDigit char = false)
    (inName : isWordChar char) : readPin? (letter :: (digits ++ char :: more)) = none := by
  have taken : (digits ++ char :: more).takeWhile isDigit = digits := by
    rw [List.takeWhile_append_of_pos areDigits, List.takeWhile_cons_of_neg (by simp [noDigit]),
      List.append_nil]
  unfold readPin?
  simp only [taken, List.drop_left, List.head?_cons, Option.any_some, inName, if_true]
  cases readKind? letter with
  | none => rfl
  | some kind => cases readUnsigned 10 0x100000000 digits <;> rfl

/-- A pin is read up to the end of the whole name, or not at all. -/
theorem readPin?_name {name rest : List Char} (named : isName name)
    (ends : ∀ char ∈ rest.head?, isWordChar char = false) :
    readPin? (name ++ rest) =
      (pinOfName? name).map fun pin => (.pin pin.1 pin.2, name.length) := by
  cases name with
  | nil => cases named
  | cons letter tail =>
      rw [isName, Bool.and_eq_true, List.all_eq_true] at named
      by_cases areDigits : ∀ char ∈ tail, isDigit char
      · exact readPin?_of_digits areDigits ends
      · have noPin : pinOfName? (letter :: tail) = none := by
          cases isPin : pinOfName? (letter :: tail) with
          | none => rfl
          | some pin => exact absurd (areDigits_of_pin isPin) areDigits
        -- The digits end before a character of the name that is none.
        obtain ⟨first, char, more, rfl, areFirst, noDigit⟩ := exists_first_other areDigits
        have inName : isWordChar char := named.2 char (by simp)
        rw [noPin, List.cons_append, List.append_assoc, List.cons_append]
        exact readPin?_of_other areFirst noDigit inName

theorem readAt_dollar {name : String} {rest : List Char} (named : isName name.toList)
    (ends : ∀ char ∈ rest.head?, isWordChar char = false) :
    readAt '$' (name.toList ++ rest) = .found (ofName name) name.toList.length := by
  change readRegister (name.toList ++ rest) = _
  rw [readRegister, readPin?_name named ends, ofName]
  cases isPin : pinOfName? name.toList with
  | some pin => rfl
  | none =>
      have length := nameLength_append named ends
      simp only [Option.map_none, length]
      split
      next empty =>
        rw [List.length_eq_zero_iff] at empty
        rw [empty] at named
        cases named
      next => rw [List.take_left, String.ofList_toList]

end Declaration

theorem Heading.read_dollar {name : String} {rest : List Char} (named : isName name.toList)
    (ends : ∀ char ∈ rest.head?, isWordChar char = false) :
    read ('$' :: (name.toList ++ rest)) =
      ⟨.ofName name :: (read (trimStart rest)).declarations, (read (trimStart rest)).rest⟩ := by
  apply read_of_found (Declaration.readAt_dollar named ends)
  rw [List.drop_left]

/-! ## Steps on any line -/

namespace Assembly

variable {α β : Type}

/-- What comes of a step does not depend on its line, except for the place of an
error. -/
def ComesTo (step : Line → Assembly α) (before : Assembler) (result : Except ErrorKind α)
    (after : Assembler) : Prop :=
  ∀ line, outcome (step line) before =
    (result.mapError (ParseError.ofLine line.number line.raw), after)

variable {step : Line → Assembly α} {before after : Assembler} {result : Except ErrorKind α}

theorem ComesTo.map (comes : ComesTo step before result after) (transform : α → β) :
    ComesTo (fun line => do return transform (← step line)) before (result.map transform)
      after := by
  intro line
  rw [outcome_bind, comes line]
  cases result <;> rfl

theorem comesTo_declarePin (kind : PinKind) (pin : Nat) (before : Assembler) :
    ∃ result after, ComesTo (declarePin · kind pin) before result after ∧
      ∀ register, result = .ok register →
        after.table.find? (kind.registerName pin) = some register := by
  cases found : before.table.find? (kind.registerName pin) with
  | some register =>
      refine ⟨.ok register, before, fun line => ?_, ?_⟩
      · change outcome (declarePin line kind pin) before = _
        rw [declarePin, outcome_get_bind]
        simp only [found]
        rfl
      · rintro _ ⟨⟩
        exact found
  | none =>
      rcases asked : before.registry.channel before.board.channels pin kind with
        ⟨conflict | channel, registry, channels⟩
      · refine ⟨.error (.pinConflict pin conflict), before, fun line => ?_, ?_⟩
        · change outcome (declarePin line kind pin) before = _
          rw [declarePin, outcome_get_bind]
          simp only [found, asked]
          rfl
        · rintro _ ⟨⟩
      · have made (line : Line) := outcome_declarePin_new line found asked
        simp only [outcome_create] at made
        refine ⟨.ok _, _, made, ?_⟩
        rintro _ ⟨⟩
        exact Assembler.find?_create_self found

/-- A register is found or made under its canonical name, or its pin is refused. -/
theorem comesTo_declareRegister (name : String) (before : Assembler) :
    ∃ result after, ComesTo (declareRegister · name) before result after ∧
      ∀ register, result = .ok register →
        after.table.find? (canonicalName name) = some register := by
  unfold declareRegister
  cases isPin : pinOfName? name.toList with
  | some pin =>
      rw [canonicalName_of_pin isPin]
      exact comesTo_declarePin pin.1 pin.2 before
  | none =>
      rw [canonicalName_of_noPin isPin]
      cases found : before.table.find? name with
      | some register =>
          refine ⟨.ok register, before, fun line => ?_, ?_⟩
          · rw [outcome_get_bind]
            simp only [found]
            rfl
          · rintro _ ⟨⟩
            exact found
      | none =>
          let made := before.create name (.plain (.int 0))
          refine ⟨.ok made.1, made.2, fun line => ?_, ?_⟩
          · rw [outcome_get_bind]
            simp only [found]
            rfl
          · rintro _ ⟨⟩
            exact Assembler.find?_create_self found

theorem declare_ofName (line : Line) (name : String) :
    declare line (.ofName name) = declareRegister line name >>= fun _ => pure () := by
  cases isPin : pinOfName? name.toList with
  | some pin =>
      simp only [Declaration.ofName, declareRegister, isPin]
      rfl
  | none =>
      simp only [Declaration.ofName, isPin]
      rfl

end Assembly

/-- The declaration and the token find or make the same register, which has the
canonical name then, or both are refused for the same reason, and they leave the
same state. The lines that they stand on may be different ones. -/
def MeanSame (declaration : Declaration) (token : Token) (canonical : String) : Prop :=
  ∀ before : Assembler, ∃ (result : Except ErrorKind RegisterRef) (after : Assembler),
    ComesTo (declare · declaration) before (result.map fun _ => ()) after ∧
    ComesTo (value · token) before (result.map .ref) after ∧
    ∀ register, result = .ok register → after.table.find? canonical = some register

/-- A name after a dollar sign means the same as a declaration and as an operand.
In front of an instruction it is read up to its end as a declaration, and among
the operands as a token, whatever follows the name. -/
theorem dollar_name_means_same {name : String} {rest : List Char} (named : isName name.toList)
    (ends : ∀ char ∈ rest.head?, isWordChar char = false) :
    ∃ declaration canonical, DeclaredAs name declaration canonical ∧
      Heading.read ('$' :: (name.toList ++ rest)) =
        ⟨declaration :: (Heading.read (trimStart rest)).declarations,
          (Heading.read (trimStart rest)).rest⟩ ∧
      Lexeme.scan ('$' :: (name.toList ++ rest)) =
        ⟨'$' :: name.toList, some (.register name)⟩ :: Lexeme.scan rest ∧
      MeanSame declaration (.register name) canonical := by
  refine ⟨.ofName name, canonicalName name, Declaration.declaredAs_ofName name,
    Heading.read_dollar named ends, ?_, fun before => ?_⟩
  · have scanned := Lexeme.scan_register named ends
    rwa [String.ofList_toList] at scanned
  · rcases comesTo_declareRegister name before with ⟨result, after, comes, found⟩
    refine ⟨result, after, fun line => ?_, comes.map Value.ref, found⟩
    change outcome (declare line (.ofName name)) before = _
    rw [declare_ofName]
    exact comes.map (fun _ => ()) line

/-- A number with zeros before it, and one that is too large for a pin. -/
theorem dollar_name_means_same_zeros :
    isName "x007".toList ∧ isName "p4294967296".toList ∧
      (∀ char ∈ " mov".toList.head?, isWordChar char = false) ∧
      MeanSame (.pin .xbus 7) (.register "x007") "x7" ∧
      MeanSame (.register "p4294967296") (.register "p4294967296") "p4294967296" := by
  have ends : ∀ char ∈ " mov".toList.head?, isWordChar char = false := by
    rintro _ ⟨⟩
    rfl
  have small : isName "x007".toList := by decide +kernel
  have large : isName "p4294967296".toList := by decide +kernel
  refine ⟨small, large, ends, ?_, ?_⟩
  · rcases dollar_name_means_same small ends with ⟨_, _, declaredAs, _, _, same⟩
    have isSeven : pinOfName? "x007".toList = some (.xbus, 7) := by decide +kernel
    cases declaredAs with
    | pin isPin =>
        cases isSeven.symm.trans (namesPin_iff.mp isPin)
        have canonical : String.ofList (PinKind.xbus.letter :: decimalNat 7) = "x7" := by
          decide +kernel
        rwa [canonical] at same
    | plain noPin => exact absurd (namesPin_iff.mpr isSeven) (noPin _ _)
  · rcases dollar_name_means_same large ends with ⟨_, _, declaredAs, _, _, same⟩
    have noPin : pinOfName? "p4294967296".toList = none := by decide +kernel
    cases declaredAs with
    | pin isPin => cases noPin.symm.trans (namesPin_iff.mp isPin)
    | plain => exact same

end NodeAssembly
