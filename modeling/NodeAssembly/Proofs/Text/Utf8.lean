import Mathlib.Data.List.Basic
import NodeAssembly.Text.Utf8

/-! Text as bytes and back. Every character is written as a first byte and bytes
that only continue one, so the bytes of a text can be cut at any byte that does
not continue a character, and each part is decoded for itself. A part that
starts inside a character is decoded into more characters than start in it. -/

namespace NodeAssembly.Text

/-! ## Bytes of a character -/

/-- The byte continues a character. -/
def isContinuation (byte : UInt8) : Bool :=
  0x80 ≤ byte && byte < 0xC0

theorem isContinuation_iff {byte : UInt8} :
    isContinuation byte ↔ 0x80 ≤ byte.toNat ∧ byte.toNat < 0xC0 := by
  rw [isContinuation, Bool.and_eq_true, decide_eq_true_eq, decide_eq_true_eq,
    UInt8.le_iff_toNat_le, UInt8.lt_iff_toNat_lt]
  rfl

namespace Partial

/-- The byte is within the bounds. -/
def Accepts (start : Partial) (byte : UInt8) : Prop :=
  start.least.toNat ≤ byte.toNat ∧ byte.toNat ≤ start.most.toNat

/-- The bits that have been read after one more byte. -/
def codeWith (start : Partial) (byte : UInt8) : Nat :=
  start.code * 64 + (byte.toNat - 0x80)

/-- Only bytes that continue a character are within the bounds. -/
def Bounded (start : Partial) : Prop :=
  ∀ byte, start.Accepts byte → isContinuation byte

end Partial

section

variable {byte : UInt8} {start : Partial} {bytes before after : List UInt8} {char : Char}

/-- What a first byte means, by its number. -/
theorem opening_eq (byte : UInt8) :
    opening byte =
      if byte.toNat < 0x80 then .complete (Char.ofNat byte.toNat)
      else if byte.toNat < 0xC2 then .invalid
      else if byte.toNat < 0xE0 then .incomplete ⟨byte.toNat - 0xC0, 1, 0x80, 0xBF⟩
      else if byte.toNat < 0xF0 then
        .incomplete ⟨byte.toNat - 0xE0, 2, if byte.toNat = 0xE0 then 0xA0 else 0x80,
          if byte.toNat = 0xED then 0x9F else 0xBF⟩
      else if byte.toNat < 0xF5 then
        .incomplete ⟨byte.toNat - 0xF0, 3, if byte.toNat = 0xF0 then 0x90 else 0x80,
          if byte.toNat = 0xF4 then 0x8F else 0xBF⟩
      else .invalid := by
  simp only [opening, UInt8.lt_iff_toNat_lt, beq_iff_eq, ← UInt8.toNat_inj, UInt8.reduceToNat]
  grind

theorem bounded_of_bounds (lower : 0x80 ≤ start.least.toNat) (upper : start.most.toNat < 0xC0) :
    start.Bounded := by
  intro byte accepts
  have least := accepts.1
  have most := accepts.2
  exact isContinuation_iff.mpr ⟨by omega, by omega⟩

theorem isContinuation_of_complete (opens : opening byte = .complete char) :
    isContinuation byte = false := by
  rw [opening_eq] at opens
  rw [← Bool.not_eq_true, isContinuation_iff]
  grind

theorem isContinuation_of_incomplete (opens : opening byte = .incomplete start) :
    isContinuation byte = false := by
  rw [opening_eq] at opens
  rw [← Bool.not_eq_true, isContinuation_iff]
  grind

theorem bounded_of_incomplete (opens : opening byte = .incomplete start) : start.Bounded := by
  have lower : ∀ condition : Prop, ∀ [Decidable condition], ∀ bound : UInt8,
      0x80 ≤ bound.toNat → 0x80 ≤ (if condition then bound else 0x80).toNat := by
    intro condition _ bound above
    split
    · exact above
    · exact Nat.le_refl 0x80
  have upper : ∀ condition : Prop, ∀ [Decidable condition], ∀ bound : UInt8,
      bound.toNat < 0xC0 → (if condition then bound else 0xBF).toNat < 0xC0 := by
    intro condition _ bound below
    split
    · exact below
    · exact Nat.lt_succ_self 0xBF
  rw [opening_eq] at opens
  split at opens
  · cases opens
  split at opens
  · cases opens
  split at opens
  · rw [← Opening.incomplete.inj opens]
    exact bounded_of_bounds (Nat.le_refl 0x80) (Nat.lt_succ_self 0xBF)
  split at opens
  · rw [← Opening.incomplete.inj opens]
    exact bounded_of_bounds (lower _ 0xA0 (by decide)) (upper _ 0x9F (by decide))
  split at opens
  · rw [← Opening.incomplete.inj opens]
    exact bounded_of_bounds (lower _ 0x90 (by decide)) (upper _ 0x8F (by decide))
  · cases opens

/-- The bytes finish a character that was started. -/
inductive Finishes : Partial → List UInt8 → Char → Prop
  | last {start : Partial} {byte : UInt8} {char : Char} (accepts : start.Accepts byte)
      (single : start.missing ≤ 1) (value : Char.ofNat (start.codeWith byte) = char) :
      Finishes start [byte] char
  | more {start : Partial} {byte : UInt8} {rest : List UInt8} {char : Char}
      (accepts : start.Accepts byte) (several : ¬start.missing ≤ 1)
      (finishes : Finishes ⟨start.codeWith byte, start.missing - 1, 0x80, 0xBF⟩ rest char) :
      Finishes start (byte :: rest) char

/-- The bytes are a character. -/
inductive Encodes : List UInt8 → Char → Prop
  | single {byte : UInt8} {char : Char} (opens : opening byte = .complete char) :
      Encodes [byte] char
  | several {first : UInt8} {start : Partial} {rest : List UInt8} {char : Char}
      (opens : opening first = .incomplete start) (finishes : Finishes start rest char) :
      Encodes (first :: rest) char

theorem toNat_ofNat {number : Nat} (small : number < 256) : (UInt8.ofNat number).toNat = number :=
  UInt8.toNat_ofNat_of_lt' small

/-! The first byte of a character of several bytes has its highest bits. -/

section

variable {code : Nat}

theorem opening_two (several : 2 ≤ code) (small : code < 32) :
    opening (UInt8.ofNat (code + 192)) = .incomplete ⟨code, 1, 0x80, 0xBF⟩ := by
  rw [opening_eq, toNat_ofNat (by omega), if_neg (by omega), if_neg (by omega),
    if_pos (by omega), Nat.add_sub_cancel]

theorem opening_three (small : code < 16) :
    opening (UInt8.ofNat (code + 224)) =
      .incomplete ⟨code, 2, if code = 0 then 0xA0 else 0x80, if code = 13 then 0x9F else 0xBF⟩ := by
  have least : code + 224 = 0xE0 ↔ code = 0 := by omega
  have most : code + 224 = 0xED ↔ code = 13 := by omega
  rw [opening_eq, toNat_ofNat (by omega), if_neg (by omega), if_neg (by omega),
    if_neg (by omega), if_pos (by omega), Nat.add_sub_cancel]
  simp only [least, most]

theorem opening_four (small : code < 5) :
    opening (UInt8.ofNat (code + 240)) =
      .incomplete ⟨code, 3, if code = 0 then 0x90 else 0x80, if code = 4 then 0x8F else 0xBF⟩ := by
  have least : code + 240 = 0xF0 ↔ code = 0 := by omega
  have most : code + 240 = 0xF4 ↔ code = 4 := by omega
  rw [opening_eq, toNat_ofNat (by omega), if_neg (by omega), if_neg (by omega),
    if_neg (by omega), if_neg (by omega), if_pos (by omega), Nat.add_sub_cancel]
  simp only [least, most]

end

/-! A byte that continues a character has its next six bits. -/

section

variable {code missing : Nat} {least most : UInt8} {rest : List UInt8}

theorem toNat_continuation (code : Nat) :
    (UInt8.ofNat (code % 64 + 128)).toNat = code % 64 + 128 :=
  toNat_ofNat (by omega)

theorem le_continuation (code : Nat) : (0x80 : UInt8).toNat ≤ code % 64 + 128 :=
  Nat.le_add_left 128 (code % 64)

theorem continuation_le (code : Nat) : code % 64 + 128 ≤ (0xBF : UInt8).toNat := by
  change code % 64 + 128 ≤ 191
  omega

theorem codeWith_continuation :
    (Partial.mk (code / 64) missing least most).codeWith (UInt8.ofNat (code % 64 + 128)) =
      code := by
  unfold Partial.codeWith
  rw [toNat_continuation, Nat.add_sub_cancel]
  exact Nat.div_add_mod' code 64

theorem finishes_last (lower : least.toNat ≤ code % 64 + 128)
    (upper : code % 64 + 128 ≤ most.toNat) :
    Finishes ⟨code / 64, 1, least, most⟩ [UInt8.ofNat (code % 64 + 128)] (Char.ofNat code) := by
  apply Finishes.last
  · rw [Partial.Accepts, toNat_continuation]
    exact ⟨lower, upper⟩
  · exact Nat.le_refl 1
  · rw [codeWith_continuation]

theorem finishes_more (lower : least.toNat ≤ code % 64 + 128)
    (upper : code % 64 + 128 ≤ most.toNat)
    (finishes : Finishes ⟨code, missing + 1, 0x80, 0xBF⟩ rest char) :
    Finishes ⟨code / 64, missing + 2, least, most⟩ (UInt8.ofNat (code % 64 + 128) :: rest) char := by
  apply Finishes.more
  · rw [Partial.Accepts, toNat_continuation]
    exact ⟨lower, upper⟩
  · simp
  · rw [codeWith_continuation]
    exact finishes

end

theorem encodes_utf8EncodeChar (char : Char) : Encodes (String.utf8EncodeChar char) char := by
  have valid : char.val.toNat < 0xD800 ∨ 0xDFFF < char.val.toNat ∧ char.val.toNat < 0x110000 :=
    char.valid
  have value : Char.ofNat char.val.toNat = char := Char.ofNat_toNat char
  unfold String.utf8EncodeChar
  generalize char.val.toNat = code at valid value
  subst value
  have last := finishes_last (le_continuation code) (continuation_le code)
  simp only
  split
  next =>
    apply Encodes.single
    rw [opening_eq, toNat_ofNat (by omega), if_pos (by omega)]
  split
  next =>
    have lead : code / 64 % 32 = code / 64 := by omega
    rw [lead]
    have opens : opening (UInt8.ofNat (code / 64 + 192)) = _ := opening_two (by omega) (by omega)
    exact .several opens last
  split
  next =>
    have lead : code / 4096 % 16 = code / 64 / 64 := by omega
    rw [lead]
    have opens : opening (UInt8.ofNat (code / 64 / 64 + 224)) = _ := opening_three (by omega)
    refine .several opens (finishes_more ?_ ?_ last)
    -- Codes of up to eleven bits take two bytes, and surrogates are no characters.
    · split
      · change 160 ≤ code / 64 % 64 + 128
        omega
      · exact le_continuation _
    · split
      · change code / 64 % 64 + 128 ≤ 159
        omega
      · exact continuation_le _
  next =>
    have lead : code / 262144 % 8 = code / 64 / 64 / 64 := by omega
    have middle : code / 4096 = code / 64 / 64 := by omega
    rw [lead, middle]
    have opens : opening (UInt8.ofNat (code / 64 / 64 / 64 + 240)) = _ :=
      opening_four (by omega)
    refine .several opens (finishes_more ?_ ?_
      (finishes_more (le_continuation _) (continuation_le _) last))
    -- Codes of up to sixteen bits take three bytes, and the last code is `10FFFF`.
    · split
      · change 144 ≤ code / 64 / 64 % 64 + 128
        omega
      · exact le_continuation _
    · split
      · change code / 64 / 64 % 64 + 128 ≤ 143
        omega
      · exact continuation_le _

/-! ## Reading a character -/

theorem continueCharacter_of_accepts (accepts : start.Accepts byte) :
    continueCharacter start byte =
      if start.missing ≤ 1 then ([Char.ofNat (start.codeWith byte)], none)
      else ([], some ⟨start.codeWith byte, start.missing - 1, 0x80, 0xBF⟩) := by
  have least : start.least ≤ byte := UInt8.le_iff_toNat_le.mpr accepts.1
  have most : byte ≤ start.most := UInt8.le_iff_toNat_le.mpr accepts.2
  simp only [continueCharacter, least, most, decide_true, Bool.and_self, if_true]
  rfl

/-- A byte out of bounds breaks a character off, and is read as a first byte. -/
theorem decodeFrom_of_not_accepts (refused : ¬start.Accepts byte) (rest : List UInt8) :
    decodeFrom (some start) (byte :: rest) = replacement :: decode (byte :: rest) := by
  have outside : (decide (start.least ≤ byte) && decide (byte ≤ start.most)) = false := by
    rw [← Bool.not_eq_true, Bool.and_eq_true, decide_eq_true_eq, decide_eq_true_eq,
      UInt8.le_iff_toNat_le, UInt8.le_iff_toNat_le]
    exact refused
  rw [decodeFrom, continueCharacter, outside]
  rfl

theorem Finishes.decodeFrom_append (finishes : Finishes start bytes char) (rest : List UInt8) :
    decodeFrom (some start) (bytes ++ rest) = char :: decode rest := by
  induction finishes with
  | last accepts single value =>
      rw [List.singleton_append, decodeFrom, continueCharacter_of_accepts accepts,
        if_pos single, value]
      rfl
  | more accepts several _ induction =>
      rw [List.cons_append, decodeFrom, continueCharacter_of_accepts accepts, if_neg several]
      exact induction

theorem Finishes.decodeFrom_broken (finishes : Finishes start bytes char)
    (split : bytes = before ++ after) (broken : after ≠ []) :
    decodeFrom (some start) before = [replacement] := by
  induction finishes generalizing before with
  | last accepts single value =>
      cases before with
      | nil => rfl
      | cons head tail =>
          have none : after = [] := by
            have tails := (List.cons.inj split).2
            exact (List.append_eq_nil_iff.mp tails.symm).2
          exact absurd none broken
  | more accepts several _ induction =>
      cases before with
      | nil => rfl
      | cons head tail =>
          rcases List.cons.inj split with ⟨rfl, tails⟩
          rw [decodeFrom, continueCharacter_of_accepts accepts, if_neg several]
          exact induction tails

theorem Encodes.decode_append (encodes : Encodes bytes char) (rest : List UInt8) :
    decode (bytes ++ rest) = char :: decode rest := by
  cases encodes with
  | single opens =>
      rw [decode, List.singleton_append, decodeFrom, openCharacter, opens]
      rfl
  | several opens finishes =>
      rw [decode, List.cons_append, decodeFrom, openCharacter, opens]
      exact finishes.decodeFrom_append rest

/-- The first bytes of a character are one broken character. -/
theorem Encodes.decode_broken (encodes : Encodes bytes char) (split : bytes = before ++ after)
    (filled : before ≠ []) (broken : after ≠ []) : decode before = [replacement] := by
  rcases List.exists_cons_of_ne_nil filled with ⟨head, tail, rfl⟩
  cases encodes with
  | single opens =>
      have none := (List.append_eq_nil_iff.mp (List.cons.inj split).2.symm).2
      exact absurd none broken
  | several opens finishes =>
      rcases List.cons.inj split with ⟨rfl, tails⟩
      rw [decode, decodeFrom, openCharacter, opens]
      exact finishes.decodeFrom_broken tails broken

/-! Only the first byte of a character does not continue one. -/

theorem Finishes.isContinuation_of_mem (finishes : Finishes start bytes char)
    (bounded : start.Bounded) {byte : UInt8} (member : byte ∈ bytes) : isContinuation byte := by
  induction finishes with
  | last accepts =>
      rw [List.mem_singleton.mp member]
      exact bounded _ accepts
  | more accepts _ _ induction =>
      rcases List.mem_cons.mp member with rfl | later
      · exact bounded _ accepts
      · exact induction (bounded_of_bounds (Nat.le_refl 0x80) (Nat.lt_succ_self 0xBF)) later

theorem Encodes.exists_first (encodes : Encodes bytes char) :
    ∃ first rest, bytes = first :: rest ∧ isContinuation first = false ∧
      ∀ byte ∈ rest, isContinuation byte := by
  cases encodes with
  | single opens => exact ⟨_, [], rfl, isContinuation_of_complete opens, nofun⟩
  | several opens finishes =>
      exact ⟨_, _, rfl, isContinuation_of_incomplete opens, fun byte member =>
        finishes.isContinuation_of_mem (bounded_of_incomplete opens) member⟩

end

/-! ## Bytes of a text -/

/-- The bytes of some characters. -/
def utf8 (chars : List Char) : List UInt8 :=
  chars.flatMap String.utf8EncodeChar

theorem toList_loop (bytes : ByteArray) (index : Nat) (done : List UInt8) :
    ByteArray.toList.loop bytes index done = done.reverse ++ bytes.data.toList.drop index := by
  fun_induction ByteArray.toList.loop bytes index done with
  | case1 index done inside induction =>
      have bound : index < bytes.data.toList.length := by
        rwa [Array.length_toList]
      have here : bytes.get! index = bytes.data.toList[index] := by
        simp only [ByteArray.get!, Array.getElem_toList]
        exact getElem!_pos bytes.data index inside
      rw [induction, here, List.reverse_cons, List.append_assoc, List.singleton_append,
        ← List.drop_eq_getElem_cons bound]
  | case2 index done outside =>
      have bound : bytes.data.toList.length ≤ index := by
        rw [Array.length_toList]
        exact Nat.le_of_not_lt outside
      rw [List.drop_eq_nil_of_le bound, List.append_nil]

theorem encode_eq_utf8 (text : String) : encode text = utf8 text.toList := by
  rw [encode, ByteArray.toList, toList_loop, List.drop_zero, List.reverse_nil, List.nil_append]
  have whole : text.toUTF8 = text.toList.utf8Encode := by
    rw [String.toUTF8_eq_toByteArray, ← String.toByteArray_ofList, String.ofList_toList]
  rw [whole, List.utf8Encode, List.toList_data_toByteArray, utf8]

section

variable {chars pattern : List Char} {before after rest : List UInt8}

theorem utf8_cons (char : Char) (chars : List Char) :
    utf8 (char :: chars) = String.utf8EncodeChar char ++ utf8 chars :=
  List.flatMap_cons

theorem utf8_append (first second : List Char) :
    utf8 (first ++ second) = utf8 first ++ utf8 second :=
  List.flatMap_append

theorem decode_utf8_append (chars : List Char) (rest : List UInt8) :
    decode (utf8 chars ++ rest) = chars ++ decode rest := by
  induction chars with
  | nil => rfl
  | cons head tail induction =>
      rw [utf8_cons, List.append_assoc, (encodes_utf8EncodeChar head).decode_append, induction,
        List.cons_append]

theorem decode_utf8 (chars : List Char) : decode (utf8 chars) = chars := by
  have whole := decode_utf8_append chars []
  rw [List.append_nil] at whole
  rw [whole]
  exact List.append_nil chars

theorem utf8_ne_nil (filled : chars ≠ []) : utf8 chars ≠ [] := by
  intro none
  have read := decode_utf8 chars
  rw [none] at read
  exact filled read.symm

/-- The bytes go on inside a character. -/
def startsInside (bytes : List UInt8) : Bool :=
  bytes.head?.any isContinuation

theorem startsInside_append {first : List UInt8} (filled : first ≠ []) (second : List UInt8) :
    startsInside (first ++ second) = startsInside first := by
  rcases List.exists_cons_of_ne_nil filled with ⟨head, tail, rfl⟩
  rfl

theorem startsInside_utf8_append (filled : chars ≠ []) (rest : List UInt8) :
    startsInside (utf8 chars ++ rest) = false := by
  rcases List.exists_cons_of_ne_nil filled with ⟨head, tail, rfl⟩
  rcases (encodes_utf8EncodeChar head).exists_first with ⟨first, others, bytes, noContinuation, _⟩
  rw [utf8_cons, bytes]
  exact noContinuation

theorem startsInside_utf8 (chars : List Char) : startsInside (utf8 chars) = false := by
  by_cases filled : chars = []
  · rw [filled]
    rfl
  · have outside := startsInside_utf8_append filled []
    rwa [List.append_nil] at outside

/-- The bytes of a text are cut between two characters where they do not go on
inside of one. -/
theorem split_utf8 (split : utf8 chars = before ++ rest) (outside : startsInside rest = false) :
    ∃ first second, chars = first ++ second ∧ before = utf8 first ∧ rest = utf8 second := by
  induction chars generalizing before with
  | nil =>
      rcases List.append_eq_nil_iff.mp split.symm with ⟨rfl, rfl⟩
      exact ⟨[], [], rfl, rfl, rfl⟩
  | cons head tail induction =>
      rw [utf8_cons] at split
      rcases List.append_eq_append_iff.mp split with ⟨more, rfl, others⟩ | ⟨middle, whole, rfl⟩
      · rcases induction others with ⟨first, second, rfl, rfl, rfl⟩
        exact ⟨head :: first, second, rfl, (utf8_cons head first).symm, rfl⟩
      · rcases (encodes_utf8EncodeChar head).exists_first with
          ⟨lead, continued, bytes, _, continues⟩
        cases before with
        | nil =>
            refine ⟨[], head :: tail, rfl, rfl, ?_⟩
            rw [utf8_cons, whole, List.nil_append]
        | cons byte done =>
            cases middle with
            | nil =>
                refine ⟨[head], tail, rfl, ?_, List.nil_append _⟩
                rw [List.append_nil] at whole
                rw [← whole, utf8, List.flatMap_singleton]
            | cons next others =>
                -- The rest would go on with a byte of the first character.
                rw [bytes] at whole
                have tails := (List.cons.inj whole).2
                have inside : isContinuation next := by
                  apply continues
                  rw [tails]
                  exact List.mem_append_right done List.mem_cons_self
                rw [List.cons_append, startsInside, List.head?_cons, Option.any_some,
                  inside] at outside
                cases outside

/-- Where the bytes of a text are found in those of another text, its characters
are found there. -/
theorem occurrence_utf8 (filled : pattern ≠ [])
    (occurs : utf8 chars = before ++ (utf8 pattern ++ after)) :
    ∃ first second, chars = first ++ (pattern ++ second) ∧ before = utf8 first ∧
      after = utf8 second := by
  rcases split_utf8 occurs (startsInside_utf8_append filled after) with
    ⟨first, others, rfl, rfl, later⟩
  have read : pattern ++ decode after = others := by
    rw [← decode_utf8_append, later, decode_utf8]
  subst read
  rw [utf8_append] at later
  exact ⟨first, decode after, rfl, rfl, List.append_cancel_left later⟩

end

/-! ## How many characters are read -/

/-- How many of the bytes do not continue a character. -/
def firstBytes (bytes : List UInt8) : Nat :=
  bytes.countP fun byte => !isContinuation byte

section

variable {byte : UInt8} {bytes before after : List UInt8} {chars : List Char}

theorem firstBytes_cons (byte : UInt8) (rest : List UInt8) :
    firstBytes (byte :: rest) + (isContinuation byte).toNat = firstBytes rest + 1 := by
  rw [firstBytes, List.countP_cons]
  cases isContinuation byte <;> rfl

theorem firstBytes_append (first second : List UInt8) :
    firstBytes (first ++ second) = firstBytes first + firstBytes second :=
  List.countP_append

theorem firstBytes_eq_zero {bytes : List UInt8} (continues : ∀ byte ∈ bytes, isContinuation byte) :
    firstBytes bytes = 0 := by
  apply List.countP_eq_zero.mpr
  intro byte member
  simp [continues byte member]

/-- Every first byte is read as a character of its own, and so is a character
that was started before. A byte that continues a character where none was
started counts as well. -/
theorem firstBytes_le (bytes : List UInt8) :
    firstBytes bytes + (startsInside bytes).toNat ≤ (decode bytes).length ∧
      ∀ start : Partial, start.Bounded →
        firstBytes bytes + 1 ≤ (decodeFrom (some start) bytes).length := by
  induction bytes with
  | nil => exact ⟨Nat.le_refl 0, fun _ _ => Nat.le_refl 1⟩
  | cons byte rest induction =>
      rcases induction with ⟨fresh, started⟩
      have counted := firstBytes_cons byte rest
      have plain : firstBytes (byte :: rest) + (isContinuation byte).toNat ≤
          (decode (byte :: rest)).length := by
        rw [counted, decode, decodeFrom, openCharacter]
        cases opens : opening byte with
        | complete char =>
            change _ ≤ (char :: decode rest).length
            rw [List.length_cons]
            omega
        | incomplete start => exact started start (bounded_of_incomplete opens)
        | invalid =>
            change _ ≤ (replacement :: decode rest).length
            rw [List.length_cons]
            omega
      refine ⟨plain, fun start bounded => ?_⟩
      by_cases accepts : start.Accepts byte
      · have same : firstBytes (byte :: rest) = firstBytes rest := by
          rw [bounded byte accepts] at counted
          exact Nat.succ.inj counted
        rw [same, decodeFrom, continueCharacter_of_accepts accepts]
        by_cases single : start.missing ≤ 1
        · rw [if_pos single]
          change _ ≤ (Char.ofNat (start.codeWith byte) :: decode rest).length
          rw [List.length_cons]
          omega
        · rw [if_neg single]
          exact started _ (bounded_of_bounds (Nat.le_refl 0x80) (Nat.lt_succ_self 0xBF))
      · rw [decodeFrom_of_not_accepts accepts, List.length_cons]
        omega

theorem firstBytes_utf8EncodeChar (char : Char) : firstBytes (String.utf8EncodeChar char) = 1 := by
  rcases (encodes_utf8EncodeChar char).exists_first with ⟨first, rest, bytes, lead, continues⟩
  have counted := firstBytes_cons first rest
  rw [firstBytes_eq_zero continues, lead] at counted
  rw [bytes]
  exact counted

theorem firstBytes_utf8 (chars : List Char) : firstBytes (utf8 chars) = chars.length := by
  induction chars with
  | nil => rfl
  | cons head tail induction =>
      rw [utf8_cons, firstBytes_append, firstBytes_utf8EncodeChar, induction, List.length_cons,
        Nat.add_comm]

/-- The first bytes of a text are read as one character for each that starts in
them. -/
theorem length_decode_of_prefix (split : utf8 chars = before ++ after) :
    (decode before).length = firstBytes before := by
  induction chars generalizing before with
  | nil =>
      rcases List.append_eq_nil_iff.mp split.symm with ⟨rfl, rfl⟩
      rfl
  | cons head tail induction =>
      have encodes := encodes_utf8EncodeChar head
      rw [utf8_cons] at split
      rcases List.append_eq_append_iff.mp split with ⟨more, rfl, others⟩ | ⟨middle, whole, _⟩
      · rw [encodes.decode_append, firstBytes_append, firstBytes_utf8EncodeChar,
          List.length_cons, induction others, Nat.add_comm]
      · cases before with
        | nil => rfl
        | cons byte done =>
            -- The character that is read is the first one, whole or broken.
            have read : (decode (byte :: done)).length = 1 := by
              by_cases complete : middle = []
              · have alone := encodes.decode_append []
                rw [whole, complete, List.append_nil, List.append_nil] at alone
                rw [alone]
                rfl
              · rw [encodes.decode_broken whole (List.cons_ne_nil byte done) complete]
                rfl
            have total := firstBytes_utf8EncodeChar head
            rcases encodes.exists_first with ⟨lead, continued, bytes, noContinuation, _⟩
            have lead : isContinuation byte = false := by
              rw [bytes] at whole
              rw [← (List.cons.inj whole).1]
              exact noContinuation
            have counted := firstBytes_cons byte done
            rw [whole, firstBytes_append] at total
            rw [lead] at counted
            change firstBytes (byte :: done) = firstBytes done + 1 at counted
            omega

end

end NodeAssembly.Text
