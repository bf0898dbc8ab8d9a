import NodeAssembly.Proofs.Instruction.Increment
import NodeAssembly.Proofs.Program.Branching
import NodeAssembly.Proofs.Value.Comparison
import NodeAssembly.Proofs.Value.Radix

/-! Casts by name. A name is checked when a program is assembled and once more
when the cast is done, and both agree on what the name of a type is. So a cast
in a program can only fail where the name is that of a base and the text is no
numeral in it. Integers and characters come back unchanged from their texts. -/

namespace NodeAssembly

open NodeAssembly.Text NodeAssembly.Assembly
open NodeAssembly.CastType (IsRadixName)

/-! ## Names in programs -/

/-- Wherever the instruction casts by name, the name is that of a type. -/
def Instruction.CastsToTypes (instruction : Instruction) : Prop :=
  ∀ node ∈ instruction.nodes, ∀ name, node = .cast (.str name) → CastType.isName name

namespace Assembly

variable {before after : Assembler} {line : Line} {name : String}

theorem value_ok_str {token : Token}
    (done : outcome (value line token) before = (.ok (.str name), after)) : token = .str name := by
  unfold value at done
  split at done
  next => cases done
  next => cases done
  next =>
    cases done
    rfl
  next =>
    rcases outcome_bind_eq_ok done with ⟨_, _, _, isReference⟩
    cases isReference
  next =>
    rw [outcome_get_bind] at done
    split at done <;> cases done
  next => cases done

theorem isName_of_castType {written : String}
    (done : outcome (castType line written) before = (.ok (.str name), after)) :
    CastType.isName name := by
  unfold castType at done
  split at done
  next named =>
    cases done
    exact named
  next => cases done

theorem isName_of_castOperand {token : Token}
    (done : outcome (castOperand line token) before = (.ok (.str name), after)) :
    CastType.isName name := by
  unfold castOperand at done
  split at done
  next =>
    rw [outcome_get_bind] at done
    split at done
    · cases value_ok_str done
    · exact isName_of_castType done
  next => exact isName_of_castType done
  next noText =>
    -- A text was taken care of before.
    exact absurd (value_ok_str done) (noText name)

theorem castsToTypes_of_plainInstruction {opcode : OpCode} {operands : List Token}
    {instruction : Instruction}
    (done : outcome (plainInstruction line opcode operands) before = (.ok instruction, after)) :
    instruction.CastsToTypes := by
  rcases conveys_plainInstruction line opcode operands before with ⟨_, _, _, _, ends⟩
  rw [done] at ends
  have spelled := (ends instruction rfl).2 after (.refl after)
  intro node member name isCast
  rw [Instruction.nodes_of_noTest spelled.noTest, List.mem_singleton] at member
  have same : instruction = .cast (.str name) := member.symm.trans isCast
  subst same
  cases spelled.opcode
  rcases List.forall₂_cons_right_iff.mp spelled.operands with ⟨kind, others, _, none, rfl⟩
  cases none
  rcases outcome_bind_eq_ok done with ⟨value, _, named, isValue⟩
  cases isValue
  exact isName_of_castOperand named

end Assembly

mutual

theorem Statement.castsToTypes (statement : Statement) {before after : Assembler}
    {instruction : Instruction}
    (done : outcome statement.assemble before = (.ok instruction, after)) :
    instruction.CastsToTypes := by
  match statement with
  | .illegible _ _ => cases done
  | .stray _ => cases done
  | .instruction line tokens branches =>
      rw [Statement.assemble] at done
      rcases outcome_bind_eq_ok done with ⟨_, _, _, rest⟩
      split at rest
      next =>
        rcases outcome_bind_eq_ok rest with ⟨_, _, _, others⟩
        rcases outcome_bind_eq_ok others with ⟨_, _, _, below⟩
        rcases outcome_bind_eq_ok below with ⟨_, _, assembled, ends⟩
        cases ends
        intro node member name isCast
        rw [Instruction.nodes] at member
        rcases List.mem_cons.mp member with rfl | inBranches
        · cases isCast
        · exact Branches.castsToTypes branches assembled node inBranches name isCast
      next => exact castsToTypes_of_plainInstruction rest

theorem Branches.castsToTypes (branches : Branches) {before after : Assembler}
    {blocks : Block × Block} (done : outcome branches.assemble before = (.ok blocks, after)) :
    ∀ node ∈ blocks.1.nodes ++ blocks.2.nodes, ∀ name, node = .cast (.str name) →
      CastType.isName name := by
  match branches with
  | .nil =>
      cases done
      nofun
  | .cons sign statement rest =>
      rw [Branches.assemble] at done
      rcases outcome_bind_eq_ok done with ⟨instruction, _, here, further⟩
      rcases outcome_bind_eq_ok further with ⟨others, _, below, ends⟩
      have head := Statement.castsToTypes statement (outcome_within_ok.mp here)
      have tail := Branches.castsToTypes rest below
      intro node member
      cases sign with
      | positive =>
          cases ends
          rcases Block.mem_nodes_positive.mp member with inHead | inRest
          · exact head node inHead
          · exact tail node inRest
      | negative =>
          cases ends
          rcases Block.mem_nodes_negative.mp member with inHead | inRest
          · exact head node inHead
          · exact tail node inRest

end

namespace Assembly

variable {before after : Assembler}

theorem castsToTypes_of_item {item : Item}
    (sound : ∀ entry ∈ before.entries, entry.instruction.CastsToTypes)
    (done : outcome (Assembly.item item) before = (.ok (), after)) :
    ∀ entry ∈ after.entries, entry.instruction.CastsToTypes := by
  rcases outcome_bind_eq_ok done with ⟨_, between, declared, rest⟩
  rw [← declarations_entries declared] at sound
  cases body : item.body with
  | blank =>
      rw [body] at rest
      cases rest
      exact sound
  | malformed construct =>
      rw [body] at rest
      cases rest
  | stray =>
      rw [body] at rest
      cases rest
  | entry once statement =>
      rw [body] at rest
      rcases outcome_bind_eq_ok rest with ⟨instruction, assembled, isAssembled, added⟩
      have isAssembled := outcome_within_ok.mp isAssembled
      have grows := (statement.assemble_notesJumps between trivial).1
      rw [isAssembled] at grows
      rw [← grows.entries_eq] at sound
      cases added
      intro entry member
      rcases List.mem_cons.mp member with rfl | old
      · exact statement.castsToTypes isAssembled
      · exact sound entry old

theorem castsToTypes_of_items {items : List Item}
    (sound : ∀ entry ∈ before.entries, entry.instruction.CastsToTypes)
    (done : outcome (items.forM Assembly.item) before = (.ok (), after)) :
    ∀ entry ∈ after.entries, entry.instruction.CastsToTypes := by
  induction items generalizing before with
  | nil =>
      cases done
      exact sound
  | cons head tail induction =>
      rw [outcome_forM_cons] at done
      rcases outcome_bind_eq_ok done with ⟨_, between, here, rest⟩
      exact induction (castsToTypes_of_item sound here) rest

end Assembly

theorem Program.castsToTypes_of_parse {registry : PinRegistry} {board : Board} {config : Config}
    {logger : Option Logger} {source : String} {program : Program} {file : RegisterFile}
    (parsed : (parse registry board config logger source).result = .ok (program, file)) :
    ∀ entry ∈ program.entries.toList, entry.instruction.CastsToTypes := by
  rcases outcome_of_parse parsed with ⟨last, _, done⟩
  rcases program_ok done with ⟨after, itemsDone, _, rfl⟩
  have start : ∀ entry ∈ (Assembler.start registry board config
      (logger.map (·.within "stage" "parsing"))).entries, entry.instruction.CastsToTypes := by
    intro entry member
    cases member
  have sound := castsToTypes_of_items start itemsDone
  intro entry member
  exact sound entry (List.mem_reverse.mp member)

/-! ## Casts of values -/

namespace Value

variable {name : String}

/-- A name that is refused when a program is assembled is refused by the cast as
well. -/
theorem cast_of_not_isName (noName : CastType.isName name = false) (value : Value) :
    value.cast (.str name) = .error (.invalidCast name) := by
  change value.castNamed name = _
  unfold castNamed
  split
  case h_5 => rw [noName, if_neg Bool.false_ne_true]
  all_goals
    next spelled =>
      rw [← String.ofList_toList (s := name), spelled] at noName
      cases noName

theorem cast_of_isRadixName {base : Nat} (isRadix : IsRadixName name base) (value : Value) :
    value.cast (.str name) =
      (readInt32 base (trim value.text.toList)).elim (.error (.invalidCast name))
        fun number => .ok (.int number) := by
  rcases isRadix.letter with ⟨next, rest, spelled⟩
  have named : value.cast (.str name) = value.castRadix name := by
    change value.castNamed name = _
    unfold castNamed
    rw [spelled]
    exact if_pos (CastType.isName_of_isRadixName isRadix)
  simp only [named, castRadix, isRadix.read]
  cases readInt32 base (trim value.text.toList) <;> rfl

/-- The only way in which a cast to a type can fail. -/
theorem cast_error {value : Value} {fault : Fault} (named : CastType.isName name)
    (failed : value.cast (.str name) = .error fault) :
    fault = .invalidCast name ∧ ∃ base, IsRadixName name base ∧
      readInt32 base (trim value.text.toList) = none := by
  rcases CastType.isName_iff.mp named with isLetter | ⟨base, isRadix⟩
  · simp only [List.mem_cons, List.not_mem_nil, or_false] at isLetter
    rcases isLetter with rfl | rfl | rfl | rfl <;> cases failed
  · rw [cast_of_isRadixName isRadix] at failed
    cases read : readInt32 base (trim value.text.toList) with
    | some number =>
        rw [read] at failed
        cases failed
    | none =>
        rw [read] at failed
        cases failed
        exact ⟨rfl, base, isRadix, read⟩

/-- The numeral one is read in every base. -/
theorem exists_cast (named : CastType.isName name) :
    ∃ value result : Value, value.cast (.str name) = .ok result := by
  refine ⟨.int 1, ?_⟩
  cases done : (Value.int 1).cast (.str name) with
  | ok result => exact ⟨result, rfl⟩
  | error fault =>
      rcases (cast_error named done).2 with ⟨base, ⟨two, most, _⟩, unread⟩
      have one : Writes base 1 ['1'] := by
        refine ⟨['1'], ?_, rfl⟩
        have digits : digitsOf base 1 = [1] := by
          simp [digitsOf, Nat.digits_of_lt base 1 (by decide) (by omega)]
        change Spell (digitsOf base 1) ['1']
        rw [digits]
        exact .cons (List.mem_singleton_self _) .nil
      have read := readInt32_writes two most one
      rw [if_pos (by decide)] at read
      rw [show trim (Value.int 1).text.toList = ['1'] from rfl, read] at unread
      cases unread

/-- Blanks around the numeral are passed over. -/
theorem cast_writes {base : Nat} {number : Int} {text before after : List Char}
    (isRadix : IsRadixName name base) (writes : Writes base number text)
    (blankBefore : ∀ char ∈ before, isBlank char) (blankAfter : ∀ char ∈ after, isBlank char) :
    (Value.str (String.ofList (before ++ text ++ after))).cast (.str name) =
      if InRange number then .ok (.int (Int32.ofInt number)) else .error (.invalidCast name) := by
  have two := isRadix.1
  have most := isRadix.2.1
  rw [cast_of_isRadixName isRadix, Value.text, String.toList_ofList,
    writes.trim_eq two most blankBefore blankAfter, readInt32_writes two most writes]
  by_cases inside : InRange number
  · rw [if_pos inside, if_pos inside, Option.elim_some]
  · rw [if_neg inside, if_neg inside, Option.elim_none]

theorem readInt32_trim_decimal (number : Int32) :
    readInt32 10 (trim (integer number.toInt).toList) = some number := by
  rw [integer, String.toList_ofList, (tidy_decimal _).trim_eq, readInt32_decimal]

theorem cast_integer (number : Int32) :
    (Value.str (integer number.toInt)).cast (.str "i") = .ok (.int number) := by
  change Except.ok (Value.int (integerOfText (integer number.toInt))) = _
  rw [integerOfText, readInt32_trim_decimal]

theorem cast_decimal (number : Int32) :
    (Value.str (integer number.toInt)).cast (.str "i10") = .ok (.int number) := by
  have ten : IsRadixName "i10" 10 := CastType.isRadixName_natural (by decide) (by decide)
  rw [cast_of_isRadixName ten, Value.text, readInt32_trim_decimal, Option.elim_some]

theorem cast_code (char : Char) :
    (Value.str (String.ofList [char])).cast (.str "c") = .ok (.int (Int32.ofNat char.toNat)) := by
  change Except.ok (Value.int (Int32.ofNat
    ((String.ofList [char]).toList.head?.elim 0 Char.toNat))) = _
  rw [String.toList_ofList]
  rfl

theorem cast_character (char : Char) :
    (Value.int (Int32.ofNat char.toNat)).cast (.str "c") = .ok (.str (String.ofList [char])) := by
  have word : (Int32.ofNat char.toNat).toUInt32.toNat = char.toNat := by
    change (UInt32.ofNat char.toNat).toNat = char.toNat
    have small : char.toNat < UInt32.size := char.val.toNat_lt
    exact UInt32.toNat_ofNat_of_lt small
  change Except.ok (Value.str (characterText (Int32.ofNat char.toNat))) = _
  have valid : char.toNat.isValidChar := char.valid
  rw [characterText, word, if_pos valid, Char.ofNat_toNat]

/-! ## Casts in programs -/

section

variable {σ : Type} {answer : (request : Request) → σ → request.Answer × σ} {state after : σ}
  {accumulator : RegisterRef} {value : Value}

/-- The cast puts its result back into the accumulator, or ends with its fault. -/
theorem runWith_cast (found : answer (.read accumulator) state = (.ok value, after))
    (flat : value.isFlat) (name : String) :
    ((Instruction.cast (.str name)).execute accumulator).run.runWith answer state =
      match value.cast (.str name) with
      | .ok result => answer (.write accumulator result) after
      | .error fault => (.error fault, after) := by
  have nameFlat : (Value.str name).isFlat := rfl
  rw [Instruction.execute, accumulate, Action.runWith_read_bind found,
    Action.combine_of_isFlat flat nameFlat]
  cases done : value.cast (.str name) with
  | error fault => rfl
  | ok result =>
      have resultFlat : result.isFlat := by
        have computes := computes_cast (.str name) flat
        rw [done] at computes
        exact computes
      change (Action.put accumulator result).run.runWith answer after = _
      rw [Action.put_of_isFlat resultFlat]
      rfl

end

/-- A name that is refused when a program is assembled is refused by every cast,
and a name that is accepted makes a cast fail only for texts that are no
numerals in the base that it says. So the casts of a program never fail because
of the name. An integer is read back from its decimal form, and from its digits
in any base under every name of that base; other integers than those of 32 bits
are refused there. A character is read back from its code. -/
theorem casts_agree :
    (∀ name, CastType.isName name = false → ∀ value : Value,
      value.cast (.str name) = .error (.invalidCast name)) ∧
    (∀ name, CastType.isName name →
      (∃ value result : Value, value.cast (.str name) = .ok result) ∧
      ∀ (value : Value) fault, value.cast (.str name) = .error fault →
        fault = .invalidCast name ∧ ∃ base, IsRadixName name base ∧
          readInt32 base (trim value.text.toList) = none) ∧
    -- Casts by name in an assembled program.
    (∀ registry board config logger source program file,
      (Program.parse registry board config logger source).result = .ok (program, file) →
      ∀ entry ∈ program.entries.toList, ∀ node ∈ entry.instruction.nodes,
      ∀ name, node = .cast (.str name) → CastType.isName name ∧
        ∀ {σ : Type} (answer : (request : Request) → σ → request.Answer × σ) (state after : σ)
          (accumulator : RegisterRef) (value : Value),
          answer (.read accumulator) state = (.ok value, after) → value.isFlat →
          (∃ result, value.cast (.str name) = .ok result ∧
            (node.execute accumulator).run.runWith answer state =
              answer (.write accumulator result) after) ∨
          ((node.execute accumulator).run.runWith answer state =
              (.error (.invalidCast name), after) ∧
            ∃ base, IsRadixName name base ∧ readInt32 base (trim value.text.toList) = none)) ∧
    -- Integers and their decimal forms.
    (∀ number : Int32, ∃ text, (Value.int number).cast (.str "s") = .ok (.str text) ∧
      (Value.str text).cast (.str "i") = .ok (.int number) ∧
      (Value.str text).cast (.str "i10") = .ok (.int number)) ∧
    -- Integers and their digits in any base, with blanks around them.
    (∀ base, 2 ≤ base → base ≤ 36 → IsRadixName ("i" ++ natural base) base ∧
      ∀ name, IsRadixName name base → ∀ (number : Int) (text before after : List Char),
        Writes base number text → (∀ char ∈ before, isBlank char) →
        (∀ char ∈ after, isBlank char) →
        (Value.str (String.ofList (before ++ text ++ after))).cast (.str name) =
          if InRange number then .ok (.int (Int32.ofInt number))
          else .error (.invalidCast name)) ∧
    -- Characters and their codes.
    (∀ char : Char, ∃ text,
      (Value.int (Int32.ofNat char.toNat)).cast (.str "c") = .ok (.str text) ∧
      (Value.str text).cast (.str "c") = .ok (.int (Int32.ofNat char.toNat))) := by
  refine ⟨fun name => cast_of_not_isName, fun name named => ?_, ?_, fun number => ?_,
    fun base two most => ?_, fun char => ?_⟩
  · exact ⟨exists_cast named, fun value fault => cast_error named⟩
  · rintro registry board config logger source program file parsed entry isEntry _ isNode name rfl
    have named := Program.castsToTypes_of_parse parsed entry isEntry _ isNode name rfl
    refine ⟨named, fun answer state after accumulator value found flat => ?_⟩
    have runs := runWith_cast found flat name
    cases done : value.cast (.str name) with
    | ok result =>
        rw [done] at runs
        exact .inl ⟨result, rfl, runs⟩
    | error fault =>
        rcases cast_error named done with ⟨rfl, unread⟩
        rw [done] at runs
        exact .inr ⟨runs, unread⟩
  · exact ⟨integer number.toInt, rfl, cast_integer number, cast_decimal number⟩
  · refine ⟨CastType.isRadixName_natural two most, ?_⟩
    intro name isRadix number text before after writes
    exact cast_writes isRadix writes
  · exact ⟨String.ofList [char], cast_character char, cast_code char⟩

/-- An integer is read in base 36 from letters of either case. -/
theorem casts_agree_letters :
    (Value.str " -zZ\n").cast (.str "i+036") = .ok (.int (-1295)) := by
  have named : IsRadixName "i+036" 36 :=
    ⟨by decide, by decide, ['0', '3', '6'], List.cons_ne_nil _ _, List.all_eq_true.mp rfl, rfl,
      .inr rfl⟩
  have writes : Writes 36 (-1295) ['-', 'z', 'Z'] := by
    refine ⟨['z', 'Z'], ?_, rfl⟩
    have digits : digitsOf 36 (-1295 : Int).natAbs = [35, 35] := by decide
    rw [digits]
    exact .cons (by decide) (.cons (by decide) .nil)
  exact (casts_agree.2.2.2.2.1 36 (by decide) (by decide)).2 "i+036" named (-1295)
    ['-', 'z', 'Z'] [' '] ['\n'] writes (List.all_eq_true.mp rfl) (List.all_eq_true.mp rfl)

end Value

end NodeAssembly
