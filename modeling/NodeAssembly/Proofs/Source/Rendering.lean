import NodeAssembly.Program.Basic
import NodeAssembly.Proofs.Text.Tidy
import NodeAssembly.Proofs.Token.Spelling
import NodeAssembly.Source.Item
import NodeAssembly.Value.Cast

/-! Programs as they are written down. An instruction that is no test takes one
line. A test takes a line and, below it, the lines of its branches, each with
the sign of its branch in front. The memories come first, and each entry has
its labels and the mark that it runs only once before its instruction. -/

namespace NodeAssembly

open NodeAssembly.Text

def Sign.char : Sign → Char
  | .positive => '+'
  | .negative => '-'

/-- What belongs to the branch with the sign. -/
def Sign.choose {α : Type} (sign : Sign) (positive negative : α) : α :=
  match sign with
  | .positive => positive
  | .negative => negative

/-- The lines of a branch, with its sign in front of each. -/
def Sign.mark (sign : Sign) (lines : List (List Char)) : List (List Char) :=
  lines.map fun line => sign.char :: ' ' :: line

namespace Instruction

def isTest : Instruction → Bool
  | .test _ _ _ _ _ => true
  | _ => false

/-- The mnemonic and the operands, without the branches of a test. -/
def header (instruction : Instruction) : String :=
  " ".intercalate (instruction.opcode.mnemonic :: instruction.operands)

theorem text_eq_header {instruction : Instruction} (plain : instruction.isTest = false) :
    instruction.text = instruction.header := by
  cases instruction with
  | test => cases plain
  | _ => exact String.append_empty

end Instruction

mutual

/-- The lines of an instruction. Of the two branches of a test either one may
take the lead. -/
inductive Instruction.Written : Instruction → List (List Char) → Prop
  | plain {instruction : Instruction} (noTest : instruction.isTest = false) :
      Instruction.Written instruction [instruction.text.toList]
  | test (kind : TestKind) (left right : Value) (lead : Sign) {positive negative : Block}
      {positiveLines negativeLines : List (List Char)}
      (writesPositive : Block.Written positive positiveLines)
      (writesNegative : Block.Written negative negativeLines) :
      Instruction.Written (.test kind left right positive negative)
        ((Instruction.test kind left right positive negative).header.toList ::
          (lead.mark (lead.choose positiveLines negativeLines) ++
            lead.opposite.mark (lead.opposite.choose positiveLines negativeLines)))

inductive Block.Written : Block → List (List Char) → Prop
  | nil : Block.Written .nil []
  | cons {head : Instruction} {tail : Block} {first rest : List (List Char)}
      (writesHead : Instruction.Written head first) (writesTail : Block.Written tail rest) :
      Block.Written (.cons head tail) (first ++ rest)

end

/-- An entry to be written down. -/
structure Draft where
  labels : List String
  once : Bool
  instruction : Instruction

namespace Draft

/-- What stands before the instruction. -/
def opening (draft : Draft) : List Char :=
  draft.labels.flatMap (fun label => label.toList ++ [':', ' ']) ++ if draft.once then ['@'] else []

inductive Written (draft : Draft) : List (List Char) → Prop
  | entry {first : List Char} {rest : List (List Char)}
      (instruction : draft.instruction.Written (first :: rest)) :
      Written draft ((draft.opening ++ first) :: rest)

end Draft

/-- A memory to be declared, which grows if it has no size. -/
structure MemoryPlan where
  name : String
  size : Option Nat

namespace MemoryPlan

def cursorName (plan : MemoryPlan) : String :=
  plan.name ++ "_i"

def line (plan : MemoryPlan) : List Char :=
  match plan.size with
  | some size => '*' :: plan.name.toList ++ '[' :: decimalNat size ++ [']']
  | none => '&' :: plan.name.toList

end MemoryPlan

/-- A program to be written down. -/
structure Outline where
  memories : List MemoryPlan
  drafts : List Draft

namespace Outline

def labels (outline : Outline) : List String :=
  outline.drafts.flatMap Draft.labels

/-- The source text, given the lines of each entry. -/
def source (outline : Outline) (groups : List (List (List Char))) : String :=
  String.ofList (unlines (outline.memories.map MemoryPlan.line ++ groups.flatten))

/-- Each group holds the lines of one entry. -/
def Written (outline : Outline) (groups : List (List (List Char))) : Prop :=
  List.Forall₂ Draft.Written outline.drafts groups

end Outline

/-! ## Programs that can be written down -/

/-- The name is one, and if it is that of a pin, then the pin has that kind and no
other name. -/
def isProperName (kinds : Nat → PinKind) (name : String) : Bool :=
  isName name.toList &&
    match pinOfName? name.toList with
    | some (kind, pin) => kinds pin == kind && name == kind.registerName pin
    | none => true

/-- The operands that have a written form. -/
def Value.isProper (kinds : Nat → PinKind) : Value → Bool
  | .int _ => true
  | .str text => text.toList.all isTypable
  | .ref register => isProperName kinds register.name
  | _ => false

mutual

/-- All operands have a written form and are of the right kind, and every jump
goes to one of the labels. -/
def Instruction.isProper (kinds : Nat → PinKind) (labels : List String) : Instruction → Bool
  | .noOperation | .stop | .not => true
  | .move source target => source.isProper kinds && isProperName kinds target.name
  | .swap left right => isProperName kinds left.name && isProperName kinds right.name
  | .jump label => labels.contains label
  | .sleep operand | .add operand | .subtract operand | .multiply operand | .divide operand
  | .digit operand => operand.isProper kinds
  | .observe register =>
    isProperName kinds register.name &&
      (pinOfName? register.name.toList).any fun pin => pin.1 == .xbus
  | .generate register on off =>
    isProperName kinds register.name && (pinOfName? register.name.toList).isSome &&
      on.isProper kinds && off.isProper kinds
  | .setDigit position value => position.isProper kinds && value.isProper kinds
  | .cast kind =>
    kind.isProper kinds &&
      match kind with
      | .str name => CastType.isName name
      | _ => true
  | .increment register | .decrement register => isProperName kinds register.name
  | .test _ left right positive negative =>
    left.isProper kinds && right.isProper kinds && positive.isProper kinds labels &&
      negative.isProper kinds labels

def Block.isProper (kinds : Nat → PinKind) (labels : List String) : Block → Bool
  | .nil => true
  | .cons head tail => head.isProper kinds labels && tail.isProper kinds labels

end

/-- The names of the registers that every node has. -/
def defaultNames : List String :=
  ["null", "clk", "acc", "stdout", "stdin", "stderr", "rng"]

/-- A memory has a name that is no pin's, and some room if its size is fixed. -/
def MemoryPlan.isProper (plan : MemoryPlan) : Bool :=
  isName plan.name.toList && (pinOfName? plan.name.toList).isNone &&
    plan.size.all fun size => 1 ≤ size && size ≤ Memory.cellLimit

/-- A program that can be written down, if each pin number stands for a pin of
the kind given. -/
structure Outline.Proper (kinds : Nat → PinKind) (outline : Outline) : Prop where
  memories : ∀ plan ∈ outline.memories, plan.isProper
  distinct : (defaultNames ++ outline.memories.flatMap fun plan =>
    [plan.cursorName, plan.name]).Nodup
  labels : ∀ label ∈ outline.labels, isName label.toList
  labelsDistinct : outline.labels.Nodup
  instructions : ∀ draft ∈ outline.drafts, draft.instruction.isProper kinds outline.labels

/-! ## Operands -/

/-- The token that an operand is written as. -/
def Value.token : Value → Token
  | .int number => .int number
  | .float number => .float number
  | .str text => .str text
  | .null => .word "null"
  | .ref register => .register register.name

namespace Instruction

/-- The tokens of the operands. -/
def operandTokens : Instruction → List Token
  | .noOperation | .stop | .not => []
  | .move source target => [source.token, .register target.name]
  | .swap left right => [.register left.name, .register right.name]
  | .jump label => [.word label]
  | .sleep operand | .add operand | .subtract operand | .multiply operand | .divide operand
  | .digit operand | .cast operand => [operand.token]
  | .observe register | .increment register | .decrement register => [.register register.name]
  | .generate register on off => [.register register.name, on.token, off.token]
  | .setDigit position value => [position.token, value.token]
  | .test _ left right _ _ => [left.token, right.token]

/-- The tokens of the line that the instruction starts on. -/
def tokens (instruction : Instruction) : List Token :=
  .word instruction.opcode.mnemonic :: instruction.operandTokens

end Instruction

/-! ## Texts and tokens -/

theorem code_of_isWordChar {char : Char} (isWord : isWordChar char) :
    48 ≤ char.toNat ∧ char.toNat ≤ 122 ∧ char.toNat ≠ 59 := by
  simp only [isWordChar, isLetter, isDigit, Bool.or_eq_true, Bool.and_eq_true, decide_eq_true_eq,
    beq_iff_eq, Char.le_def, UInt32.le_iff_toNat_le] at isWord
  rcases isWord with ((⟨lower, upper⟩ | ⟨lower, upper⟩) | ⟨lower, upper⟩) | rfl
  · change 97 ≤ char.toNat at lower
    change char.toNat ≤ 122 at upper
    omega
  · change 65 ≤ char.toNat at lower
    change char.toNat ≤ 90 at upper
    omega
  · change 48 ≤ char.toNat at lower
    change char.toNat ≤ 57 at upper
    omega
  · decide

theorem isSolid_of_isWordChar {char : Char} (isWord : isWordChar char) : isSolid char := by
  have code := code_of_isWordChar isWord
  have noBlank : isBlank char = false := by
    simp [isBlank, isBlankCode]
    omega
  have noMark : isCommentMark char = false := by
    cases mark : isCommentMark char with
    | false => rfl
    | true =>
        simp only [isCommentMark, Bool.or_eq_true, beq_iff_eq] at mark
        rcases mark with rfl | rfl
        · exact absurd code (by decide)
        · exact absurd code (by decide)
  have noQuote : char ≠ '"' := by
    rintro rfl
    exact absurd code (by decide)
  have noApostrophe : char ≠ '\'' := by
    rintro rfl
    exact absurd code (by decide)
  simp [isSolid, noBlank, noMark, noQuote, noApostrophe]

theorem isWordChar_of_mem_name {name : List Char} (named : isName name) {char : Char}
    (member : char ∈ name) : isWordChar char := by
  cases name with
  | nil => cases member
  | cons head tail =>
      rw [isName, Bool.and_eq_true, List.all_eq_true] at named
      rcases List.mem_cons.mp member with rfl | later
      · exact Lexeme.isWordChar_of_isLetter named.1
      · exact named.2 char later

theorem name_ne_nil {name : List Char} (named : isName name) : name ≠ [] := by
  rintro rfl
  cases named

theorem tidy_name {name : List Char} (named : isName name) : Tidy name :=
  .of_solid (name_ne_nil named) fun _ member =>
    isSolid_of_isWordChar (isWordChar_of_mem_name named member)

theorem tidy_decimal (number : Int) : Tidy (decimal number) := by
  have solid : ∀ char ∈ decimalNat number.natAbs, isSolid char := fun char member =>
    isSolid_of_isWordChar (Lexeme.isWordChar_of_isDigit (isDigit_of_mem_decimalNat member))
  unfold decimal
  split
  · apply Tidy.of_solid (List.cons_ne_nil _ _)
    intro char member
    rcases List.mem_cons.mp member with rfl | digit
    · decide
    · exact solid char digit
  · exact .of_solid (decimalNat_ne_nil _) solid

/-- The text is tidy and spells the token. -/
structure Legible (token : Token) (text : List Char) : Prop where
  spells : token.Spells text
  tidy : Tidy text

theorem legible_word {name : String} (named : isName name.toList) :
    Legible (.word name) name.toList :=
  ⟨Token.spells_word named, tidy_name named⟩

theorem isName_of_isProperName {kinds : Nat → PinKind} {name : String}
    (proper : isProperName kinds name) : isName name.toList := by
  rw [isProperName, Bool.and_eq_true] at proper
  exact proper.1

theorem legible_register {kinds : Nat → PinKind} {register : RegisterRef}
    (proper : isProperName kinds register.name) :
    Legible (.register register.name) register.text.toList := by
  have named := isName_of_isProperName proper
  have chars : register.text.toList = '$' :: register.name.toList := by
    rw [RegisterRef.text, String.toList_append]
    rfl
  have sigil : Tidy ['$'] := .of_char (by decide)
  rw [chars]
  exact ⟨Token.spells_register named, sigil.append (tidy_name named)⟩

theorem legible_value {kinds : Nat → PinKind} {value : Value} (proper : value.isProper kinds) :
    Legible value.token value.literal.toList := by
  cases value with
  | int number =>
      have chars : (Value.int number).literal.toList = decimal number.toInt :=
        String.toList_ofList
      rw [chars]
      exact ⟨Token.spells_int number, tidy_decimal number.toInt⟩
  | str text =>
      have chars : (Value.str text).literal.toList = quote text.toList := String.toList_ofList
      rw [Value.isProper, List.all_eq_true] at proper
      rw [chars]
      exact ⟨Token.spells_str proper, tidy_quote proper⟩
  | ref register => exact legible_register proper
  | float => cases proper
  | null => cases proper

theorem isName_mnemonic (opcode : OpCode) : isName opcode.mnemonic.toList := by
  cases opcode with
  | test kind => cases kind <;> decide
  | _ => decide

theorem OpCode.ofMnemonic?_mnemonic (opcode : OpCode) :
    ofMnemonic? opcode.mnemonic = some opcode := by
  cases opcode with
  | test kind => cases kind <;> decide +kernel
  | _ => decide +kernel

namespace Instruction

variable {kinds : Nat → PinKind} {labels : List String}

theorem legible_operands (named : ∀ label ∈ labels, isName label.toList)
    {instruction : Instruction} (proper : instruction.isProper kinds labels) :
    List.Forall₂ Legible instruction.operandTokens (instruction.operands.map String.toList) := by
  cases instruction with
  | noOperation | stop | not => exact .nil
  | move source target =>
      simp only [isProper, Bool.and_eq_true] at proper
      exact .cons (legible_value proper.1) (.cons (legible_register proper.2) .nil)
  | swap left right =>
      simp only [isProper, Bool.and_eq_true] at proper
      exact .cons (legible_register proper.1) (.cons (legible_register proper.2) .nil)
  | jump label =>
      simp only [isProper, List.contains_iff_mem] at proper
      exact .cons (legible_word (named label proper)) .nil
  | sleep operand | add operand | subtract operand | multiply operand | divide operand
  | digit operand => exact .cons (legible_value proper) .nil
  | observe register =>
      simp only [isProper, Bool.and_eq_true] at proper
      exact .cons (legible_register proper.1) .nil
  | generate register on off =>
      simp only [isProper, Bool.and_eq_true] at proper
      exact .cons (legible_register proper.1.1.1)
        (.cons (legible_value proper.1.2) (.cons (legible_value proper.2) .nil))
  | setDigit position value =>
      simp only [isProper, Bool.and_eq_true] at proper
      exact .cons (legible_value proper.1) (.cons (legible_value proper.2) .nil)
  | cast kind =>
      simp only [isProper, Bool.and_eq_true] at proper
      exact .cons (legible_value proper.1) .nil
  | increment register | decrement register => exact .cons (legible_register proper) .nil
  | test kind left right positive negative =>
      simp only [isProper, Bool.and_eq_true] at proper
      exact .cons (legible_value proper.1.1.1) (.cons (legible_value proper.1.1.2) .nil)

theorem header_toList (instruction : Instruction) :
    instruction.header.toList = [' '].intercalate
      (instruction.opcode.mnemonic.toList :: instruction.operands.map String.toList) := by
  rw [header, String.toList_intercalate, List.map_cons]
  rfl

theorem legible_header (named : ∀ label ∈ labels, isName label.toList)
    {instruction : Instruction} (proper : instruction.isProper kinds labels) :
    Token.scan instruction.header.toList = .ok instruction.tokens ∧
      Tidy instruction.header.toList := by
  have legible : List.Forall₂ Legible instruction.tokens
      (instruction.opcode.mnemonic.toList :: instruction.operands.map String.toList) :=
    .cons (legible_word (isName_mnemonic instruction.opcode)) (legible_operands named proper)
  rw [header_toList]
  constructor
  · exact Token.scan_intercalate (legible.imp fun _ _ both => both.spells)
  · apply Tidy.intercalate
    · intro text member
      rcases List.mem_iff_getElem.mp member with ⟨index, inside, rfl⟩
      have inTokens : index < instruction.tokens.length := legible.length_eq ▸ inside
      exact (legible.get inTokens inside).tidy
    · exact List.cons_ne_nil _ _

end Instruction

end NodeAssembly
