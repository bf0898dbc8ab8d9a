import NodeAssembly.Proofs.Instruction.Footprint
import NodeAssembly.Proofs.Program.Growth

/-! Every jump of an instruction is noted when the instruction is assembled, at
whatever depth of branches it stands. -/

namespace NodeAssembly

/-- All labels of the footprint were noted as jumps. -/
def Footprint.Noted (footprint : Footprint) (assembler : Assembler) : Prop :=
  ∀ label ∈ footprint.labels, ∃ site ∈ assembler.jumps, site.label = label

namespace Footprint

theorem Noted.of_grows {footprint : Footprint} {before after : Assembler}
    (grows : before.Grows after) (noted : footprint.Noted before) : footprint.Noted after := by
  intro label member
  rcases noted label member with ⟨site, inJumps, named⟩
  exact ⟨site, grows.jump_subset inJumps, named⟩

theorem Noted.append {first second : Footprint} {assembler : Assembler}
    (firstNoted : first.Noted assembler) (secondNoted : second.Noted assembler) :
    (first ++ second).Noted assembler := by
  intro label member
  rcases List.mem_append.mp member with inFirst | inSecond
  · exact firstNoted label inFirst
  · exact secondNoted label inSecond

theorem noted_of_no_labels {footprint : Footprint} (assembler : Assembler)
    (none : footprint.labels = []) : footprint.Noted assembler := by
  intro label member
  rw [none] at member
  cases member

end Footprint

namespace Assembly

variable {requires : Assembler → Prop}

/-- The instruction that a step ends with has all its jumps noted, whatever
register is the accumulator. -/
abbrev NotesJumps (step : Assembly Instruction) : Prop :=
  Leads (fun _ => True) step fun instruction assembler =>
    ∀ accumulator, (instruction.footprint accumulator).Noted assembler

/-- An instruction without a label has nothing to note. -/
private theorem leads_unlabelled {instruction : Instruction}
    (none : ∀ accumulator, (instruction.footprint accumulator).labels = []) :
    Leads requires (pure instruction) fun instruction assembler =>
      ∀ accumulator, (instruction.footprint accumulator).Noted assembler :=
  leads_pure fun assembler _ accumulator =>
    Footprint.noted_of_no_labels assembler (none accumulator)

theorem plainInstruction_notesJumps (line : Line) (opcode : OpCode) (operands : List Token) :
    NotesJumps (plainInstruction line opcode operands) := by
  unfold plainInstruction
  split
  case h_1 => exact leads_unlabelled fun _ => rfl
  case h_2 => exact leads_unlabelled fun _ => rfl
  case h_3 => exact leads_unlabelled fun _ => rfl
  case h_4 source target =>
    apply (extends_value line source).bind
    intro _
    apply (extends_register line 1 target).bind
    intro _
    exact leads_unlabelled fun _ => rfl
  case h_5 left right =>
    apply (extends_register line 0 left).bind
    intro _
    apply (extends_register line 1 right).bind
    intro _
    exact leads_unlabelled fun _ => rfl
  case h_6 label =>
    apply (leads_jumpLabel line label).bind
    intro found
    apply leads_pure
    intro assembler noted accumulator name member
    rw [List.mem_singleton.mp member]
    exact noted
  case h_8 bus =>
    apply (extends_bus line 0 bus).bind
    intro _
    exact leads_unlabelled fun _ => rfl
  case h_9 pin on off =>
    apply (extends_pin line 0 pin).bind
    intro _
    apply (extends_value line on).bind
    intro _
    apply (extends_value line off).bind
    intro _
    exact leads_unlabelled fun _ => rfl
  case h_15 position replacement =>
    apply (extends_value line position).bind
    intro _
    apply (extends_value line replacement).bind
    intro _
    exact leads_unlabelled fun _ => rfl
  case h_16 kind =>
    apply (extends_castOperand line kind).bind
    intro _
    exact leads_unlabelled fun _ => rfl
  case h_17 target =>
    apply (extends_register line 0 target).bind
    intro _
    exact leads_unlabelled fun _ => rfl
  case h_18 target =>
    apply (extends_register line 0 target).bind
    intro _
    exact leads_unlabelled fun _ => rfl
  case h_19 => exact leads_fail line _
  -- What remains has one operand, which is a value.
  all_goals
    apply (extends_value line _).bind
    intro _
    exact leads_unlabelled fun _ => rfl

theorem extends_mnemonic (line : Line) (tokens : List Token) : Extends (mnemonic line tokens) := by
  unfold mnemonic
  split
  · split
    · exact leads_pure fun _ _ => trivial
    · exact leads_fail line _
  · exact leads_fail line _
  · exact leads_fail line _

end Assembly

open Assembly

mutual

theorem Statement.assemble_notesJumps (statement : Statement) : NotesJumps statement.assemble := by
  match statement with
  | .illegible line slice => exact leads_fail line _
  | .stray line => exact leads_fail line _
  | .instruction line tokens branches =>
      simp only [Statement.assemble]
      refine (extends_mnemonic line tokens).bind fun (opcode, operands) => ?_
      split
      next kind left right _ =>
        apply (extends_value line left).bind
        intro _
        apply (extends_value line right).bind
        intro _
        refine (Branches.assemble_notesJumps branches).bind fun (positive, negative) => ?_
        apply leads_pure
        intro assembler noted accumulator
        apply Footprint.Noted.append
        · exact Footprint.noted_of_no_labels assembler rfl
        · exact noted accumulator
      next => exact plainInstruction_notesJumps line _ _

theorem Branches.assemble_notesJumps (branches : Branches) :
    Leads (fun _ => True) branches.assemble fun blocks assembler => ∀ accumulator,
      (blocks.1.footprint accumulator ++ blocks.2.footprint accumulator).Noted assembler := by
  match branches with
  | .nil =>
      apply leads_pure
      intro assembler _ accumulator
      exact Footprint.noted_of_no_labels assembler rfl
  | .cons sign statement rest =>
      simp only [Branches.assemble]
      apply ((Statement.assemble_notesJumps statement).within .branch).bind
      intro instruction
      have framed := (Branches.assemble_notesJumps rest).frame
        (fun assembler => ∀ accumulator, (instruction.footprint accumulator).Noted assembler)
        fun grows noted accumulator => (noted accumulator).of_grows grows
      refine (framed.weaken (fun _ noted => ⟨trivial, noted⟩) fun _ _ held => held).bind
        fun (positive, negative) => ?_
      -- The labels of the new instruction come first in one of the two blocks.
      cases sign with
      | positive =>
          apply leads_pure
          intro assembler held accumulator label member
          rcases List.mem_append.mp member with inPositive | inNegative
          · rcases List.mem_append.mp inPositive with inHead | inTail
            · exact held.2 accumulator label inHead
            · exact held.1 accumulator label (List.mem_append_left _ inTail)
          · exact held.1 accumulator label (List.mem_append_right _ inNegative)
      | negative =>
          apply leads_pure
          intro assembler held accumulator label member
          rcases List.mem_append.mp member with inPositive | inNegative
          · exact held.1 accumulator label (List.mem_append_left _ inPositive)
          · rcases List.mem_append.mp inNegative with inHead | inTail
            · exact held.2 accumulator label inHead
            · exact held.1 accumulator label (List.mem_append_right _ inTail)

end

end NodeAssembly
