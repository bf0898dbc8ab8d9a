import NodeAssembly.Proofs.Program.Places
import NodeAssembly.Proofs.Source.Listing
import NodeAssembly.Proofs.Source.Lookahead

/-! Where errors are found. An error names a line of the source text, and unless
it is about labels, the text up to that line decides it. -/

namespace NodeAssembly

open NodeAssembly.Text

namespace Assembly

variable {α β γ δ : Type} {last : Nat}

/-- All errors of the step are as `holds` says. -/
def FailsOnly (holds : ParseError → Prop) (step : Assembly α) : Prop :=
  ∀ before error after, outcome step before = (.error error, after) → holds error

theorem failsOnly_pure {holds : ParseError → Prop} (result : α) : FailsOnly holds (pure result) := by
  intro before error after failed
  cases failed

theorem failsOnly_modify {holds : ParseError → Prop} (change : Assembler → Assembler) :
    FailsOnly holds (modify change) := by
  intro before error after failed
  cases failed

theorem FailsOnly.bind {holds : ParseError → Prop} {step : Assembly α} {next : α → Assembly β}
    (first : FailsOnly holds step) (rest : ∀ result, FailsOnly holds (next result)) :
    FailsOnly holds (step >>= next) := by
  intro before error after failed
  rw [outcome_bind] at failed
  rcases isOutcome : outcome step before with ⟨_ | result, between⟩
  · rw [isOutcome] at failed
    cases failed
    exact first before error after isOutcome
  · rw [isOutcome] at failed
    exact rest result between error after failed

theorem failsOnly_forM {holds : ParseError → Prop} {visit : β → Assembly Unit}
    (each : ∀ item, FailsOnly holds (visit item)) (items : List β) :
    FailsOnly holds (items.forM visit) := by
  induction items with
  | nil => exact failsOnly_pure ()
  | cons head _ induction => exact (each head).bind fun _ => induction

/-- The step fails only behind the line with the number `last`. -/
abbrev FailsBeyond (last : Nat) (step : Assembly α) : Prop :=
  FailsOnly (fun error => last < error.line) step

theorem failsBeyond_of_parallel {step : Assembly α} (parallel : Parallel Eq (Place.Beyond last) step step) :
    FailsBeyond last step := by
  intro before error after failed
  have reflects := parallel before before (.refl (fun _ => rfl) before)
  rw [failed] at reflects
  cases reflects with
  | error errors _ =>
      rcases errors.places with ⟨here, there, beyond, isHere, _⟩
      rw [isHere.line]
      exact beyond.2

/-- What comes of a text, and what comes of it when more lines follow: the same
error, or at most an error in those lines. -/
inductive Foreseen (last : Nat) :
    Except ParseError α × Assembler → Except ParseError β × Assembler → Prop
  | failed (error : ParseError) (after : Assembler) : Foreseen last (.error error, after) (.error error, after)
  | beyond (result : α) (after : Assembler) {error : ParseError} (beyond : last < error.line)
      (final : Assembler) : Foreseen last (.ok result, after) (.error error, final)
  | passed (result : α) (after : Assembler) (other : β) (final : Assembler) :
      Foreseen last (.ok result, after) (.ok other, final)

theorem Foreseen.of_failed {error : ParseError} {after : Assembler}
    {whole : Except ParseError β × Assembler}
    (foreseen : Foreseen last ((.error error, after) : Except ParseError α × Assembler) whole) :
    whole = (.error error, after) := by
  cases foreseen
  rfl

theorem Foreseen.failed_of {error : ParseError} {after : Assembler}
    {start : Except ParseError α × Assembler}
    (foreseen : Foreseen last start ((.error error, after) : Except ParseError β × Assembler))
    (within : error.line ≤ last) : start = (.error error, after) := by
  cases foreseen with
  | failed => rfl
  | beyond result after isBeyond => exact absurd isBeyond (Nat.not_lt.mpr within)

/-- After a text without an error, one can only be found in the lines that follow. -/
theorem foreseen_ok (result : α) (after : Assembler) {step : Assembly β}
    (beyond : FailsBeyond last step) (between : Assembler) :
    Foreseen last (.ok result, after) (outcome step between) := by
  rcases isOutcome : outcome step between with ⟨error | other, final⟩
  · exact .beyond result after (beyond between error final isOutcome) final
  · exact .passed result after other final

def Foretells (last : Nat) (step : Assembly α) (other : Assembly β) : Prop :=
  ∀ before, Foreseen last (outcome step before) (outcome other before)

theorem foretells_same (step : Assembly α) : Foretells last step step := by
  intro before
  rcases outcome step before with ⟨error | result, after⟩
  · exact .failed error after
  · exact .passed result after result after

theorem foretells_pure (result : α) {other : Assembly β} (beyond : FailsBeyond last other) :
    Foretells last (pure result) other :=
  fun before => foreseen_ok result before beyond before

theorem foretells_bind (step : Assembly α) {next : α → Assembly β} {other : α → Assembly γ}
    (rest : ∀ result, Foretells last (next result) (other result)) :
    Foretells last (step >>= next) (step >>= other) := by
  intro before
  rw [outcome_bind, outcome_bind]
  rcases outcome step before with ⟨error | result, after⟩
  · exact .failed error after
  · exact rest result after

/-- The first of the steps that follow have to end well, and the others may fail
only in what follows. -/
theorem Foretells.bind {step : Assembly α} {long : Assembly β} (foretells : Foretells last step long)
    {next : α → Assembly γ} {other : β → Assembly δ}
    (ends : ∀ result before, ∃ value after, outcome (next result) before = (.ok value, after))
    (beyond : ∀ result, FailsBeyond last (other result)) :
    Foretells last (step >>= next) (long >>= other) := by
  intro before
  have foreseen := foretells before
  rw [outcome_bind, outcome_bind]
  generalize outcome step before = here at foreseen
  generalize outcome long before = there at foreseen
  cases foreseen with
  | failed error after => exact .failed error after
  | beyond result after isBeyond final =>
      rcases ends result after with ⟨value, later, isOk⟩
      simp only [isOk]
      exact .beyond value later isBeyond final
  | passed result after more final =>
      rcases ends result after with ⟨value, later, isOk⟩
      simp only [isOk]
      exact foreseen_ok value later (beyond more) final

theorem Foretells.within {step : Assembly α} {long : Assembly β} (foretells : Foretells last step long)
    (context : ErrorContext) : Foretells last (within context step) (within context long) := by
  intro before
  have foreseen := foretells before
  rw [outcome_within, outcome_within]
  generalize outcome step before = here at foreseen
  generalize outcome long before = there at foreseen
  cases foreseen with
  | failed error after => exact .failed _ after
  | @beyond result after error isBeyond final =>
      have still : last < (error.within context).line := isBeyond
      exact .beyond result after still final
  | passed result after more final => exact .passed result after more final

theorem noted_of_beyond (here there : Place) (beyond : Place.Beyond last here there) : here = there :=
  beyond.1

end Assembly

open Assembly

/-- The blocks of a test with one more instruction in front of the block that has
the sign. -/
def Sign.prepend (sign : Sign) (instruction : Instruction) (blocks : Block × Block) : Block × Block :=
  match sign with
  | .positive => (.cons instruction blocks.1, blocks.2)
  | .negative => (blocks.1, .cons instruction blocks.2)

theorem Branches.assemble_cons (sign : Sign) (statement : Statement) (rest : Branches) :
    (Branches.cons sign statement rest).assemble = (do
      let instruction ← within .branch statement.assemble
      let blocks ← rest.assemble
      return sign.prepend instruction blocks) := by
  rw [Branches.assemble]
  cases sign with
  | positive => rfl
  | negative => rfl

mutual

theorem Statement.Continues.foretells {last : Nat} {statement other : Statement}
    (continues : statement.Continues last other) :
    Foretells last statement.assemble other.assemble := by
  match continues with
  | .same statement => exact foretells_same _
  | .instruction line tokens below =>
      simp only [Statement.assemble]
      apply foretells_bind
      rintro ⟨opcode, operands⟩
      split
      next kind left right _ =>
        apply foretells_bind
        intro left
        apply foretells_bind
        intro right
        exact (Branches.Continues.foretells below).bind (fun _ _ => ⟨_, _, rfl⟩)
          fun _ => failsOnly_pure _
      next => exact foretells_same _

theorem Branches.Continues.foretells {last : Nat} {branches others : Branches}
    (continues : branches.Continues last others) :
    Foretells last branches.assemble others.assemble := by
  match continues with
  | .done isBeyond =>
      exact foretells_pure _ (failsBeyond_of_parallel (isBeyond.parallel noted_of_beyond))
  | .cons sign statement tail =>
      rw [Branches.assemble_cons, Branches.assemble_cons]
      apply foretells_bind
      intro instruction
      exact (Branches.Continues.foretells tail).bind (fun _ _ => ⟨_, _, rfl⟩)
        fun _ => failsOnly_pure _
  | .last sign extended isBeyond =>
      rw [Branches.assemble_cons, Branches.assemble_cons]
      have further := failsBeyond_of_parallel (isBeyond.parallel noted_of_beyond)
      exact ((Statement.Continues.foretells extended).within .branch).bind
        (fun _ _ => ⟨_, _, rfl⟩) fun _ => further.bind fun _ => failsOnly_pure _

end

namespace Assembly

variable {last : Nat}

theorem foretells_item {item other : Item} (continues : item.Continues last other) :
    Foretells last (Assembly.item item) (Assembly.item other) := by
  cases continues with
  | mk line declarations body =>
      apply foretells_bind
      intro _
      cases body with
      | entry once statement =>
          exact (statement.foretells.within .instruction).bind (fun _ _ => ⟨_, _, rfl⟩)
            fun _ => failsOnly_modify _

theorem failsBeyond_items {items : List Item} (beyond : ∀ item ∈ items, item.IsBeyond last) :
    FailsBeyond last (items.forM Assembly.item) := by
  apply failsBeyond_of_parallel
  exact parallel_items noted_of_beyond (List.forall₂_same.mpr beyond)
    fun _ _ same => congrArg Prod.fst same.1

theorem foretells_items {items others : List Item}
    (prolongs : Prolongs (Item.IsBeyond last) (Item.Continues last) items others) :
    Foretells last (items.forM Assembly.item) (others.forM Assembly.item) := by
  induction prolongs with
  | done isBeyond => exact foretells_pure () (failsBeyond_items isBeyond)
  | cons item _ induction => exact foretells_bind _ fun _ => induction
  | last extended isBeyond =>
      exact (foretells_item extended).bind (fun _ _ => ⟨_, _, rfl⟩) fun _ => failsBeyond_items isBeyond


end Assembly

/-- Whether the error can be found only at the end of the text: a label that is
not there, or one with nothing behind it. -/
def ErrorKind.isFinal : ErrorKind → Bool
  | .unknownLabel _ => true
  | .trailingLabel _ => true
  | _ => false

namespace Assembly

theorem failsOnly_get_bind {holds : ParseError → Prop} {next : Assembler → Assembly β}
    (each : ∀ before, FailsOnly holds (next before)) : FailsOnly holds (get >>= next) := by
  intro before error after failed
  rw [outcome_get_bind] at failed
  exact each before before error after failed

theorem failsOnly_checkLabels : FailsOnly (fun error => error.kind.isFinal) checkLabels := by
  apply failsOnly_get_bind
  intro assembler
  apply FailsOnly.bind
  · apply failsOnly_forM
    intro jump before error after failed
    split at failed
    · cases failed
      rfl
    · cases failed
  · intro _
    apply failsOnly_forM
    rintro ⟨site, target⟩ before error after failed
    simp only at failed
    split at failed
    · cases failed
      rfl
    · cases failed

/-- An error that is not found at the end is found in an item. -/
theorem program_error {items : List Item} {before after : Assembler} {error : ParseError}
    (failed : outcome (program items) before = (.error error, after))
    (early : error.kind.isFinal = false) :
    outcome (items.forM Assembly.item) before = (.error error, after) := by
  rw [program, outcome_bind] at failed
  rcases isOutcome : outcome (items.forM Assembly.item) before with ⟨other | _, between⟩
  · rw [isOutcome] at failed
    cases failed
    rfl
  · rw [isOutcome] at failed
    have final : error.kind.isFinal = true := by
      refine failsOnly_checkLabels.bind ?_ between error after failed
      intro _ before error after failed
      cases failed
    rw [early] at final
    cases final

end Assembly

/-- What the number of a line says about where it stands. -/
theorem Line.mem_numberFrom {line : Line} {first : Nat} {texts : List (List Char)}
    (member : line ∈ numberFrom first texts) :
    first ≤ line.number ∧ texts[line.number - first]? = some line.raw := by
  induction texts generalizing first with
  | nil => cases member
  | cons head tail induction =>
      rcases List.mem_cons.mp member with rfl | further
      · simp [Line.ofRaw]
      · rcases induction further with ⟨behind, isRaw⟩
        have shift : line.number - first = line.number - (first + 1) + 1 := by omega
        exact ⟨by omega, by rw [shift, List.getElem?_cons_succ, isRaw]⟩

namespace Program

variable {registry : PinRegistry} {board : Board} {config : Config} {logger : Option Logger}
  {source : String} {error : ParseError}

theorem outcome_of_error
    (failed : (parse registry board config logger source).result = .error error) :
    ∃ after, outcome (Assembly.program (Item.ofSource source))
      (.start registry board config (logger.map (·.within "stage" "parsing"))) =
        (.error error, after) := by
  rw [parse_eq, Parsed.ofOutcome] at failed
  generalize outcome (Assembly.program (Item.ofSource source)) _ = whole at failed ⊢
  rcases whole with ⟨_ | _, after⟩
  · cases failed
    exact ⟨after, rfl⟩
  · cases failed

theorem parse_of_items {after : Assembler}
    (failed : outcome ((Item.ofSource source).forM Assembly.item)
      (.start registry board config (logger.map (·.within "stage" "parsing"))) =
        (.error error, after)) :
    (parse registry board config logger source).result = .error error := by
  rw [parse_eq, Parsed.ofOutcome, Assembly.program, outcome_bind, failed]
  rfl

/-- Further lines change an error only if it is found at the end. -/
theorem foretells_further (texts further : List (List Char)) :
    Foretells texts.length ((Item.ofLines (Line.numberFrom 1 texts)).forM Assembly.item)
      ((Item.ofLines (Line.numberFrom 1 (texts ++ further))).forM Assembly.item) := by
  rw [Line.numberFrom_append]
  apply foretells_items
  apply Item.prolongs_ofLines
  intro line member
  have numbered := (Line.mem_numberFrom member).1
  omega

/-- An error in an item is decided by the text up to its line. -/
theorem error_of_agreement {other : String} {before after : Assembler}
    (failed : outcome ((Item.ofSource source).forM Assembly.item) before = (.error error, after))
    (within : error.line ≤ (lines source.toList).length)
    (agree : (lines other.toList).take error.line = (lines source.toList).take error.line) :
    outcome ((Item.ofSource other).forM Assembly.item) before = (.error error, after) := by
  have here := foretells_further ((lines source.toList).take error.line)
    ((lines source.toList).drop error.line) before
  have there := foretells_further ((lines source.toList).take error.line)
    ((lines other.toList).drop error.line) before
  rw [List.length_take_of_le within] at here there
  rw [List.take_append_drop, ← Line.ofSource, ← Item.ofSource, failed] at here
  rw [← agree, List.take_append_drop, ← Line.ofSource, ← Item.ofSource, agree] at there
  rw [here.failed_of Nat.le.refl] at there
  exact there.of_failed

/-- An error names one of the lines. -/
theorem error_on_line (failed : (parse registry board config logger source).result = .error error) :
    ∃ place ∈ (Line.ofSource source).map Line.place, error.IsAt place := by
  let near : Place → Place → Prop := fun here there =>
    here = there ∧ here ∈ (Line.ofSource source).map Line.place
  have lines : List.Forall₂ (Line.Mirrors near) (Line.ofSource source) (Line.ofSource source) :=
    List.forall₂_same.mpr fun line member => ⟨⟨rfl, List.mem_map_of_mem member⟩, rfl⟩
  have mirrors := parse_mirrors registry board config logger
    (fun _ _ same => congrArg Prod.fst same.1) lines
  rcases mirrors.result with ⟨_, isOk, _⟩ | ⟨_, _, isError, _, same⟩
  · rw [failed] at isOk
    cases isOk
  · rw [failed] at isError
    cases isError
    rcases same.places with ⟨here, _, ⟨_, isLine⟩, isHere, _⟩
    exact ⟨here, isLine, isHere⟩

/-- An error points at a line of the source text, as it was written there. Unless
it can be found only at the end of the text, every text that starts with the same
lines has it, so no line before is at fault and no line behind matters. -/
theorem error_decided_by_line
    (failed : (parse registry board config logger source).result = .error error) :
    (∃ raw, 1 ≤ error.line ∧ (lines source.toList)[error.line - 1]? = some raw ∧
      error.source = String.ofList (trim raw)) ∧
    (error.kind.isFinal = false →
      ∀ other : String,
        (lines other.toList).take error.line = (lines source.toList).take error.line →
        (parse registry board config logger other).result = .error error) := by
  rcases error_on_line failed with ⟨place, isPlace, isAt⟩
  rcases List.mem_map.mp isPlace with ⟨line, isLine, rfl⟩
  have numbered := Line.mem_numberFrom isLine
  have number : error.line = line.number := isAt.line
  rw [← number] at numbered
  refine ⟨⟨line.raw, numbered.1, numbered.2, isAt.source⟩, fun early other agree => ?_⟩
  have within : error.line ≤ (lines source.toList).length := by
    have inside := (List.getElem?_eq_some_iff.mp numbered.2).1
    omega
  rcases outcome_of_error failed with ⟨after, isError⟩
  exact parse_of_items (error_of_agreement (program_error isError early) within agree)

/-- An error inside of a block stays what it is when other lines follow. -/
theorem error_decided_by_line_nested :
    let source := "teq 1 1\n- nop\n- tgt 1 2 # inner\n- + bogus\n+ nop"
    let other := "teq 1 1\n- nop\n- tgt 1 2 # inner\n- + bogus\n- - mov\nx: $"
    let error : ParseError :=
      ⟨4, "- + bogus", .unknownInstruction "bogus" none, [.instruction, .branch, .branch]⟩
    (parse .empty (Board.ofInput [] 0) .default none source).result = .error error ∧
      (parse .empty (Board.ofInput [] 0) .default none other).result = .error error := by
  intro source other error
  have failed : (parse .empty (Board.ofInput [] 0) .default none source).result = .error error := by
    decide +kernel
  exact ⟨failed, (error_decided_by_line failed).2 rfl other (by decide +kernel)⟩

end Program

end NodeAssembly
