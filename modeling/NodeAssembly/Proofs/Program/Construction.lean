import NodeAssembly.Proofs.Program.Jumps

/-! What happens to an assembler while a whole source text is assembled: it
grows as it does for a single statement, labels and entries are noted, and
records are made. Nothing else happens, whether a program comes of it or an
error. -/

namespace NodeAssembly

namespace Assembler

/-- One change on the way to a program. -/
inductive Stride (before : Assembler) : Assembler → Prop
  | grows {after : Assembler} (growth : before.Growth after) : Stride before after
  | notes (labels : List (LabelSite × Nat)) (entries : List Entry) :
      Stride before { before with labels := labels, entries := entries }
  | records (message : String) (fields : List (String × String)) :
      Stride before
        { before with board := before.board.record before.logger .debug message fields }

/-- Any number of such changes. -/
abbrev Builds : Assembler → Assembler → Prop :=
  Relation.ReflTransGen Stride

theorem Grows.builds {before after : Assembler} (grows : before.Grows after) :
    before.Builds after := by
  induction grows with
  | refl => exact .refl
  | tail _ growth induction => exact induction.tail (.grows growth)

end Assembler

namespace Assembly

variable {α β : Type}

/-- The step changes the assembler only as building a program does. -/
def Constructs (step : Assembly α) : Prop :=
  ∀ before : Assembler, before.Builds (outcome step before).2

theorem constructs_of_leads {step : Assembly α} {ensures : α → Assembler → Prop}
    (leads : Leads (fun _ => True) step ensures) : Constructs step :=
  fun before => (leads before trivial).1.builds

theorem constructs_pure (result : α) : Constructs (pure result) :=
  fun _ => .refl

theorem constructs_throw (error : ParseError) : Constructs (throw error : Assembly α) :=
  fun _ => .refl

theorem Constructs.bind {step : Assembly α} {next : α → Assembly β} (first : Constructs step)
    (second : ∀ result, Constructs (next result)) : Constructs (step >>= next) := by
  intro before
  have start := first before
  rw [outcome_bind]
  rcases done : outcome step before with ⟨error | result, between⟩
  · rw [done] at start
    exact start
  · rw [done] at start
    exact start.trans (second result between)

theorem Constructs.within {step : Assembly α} (context : ErrorContext)
    (constructs : Constructs step) : Constructs (within context step) :=
  constructs

theorem Constructs.forM {visit : β → Assembly Unit} (each : ∀ item, Constructs (visit item))
    (items : List β) : Constructs (items.forM visit) := by
  induction items with
  | nil => exact constructs_pure ()
  | cons head tail induction => exact (each head).bind fun _ => induction

theorem constructs_declareLabel (line : Line) (label : String) :
    Constructs (declareLabel line label) := by
  intro before
  rw [declareLabel, outcome_get_bind]
  split
  · exact .refl
  · exact .single (.notes _ before.entries)

theorem constructs_declare (line : Line) (declaration : Declaration) :
    Constructs (declare line declaration) := by
  cases declaration with
  | pin kind pin =>
      exact (constructs_of_leads (extends_declarePin line kind pin)).bind fun _ =>
        constructs_pure ()
  | register name =>
      exact (constructs_of_leads (extends_declareRegister line name)).bind fun _ =>
        constructs_pure ()
  | memory name size => exact constructs_of_leads (extends_declareMemory line name size)
  | label name => exact constructs_declareLabel line name

theorem constructs_item (item : Item) : Constructs (Assembly.item item) := by
  apply (Constructs.forM (fun declaration => (constructs_declare item.line declaration).within _)
    item.declarations).bind
  intro _
  cases item.body with
  | blank => exact constructs_pure ()
  | malformed construct => exact constructs_throw _
  | stray => exact constructs_throw _
  | entry once statement =>
      apply ((constructs_of_leads statement.assemble_notesJumps).within _).bind
      intro instruction before
      exact .single (.notes before.labels _)

theorem constructs_checkLabels : Constructs checkLabels := by
  intro before
  rw [checkLabels, outcome_get_bind]
  refine Constructs.bind (.forM (fun jump => ?_) _) (fun _ => .forM (fun label => ?_) _) before
  · split
    · exact constructs_throw _
    · exact constructs_pure ()
  · simp only
    split
    · exact constructs_throw _
    · exact constructs_pure ()

theorem constructs_program (items : List Item) : Constructs (program items) := by
  apply (Constructs.forM constructs_item items).bind
  intro _
  apply constructs_checkLabels.bind
  intro _
  have logs : Constructs logProgram := fun before => .single (.records _ _)
  apply logs.bind
  exact fun _ _ => .refl

end Assembly

end NodeAssembly
