import NodeAssembly.Proofs.Program.Jumps
import NodeAssembly.Proofs.Source.Entries

/-! The labels of an assembled program. Each one stands before the entry whose
number is that of the instructions above its declaration, and every jump of the
program has its label. -/

namespace NodeAssembly

open NodeAssembly.Assembly

namespace Assembler

/-- The labels so far in the order in which they were declared, each with the
entry that it stands before. -/
def targets (assembler : Assembler) : List (String × Nat) :=
  (assembler.labels.map fun label => (label.1.label, label.2)).reverse

/-- No label was declared twice, and the jumps of all entries were noted. -/
structure Orderly (assembler : Assembler) : Prop where
  distinct : (assembler.targets.map Prod.fst).Nodup
  noted : ∀ entry ∈ assembler.entries, ∀ accumulator,
    (entry.instruction.footprint accumulator).Noted assembler

/-- The assembler came by some labels and a number of entries. -/
structure Advances (before after : Assembler) (labels : List (String × Nat)) (count : Nat) :
    Prop where
  targets : after.targets = before.targets ++ labels
  entries : after.entries.length = before.entries.length + count
  orderly : before.Orderly → after.Orderly

namespace Advances

variable {before between after : Assembler}

theorem trans {first second : List (String × Nat)} {firstCount secondCount : Nat}
    (start : before.Advances between first firstCount)
    (next : between.Advances after second secondCount) :
    before.Advances after (first ++ second) (firstCount + secondCount) where
  targets := by rw [next.targets, start.targets, List.append_assoc]
  entries := by rw [next.entries, start.entries, Nat.add_assoc]
  orderly := next.orderly ∘ start.orderly

theorem of_grows (grows : before.Grows after) : before.Advances after [] 0 where
  targets := by rw [Assembler.targets, grows.labels_eq, List.append_nil, Assembler.targets]
  entries := by rw [grows.entries_eq, Nat.add_zero]
  orderly := by
    intro sound
    constructor
    · rw [Assembler.targets, grows.labels_eq]
      exact sound.distinct
    · rw [grows.entries_eq]
      exact fun entry member accumulator => (sound.noted entry member accumulator).of_grows grows

end Advances

end Assembler

namespace Assembly

variable {before after : Assembler}

theorem advances_of_extends {α : Type} {step : Assembly α} (extended : Extends step) {result : α}
    (done : outcome step before = (.ok result, after)) : before.Advances after [] 0 := by
  have grows := (extended before trivial).1
  rw [done] at grows
  exact .of_grows grows

/-! ## Declarations -/

theorem declareLabel_advances {line : Line} {label : String}
    (done : outcome (declareLabel line label) before = (.ok (), after)) :
    before.Advances after [(label, before.entries.length)] 0 := by
  rw [declareLabel, outcome_get_bind] at done
  split at done
  · cases done
  next fresh =>
    cases done
    have unknown : label ∉ before.targets.map Prod.fst := by
      intro member
      apply fresh
      rw [Assembler.findLabel?, List.find?_isSome]
      simpa [Assembler.targets] using member
    refine ⟨by simp [Assembler.targets], rfl, fun sound => ⟨?_, sound.noted⟩⟩
    simp only [Assembler.targets, List.map_cons, List.reverse_cons, List.map_append]
    refine List.nodup_append.mpr ⟨sound.distinct, List.pairwise_singleton _ _, ?_⟩
    rintro name known other new rfl
    rw [List.mem_singleton.mp new] at known
    exact unknown known

theorem declare_advances {line : Line} {declaration : Declaration}
    (done : outcome (declare line declaration) before = (.ok (), after)) :
    before.Advances after ((Declaration.labels [declaration]).map (·, before.entries.length)) 0 := by
  cases declaration with
  | pin kind pin =>
      exact advances_of_extends
        ((extends_declarePin line kind pin).bind fun _ => leads_pure fun _ _ => trivial) done
  | register name =>
      exact advances_of_extends
        ((extends_declareRegister line name).bind fun _ => leads_pure fun _ _ => trivial) done
  | memory name size => exact advances_of_extends (extends_declareMemory line name size) done
  | label name => exact declareLabel_advances done

theorem declarations_advance {line : Line} {context : ErrorContext}
    (declarations : List Declaration)
    (done : outcome (declarations.forM fun declaration =>
      within context (declare line declaration)) before = (.ok (), after)) :
    before.Advances after ((Declaration.labels declarations).map (·, before.entries.length)) 0 := by
  induction declarations generalizing before with
  | nil =>
      cases done
      exact .of_grows .refl
  | cons head tail induction =>
      rw [outcome_forM_cons] at done
      rcases outcome_bind_eq_ok done with ⟨_, between, first, rest⟩
      have here := declare_advances (outcome_within_ok.mp first)
      have further := induction rest
      rw [here.entries, Nat.add_zero] at further
      have whole := here.trans further
      rw [← List.map_append, Declaration.labels, Declaration.labels, ← List.filterMap_append] at whole
      exact whole

/-! ## Items -/

theorem entry_advances {item : Item} {once : Bool} {statement : Statement}
    (done : outcome (do
      let instruction ← within .instruction statement.assemble
      modify fun assembler => { assembler with
        entries := ⟨instruction, once, item.line.number⟩ :: assembler.entries }) before =
      (.ok (), after)) : before.Advances after [] 1 := by
  rcases outcome_bind_eq_ok done with ⟨instruction, between, assembled, added⟩
  have assembled := outcome_within_ok.mp assembled
  rcases statement.assemble_notesJumps before trivial with ⟨grows, noted⟩
  rw [assembled] at grows
  have jumps := noted instruction between assembled
  cases added
  have earlier := Assembler.Advances.of_grows grows
  refine ⟨earlier.targets, by simp [earlier.entries], fun sound => ?_⟩
  refine ⟨(earlier.orderly sound).distinct, fun entry member accumulator => ?_⟩
  rcases List.mem_cons.mp member with rfl | old
  · exact jumps accumulator
  · exact (earlier.orderly sound).noted entry old accumulator

theorem item_advances {item : Item}
    (done : outcome (Assembly.item item) before = (.ok (), after)) :
    before.Advances after
      ((Declaration.labels item.declarations).map (·, before.entries.length))
      (if item.isEntry then 1 else 0) := by
  rcases outcome_bind_eq_ok done with ⟨_, between, declared, rest⟩
  have declarations := declarations_advance item.declarations declared
  unfold Item.isEntry
  cases body : item.body with
  | blank =>
      rw [body] at rest
      cases rest
      exact declarations
  | malformed construct =>
      rw [body] at rest
      cases rest
  | stray =>
      rw [body] at rest
      cases rest
  | entry once statement =>
      rw [body] at rest
      have whole := declarations.trans (entry_advances rest)
      rw [List.append_nil, Nat.zero_add] at whole
      exact whole

theorem items_advance (lines : List Line)
    (done : outcome ((Item.ofLines lines).forM Assembly.item) before = (.ok (), after)) :
    before.Advances after (Line.labelsFrom before.entries.length lines)
      (lines.countP Line.startsEntry) := by
  fun_induction Item.ofLines lines generalizing before with
  | case1 =>
      cases done
      exact .of_grows .refl
  | case2 line rest item count read induction =>
      rw [outcome_forM_cons] at done
      rcases outcome_bind_eq_ok done with ⟨_, between, here, further⟩
      have first := item_advances here
      have second := induction further
      -- The lines that the item took are signed and add nothing.
      have signed := Item.ofLine_signed line rest
      have declarations := Item.declarations_ofLine line rest
      have isEntry := Item.isEntry_ofLine line rest
      rw [read] at signed declarations isEntry
      have whole := first.trans second
      rw [first.entries, declarations, isEntry] at whole
      rw [Line.labelsFrom_drop _ count rest signed,
        Line.countP_startsEntry_drop count rest signed] at whole
      rw [Line.labelsFrom, List.countP_cons, Nat.add_comm (rest.countP _)]
      exact whole

/-! ## Programs -/

theorem outcome_forM_check {β : Type} {check : β → Assembly Unit} {holds : β → Prop}
    (checked : ∀ item before after, outcome (check item) before = (.ok (), after) →
      holds item ∧ after = before)
    (items : List β) (done : outcome (items.forM check) before = (.ok (), after)) :
    (∀ item ∈ items, holds item) ∧ after = before := by
  induction items generalizing before with
  | nil =>
      cases done
      exact ⟨nofun, rfl⟩
  | cons head tail induction =>
      rw [outcome_forM_cons] at done
      rcases outcome_bind_eq_ok done with ⟨_, between, here, rest⟩
      rcases checked head before between here with ⟨headHolds, rfl⟩
      rcases induction rest with ⟨tailHolds, rfl⟩
      exact ⟨List.forall_mem_cons.mpr ⟨headHolds, tailHolds⟩, rfl⟩

/-- What is checked at the end: every jump has its label, and every label an
entry after it. -/
theorem checkLabels_ok (done : outcome checkLabels before = (.ok (), after)) :
    after = before ∧
      (∀ jump ∈ before.jumps, ∃ target, (jump.label, target) ∈ before.targets) ∧
      ∀ label ∈ before.targets, label.2 < before.entries.length := by
  rw [checkLabels, outcome_get_bind] at done
  rcases outcome_bind_eq_ok done with ⟨_, between, jumpsDone, labelsDone⟩
  have jumps : (∀ jump ∈ before.jumps.reverse, (before.findLabel? jump.label).isSome) ∧
      between = before := by
    refine outcome_forM_check ?_ _ jumpsDone
    intro jump start finish checked
    split at checked
    · cases checked
    next found =>
      cases checked
      exact ⟨Option.isSome_iff_ne_none.mpr (by simpa using found), rfl⟩
  rcases jumps with ⟨found, rfl⟩
  have labels : (∀ label ∈ between.labels.reverse, label.2 < between.entries.length) ∧
      after = between := by
    refine outcome_forM_check ?_ _ labelsDone
    rintro ⟨site, target⟩ start finish checked
    simp only at checked
    split at checked
    · cases checked
    next inside =>
      cases checked
      exact ⟨Nat.lt_of_not_le inside, rfl⟩
  rcases labels with ⟨inside, rfl⟩
  refine ⟨rfl, fun jump member => ?_, fun label member => ?_⟩
  · have known := found jump (List.mem_reverse.mpr member)
    rw [Assembler.findLabel?, List.find?_isSome] at known
    rcases known with ⟨⟨site, target⟩, inLabels, same⟩
    refine ⟨target, List.mem_reverse.mpr (List.mem_map.mpr ⟨(site, target), inLabels, ?_⟩)⟩
    rw [eq_of_beq same]
  · rcases List.mem_map.mp (List.mem_reverse.mp member) with ⟨site, inLabels, rfl⟩
    exact inside site (List.mem_reverse.mpr inLabels)

/-- What is left of the items of a source text once they are a program. -/
theorem program_ok {items : List Item} {result : Program} {last : Assembler}
    (done : outcome (program items) before = (.ok result, last)) :
    ∃ after, outcome (items.forM Assembly.item) before = (.ok (), after) ∧
      outcome checkLabels after = (.ok (), after) ∧
      result = ⟨after.entries.reverse.toArray, after.targets, after.table⟩ := by
  rcases outcome_bind_eq_ok done with ⟨_, after, itemsDone, rest⟩
  rcases outcome_bind_eq_ok rest with ⟨_, checkedAfter, checked, logged⟩
  have same := (checkLabels_ok checked).1
  subst same
  cases logged
  exact ⟨checkedAfter, itemsDone, checked, rfl⟩

end Assembly

namespace Program

variable {registry : PinRegistry} {board : Board} {config : Config} {logger : Option Logger}
  {source : String} {program : Program} {file : RegisterFile}

theorem outcome_of_parse
    (parsed : (parse registry board config logger source).result = .ok (program, file)) :
    ∃ last, last.file = file ∧ outcome (Assembly.program (Item.ofSource source))
      (Assembler.start registry board config (logger.map (·.within "stage" "parsing"))) =
        (.ok program, last) := by
  simp only [parse] at parsed
  rcases done : outcome (Assembly.program (Item.ofSource source)) (Assembler.start registry board
    config (logger.map (·.within "stage" "parsing"))) with ⟨error | result, last⟩
  · rw [← outcome, done] at parsed
    cases parsed
  · rw [← outcome, done] at parsed
    cases parsed
    exact ⟨last, rfl, done⟩

theorem orderly_start (registry : PinRegistry) (board : Board) (config : Config)
    (logger : Option Logger) : (Assembler.start registry board config logger).Orderly :=
  ⟨List.nodup_nil, nofun⟩

/-- The labels of a program are those of its source text. -/
theorem labels_of_parse
    (parsed : (parse registry board config logger source).result = .ok (program, file)) :
    program.labels = Line.labelsFrom 0 (Line.ofSource source) ∧
      (program.labels.map Prod.fst).Nodup := by
  rcases outcome_of_parse parsed with ⟨_, _, done⟩
  rcases program_ok done with ⟨after, itemsDone, _, rfl⟩
  have advances := items_advance (Line.ofSource source) itemsDone
  exact ⟨advances.targets, (advances.orderly (orderly_start ..)).distinct⟩

theorem label?_eq_some_iff (distinct : (program.labels.map Prod.fst).Nodup) {label : String}
    {target : Nat} : program.label? label = some target ↔ (label, target) ∈ program.labels := by
  unfold label?
  constructor
  · intro found
    rcases List.lookup_eq_some_iff.mp found with ⟨before, after, split, _⟩
    rw [split]
    exact List.mem_append_right _ List.mem_cons_self
  · intro member
    rcases List.append_of_mem member with ⟨before, after, split⟩
    rw [List.lookup_eq_some_iff]
    refine ⟨before, after, split, fun other earlier => ?_⟩
    rw [split, List.map_append, List.map_cons, List.nodup_append] at distinct
    have different := distinct.2.2 other.1 (List.mem_map_of_mem earlier) label List.mem_cons_self
    exact bne_iff_ne.mpr different.symm

/-- A label leads to the entry that follows its declaration. -/
theorem label?_iff_labelAt
    (parsed : (parse registry board config logger source).result = .ok (program, file))
    (label : String) (target : Nat) :
    program.label? label = some target ↔ LabelAt source label target := by
  rcases labels_of_parse parsed with ⟨labels, distinct⟩
  rw [label?_eq_some_iff distinct, labels, Line.mem_labelsFrom]
  simp only [Nat.zero_add]
  exact Iff.rfl

/-- All jumps of the program lead to one of its entries. -/
structure Closed (program : Program) : Prop where
  jumps : ∀ entry ∈ program.entries, ∀ label ∈
    (entry.instruction.footprint program.table.accumulator).labels, (program.label? label).isSome
  targets : ∀ label target, program.label? label = some target → target < program.size

theorem closed_of_parse
    (parsed : (parse registry board config logger source).result = .ok (program, file)) :
    program.Closed := by
  have distinct := (labels_of_parse parsed).2
  rcases outcome_of_parse parsed with ⟨_, _, done⟩
  rcases program_ok done with ⟨after, itemsDone, checked, rfl⟩
  have advances := items_advance (Line.ofSource source) itemsDone
  have orderly := advances.orderly (orderly_start ..)
  rcases checkLabels_ok checked with ⟨_, jumps, inside⟩
  constructor
  · intro entry member label inFootprint
    have inEntries : entry ∈ after.entries := by simpa using member
    rcases orderly.noted entry inEntries _ label inFootprint with ⟨site, inJumps, rfl⟩
    rcases jumps site inJumps with ⟨target, known⟩
    rw [(label?_eq_some_iff distinct).mpr known]
    rfl
  · intro label target found
    have known := (label?_eq_some_iff distinct).mp found
    simpa [size] using inside (label, target) known

end Program

end NodeAssembly
