import NodeAssembly.Proofs.Program.Labels
import NodeAssembly.Proofs.Program.Resolution

/-! A program that was written down is parsed back. Every line is assembled
without a fault, each memory and each entry ends up in its place, and the
labels stand before the entries that they were written before. -/

namespace NodeAssembly

open NodeAssembly.Text NodeAssembly.Assembly

namespace MemoryPlan

/-- The memory as it is at first. -/
def register (plan : MemoryPlan) (cursor : RegisterRef) : Register :=
  match plan.size with
  | some size => .sized cursor (Array.replicate size .null)
  | none => .growing cursor #[]

/-- The registers have the memory, and the cursor beside it. -/
def HeldIn (plan : MemoryPlan) (table : RegisterTable) (file : RegisterFile) : Prop :=
  ∃ memory cursor, table.find? plan.name = some memory ∧
    table.find? plan.cursorName = some cursor ∧ file.state memory = plan.register cursor ∧
    file.state cursor = .offset 0

theorem HeldIn.later {plan : MemoryPlan} {before after : Assembler}
    (held : plan.HeldIn before.table before.file) (later : before.Later after) :
    plan.HeldIn after.table after.file := by
  rcases held with ⟨memory, cursor, foundMemory, foundCursor, isMemory, isCursor⟩
  refine ⟨memory, cursor, later.table _ _ foundMemory, later.table _ _ foundCursor, ?_, ?_⟩
  · rw [later.states _ _ foundMemory, isMemory]
  · rw [later.states _ _ foundCursor, isCursor]

end MemoryPlan

/-- Labels with the numbers of the entries they stand before, if the first entry
has the given number. -/
def Draft.targetsFrom (count : Nat) : List Draft → List (String × Nat)
  | [] => []
  | draft :: rest => draft.labels.map (·, count) ++ targetsFrom (count + 1) rest

/-- The entry of a draft that starts on a line. -/
def Draft.entry (table : RegisterTable) (draft : Draft) (line : Nat) : Entry :=
  ⟨draft.instruction.resolve table, draft.once, line⟩

namespace Outline

/-- The entries of the program, given the lines of each of them. -/
def entries (outline : Outline) (table : RegisterTable) (groups : List (List (List Char))) :
    List Entry :=
  List.zipWith (Draft.entry table) outline.drafts
    (startsFrom (1 + outline.memories.length) groups)

def targets (outline : Outline) : List (String × Nat) :=
  Draft.targetsFrom 0 outline.drafts

end Outline

namespace Draft

theorem targetsFrom_fst (count : Nat) (drafts : List Draft) :
    (targetsFrom count drafts).map Prod.fst = drafts.flatMap Draft.labels := by
  induction drafts generalizing count with
  | nil => rfl
  | cons draft rest induction =>
      have names : (draft.labels.map (·, count)).map Prod.fst = draft.labels := by
        rw [List.map_map]
        exact List.map_id _
      rw [targetsFrom, List.map_append, names, induction, List.flatMap_cons]

theorem lt_of_mem_targetsFrom {count : Nat} {drafts : List Draft} {target : String × Nat}
    (member : target ∈ targetsFrom count drafts) : target.2 < count + drafts.length := by
  induction drafts generalizing count with
  | nil => cases member
  | cons draft rest induction =>
      rw [List.length_cons]
      rcases List.mem_append.mp member with here | later
      · rcases List.mem_map.mp here with ⟨label, _, rfl⟩
        change count < _
        omega
      · have below := induction later
        omega

end Draft

/-! ## Memories -/

theorem readDigits_underscore (limit total : Nat) (digits rest : List Char) :
    readDigits 10 limit total (digits ++ '_' :: rest) = none := by
  induction digits generalizing total with
  | nil => rfl
  | cons head tail induction =>
      rw [List.cons_append, readDigits]
      split
      · exact induction _
      · rfl

/-- No pin has the name of a cursor. -/
theorem pinOfName?_cursorName (plan : MemoryPlan) : pinOfName? plan.cursorName.toList = none := by
  have never : ∀ digits, pinNumber? (digits ++ ['_', 'i']) = none := by
    intro digits
    unfold pinNumber? readNatural
    split
    next empty => rfl
    next =>
      rw [readDigits_underscore]
      rfl
  have chars : plan.cursorName.toList = plan.name.toList ++ ['_', 'i'] := String.toList_append ..
  rw [chars]
  cases plan.name.toList with
  | nil => rfl
  | cons head tail =>
      rw [List.cons_append]
      unfold pinOfName?
      split
      next equal =>
        cases equal
        rw [never]
        rfl
      next equal =>
        cases equal
        rw [never]
        rfl
      next => rfl

namespace Assembly

variable {kinds : Nat → PinKind} {labels : List String} {before : Assembler}

theorem outcome_checkFree (line : Line) {name : String} {assembler : Assembler}
    (fresh : assembler.table.find? name = none) :
    outcome (checkFree line name) assembler = (.ok (), assembler) := by
  rw [checkFree, outcome_get_bind, RegisterTable.contains_of_free fresh]
  rfl

/-- A memory whose names are free is declared. -/
theorem declareMemory_runs (line : Line) {plan : MemoryPlan} (proper : plan.isProper)
    (serves : before.Serves kinds labels)
    (fresh : (before.table.names ++ [plan.cursorName, plan.name]).Nodup) :
    ∃ after, outcome (declareMemory line plan.name plan.size) before = (.ok (), after) ∧
      before.Later after ∧ after.Serves kinds labels ∧ plan.HeldIn after.table after.file ∧
      after.table.names = before.table.names ++ [plan.cursorName, plan.name] := by
  rw [List.nodup_append] at fresh
  rcases fresh with ⟨_, distinct, apart⟩
  have freeCursor : before.table.find? plan.cursorName = none :=
    RegisterTable.find?_eq_none_iff.mpr fun known => apart _ known _ List.mem_cons_self rfl
  have freeName : before.table.find? plan.name = none :=
    RegisterTable.find?_eq_none_iff.mpr fun known =>
      apart _ known _ (List.mem_cons_of_mem _ List.mem_cons_self) rfl
  have different : plan.cursorName ≠ plan.name := by
    intro equal
    rw [equal] at distinct
    simp at distinct
  simp only [MemoryPlan.isProper, Bool.and_eq_true, Option.isNone_iff_eq_none] at proper
  have noPin := proper.1.2
  -- The cursor comes first.
  have cursorFits : (Register.offset 0).pinKind? =
      (pinOfName? plan.cursorName.toList).map Prod.fst := by
    rw [pinOfName?_cursorName]
    rfl
  rcases Assembler.create_fresh serves freeCursor cursorFits with
    ⟨laterCursor, servesCursor, foundCursor, stateCursor, namesCursor⟩
  have cursorDone := outcome_create plan.cursorName (.offset 0) before
  generalize (before.create plan.cursorName (.offset 0)).1 = cursor at *
  generalize (before.create plan.cursorName (.offset 0)).2 = between at *
  have stillFree : between.table.find? plan.name = none := by
    rw [RegisterTable.find?_eq_none_iff, namesCursor, List.mem_append, List.mem_singleton]
    rintro (known | same)
    · exact RegisterTable.find?_eq_none_iff.mp freeName known
    · exact different same.symm
  have memoryFits : (plan.register cursor).pinKind? =
      (pinOfName? plan.name.toList).map Prod.fst := by
    rw [noPin]
    unfold MemoryPlan.register
    split <;> rfl
  rcases Assembler.create_fresh servesCursor stillFree memoryFits with
    ⟨laterMemory, servesMemory, foundMemory, stateMemory, namesMemory⟩
  refine ⟨(between.create plan.name (plan.register cursor)).2, ?_, laterCursor.trans laterMemory,
    servesMemory, ⟨_, cursor, foundMemory, laterMemory.table _ _ foundCursor, stateMemory, ?_⟩, ?_⟩
  · rw [declareMemory, show plan.name ++ "_i" = plan.cursorName from rfl,
      outcome_bind_ok (outcome_checkFree line freeName),
      outcome_bind_ok (outcome_checkFree line freeCursor), outcome_bind_ok cursorDone]
    unfold MemoryPlan.register
    cases plan.size <;> rfl
  · rw [laterMemory.states _ _ foundCursor, stateCursor]
  · rw [namesMemory, namesCursor, List.append_assoc]
    rfl

theorem outcome_item_blank {line : Line} {declarations : List Declaration} {after : Assembler}
    (declared : outcome (declarations.forM fun declaration =>
      within .declaration (declare line declaration)) before = (.ok (), after)) :
    outcome (Assembly.item ⟨line, declarations, .blank⟩) before = (.ok (), after) :=
  outcome_bind_ok declared

/-- All memories are declared, one after the other. -/
theorem memories_run {memories : List MemoryPlan} (proper : ∀ plan ∈ memories, plan.isProper)
    {lines : List Line} (length : lines.length = memories.length)
    (serves : before.Serves kinds labels)
    (fresh : (before.table.names ++ memories.flatMap fun plan =>
      [plan.cursorName, plan.name]).Nodup) :
    ∃ after, outcome ((List.zipWith (fun line plan =>
        ⟨line, [.memory plan.name plan.size], .blank⟩) lines memories).forM Assembly.item) before =
          (.ok (), after) ∧
      before.Later after ∧ after.Serves kinds labels ∧
      (∀ plan ∈ memories, plan.HeldIn after.table after.file) ∧
      after.entries = before.entries ∧ after.labels = before.labels := by
  induction memories generalizing before lines with
  | nil =>
      rw [List.zipWith_nil_right]
      exact ⟨before, rfl, .refl before, serves, nofun, rfl, rfl⟩
  | cons plan rest induction =>
      cases lines with
      | nil => cases length
      | cons line others =>
          rw [List.flatMap_cons, ← List.append_assoc] at fresh
          have freshHere := fresh.sublist (List.sublist_append_left _ _)
          rcases declareMemory_runs line (proper plan List.mem_cons_self) serves freshHere with
            ⟨between, declared, laterHere, servesBetween, held, names⟩
          rw [← names] at fresh
          rcases induction (fun other member => proper other (List.mem_cons_of_mem plan member))
            (Nat.succ.inj length) servesBetween fresh with
            ⟨after, done, later, servesAfter, heldOthers, entries, labelled⟩
          have grows := (extends_declareMemory line plan.name plan.size before trivial).1
          rw [declared] at grows
          have here : outcome (Assembly.item ⟨line, [.memory plan.name plan.size], .blank⟩)
              before = (.ok (), between) := by
            apply outcome_item_blank
            rw [outcome_forM_cons]
            exact outcome_bind_ok (outcome_within_ok.mpr declared)
          refine ⟨after, ?_, laterHere.trans later, servesAfter, fun other member => ?_, ?_, ?_⟩
          · rw [List.zipWith_cons_cons, outcome_forM_cons, outcome_bind_ok here]
            exact done
          · rcases List.mem_cons.mp member with rfl | isOther
            · exact held.later later
            · exact heldOthers other isOther
          · rw [entries, grows.entries_eq]
          · rw [labelled, grows.labels_eq]

/-! ## Entries -/

/-- Labels that were not declared before are declared. -/
theorem labels_run (line : Line) (declared : List String) (serves : before.Serves kinds labels)
    (fresh : (before.targets.map Prod.fst ++ declared).Nodup) :
    ∃ after, outcome ((declared.map Declaration.label).forM fun declaration =>
        within .declaration (declare line declaration)) before = (.ok (), after) ∧
      after.Serves kinds labels ∧ after.table = before.table ∧ after.file = before.file ∧
      after.entries = before.entries ∧
      after.targets = before.targets ++ declared.map (·, before.entries.length) := by
  induction declared generalizing before with
  | nil => exact ⟨before, rfl, serves, rfl, rfl, rfl, by rw [List.map_nil, List.append_nil]⟩
  | cons label rest induction =>
      have unknown : before.findLabel? label = none := by
        rw [Assembler.findLabel?, List.find?_eq_none]
        intro site member same
        have known : label ∈ before.targets.map Prod.fst := by
          rw [Assembler.targets, List.map_reverse, List.mem_reverse, List.map_map]
          exact List.mem_map.mpr ⟨site, member, eq_of_beq same⟩
        exact (List.nodup_append.mp fresh).2.2 label known label List.mem_cons_self rfl
      let site : LabelSite := ⟨label, line.number, line.raw⟩
      let between : Assembler :=
        { before with labels := (site, before.entries.length) :: before.labels }
      have here : outcome (within .declaration (declare line (.label label))) before =
          (.ok (), between) := by
        apply outcome_within_ok.mpr
        rw [declare, declareLabel, outcome_get_bind, unknown]
        rfl
      have targets : between.targets = before.targets ++ [(label, before.entries.length)] := by
        simp only [Assembler.targets, between, site, List.map_cons, List.reverse_cons]
      have freshRest : (between.targets.map Prod.fst ++ rest).Nodup := by
        rw [targets, List.map_append, List.append_assoc]
        exact fresh
      have servesBetween : between.Serves kinds labels :=
        ⟨serves.inside, serves.apart, serves.pins, serves.bound, serves.jumps⟩
      rcases induction servesBetween freshRest with
        ⟨after, done, servesAfter, table, file, entries, targetsAfter⟩
      refine ⟨after, ?_, servesAfter, table, file, entries, ?_⟩
      · rw [List.map_cons, outcome_forM_cons, outcome_bind_ok here]
        exact done
      · rw [targetsAfter, targets, List.append_assoc]
        rfl

/-- An entry is assembled, and its labels stand before it. -/
theorem item_runs {draft : Draft} {number : Nat} {item : Item} (held : draft.HeldBy number item)
    (proper : draft.instruction.isProper kinds labels) (serves : before.Serves kinds labels)
    (fresh : (before.targets.map Prod.fst ++ draft.labels).Nodup) :
    ∃ after, outcome (Assembly.item item) before = (.ok (), after) ∧ before.Later after ∧
      after.Serves kinds labels ∧ after.table.Knows draft.instruction.names ∧
      (∀ larger, after.table.Within larger →
        draft.entry larger number = draft.entry after.table number) ∧
      after.entries = draft.entry after.table number :: before.entries ∧
      after.targets = before.targets ++ draft.labels.map (·, before.entries.length) := by
  rcases held with ⟨isNumber, declarations, statement, body, reads⟩
  rcases labels_run item.line draft.labels serves fresh with
    ⟨between, declared, servesBetween, table, file, entries, targets⟩
  have yields := (reads.yields proper).within .instruction
  rcases yields.runs between servesBetween with ⟨last, assembled, later, servesLast, knows⟩
  have grows := (statement.assemble_notesJumps between trivial).1
  rw [outcome_within_ok.mp assembled] at grows
  let after : Assembler :=
    { last with entries := draft.entry last.table number :: last.entries }
  have servesAfter : after.Serves kinds labels :=
    ⟨servesLast.inside, servesLast.apart, servesLast.pins, servesLast.bound, servesLast.jumps⟩
  refine ⟨after, ?_, ⟨?_, ?_⟩, servesAfter, knows, fun larger within => ?_, ?_, ?_⟩
  · rw [Assembly.item, declarations, outcome_bind_ok declared, body]
    simp only
    rw [outcome_bind_ok assembled, isNumber]
    rfl
  · rw [← table]
    exact later.table
  · rw [← table, ← file]
    exact later.states
  · unfold Draft.entry
    rw [yields.stable within knows]
  · change draft.entry last.table number :: last.entries = _
    rw [grows.entries_eq, entries]
  · change last.targets = _
    rw [Assembler.targets, grows.labels_eq, ← targets, Assembler.targets]

/-- All entries are assembled. What the table has in the end it has for all of
them. -/
theorem entries_run {roles : List (Draft × Nat)} {items : List Item}
    (held : List.Forall₂ (fun role item => role.1.HeldBy role.2 item) roles items)
    (proper : ∀ role ∈ roles, role.1.instruction.isProper kinds labels)
    (serves : before.Serves kinds labels)
    (fresh : (before.targets.map Prod.fst ++ roles.flatMap fun role => role.1.labels).Nodup) :
    ∃ after, outcome (items.forM Assembly.item) before = (.ok (), after) ∧ before.Later after ∧
      after.Serves kinds labels ∧
      (∀ role ∈ roles, after.table.Knows role.1.instruction.names) ∧
      after.entries = (roles.map fun role => role.1.entry after.table role.2).reverse ++
        before.entries ∧
      after.targets = before.targets ++
        Draft.targetsFrom before.entries.length (roles.map Prod.fst) := by
  induction held generalizing before with
  | nil => exact ⟨before, rfl, .refl before, serves, nofun, rfl, by simp [Draft.targetsFrom]⟩
  | @cons role item roles items here others induction =>
      rw [List.flatMap_cons, ← List.append_assoc] at fresh
      rcases item_runs here (proper role List.mem_cons_self) serves
        (fresh.sublist (List.sublist_append_left _ _)) with
        ⟨between, done, laterHere, servesBetween, knowsHere, stable, entries, targets⟩
      have freshRest :
          (between.targets.map Prod.fst ++ roles.flatMap fun role => role.1.labels).Nodup := by
        rw [targets, List.map_append, List.map_map]
        have names : role.1.labels.map (Prod.fst ∘ fun label => (label, before.entries.length)) =
            role.1.labels := List.map_id _
        rw [names]
        exact fresh
      rcases induction (fun other member => proper other (List.mem_cons_of_mem role member))
        servesBetween freshRest with
        ⟨after, doneRest, later, servesAfter, knows, entriesAfter, targetsAfter⟩
      refine ⟨after, ?_, laterHere.trans later, servesAfter, fun other member => ?_, ?_, ?_⟩
      · rw [outcome_forM_cons, outcome_bind_ok done]
        exact doneRest
      · rcases List.mem_cons.mp member with rfl | isOther
        · exact knowsHere.within later.table
        · exact knows other isOther
      · rw [entriesAfter, entries, ← stable after.table later.table]
        simp
      · rw [targetsAfter, targets, entries]
        simp [Draft.targetsFrom]

/-! ## Programs -/

/-- The labels are in order if every jump has its label and every label an entry
after it. -/
theorem outcome_checkLabels
    (jumps : ∀ jump ∈ before.jumps, jump.label ∈ before.targets.map Prod.fst)
    (inside : ∀ target ∈ before.targets, target.2 < before.entries.length) :
    outcome checkLabels before = (.ok (), before) := by
  rw [checkLabels, outcome_get_bind]
  have known : outcome (before.jumps.reverse.forM fun jump => do
      if (before.findLabel? jump.label).isNone then
        throw (ParseError.ofLine jump.line jump.raw (.unknownLabel jump.label))) before =
      (.ok (), before) := by
    apply outcome_forM_pass
    intro jump member
    have declared := jumps jump (List.mem_reverse.mp member)
    rw [Assembler.targets, List.map_reverse, List.mem_reverse, List.map_map] at declared
    rcases List.mem_map.mp declared with ⟨label, inLabels, same⟩
    have found : (before.findLabel? jump.label).isSome := by
      rw [Assembler.findLabel?, List.find?_isSome]
      exact ⟨label, inLabels, beq_iff_eq.mpr same⟩
    rw [if_neg]
    · rfl
    · rw [Option.isNone_iff_eq_none]
      exact Option.isSome_iff_ne_none.mp found
  rw [outcome_bind_ok known]
  apply outcome_forM_pass
  rintro ⟨site, target⟩ member
  have below := inside (site.label, target) (List.mem_reverse.mpr
    (List.mem_map.mpr ⟨(site, target), List.mem_reverse.mp member, rfl⟩))
  simp only
  rw [if_neg (Nat.not_le.mpr below)]
  rfl

end Assembly

theorem Assembler.start_serves (kinds : Nat → PinKind) (labels : List String) (board : Board)
    (config : Config) (logger : Option Logger) :
    (Assembler.start .empty board config logger).Serves kinds labels := by
  have named : ∀ register ∈ (defaultRegisters config.clockSpeed).1.named,
      register.cell < 7 ∧ (pinOfName? register.name.toList).isNone ∧
        ((defaultRegisters config.clockSpeed).2.state register).pinKind? = none := by
    intro register member
    simp only [defaultRegisters, List.mem_cons, List.not_mem_nil, or_false] at member
    rcases member with rfl | rfl | rfl | rfl | rfl | rfl | rfl <;>
      exact ⟨by decide, by decide, rfl⟩
  refine ⟨fun register member => (named register member).1, ?_, fun name register found => ?_,
    nofun, nofun⟩
  · change ∀ first ∈ (defaultRegisters 0).1.named, ∀ second ∈ (defaultRegisters 0).1.named,
      first.cell = second.cell → first = second
    decide
  · rcases RegisterTable.name_of_find? found with ⟨rfl, member⟩
    rcases named register member with ⟨_, noPin, noKind⟩
    rw [Option.isNone_iff_eq_none.mp noPin]
    exact noKind

/-- The program is the one that was written down in the groups of lines. What
was a name has become the register that the table has under it, with a pin
behind it if the name is that of one. No two names share a register, and the
registers that every node has are as they were. -/
structure Outline.ReadAs (outline : Outline) (groups : List (List (List Char))) (config : Config)
    (program : Program) (file : RegisterFile) : Prop where
  entries : program.entries.toList = outline.entries program.table groups
  labels : program.labels = outline.targets
  memories : ∀ plan ∈ outline.memories, plan.HeldIn program.table file
  registers : ∀ draft ∈ outline.drafts, ∀ name ∈ draft.instruction.names,
    ∃ register, program.table.find? name = some register ∧
      (file.state register).pinKind? = (pinOfName? name.toList).map Prod.fst
  apart : ∀ first ∈ program.table.named, ∀ second ∈ program.table.named,
    first.isSame second → first = second
  defaults : ∀ register ∈ (defaultRegisters config.clockSpeed).1.named,
    program.table.find? register.name = some register ∧
      file.state register = (defaultRegisters config.clockSpeed).2.state register

namespace Outline

variable {kinds : Nat → PinKind} {outline : Outline} {groups : List (List (List Char))}

/-- The entries with the lines they start on are the drafts, in order. -/
theorem roles_fst (written : outline.Written groups) (first : Nat) :
    (outline.drafts.zip (startsFrom first groups)).map Prod.fst = outline.drafts := by
  apply List.map_fst_zip
  rw [length_startsFrom, written.length_eq]

/-- All items are assembled, from wherever the names and labels are still free. -/
theorem items_run (proper : outline.Proper kinds) (written : outline.Written groups)
    {before : Assembler} (serves : before.Serves kinds outline.labels)
    (names : before.table.names = defaultNames) (noTargets : before.targets = [])
    (noEntries : before.entries = []) :
    ∃ after, outcome ((Item.ofSource (outline.source groups)).forM Assembly.item) before =
        (.ok (), after) ∧
      before.Later after ∧ after.Serves kinds outline.labels ∧
      (∀ plan ∈ outline.memories, plan.HeldIn after.table after.file) ∧
      (∀ draft ∈ outline.drafts, after.table.Knows draft.instruction.names) ∧
      after.entries.reverse = outline.entries after.table groups ∧
      after.targets = outline.targets := by
  rcases ofSource_source proper written with ⟨lines, items, split, length, held⟩
  have fresh := proper.distinct
  rw [← names] at fresh
  rcases memories_run proper.memories length serves fresh with
    ⟨between, declared, laterBetween, servesBetween, memories, sameEntries, sameLabels⟩
  have drafts := roles_fst written (1 + outline.memories.length)
  let roles := outline.drafts.zip (startsFrom (1 + outline.memories.length) groups)
  have ofRole : ∀ role ∈ roles, role.1 ∈ outline.drafts := by
    intro role member
    rw [← drafts]
    exact List.mem_map_of_mem member
  have targetsBetween : between.targets = [] := by
    rw [← noTargets, Assembler.targets, Assembler.targets, sameLabels]
  have freshLabels :
      (between.targets.map Prod.fst ++ roles.flatMap fun role => role.1.labels).Nodup := by
    have flat : (roles.flatMap fun role => role.1.labels) = outline.labels := by
      rw [Outline.labels, ← drafts, List.flatMap_map]
    rw [targetsBetween, flat]
    exact proper.labelsDistinct
  rcases entries_run held (fun role member => proper.instructions role.1 (ofRole role member))
    servesBetween freshLabels with
    ⟨after, assembled, later, servesAfter, knows, entries, targets⟩
  refine ⟨after, ?_, laterBetween.trans later, servesAfter,
    fun plan member => (memories plan member).later later, fun draft member => ?_, ?_, ?_⟩
  · rw [split, outcome_forM_append _ _ _ declared]
    exact assembled
  · rw [← drafts] at member
    rcases List.mem_map.mp member with ⟨role, isRole, rfl⟩
    exact knows role isRole
  · rw [entries, sameEntries, noEntries, List.append_nil, List.reverse_reverse, Outline.entries,
      ← List.map_uncurry_zip_eq_zipWith]
    rfl
  · rw [targets, targetsBetween, sameEntries, noEntries, drafts]
    rfl

/-- Parsing undoes writing down. However deep its tests are nested, and
whichever branch of each takes the lead, a program that can be written down is
accepted, and what comes back is that program. -/
theorem parse_source (proper : outline.Proper kinds) (written : outline.Written groups)
    (board : Board) (config : Config) (logger : Option Logger) :
    ∃ program file,
      (Program.parse .empty board config logger (outline.source groups)).result =
        .ok (program, file) ∧
      outline.ReadAs groups config program file := by
  let start := Assembler.start .empty board config (logger.map (·.within "stage" "parsing"))
  have serves : start.Serves kinds outline.labels := Assembler.start_serves ..
  rcases items_run proper written serves rfl rfl rfl with
    ⟨after, assembled, later, servesAfter, memories, knows, entries, targets⟩
  have jumps : ∀ jump ∈ after.jumps, jump.label ∈ after.targets.map Prod.fst := by
    rw [targets, Outline.targets, Draft.targetsFrom_fst]
    exact servesAfter.jumps
  have inside : ∀ target ∈ after.targets, target.2 < after.entries.length := by
    intro target member
    rw [targets] at member
    have count : after.entries.length = outline.drafts.length := by
      rw [← List.length_reverse, entries, Outline.entries, List.length_zipWith, length_startsFrom,
        ← written.length_eq, Nat.min_self]
    have below := Draft.lt_of_mem_targetsFrom member
    omega
  let program : Program := ⟨after.entries.reverse.toArray, after.targets, after.table⟩
  have parsed : (Program.parse .empty board config logger (outline.source groups)).result =
      .ok (program, after.file) := by
    have run : (outcome (Assembly.program (Item.ofSource (outline.source groups))) start).1 =
          .ok program ∧
        (outcome (Assembly.program (Item.ofSource (outline.source groups))) start).2.file =
          after.file := by
      unfold Assembly.program
      rw [outcome_bind_ok assembled, outcome_bind_ok (outcome_checkLabels jumps inside)]
      exact ⟨rfl, rfl⟩
    change (outcome (Assembly.program (Item.ofSource (outline.source groups))) start).1.map _ = _
    rw [run.1]
    exact congrArg (fun file => Except.ok (program, file)) run.2
  refine ⟨program, after.file, parsed, ?_, targets, memories, fun draft member name isName => ?_,
    fun first isFirst second isSecond same => ?_, fun register member => ?_⟩
  · exact entries
  · rcases knows draft member name isName with ⟨register, found⟩
    exact ⟨register, found, servesAfter.pins name register found⟩
  · exact servesAfter.apart first isFirst second isSecond (eq_of_beq same)
  · have found : start.table.find? register.name = some register := by
      revert member register
      change ∀ register ∈ (defaultRegisters 0).1.named,
        (defaultRegisters 0).1.find? register.name = some register
      decide
    exact ⟨later.table _ _ found, later.states _ _ found⟩

/-- A test within the later branch of another one, whose own negative branch has
lines that start just as those of the other's. -/
theorem parse_source_nested :
    let register (name : String) : RegisterRef := ⟨name, 0⟩
    let inner := Instruction.test .less (.ref (register "buffer")) (.ref (register "log_i"))
      (.ofList [.jump "loop", .observe (register "x1")]) (.ofList [.cast (.str "i16")])
    let outer := Instruction.test .compare (.ref (register "x1")) (.int (-3))
      (.ofList [.generate (register "p0") (.int 1) (.ref (register "n")), .not])
      (.ofList [.noOperation, inner, .increment (register "log")])
    let outline : Outline := ⟨[⟨"buffer", some 4⟩, ⟨"log", none⟩],
      [⟨["start", "again"], true, .move (.str "a\n\"b\" # \\;") (register "stdout")⟩,
        ⟨["loop"], false, outer⟩, ⟨[], false, .stop⟩]⟩
    let board := Board.ofInput [] 0
    ∃ groups program file,
      outline.Proper (fun pin => if pin = 1 then .xbus else .power) ∧ outline.Written groups ∧
      outline.source groups = "*buffer[4]\n&log\n" ++
        "start: again: @mov \"a\\n\\\"b\\\" # \\\\;\" $stdout\n" ++
        "loop: tcp $x1 -3\n+ gen $p0 1 $n\n+ not\n- nop\n- tlt $buffer $log_i\n" ++
        "- - cst \"i16\"\n- + jmp loop\n- + slx $x1\n- inc $log\nend\n" ∧
      (Program.parse .empty board .default none (outline.source groups)).result =
        .ok (program, file) ∧
      outline.ReadAs groups .default program file := by
  intro register inner outer outline board
  have proper : outline.Proper fun pin => if pin = 1 then .xbus else .power :=
    ⟨by decide +kernel, by decide +kernel, by decide +kernel, by decide +kernel,
      by decide +kernel⟩
  have writesInner : inner.Written _ :=
    .test .less _ _ .negative (.cons (.plain rfl) (.cons (.plain rfl) .nil))
      (.cons (.plain rfl) .nil)
  have writesOuter : outer.Written _ :=
    .test .compare _ _ .positive (.cons (.plain rfl) (.cons (.plain rfl) .nil))
      (.cons (.plain rfl) (.cons writesInner (.cons (.plain rfl) .nil)))
  have written : outline.Written _ :=
    .cons (.entry (.plain rfl)) (.cons (.entry writesOuter) (.cons (.entry (.plain rfl)) .nil))
  rcases parse_source proper written board .default none with ⟨program, file, parsed, readAs⟩
  exact ⟨_, program, file, proper, written, by decide +kernel, parsed, readAs⟩

end Outline

end NodeAssembly
