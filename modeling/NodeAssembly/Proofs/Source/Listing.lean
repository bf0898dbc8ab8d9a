import NodeAssembly.Proofs.Source.Reading

/-! The items of a program that was written down: one for each memory and one
for each entry, with the labels of the entry as declarations. -/

namespace NodeAssembly

open NodeAssembly.Text

/-- The numbers of the lines that groups of lines start on. -/
def startsFrom (first : Nat) : List (List (List Char)) → List Nat
  | [] => []
  | group :: rest => first :: startsFrom (first + group.length) rest

theorem length_startsFrom (first : Nat) (groups : List (List (List Char))) :
    (startsFrom first groups).length = groups.length := by
  induction groups generalizing first with
  | nil => rfl
  | cons group rest induction => rw [startsFrom, List.length_cons, List.length_cons, induction]

/-! ## Headings -/

theorem nameLength_append {name rest : List Char} (named : isName name)
    (ends : ∀ char ∈ rest.head?, isWordChar char = false) :
    nameLength (name ++ rest) = name.length := by
  cases name with
  | nil => cases named
  | cons head tail =>
      rw [isName, Bool.and_eq_true, List.all_eq_true] at named
      have run := Lexeme.run_append named.2 ends
      unfold Lexeme.run at run
      simp [nameLength, named.1, run]

theorem readAt_of_letter {char : Char} (letter : isLetter char) (rest : List Char) :
    Declaration.readAt char rest = Declaration.readLabel char rest := by
  unfold Declaration.readAt
  split
  · exact absurd letter (by decide)
  · exact absurd letter (by decide)
  · exact absurd letter (by decide)
  · rfl

namespace Heading

theorem read_of_absent {char : Char} {rest : List Char}
    (absent : Declaration.readAt char rest = .absent) :
    read (char :: rest) = ⟨[], .ok (char :: rest)⟩ := by
  rw [read]
  simp only [absent]

theorem read_of_found {char : Char} {rest following : List Char} {declaration : Declaration}
    {extent : Nat} (found : Declaration.readAt char rest = .found declaration extent)
    (follows : trimStart (rest.drop extent) = following) :
    read (char :: rest) =
      ⟨declaration :: (read following).declarations, (read following).rest⟩ := by
  rw [read]
  simp only [found, follows]

/-- A label is declared before whatever stands behind it. -/
theorem read_label {label : String} (named : isName label.toList) {following : List Char}
    (tidy : Tidy following) :
    read (label.toList ++ [':', ' '] ++ following) =
      ⟨.label label :: (read following).declarations, (read following).rest⟩ := by
  have ends : ∀ char ∈ (':' :: ' ' :: following).head?, isWordChar char = false := by
    intro char member
    cases member
    decide
  have length := nameLength_append named ends
  cases chars : label.toList with
  | nil =>
      rw [chars] at named
      cases named
  | cons head tail =>
      rw [chars] at length named
      rw [isName, Bool.and_eq_true] at named
      have found : Declaration.readAt head (tail ++ ':' :: ' ' :: following) =
          .found (.label label) (tail.length + 1) := by
        rw [readAt_of_letter named.1, Declaration.readLabel]
        rw [List.cons_append] at length
        simp only [length, List.length_cons, List.drop_left, List.take_left]
        rw [← chars, String.ofList_toList]
      have follows : trimStart ((tail ++ ':' :: ' ' :: following).drop (tail.length + 1)) =
          following := by
        rw [← List.drop_drop, List.drop_left, List.drop_one, List.tail_cons]
        exact tidy.trimStart_spaced
      rw [List.append_assoc, List.cons_append]
      exact read_of_found found follows

theorem read_labels {labels : List String} (named : ∀ label ∈ labels, isName label.toList)
    {body : List Char} (tidy : Tidy body) (plain : read body = ⟨[], .ok body⟩) :
    read (labels.flatMap (fun label => label.toList ++ [':', ' ']) ++ body) =
      ⟨labels.map .label, .ok body⟩ ∧
      Tidy (labels.flatMap (fun label => label.toList ++ [':', ' ']) ++ body) := by
  induction labels with
  | nil => exact ⟨plain, tidy⟩
  | cons head tail induction =>
      rcases induction fun label member => named label (List.mem_cons_of_mem head member) with
        ⟨reads, tidyTail⟩
      have namedHead := named head List.mem_cons_self
      have colon : Tidy [':'] := .of_char (by decide)
      rw [List.flatMap_cons, List.append_assoc]
      constructor
      · rw [read_label namedHead tidyTail, reads]
        rfl
      · have whole := ((tidy_name namedHead).append colon).spaced tidyTail
        rw [List.append_assoc] at whole ⊢
        exact whole

/-- An instruction is no declaration. -/
theorem read_header (instruction : Instruction) :
    read instruction.header.toList = ⟨[], .ok instruction.header.toList⟩ := by
  have named := isName_mnemonic instruction.opcode
  have split : ∃ rest, instruction.header.toList = instruction.opcode.mnemonic.toList ++ rest ∧
      ∀ char ∈ rest.head?, char = ' ' := by
    rw [Instruction.header_toList]
    cases instruction.operands.map String.toList with
    | nil => exact ⟨[], by simp, nofun⟩
    | cons next others =>
        refine ⟨' ' :: [' '].intercalate (next :: others), ?_, fun char member => ?_⟩
        · rw [List.intercalate_cons_cons, List.append_assoc, List.singleton_append]
        · cases member
          rfl
  rcases split with ⟨rest, header, blank⟩
  have ends : ∀ char ∈ rest.head?, isWordChar char = false := by
    intro char member
    rw [blank char member]
    decide
  have length := nameLength_append named ends
  rw [header]
  cases chars : instruction.opcode.mnemonic.toList with
  | nil =>
      rw [chars] at named
      cases named
  | cons head tail =>
      rw [chars] at length named
      rw [isName, Bool.and_eq_true] at named
      rw [List.cons_append] at length ⊢
      apply read_of_absent
      rw [readAt_of_letter named.1, Declaration.readLabel]
      simp only [length, List.length_cons, List.drop_left]
      cases rest with
      | nil => rfl
      | cons next further =>
          rw [blank next rfl]
          rfl

end Heading

/-! ## Entries -/

namespace Draft

variable {kinds : Nat → PinKind} {labels : List String} {draft : Draft}

/-- What follows the labels of an entry. -/
def marked (draft : Draft) (first : List Char) : List Char :=
  (if draft.once then ['@'] else []) ++ first

theorem tidy_marked {first : List Char} (tidy : Tidy first) (draft : Draft) :
    Tidy (draft.marked first) := by
  unfold marked
  split
  · have mark : Tidy ['@'] := .of_char (by decide)
    exact mark.append tidy
  · exact tidy

theorem read_marked (draft : Draft) :
    Heading.read (draft.marked draft.instruction.header.toList) =
      ⟨[], .ok (draft.marked draft.instruction.header.toList)⟩ := by
  unfold marked
  split
  · apply Heading.read_of_absent
    rfl
  · exact Heading.read_header draft.instruction

/-- The line that an entry starts on. -/
theorem read_opening (named : ∀ label ∈ draft.labels, isName label.toList)
    (tidy : Tidy draft.instruction.header.toList) :
    Heading.read (draft.opening ++ draft.instruction.header.toList) =
      ⟨draft.labels.map .label, .ok (draft.marked draft.instruction.header.toList)⟩ ∧
      Tidy (draft.opening ++ draft.instruction.header.toList) := by
  have whole := Heading.read_labels named (draft.tidy_marked tidy) draft.read_marked
  rw [marked, ← List.append_assoc] at whole
  exact whole

/-- What follows the labels is the instruction, marked or not. -/
theorem readBody_marked (draft : Draft) (line : Line) (following : List Line)
    (tidy : Tidy draft.instruction.header.toList) :
    Item.readBody { line with text := draft.marked draft.instruction.header.toList } following =
      (.entry draft.once
        (Statement.ofLine { line with text := draft.instruction.header.toList } following).1,
        (Statement.ofLine { line with text := draft.instruction.header.toList } following).2) := by
  rcases draft.instruction.header_starts with ⟨head, tail, starts, letter⟩
  unfold marked
  cases once : draft.once with
  | true =>
      have trimmed : trimStart draft.instruction.header.toList = draft.instruction.header.toList := by
        rw [starts]
        rw [trimStart, List.dropWhile_cons_of_neg]
        have nonblank := tidy.starts head (by rw [starts]; rfl)
        simp [nonblank]
      have unsigned : Line.sign? { line with text := '@' :: draft.instruction.header.toList } =
          none := rfl
      simp only [if_true, List.singleton_append]
      rw [Item.readBody, unsigned]
      simp only [trimmed]
  | false =>
      have unsigned : Line.sign? { line with text := draft.instruction.header.toList } = none :=
        sign?_of_letter starts letter
      have noMark : head ≠ '@' := by
        rintro rfl
        exact absurd letter (by decide)
      simp only [Bool.false_eq_true, if_false, List.nil_append]
      rw [Item.readBody, unsigned]
      simp only [starts]
      split
      next equal => cases equal
      next equal => cases equal
      next equal =>
        cases equal
        exact absurd rfl noMark
      next => rfl

/-- The item stands for the entry and for the line that the entry starts on. -/
structure HeldBy (draft : Draft) (number : Nat) (item : Item) : Prop where
  number : item.line.number = number
  declarations : item.declarations = draft.labels.map .label
  body : ∃ statement, item.body = .entry draft.once statement ∧
    statement.Reads draft.instruction

/-- An entry is read back from its lines, and takes no others. -/
theorem Written.held (named : ∀ label ∈ labels, isName label.toList)
    (declared : ∀ label ∈ draft.labels, isName label.toList)
    (proper : draft.instruction.isProper kinds labels) {texts : List (List Char)}
    (written : draft.Written texts) {line : Line} {own rest : List Line}
    (same : (line :: own).map Line.text = texts) (ends : Line.Unmarked rest) :
    draft.HeldBy line.number (Item.ofLine line (own ++ rest)).1 ∧
      (Item.ofLine line (own ++ rest)).2 = own.length := by
  cases written with
  | entry instruction =>
      rcases instruction.starts with ⟨branches, equal⟩
      rw [List.cons.injEq] at equal
      rcases equal with ⟨rfl, rfl⟩
      rw [List.map_cons, List.cons.injEq] at same
      have tidy := (Instruction.legible_header named proper).2
      have heading := (read_opening declared tidy).1
      have reads := instruction.reads named draft.instruction proper
        (show ({ line with text := draft.instruction.header.toList } :: own).map Line.text = _ by
          rw [List.map_cons, same.2]) ends
      unfold Item.ofLine
      simp only [same.1, heading, readBody_marked draft line (own ++ rest) tidy]
      exact ⟨⟨rfl, rfl, _, rfl, reads.1⟩, reads.2⟩

/-- The first line of an entry has no sign. -/
theorem Written.unmarked (declared : ∀ label ∈ draft.labels, isName label.toList)
    {texts : List (List Char)} (written : draft.Written texts) {line : Line} {own : List Line}
    (same : (line :: own).map Line.text = texts) : line.sign? = none := by
  cases written with
  | entry instruction =>
      rcases instruction.starts with ⟨branches, equal⟩
      rw [List.cons.injEq] at equal
      rcases equal with ⟨rfl, rfl⟩
      rw [List.map_cons, List.cons.injEq] at same
      have starts := same.1
      unfold opening at starts
      cases labels : draft.labels with
      | nil =>
          rw [labels, List.flatMap_nil, List.nil_append] at starts
          split at starts
          · rw [Line.sign?, starts]
            rfl
          · rcases draft.instruction.header_starts with ⟨head, tail, header, letter⟩
            exact sign?_of_letter (starts.trans header) letter
      | cons label others =>
          have named := declared label (labels ▸ List.mem_cons_self)
          cases chars : label.toList with
          | nil =>
              rw [chars] at named
              cases named
          | cons head tail =>
              rw [chars, isName, Bool.and_eq_true] at named
              rw [labels, List.flatMap_cons, chars] at starts
              exact sign?_of_letter starts named.1

theorem Written.tidy (named : ∀ label ∈ labels, isName label.toList)
    (declared : ∀ label ∈ draft.labels, isName label.toList)
    (proper : draft.instruction.isProper kinds labels) {texts : List (List Char)}
    (written : draft.Written texts) : ∀ text ∈ texts, Tidy text := by
  cases written with
  | entry instruction =>
      have lines := instruction.tidy named draft.instruction proper
      rcases instruction.starts with ⟨branches, equal⟩
      rw [List.cons.injEq] at equal
      rcases equal with ⟨rfl, rfl⟩
      intro text member
      rcases List.mem_cons.mp member with rfl | below
      · exact (read_opening declared (lines _ List.mem_cons_self)).2
      · exact lines text (List.mem_cons_of_mem _ below)

end Draft

/-! ## Memories -/

namespace MemoryPlan

variable {plan : MemoryPlan}

theorem tidy_line (proper : plan.isProper) : Tidy plan.line := by
  simp only [isProper, Bool.and_eq_true] at proper
  have name := tidy_name proper.1.1
  unfold line
  split
  next size _ =>
    have star : Tidy ['*'] := .of_char (by decide)
    have opens : Tidy ['['] := .of_char (by decide)
    have closes : Tidy [']'] := .of_char (by decide)
    have digits : Tidy (decimalNat size) := .of_solid (decimalNat_ne_nil size) fun _ member =>
      isSolid_of_isWordChar (Lexeme.isWordChar_of_isDigit (isDigit_of_mem_decimalNat member))
    exact ((star.append name).append (opens.append digits)).append closes
  next =>
    have ampersand : Tidy ['&'] := .of_char (by decide)
    exact ampersand.append name

theorem readSize?_line {size : Nat} (positive : 1 ≤ size) (fits : size ≤ Memory.cellLimit) :
    Declaration.readSize? ('[' :: decimalNat size ++ [']']) =
      some (size, (decimalNat size).length + 2) := by
  have digits : (decimalNat size ++ [']']).takeWhile isDigit = decimalNat size := by
    rw [List.takeWhile_append_of_pos fun _ member => isDigit_of_mem_decimalNat member]
    simp [show isDigit ']' = false by decide]
  have read : readNatural 10 (Memory.cellLimit + 1) (decimalNat size) = some size :=
    readNatural_decimalNat (Nat.lt_succ_of_le fits)
  have notZero : size ≠ 0 := by omega
  unfold Declaration.readSize?
  rw [List.cons_append]
  simp only [digits, List.drop_left, read, if_neg notZero]

/-- The line of a memory declares it and nothing else. -/
theorem read_line (proper : plan.isProper) :
    Heading.read plan.line = ⟨[.memory plan.name plan.size], .ok []⟩ := by
  simp only [isProper, Bool.and_eq_true] at proper
  have filled : plan.name.toList.length ≠ 0 := by
    intro zero
    exact name_ne_nil proper.1.1 (List.length_eq_zero_iff.mp zero)
  have nothing : Heading.read [] = ⟨[], .ok []⟩ := by rw [Heading.read]
  cases size : plan.size with
  | some cells =>
      rw [size, Option.all_some, Bool.and_eq_true, decide_eq_true_eq, decide_eq_true_eq] at proper
      have bracket : ∀ char ∈ ('[' :: decimalNat cells ++ [']']).head?, isWordChar char = false := by
        intro char member
        cases member
        decide
      have length := nameLength_append proper.1.1 bracket
      have found : Declaration.readAt '*' (plan.name.toList ++ ('[' :: decimalNat cells ++ [']'])) =
          .found (.memory plan.name (some cells))
            (plan.name.toList.length + ((decimalNat cells).length + 2)) := by
        simp only [Declaration.readAt, Declaration.readSized, length, List.drop_left,
          readSize?_line proper.2.1 proper.2.2, List.take_left, String.ofList_toList]
      have follows : trimStart ((plan.name.toList ++ ('[' :: decimalNat cells ++ [']'])).drop
          (plan.name.toList.length + ((decimalNat cells).length + 2))) = [] := by
        rw [← List.drop_drop, List.drop_left, List.drop_eq_nil_of_le]
        · rfl
        · simp
      rw [line, size]
      simp only [List.cons_append, List.append_assoc] at found follows ⊢
      rw [Heading.read_of_found found follows, nothing]
  | none =>
      have length := nameLength_append proper.1.1 (show ∀ char ∈ ([] : List Char).head?,
        isWordChar char = false by simp)
      rw [List.append_nil] at length
      have found : Declaration.readAt '&' plan.name.toList =
          .found (.memory plan.name none) plan.name.toList.length := by
        simp only [Declaration.readAt, Declaration.readGrowing, length, List.take_length,
          String.ofList_toList]
      have follows : trimStart (plan.name.toList.drop plan.name.toList.length) = [] := by
        rw [List.drop_length]
        rfl
      rw [line, size]
      simp only
      rw [Heading.read_of_found found follows, nothing]

theorem ofLine_line (proper : plan.isProper) {line : Line} (same : line.text = plan.line)
    (following : List Line) :
    Item.ofLine line following = (⟨line, [.memory plan.name plan.size], .blank⟩, 0) := by
  rw [Item.ofLine, same, read_line proper]
  rfl

end MemoryPlan

/-! ## Whole programs -/

namespace Line

theorem numberFrom_append (first : Nat) (texts others : List (List Char)) :
    numberFrom first (texts ++ others) =
      numberFrom first texts ++ numberFrom (first + texts.length) others := by
  induction texts generalizing first with
  | nil => rfl
  | cons head tail induction =>
      have shift : first + 1 + tail.length = first + (head :: tail).length := by
        rw [List.length_cons]
        omega
      rw [List.cons_append, numberFrom, induction, shift]
      rfl

theorem length_numberFrom (first : Nat) (texts : List (List Char)) :
    (numberFrom first texts).length = texts.length := by
  induction texts generalizing first with
  | nil => rfl
  | cons head tail induction => rw [numberFrom, List.length_cons, List.length_cons, induction]

theorem text_numberFrom {texts : List (List Char)} (tidy : ∀ text ∈ texts, Tidy text)
    (first : Nat) : (numberFrom first texts).map Line.text = texts := by
  induction texts generalizing first with
  | nil => rfl
  | cons head tail induction =>
      have further := induction (fun text member => tidy text (List.mem_cons_of_mem head member))
        (first + 1)
      rw [numberFrom, List.map_cons, further, (tidy head List.mem_cons_self).ofRaw_eq]

end Line

namespace Outline

variable {kinds : Nat → PinKind} {labels : List String}

/-- The items of the entries, with the numbers of the lines they start on. -/
theorem ofLines_entries (named : ∀ label ∈ labels, isName label.toList) {drafts : List Draft}
    {groups : List (List (List Char))} (written : List.Forall₂ Draft.Written drafts groups)
    (declared : ∀ draft ∈ drafts, ∀ label ∈ draft.labels, isName label.toList)
    (proper : ∀ draft ∈ drafts, draft.instruction.isProper kinds labels) (first : Nat) :
    List.Forall₂ (fun role item => role.1.HeldBy role.2 item)
      (drafts.zip (startsFrom first groups)) (Item.ofLines (Line.numberFrom first groups.flatten)) ∧
      (∀ text ∈ groups.flatten, Tidy text) ∧
      Line.Unmarked (Line.numberFrom first groups.flatten) := by
  induction written generalizing first with
  | nil =>
      refine ⟨?_, nofun, nofun⟩
      rw [List.flatten_nil, Line.numberFrom, Item.ofLines]
      exact .nil
  | @cons draft group drafts groups here others induction =>
      have declaredHere := declared draft List.mem_cons_self
      have properHere := proper draft List.mem_cons_self
      have tidy := here.tidy named declaredHere properHere
      rcases induction (fun other member => declared other (List.mem_cons_of_mem draft member))
        (fun other member => proper other (List.mem_cons_of_mem draft member))
        (first + group.length) with ⟨items, tidyOthers, unmarked⟩
      have texts := Line.text_numberFrom tidy first
      rw [List.flatten_cons, Line.numberFrom_append]
      have length := Line.length_numberFrom first group
      cases group with
      | nil => cases here
      | cons text below =>
          rw [Line.numberFrom] at texts length ⊢
          rcases here.held named declaredHere properHere texts unmarked with ⟨held, count⟩
          refine ⟨?_, ?_, ?_⟩
          · rw [List.cons_append, Item.ofLines]
            simp only [count, List.drop_left]
            exact .cons held items
          · intro other member
            rcases List.mem_append.mp member with inGroup | later
            · exact tidy other inGroup
            · exact tidyOthers other later
          · intro line member
            cases member
            exact here.unmarked declaredHere texts

theorem ofLines_memories {memories : List MemoryPlan} (proper : ∀ plan ∈ memories, plan.isProper)
    (others : List (List Char)) (first : Nat) :
    ∃ lines : List Line,
      Item.ofLines (Line.numberFrom first (memories.map MemoryPlan.line ++ others)) =
        List.zipWith (fun line plan => ⟨line, [.memory plan.name plan.size], .blank⟩) lines memories ++
          Item.ofLines (Line.numberFrom (first + memories.length) others) ∧
      lines.length = memories.length := by
  induction memories generalizing first with
  | nil => exact ⟨[], rfl, rfl⟩
  | cons plan rest induction =>
      have properHere := proper plan List.mem_cons_self
      rcases induction (fun other member => proper other (List.mem_cons_of_mem plan member))
        (first + 1) with ⟨lines, items, length⟩
      have shift : first + 1 + rest.length = first + (plan :: rest).length := by
        rw [List.length_cons]
        omega
      rw [shift] at items
      have same : (Line.ofRaw first plan.line).text = plan.line := by
        rw [(MemoryPlan.tidy_line properHere).ofRaw_eq]
      refine ⟨Line.ofRaw first plan.line :: lines, ?_, by rw [List.length_cons, length]; rfl⟩
      rw [List.map_cons, List.cons_append, Line.numberFrom, Item.ofLines]
      simp only [MemoryPlan.ofLine_line properHere same, List.drop_zero, items]
      rfl

/-- The items of a program that was written down. -/
theorem ofSource_source {outline : Outline} (proper : outline.Proper kinds)
    {groups : List (List (List Char))} (written : outline.Written groups) :
    ∃ (lines : List Line) (items : List Item),
      Item.ofSource (outline.source groups) = List.zipWith
        (fun line plan => ⟨line, [.memory plan.name plan.size], .blank⟩) lines outline.memories ++
          items ∧
      lines.length = outline.memories.length ∧
      List.Forall₂ (fun role item => role.1.HeldBy role.2 item)
        (outline.drafts.zip (startsFrom (1 + outline.memories.length) groups)) items := by
  have declared : ∀ draft ∈ outline.drafts, ∀ label ∈ draft.labels, isName label.toList :=
    fun draft member label inLabels =>
      proper.labels label (List.mem_flatMap.mpr ⟨draft, member, inLabels⟩)
  rcases ofLines_entries proper.labels written declared proper.instructions
    (1 + outline.memories.length) with ⟨items, tidyEntries, _⟩
  rcases ofLines_memories proper.memories groups.flatten 1 with ⟨lines, split, length⟩
  have tidy : ∀ text ∈ outline.memories.map MemoryPlan.line ++ groups.flatten, Tidy text := by
    intro text member
    rcases List.mem_append.mp member with inMemories | inEntries
    · rcases List.mem_map.mp inMemories with ⟨plan, isPlan, rfl⟩
      exact MemoryPlan.tidy_line (proper.memories plan isPlan)
    · exact tidyEntries text inEntries
  refine ⟨lines, _, ?_, length, items⟩
  rw [Item.ofSource, Line.ofSource, source, String.toList_ofList, lines_unlines tidy]
  exact split

end Outline

end NodeAssembly
