import NodeAssembly.Proofs.Node.Diary

/-! Instructions that run only once. What the notes of a node say about them
follows from the rules of a diary alone, over all its runs. -/

namespace NodeAssembly

namespace Note

variable {program : Program} {notes earlier later : List Note} {position : Nat}

theorem Regular.of_append (regular : Regular program (later ++ earlier)) :
    Regular program earlier := by
  induction later with
  | nil => exact regular
  | cons note later induction => exact induction regular.2

theorem isOnce_of_isUsed (used : isUsed program notes position = true) :
    program.isOnce position = true :=
  ((Bool.and_eq_true _ _).mp used).1

theorem eq_of_isExecution {note : Note} (execution : note.isExecution position = true) :
    ∃ opcode, note = .heard (.executed position opcode) := by
  unfold isExecution at execution
  split at execution
  next other opcode =>
    rw [beq_iff_eq.mp execution]
    exact ⟨opcode, rfl⟩
  next => cases execution

theorem isUsed_of_mem {opcode : OpCode} (once : program.isOnce position = true)
    (executed : .heard (.executed position opcode) ∈ notes) :
    isUsed program notes position = true := by
  rw [isUsed, once, Bool.true_and]
  exact List.any_eq_true.mpr ⟨_, executed, beq_self_eq_true position⟩

/-- What comes right after a visit. -/
def Continues (position : Nat) (next : Note) : Visit → Prop
  | .undertaken => (∃ opcode, next = .heard (.executed position opcode)) ∨
      ∃ fault, next = .heard (.faulted fault)
  | .passed => next = .heard (.skipped position)
  | .exhausted => next = .heard .stopped

theorem continues_of_follows {visit : Visit} {next : Note}
    (follows : Follows program (.visited position visit :: earlier) next) :
    Continues position next visit := by
  cases next with
  | began => cases follows
  | visited other visit => cases follows.1
  | heard event =>
      cases event with
      | executed other opcode =>
          cases follows
          exact .inl ⟨opcode, rfl⟩
      | skipped other =>
          cases follows
          rfl
      | stopped =>
          rcases follows with rested | ⟨other, same⟩
          · cases rested
          · cases same
            rfl
      | faulted fault =>
          rcases follows with ⟨other, same⟩
          cases same
          exact .inr ⟨fault, rfl⟩

/-- An entry that runs only once is executed at most once. -/
theorem countP_isExecution_le_one (regular : Regular program notes)
    (once : program.isOnce position = true) : notes.countP (isExecution position) ≤ 1 := by
  induction notes with
  | nil => exact Nat.zero_le 1
  | cons note earlier induction =>
      cases execution : note.isExecution position with
      | false =>
          rw [List.countP_cons_of_neg (ne_true_of_eq_false execution)]
          exact induction regular.2
      | true =>
          -- The visit before was undertaken, so the entry had not been executed.
          rcases eq_of_isExecution execution with ⟨opcode, rfl⟩
          rcases List.head?_eq_some_iff.mp regular.1 with ⟨before, rfl⟩
          have unused : isUsed program before position = false := regular.2.1.2.2
          rw [isUsed, once, Bool.true_and, List.any_eq_false] at unused
          have visit : ¬ (Note.visited position .undertaken).isExecution position = true :=
            Bool.false_ne_true
          rw [List.countP_cons_of_pos execution, List.countP_cons_of_neg visit,
            List.countP_eq_zero.mpr unused]

/-- Between two visits to an entry it is not executed. -/
theorem not_executed_of_not_visited {opcode : OpCode}
    (regular : Regular program (later ++ earlier)) (rested : isRested earlier = true)
    (unvisited : ∀ visit, .visited position visit ∉ later) :
    .heard (.executed position opcode) ∉ later := by
  induction later with
  | nil => exact List.not_mem_nil
  | cons note later induction =>
      have others := induction regular.2 fun visit member =>
        unvisited visit (List.mem_cons_of_mem note member)
      intro member
      rcases List.mem_cons.mp member with rfl | member
      · have visited : (later ++ earlier).head? = some (.visited position .undertaken) := regular.1
        cases later with
        | nil =>
            rcases List.head?_eq_some_iff.mp visited with ⟨before, rfl⟩
            cases rested
        | cons latest later =>
            cases visited
            exact unvisited .undertaken (List.mem_cons_of_mem _ List.mem_cons_self)
      · exact others member

/-- A fault does not use an entry up. -/
theorem undertaken_after_fault {between : List Note} {fault : Fault} {visit : Visit}
    (regular : Regular program (.visited position visit ::
      (between ++ .heard (.faulted fault) :: .visited position .undertaken :: earlier)))
    (unvisited : ∀ other, .visited position other ∉ between) : visit = .undertaken := by
  have before : isUsed program earlier position = false := regular.2.of_append.2.1.2.2
  have unused : isUsed program
      (between ++ .heard (.faulted fault) :: .visited position .undertaken :: earlier)
      position = false := by
    have unexecuted : between.any (isExecution position) = false := by
      refine List.any_eq_false.mpr fun note member execution => ?_
      rcases eq_of_isExecution execution with ⟨opcode, rfl⟩
      exact not_executed_of_not_visited regular.2 rfl unvisited member
    rw [isUsed, List.any_append, unexecuted]
    exact before
  cases visit with
  | undertaken => rfl
  | passed => cases unused.symm.trans regular.1.2.2.1
  | exhausted => cases unused.symm.trans regular.1.2.2.1

theorem not_skipped_of_isOnce (regular : Regular program notes)
    (always : program.isOnce position = false) : .heard (.skipped position) ∉ notes := by
  intro skipped
  rcases List.append_of_mem skipped with ⟨later, earlier, rfl⟩
  rcases skips_of_skipped regular.of_append with ⟨before, _, _, follows, _⟩
  have once := isOnce_of_isUsed follows.2.2.1
  rw [always] at once
  cases once

end Note

namespace Diary

variable {σ : Type} {program : Program} {audience : Audience σ} {agent : Agent σ}
  {notes : List Note} {disturbed : Bool} {position : Nat} {visit : Visit}

/-- A visit that is noted last is the one that the run is still busy with. -/
theorem Kept.undertaken_of_head (kept : Kept program agent notes disturbed)
    (head : notes.head? = some (.visited position visit)) : visit = .undertaken := by
  have abreast := kept.abreast
  rcases List.head?_eq_some_iff.mp head with ⟨earlier, rfl⟩
  generalize agent.phase = phase at abreast
  cases phase with
  | visiting => cases abreast.1
  | executing =>
      cases abreast.1
      rfl
  | notifying event => cases abreast.1
  | finished ending => cases abreast

/-- Whatever is not executed at a visit is heard of at once. -/
theorem Kept.continues {later earlier : List Note}
    (kept : Kept program agent (later.reverse ++ .visited position visit :: earlier) disturbed)
    (unexecuted : visit ≠ .undertaken) :
    ∃ next, later.head? = some next ∧ Note.Continues position next visit := by
  cases later with
  | nil => exact absurd (kept.undertaken_of_head rfl) unexecuted
  | cons next rest =>
      have regular := kept.regular
      rw [List.reverse_cons, List.append_assoc] at regular
      exact ⟨next, rfl, Note.continues_of_follows regular.of_append.1⟩

/-- A visit to an entry that is used up executes nothing. -/
theorem Kept.used_visit {later earlier : List Note}
    (kept : Kept program agent (later.reverse ++ .visited position visit :: earlier) disturbed)
    (used : Note.isUsed program earlier position = true) :
    (visit = .passed ∧ later.head? = some (.heard (.skipped position))) ∨
      (visit = .exhausted ∧ later.head? = some (.heard .stopped)) := by
  have follows := kept.regular.of_append.1
  cases visit with
  | undertaken => cases used.symm.trans follows.2.2
  | passed =>
      rcases kept.continues Visit.noConfusion with ⟨next, head, rfl⟩
      exact .inl ⟨rfl, head⟩
  | exhausted =>
      rcases kept.continues Visit.noConfusion with ⟨next, head, rfl⟩
      exact .inr ⟨rfl, head⟩

end Diary

/-- An entry that runs only once does so over all runs of a node. Once it was
executed, each visit to it passes it over or ends the run for want of entries;
a visit that ends with a fault does not count. All other entries are never
passed over. -/
theorem run_once_lasts {σ : Type} {audience : Audience σ} (steady : audience.Steady)
    (program : Program) (file : RegisterFile) (logger : Option Logger) (listeners : σ)
    (turns : List (Turn σ)) {story : List Note}
    (told : ((Diary.resting (.ofProgram program file logger) listeners).run audience
      turns).notes.reverse = story) (position : Nat) :
    (program.isOnce position = true →
      story.countP (Note.isExecution position) ≤ 1 ∧
      ∀ earlier visit later opcode, story = earlier ++ .visited position visit :: later →
        .heard (.executed position opcode) ∈ earlier →
        (visit = .passed ∧ later.head? = some (.heard (.skipped position))) ∨
        (visit = .exhausted ∧ later.head? = some (.heard .stopped))) ∧
    (∀ earlier fault between visit later,
      story = earlier ++ .visited position .undertaken :: .heard (.faulted fault) ::
        between ++ .visited position visit :: later →
      (∀ other, .visited position other ∉ between) → visit = .undertaken) ∧
    (program.isOnce position = false → .heard (.skipped position) ∉ story) := by
  have kept := Diary.isKept_run steady (Diary.kept_resting program file logger listeners) turns
  unfold Diary.IsKept at kept
  rw [← List.reverse_reverse (Diary.notes _), told] at kept
  refine ⟨fun once => ⟨?_, fun earlier visit later opcode split executed => ?_⟩,
    fun earlier fault between visit later split unvisited => ?_, fun always skipped => ?_⟩
  · rw [← List.countP_reverse]
    exact Note.countP_isExecution_le_one kept.regular once
  · rw [split, List.reverse_append, List.reverse_cons, List.append_assoc] at kept
    apply kept.used_visit
    exact Note.isUsed_of_mem once (List.mem_reverse.mpr executed)
  · have regular := kept.regular
    simp only [split, List.reverse_append, List.reverse_cons, List.append_assoc,
      List.cons_append, List.nil_append] at regular
    refine Note.undertaken_after_fault regular.of_append fun other member => ?_
    exact unvisited other (List.mem_reverse.mp member)
  · exact Note.not_skipped_of_isOnce kept.regular always (List.mem_reverse.mpr skipped)

/-- A division that first has a fault, is then executed, and is passed over from
then on. -/
theorem run_once_lasts_division :
    let board := Board.ofInput [] 0
    let table := (defaultRegisters 500).1
    let file := (defaultRegisters 500).2
    let program : Program := ⟨#[⟨.divide (.ref table.accumulator), true, 1⟩], [], table⟩
    let lap : List (Turn Unit) := .restart () board :: List.replicate 10 (.step board)
    let correct := Turn.overwrite (file.update table.accumulator (.plain (.int 1)))
    let story := ((Diary.resting (.ofProgram program file none) ()).run Audience.silent
      (lap ++ correct :: lap ++ lap)).notes.reverse
    let spent : List Note :=
      [.visited 0 .passed, .heard (.skipped 0), .visited 0 .exhausted, .heard .stopped]
    story = [.began, .visited 0 .undertaken, .heard (.faulted .divisionByZero),
        .began, .visited 0 .undertaken, .heard (.executed 0 .divide)] ++ spent ++ .began :: spent ∧
      story.countP (Note.isExecution 0) ≤ 1 := by
  intro board table file program lap correct story spent
  have told : story = [.began, .visited 0 .undertaken, .heard (.faulted .divisionByZero),
      .began, .visited 0 .undertaken, .heard (.executed 0 .divide)] ++ spent ++
      .began :: spent := by
    decide +kernel
  have lasts := run_once_lasts Audience.silent_steady program file none ()
    (lap ++ correct :: lap ++ lap) rfl 0
  exact ⟨told, (lasts.1 rfl).1⟩

end NodeAssembly
