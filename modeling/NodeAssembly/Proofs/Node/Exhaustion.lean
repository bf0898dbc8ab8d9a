import Mathlib.Data.List.Nodup
import Mathlib.Data.List.Perm.Subperm
import Mathlib.Data.Nat.ModEq
import NodeAssembly.Proofs.Node.Progress
import NodeAssembly.Proofs.Node.RunOnce

/-! How a run ends when all entries are spent. The entries that a run passes over
one after the other are neighbours, so as many of them as there are entries are
all entries. A run of a program whose entries all run only once makes every
entry spent or is over before. -/

namespace NodeAssembly

namespace Note

variable {program : Program} {notes : List Note} {position : Nat}

/-- So many neighbours, starting over after the last entry. -/
def lap (size first count : Nat) : List Nat :=
  (List.range count).map fun index => (first + index) % size

theorem lap_succ (size first count : Nat) :
    lap size first (count + 1) = lap size first count ++ [(first + count) % size] := by
  rw [lap, List.range_succ, List.map_append]
  rfl

/-- A full lap comes to each entry once. -/
theorem lap_perm (size first : Nat) : (lap size first size).Perm (List.range size) := by
  have distinct : (lap size first size).Nodup := by
    refine List.Nodup.map_on (fun index member other memberOther same => ?_) List.nodup_range
    rw [List.mem_range] at member memberOther
    have congruent : index ≡ other [MOD size] := Nat.ModEq.add_left_cancel' first same
    exact congruent.eq_of_lt_of_lt member memberOther
  have inside : lap size first size ⊆ List.range size := by
    intro position member
    rcases List.mem_map.mp member with ⟨index, counted, rfl⟩
    exact List.mem_range.mpr (Nat.mod_lt _ (Nat.zero_lt_of_lt (List.mem_range.mp counted)))
  refine (distinct.subperm inside).perm_of_length_le ?_
  rw [lap, List.length_map]

/-- One more neighbour makes a longer lap. -/
theorem lap_of_next {size first : Nat} {passed : List Nat}
    (laps : passed.reverse = lap size first passed.length) (inside : position < size)
    (next : ∀ latest ∈ passed.head?, position = (latest + 1) % size) :
    ∃ first, (position :: passed).reverse = lap size first (passed.length + 1) := by
  cases passed with
  | nil => exact ⟨position, congrArg (· :: []) (Nat.mod_eq_of_lt inside).symm⟩
  | cons latest rest =>
      refine ⟨first, ?_⟩
      rw [List.reverse_cons, laps, lap_succ, List.append_right_inj, List.singleton_inj]
      rw [List.reverse_cons, List.length_cons, lap_succ] at laps
      have last : latest = (first + rest.length) % size :=
        List.singleton_inj.mp (List.append_inj_right' laps rfl)
      rw [next latest rfl, last, Nat.mod_add_mod, List.length_cons, Nat.add_assoc]

/-- The entries that were passed over one after the other are neighbours. -/
theorem skips_eq_lap (regular : Regular program notes) :
    ∃ first, (skips notes).reverse = lap program.size first (skips notes).length := by
  induction notes with
  | nil => exact ⟨0, rfl⟩
  | cons note earlier induction =>
      cases note with
      | began => exact ⟨0, rfl⟩
      | visited position visit => exact induction regular.2
      | heard event =>
          cases event with
          | executed position opcode => exact ⟨0, rfl⟩
          | stopped => exact induction regular.2
          | faulted fault => exact induction regular.2
          | skipped position =>
              rcases induction regular.2 with ⟨first, laps⟩
              rcases skips_of_skipped regular with ⟨before, _, same, follows, _⟩
              rcases follows with ⟨_, inside, _, _, next⟩
              exact lap_of_next laps inside (same ▸ next)

theorem isUsed_of_isUsed_tail {note : Note} (used : isUsed program notes position = true) :
    isUsed program (note :: notes) position = true := by
  rw [isUsed, Bool.and_eq_true] at used ⊢
  exact ⟨used.1, List.any_cons.trans (by rw [used.2, Bool.or_true])⟩

theorem isUsed_of_mem_skips (regular : Regular program notes) (passed : position ∈ skips notes) :
    isUsed program notes position = true := by
  induction notes with
  | nil => cases passed
  | cons note earlier induction =>
      cases note with
      | began => cases passed
      | visited other visit => exact isUsed_of_isUsed_tail (induction regular.2 passed)
      | heard event =>
          cases event with
          | executed other opcode => cases passed
          | stopped => exact isUsed_of_isUsed_tail (induction regular.2 passed)
          | faulted fault => exact isUsed_of_isUsed_tail (induction regular.2 passed)
          | skipped other =>
              rcases skips_of_skipped regular with ⟨before, rfl, _, follows, _⟩
              rcases List.mem_cons.mp passed with rfl | passed
              · exact isUsed_of_isUsed_tail (isUsed_of_isUsed_tail follows.2.2.1)
              · exact isUsed_of_isUsed_tail (induction regular.2 passed)

theorem skips_perm (regular : Regular program notes)
    (full : (skips notes).length = program.size) :
    (skips notes).Perm (List.range program.size) := by
  rcases skips_eq_lap regular with ⟨first, laps⟩
  rw [full] at laps
  exact (List.reverse_perm _).symm.trans (laps ▸ lap_perm _ _)

/-- When as many entries as there are were passed over, all are used up. -/
theorem isUsed_of_full (regular : Regular program notes)
    (full : (skips notes).length = program.size) (inside : position < program.size) :
    isUsed program notes position = true :=
  isUsed_of_mem_skips regular
    ((skips_perm regular full).mem_iff.mpr (List.mem_range.mpr inside))

/-- The entry that a note says was executed. -/
def execution? : Note → Option Nat
  | .heard (.executed position _) => some position
  | _ => none

/-- The entries that were executed, the latest first. -/
def executions (notes : List Note) : List Nat :=
  notes.filterMap execution?

theorem exists_of_mem_executions (executed : position ∈ executions notes) :
    ∃ opcode, .heard (.executed position opcode) ∈ notes := by
  rcases List.mem_filterMap.mp executed with ⟨note, member, names⟩
  unfold execution? at names
  split at names
  next other opcode =>
    cases names
    exact ⟨opcode, member⟩
  next => cases names

theorem count_executions (notes : List Note) (position : Nat) :
    (executions notes).count position = notes.countP (isExecution position) := by
  rw [executions, List.count_filterMap]
  refine List.countP_congr fun note _ => ?_
  cases note with
  | heard event => cases event <;> simp [execution?, isExecution]
  | _ => simp [execution?, isExecution]

theorem lt_of_mem_executions (regular : Regular program notes)
    (executed : position ∈ executions notes) : position < program.size := by
  rcases exists_of_mem_executions executed with ⟨opcode, member⟩
  rcases List.append_of_mem member with ⟨later, earlier, rfl⟩
  rcases regular.of_append with ⟨follows, regular⟩
  rcases List.head?_eq_some_iff.mp follows with ⟨before, rfl⟩
  exact regular.1.2.1

/-- A program whose entries all run only once executes no more than all of them. -/
theorem length_executions_le (regular : Regular program notes)
    (once : ∀ position < program.size, program.isOnce position = true) :
    (executions notes).length ≤ program.size := by
  have distinct : (executions notes).Nodup := by
    refine List.nodup_iff_count_le_one.mpr fun position => ?_
    by_cases executed : position ∈ executions notes
    · rw [count_executions]
      have inside := lt_of_mem_executions regular executed
      exact countP_isExecution_le_one regular (once position inside)
    · rw [List.count_eq_zero.mpr executed]
      exact Nat.zero_le 1
  have inside : executions notes ⊆ List.range program.size := fun position executed =>
    List.mem_range.mpr (lt_of_mem_executions regular executed)
  have fits := (distinct.subperm inside).length_le
  rwa [List.length_range] at fits

end Note

namespace Diary

variable {σ : Type} {program : Program} {audience : Audience σ} {agent after : Agent σ}
  {board : Board} {notes : List Note} {disturbed : Bool} {position : Nat}

/-- The entries that a node may still execute. -/
def unspent (program : Program) (node : Node) : List Nat :=
  (List.range program.size).filter fun position => !node.isSpent position

theorem mem_unspent {node : Node} (inside : position < program.size)
    (fresh : node.isSpent position = false) : position ∈ unspent program node := by
  rw [unspent, List.mem_filter, List.mem_range, fresh]
  exact ⟨inside, rfl⟩

theorem length_unspent_spend {node : Node} (runs : node.program = program)
    (size : node.spent.size = program.size) (inside : position < program.size)
    (once : program.isOnce position = true) (fresh : node.isSpent position = false) :
    (unspent program (node.spend position)).length < (unspent program node).length := by
  have fewer : unspent program (node.spend position) =
      (unspent program node).filter fun other => !(position == other) := by
    rw [unspent, unspent, List.filter_filter]
    refine List.filter_congr fun other _ => ?_
    rw [Node.isSpent_spend (size.symm ▸ inside), runs, once, Bool.and_true, Bool.not_or,
      Bool.and_comm]
  rw [fewer, List.length_filter_lt_length_iff_exists]
  refine ⟨position, mem_unspent inside fresh, ?_⟩
  rw [beq_self_eq_true]
  exact Bool.false_ne_true

/-- How far a run is from its end, if all entries run only once: first by the
entries that are not spent, then by those that it may pass over before the next
one is executed. -/
def distance (size unspent skipped : Nat) : Phase → Nat
  | .visiting => 3 * (unspent * (size + 2)) + 3 * (size + 1 - skipped) + 2
  | .executing => 3 * (unspent * (size + 2)) + 2
  | .notifying (.executed _ _) => 3 * (unspent * (size + 2)) + 1
  | .notifying (.skipped _) => 3 * (unspent * (size + 2)) + 3 * (size + 1 - skipped) + 3
  | .notifying .stopped => 1
  | .notifying (.faulted _) => 1
  | .finished _ => 0

def remaining (program : Program) (agent : Agent σ) : Nat :=
  distance program.size (unspent program agent.execution.node).length agent.execution.skipped
    agent.phase

theorem remaining_of_alike (alike : agent.Alike after) :
    remaining program after = remaining program agent := by
  have sameUnspent :
      unspent program after.execution.node = unspent program agent.execution.node := by
    simp only [unspent, Node.isSpent, alike.spent]
  simp only [remaining, alike.phase, alike.skipped, sameUnspent]

theorem remaining_conclude (result : Except Fault Unit) :
    remaining program (agent.conclude audience board result).1 = 1 := by
  rcases result with fault | ⟨⟩ <;> rfl

/-- The entry that is being executed is not spent. -/
theorem Kept.fresh_of_executing (kept : Kept program agent notes disturbed)
    (phase : agent.phase = .executing) : agent.execution.position < program.size ∧
      agent.execution.node.isSpent agent.execution.position = false := by
  have remembers := kept.remembers agent.execution.position
  have abreast := kept.abreast
  rw [phase] at remembers abreast
  rcases List.head?_eq_some_iff.mp abreast.1 with ⟨earlier, rfl⟩
  exact ⟨kept.regular.1.2.1, remembers.trans kept.regular.1.2.2⟩

/-- Neither is the one that was executed last, as long as the listeners hear of it. -/
theorem Kept.fresh_of_executed (kept : Kept program agent notes disturbed) {opcode : OpCode}
    (phase : agent.phase = .notifying (.executed position opcode)) :
    position < program.size ∧ agent.execution.node.isSpent position = false := by
  have remembers := kept.remembers position
  have abreast := kept.abreast
  rw [phase] at remembers abreast
  rcases List.head?_eq_some_iff.mp abreast.1 with ⟨earlier, rfl⟩
  rcases List.head?_eq_some_iff.mp kept.regular.1 with ⟨before, rfl⟩
  exact ⟨kept.regular.2.1.2.1, remembers.trans kept.regular.2.1.2.2⟩

theorem Kept.skipped_le (kept : Kept program agent notes disturbed)
    (phase : agent.phase = .visiting) : agent.execution.skipped ≤ program.size := by
  have abreast := kept.abreast
  rw [phase] at abreast
  rw [abreast.2.1]
  exact Note.length_skips_le kept.regular

theorem remaining_visit_lt (kept : Kept program agent notes disturbed)
    (stage : agent.stage = .visiting) :
    remaining program (agent.visit audience board).1 < remaining program agent := by
  have phase : agent.phase = .visiting := congrArg Stage.phase stage
  have few := kept.skipped_le phase
  have finds := agent.visit_finds audience board
  generalize agent.visit audience board = result at finds ⊢
  cases finds with
  | spent found running spent lacking =>
      rw [remaining, remaining, phase]
      change distance _ (unspent program agent.execution.node).length
        (agent.execution.skipped + 1) (.notifying (.skipped _)) < _
      simp only [distance]
      omega
  | fresh found running fresh =>
      rw [remaining, remaining, phase]
      change distance _ (unspent program agent.execution.node).length 0 .executing < _
      simp only [distance]
      omega
  | _ =>
      rw [remaining_conclude, remaining, phase]
      simp only [distance]
      omega

theorem remaining_resume_lt (kept : Kept program agent notes disturbed)
    (once : ∀ position < program.size, program.isOnce position = true) {event : Event}
    (phase : agent.phase = .notifying event) :
    remaining program (agent.resume event) < remaining program agent := by
  have abreast := kept.abreast
  rw [phase] at abreast
  rw [remaining, remaining, phase]
  cases event with
  | executed position opcode =>
      rcases kept.fresh_of_executed phase with ⟨inside, fresh⟩
      have fewer := length_unspent_spend kept.runs kept.size inside (once position inside) fresh
      have scaled := Nat.mul_le_mul_right (program.size + 2) (Nat.succ_le_of_lt fewer)
      rw [Nat.succ_mul] at scaled
      have unskipped : agent.execution.skipped = 0 := abreast.2
      change distance _ (unspent program (agent.execution.node.spend position)).length
        agent.execution.skipped .visiting < _
      rw [unskipped]
      simp only [distance]
      omega
  | skipped position =>
      change distance _ _ _ .visiting < _
      exact Nat.lt_succ_self _
  | stopped => exact Nat.one_pos
  | faulted fault => exact Nat.one_pos

/-- Every step brings a run that waits for nobody closer to its end. -/
theorem remaining_step_lt (kept : Kept program agent notes disturbed)
    (once : ∀ position < program.size, program.isOnce position = true)
    (ready : agent.stage.Ready) {result : Agent σ × Board}
    (step : agent.step audience board = some result) :
    remaining program result.1 < remaining program agent := by
  have concluded (phase : agent.phase = .executing) (result : Except Fault Unit) :
      remaining program (agent.conclude audience board result).1 < remaining program agent := by
    rw [remaining_conclude, remaining, phase]
    exact Nat.succ_lt_succ (Nat.succ_pos _)
  cases Agent.step_moves step with
  | visits stage => exact remaining_visit_lt kept stage
  | faults stage => exact concluded (congrArg Stage.phase stage) _
  | completes stage found =>
      have phase : agent.phase = .executing := congrArg Stage.phase stage
      rw [remaining, remaining, phase]
      exact Nat.lt_succ_self _
  | leaves stage missing => exact concluded (congrArg Stage.phase stage) _
  | executes stage scriptStep =>
      rw [stage] at ready
      cases ready
      cases scriptStep
  | @reacts event listeners reaction stage =>
      have heeds := kept_heed kept listeners reaction
      have phase : (agent.heed listeners reaction).phase = .notifying event :=
        congrArg Stage.phase stage
      rw [Agent.react_of_unbroken (Agent.attended_of_notifying kept.attended stage),
        ← remaining_of_alike (agent.alike_heed listeners reaction)]
      exact remaining_resume_lt heeds once phase
  | notifies stage scriptStep =>
      rw [stage] at ready
      cases ready
      cases scriptStep

theorem Kept.touched (kept : Kept program agent notes disturbed) (file : RegisterFile)
    (running : Bool) : Kept program (agent.touched file running) notes true := by
  have unnoted : agent.news (agent.touched file running) = [] := Agent.news_of_phase rfl
  rw [← List.nil_append notes, ← unnoted]
  exact kept_of_alike kept (agent.alike_touched file running) kept.attended nofun

/-- A run of a program whose entries all run only once comes to an end. -/
theorem inevitable_ending (steady : audience.Steady)
    (once : ∀ position < program.size, program.isOnce position = true) {diary : Diary σ}
    (kept : diary.IsKept program) :
    Inevitable audience (fun later => later.agent.ending?.isSome = true) diary := by
  generalize measure : remaining program diary.agent = bound
  induction bound using Nat.strong_induction_on generalizing diary with
  | h bound sooner =>
      have onReady (later : Diary σ) (laterKept : later.IsKept program)
          (alike : diary.agent.Alike later.agent) (ready : later.agent.stage.Ready) :
          Inevitable audience (fun later => later.agent.ending?.isSome = true) later := by
        refine .ahead (able_of_ready ready) fun board after next => ?_
        rcases next_of_ready ready next with ⟨file, running, boardAfter, step⟩
        have closer := remaining_step_lt (laterKept.touched file running) once ready step
        refine sooner _ ?_ (isKept_next steady laterKept next) rfl
        calc remaining program after.agent
            < remaining program (later.agent.touched file running) := closer
          _ = remaining program later.agent :=
              remaining_of_alike (later.agent.alike_touched file running)
          _ = remaining program diary.agent := remaining_of_alike alike
          _ = bound := measure
      cases stage : diary.agent.stage with
      | visiting => exact onReady diary kept ⟨rfl, rfl, rfl, rfl, rfl⟩ (stage ▸ .visiting)
      | executing script =>
          refine (scripted_executing audience).inevitable steady kept stage ?_
          intro later result laterKept alike _ laterStage
          exact onReady later laterKept alike (laterStage ▸ .executed result)
      | notifying event script =>
          refine (scripted_notifying audience event).inevitable steady kept stage ?_
          intro later result laterKept alike _ laterStage
          exact onReady later laterKept alike (laterStage ▸ .notified event result)
      | finished ending =>
          refine .reached ?_
          simp only [Agent.ending?, stage, Option.isSome_some]

/-! ## Runs with nothing left to execute -/

/-- The last thing that was heard is that the run ended for want of entries. -/
def Exhausted (program : Program) (notes : List Note) : Prop :=
  ∃ position earlier, notes = .heard .stopped :: .visited position .exhausted :: earlier ∧
    (Note.skips earlier).Perm (List.range program.size)

theorem exhausted_of_regular {earlier : List Note}
    (regular : Note.Regular program (.heard .stopped :: .visited position .exhausted :: earlier)) :
    Exhausted program (.heard .stopped :: .visited position .exhausted :: earlier) :=
  ⟨position, earlier, rfl, Note.skips_perm regular.2.2 regular.2.1.2.2.2⟩

/-- A run of a node whose entries are all spent. It is in its loop, or it has
ended for want of entries, unless it was told to stop. -/
structure Drained (program : Program) (agent : Agent σ) (notes : List Note) (disturbed : Bool) :
    Prop where
  spent : ∀ position < program.size, agent.execution.node.isSpent position = true
  course : (agent.phase.isLooping = true ∧ agent.execution.halted = false ∧
      agent.execution.position < program.size) ∨
    ((agent.phase = .notifying .stopped ∨ agent.phase = .finished (.returned (.ok ()))) ∧
      (disturbed = true ∨ Exhausted program notes))

theorem drained_of_alike {disturbedAfter : Bool} (drained : Drained program agent notes disturbed)
    (alike : agent.Alike after) (halted : after.execution.halted = agent.execution.halted)
    (disturbs : disturbed = true → disturbedAfter = true) :
    Drained program after (agent.news after ++ notes) disturbedAfter := by
  rw [Agent.news_of_phase alike.phase, List.nil_append]
  constructor
  · intro position inside
    rw [Node.isSpent, alike.spent]
    exact drained.spent position inside
  · rw [alike.phase, halted, alike.position]
    exact drained.course.imp_right fun ended => ⟨ended.1, ended.2.imp_left disturbs⟩

theorem Drained.disturb (drained : Drained program agent notes disturbed) (more : Bool) :
    Drained program agent notes (disturbed || more) :=
  ⟨drained.spent, drained.course.imp_right fun ended =>
    ⟨ended.1, ended.2.imp_left fun disturbs => by rw [disturbs, Bool.true_or]⟩⟩

theorem drained_visit (steady : audience.Steady) (kept : Kept program agent notes disturbed)
    (drained : Drained program agent notes disturbed) (stage : agent.stage = .visiting) :
    Drained program (agent.visit audience board).1
      (agent.news (agent.visit audience board).1 ++ notes) disturbed := by
  have phase : agent.phase = .visiting := congrArg Stage.phase stage
  have course := drained.course
  have calm := kept.calm
  rw [phase] at course calm
  rcases course with ⟨_, halted, inside⟩ | ⟨ended | ended, _⟩
  · have keptAfter : Kept program (agent.visit audience board).1
        (agent.news (agent.visit audience board).1 ++ notes) disturbed :=
      kept_visit steady kept stage
    have finds := agent.visit_finds audience board
    generalize agent.visit audience board = result at finds keptAfter ⊢
    cases finds with
    | nothing missing =>
        rw [kept.runs, Array.getElem?_eq_none_iff] at missing
        exact absurd inside (Nat.not_lt.mpr missing)
    | stopped found stopped =>
        rw [Execution.isRunning, halted, Bool.not_false, Bool.true_and] at stopped
        have disturbs : disturbed = true := by
          cases disturbed with
          | true => rfl
          | false => cases stopped.symm.trans (calm rfl rfl)
        exact ⟨drained.spent, .inr ⟨.inl rfl, .inl disturbs⟩⟩
    | exhausted found running spent full =>
        rw [Agent.news_conclude_visiting phase, if_pos (Agent.isEntering_of_running found running)]
          at keptAfter ⊢
        exact ⟨drained.spent, .inr ⟨.inl rfl, .inr (exhausted_of_regular keptAfter.regular)⟩⟩
    | spent found running spent lacking =>
        exact ⟨drained.spent, .inl ⟨rfl, halted, inside⟩⟩
    | fresh found running fresh => cases fresh.symm.trans (drained.spent _ inside)
  · cases ended
  · cases ended

theorem drained_resume (kept : Kept program agent notes disturbed)
    (drained : Drained program agent notes disturbed) {event : Event}
    (phase : agent.phase = .notifying event) :
    Drained program (agent.resume event) notes disturbed := by
  have course := drained.course
  rw [phase] at course
  cases event with
  | executed position opcode =>
      rcases kept.fresh_of_executed phase with ⟨inside, fresh⟩
      cases fresh.symm.trans (drained.spent position inside)
  | skipped position =>
      rcases course with ⟨_, halted, inside⟩ | ⟨ended | ended, _⟩
      · refine ⟨drained.spent, .inl ⟨rfl, halted, ?_⟩⟩
        exact Watch.following_lt kept.runs position (Nat.ne_zero_of_lt inside)
      · cases ended
      · cases ended
  | stopped =>
      rcases course with ⟨looping, _⟩ | ⟨_, reason⟩
      · cases looping
      · exact ⟨drained.spent, .inr ⟨.inr rfl, reason⟩⟩
  | faulted fault =>
      rcases course with ⟨looping, _⟩ | ⟨ended | ended, _⟩
      · cases looping
      · cases ended
      · cases ended

/-- Nothing is being executed any more. -/
theorem Drained.not_executing (drained : Drained program agent notes disturbed)
    (kept : Kept program agent notes disturbed) : agent.phase ≠ .executing := by
  intro phase
  rcases kept.fresh_of_executing phase with ⟨inside, fresh⟩
  cases fresh.symm.trans (drained.spent _ inside)

theorem drained_step (steady : audience.Steady) (kept : Kept program agent notes disturbed)
    (drained : Drained program agent notes disturbed)
    {result : Agent σ × Board} (step : agent.step audience board = some result) :
    Drained program result.1 (agent.news result.1 ++ notes) (disturbed || agent.asksStop) := by
  cases Agent.step_moves step with
  | visits stage => exact (drained_visit steady kept drained stage).disturb _
  | faults stage => exact absurd (congrArg Stage.phase stage) (drained.not_executing kept)
  | completes stage found => exact absurd (congrArg Stage.phase stage) (drained.not_executing kept)
  | leaves stage missing => exact absurd (congrArg Stage.phase stage) (drained.not_executing kept)
  | executes stage scriptStep =>
      exact absurd (congrArg Stage.phase stage) (drained.not_executing kept)
  | @reacts event listeners reaction stage =>
      have phase : agent.phase = .notifying event := congrArg Stage.phase stage
      have asks : agent.asksStop = reaction.stop := by simp only [Agent.asksStop, stage]
      have alike := agent.alike_heed listeners reaction
      have heeds := drained_of_alike (drained.disturb reaction.stop) alike rfl id
      rw [Agent.news_of_phase alike.phase, List.nil_append] at heeds
      rw [Agent.news_of_notifying phase, asks,
        Agent.react_of_unbroken (Agent.attended_of_notifying kept.attended stage)]
      exact drained_resume (kept_heed kept listeners reaction) heeds phase
  | @notifies event script next execution boardNext stage scriptStep =>
      have phase : agent.phase = .notifying event := congrArg Stage.phase stage
      rcases Execution.stepScript_carries scriptStep with ⟨_, _, _, carries⟩
      have halted := ((Agent.attended_of_notifying kept.attended stage).stepScript scriptStep).2
      refine Drained.disturb ?_ _
      exact drained_of_alike drained (.of_carries carries phase.symm) halted id

theorem drained_expire (kept : Kept program agent notes disturbed)
    (drained : Drained program agent notes disturbed)
    {result : Agent σ × Board} (expires : agent.expire board = some result) :
    Drained program result.1 (agent.news result.1 ++ notes) disturbed := by
  cases Agent.expire_givesUp expires with
  | executes stage scriptStep =>
      exact absurd (congrArg Stage.phase stage) (drained.not_executing kept)
  | @notifies event script next execution boardNext stage scriptStep =>
      have phase : agent.phase = .notifying event := congrArg Stage.phase stage
      rcases Execution.expireScript_carries scriptStep with ⟨_, _, _, carries⟩
      have halted := ((Agent.attended_of_notifying kept.attended stage).expireScript scriptStep).2
      exact drained_of_alike drained (.of_carries carries phase.symm) halted id

variable {diary later : Diary σ}

/-- The diary is kept, and its node has nothing left to execute. -/
structure IsDrained (program : Program) (diary : Diary σ) : Prop where
  kept : diary.IsKept program
  drained : Drained program diary.agent diary.notes diary.disturbed

theorem isDrained_outside (steady : audience.Steady) (unfinished : diary.agent.ending? = none)
    (isDrained : diary.IsDrained program) {turns : List (Turn σ)}
    (outside : ∀ next ∈ turns, next.isOutside = true) :
    (diary.run audience turns).IsDrained program := by
  refine ⟨isKept_run steady isDrained.kept turns, ?_⟩
  have persists := run_outside audience unfinished outside
  rcases persists.agent with ⟨file, running, touched⟩
  have alike := diary.agent.alike_touched file running
  have drained := drained_of_alike isDrained.drained alike rfl persists.disturbed
  rw [Agent.news_of_phase alike.phase, List.nil_append, ← touched, ← persists.notes] at drained
  exact drained

theorem isDrained_next (steady : audience.Steady) (unfinished : diary.agent.ending? = none)
    (isDrained : diary.IsDrained program) (next : Next audience board diary later) :
    later.IsDrained program := by
  refine ⟨isKept_next steady isDrained.kept next, ?_⟩
  cases next with
  | step outside steps =>
      have before := isDrained_outside steady unfinished isDrained outside
      rcases turn_step steps with ⟨moved, noted⟩
      rw [moved, noted]
      exact drained_step steady before.kept before.drained steps
  | expire outside expires =>
      have before := isDrained_outside steady unfinished isDrained outside
      rcases turn_expire audience expires with ⟨moved, noted⟩
      rw [moved, noted]
      exact drained_expire before.kept before.drained expires

theorem IsDrained.isOnce (isDrained : diary.IsDrained program) (inside : position < program.size) :
    program.isOnce position = true := by
  have spent := isDrained.drained.spent position inside
  exact Note.isOnce_of_isUsed ((isDrained.kept.remembers position).symm.trans spent)

/-- A run with nothing left to execute ends for want of entries. -/
theorem inevitable_exhaustion (steady : audience.Steady) (isDrained : diary.IsDrained program) :
    Inevitable audience (fun later => later.agent.ending? = some (.returned (.ok ())) ∧
      (later.disturbed = true ∨ Exhausted program later.notes)) diary := by
  have ends := inevitable_ending steady (fun _ => isDrained.isOnce) isDrained.kept
  refine (ends.keeping (IsDrained program) isDrained ?_).imp ?_
  · intro before board after unfinished beforeDrained next
    exact isDrained_next steady (Option.not_isSome_iff_eq_none.mp unfinished) beforeDrained next
  · rintro later ⟨ended, laterDrained⟩
    rcases Option.isSome_iff_exists.mp ended with ⟨ending, finished⟩
    have phase := Agent.phase_of_ending finished
    have course := laterDrained.drained.course
    rw [phase] at course
    rcases course with ⟨looping, _⟩ | ⟨stopped | returned, reason⟩
    · cases looping
    · cases stopped
    · cases returned
      exact ⟨finished, reason⟩

/-- Unless listeners are just told of an execution, the node agrees with all notes. -/
theorem Kept.isSpent_eq (kept : Kept program agent notes disturbed)
    (unexecuted : ∀ position opcode, notes.head? ≠ some (.heard (.executed position opcode)))
    (position : Nat) :
    agent.execution.node.isSpent position = Note.isUsed program notes position := by
  have remembers := kept.remembers position
  have abreast := kept.abreast
  generalize agent.phase = phase at remembers abreast
  cases phase with
  | notifying event =>
      cases event with
      | executed other opcode => exact absurd abreast.1 (unexecuted other opcode)
      | _ => exact remembers
  | _ => exact remembers

theorem Kept.spent_of_exhausted {earlier : List Note}
    (kept : Kept program agent (.heard .stopped :: .visited position .exhausted :: earlier)
      disturbed)
    {other : Nat} (inside : other < program.size) :
    agent.execution.node.isSpent other = true := by
  have full : (Note.skips earlier).length = program.size := kept.regular.2.1.2.2.2
  rw [kept.isSpent_eq nofun]
  exact Note.isUsed_of_isUsed_tail (Note.isUsed_of_isUsed_tail
    (Note.isUsed_of_full kept.regular.2.2 full inside))

theorem Kept.length_skips_lt (kept : Kept program agent notes disturbed)
    (inside : position < program.size)
    (fresh : agent.execution.node.isSpent position = false) :
    (Note.skips notes).length < program.size := by
  refine Nat.lt_of_le_of_ne (Note.length_skips_le kept.regular) fun full => ?_
  have unexecuted : ∀ other opcode, notes.head? ≠ some (.heard (.executed other opcode)) := by
    intro other opcode head
    rcases List.head?_eq_some_iff.mp head with ⟨earlier, rfl⟩
    have empty : 0 = program.size := full
    rw [← empty] at inside
    exact Nat.not_lt_zero position inside
  rw [kept.isSpent_eq unexecuted, Note.isUsed_of_full kept.regular full inside] at fresh
  cases fresh

end Diary

/-- Exhaustion is found exactly. A run ends for want of entries only when all are
spent, and then it has passed over each of them once since it last executed one;
as long as one is not spent, it passes over fewer. A run with nothing left to
execute ends in this way, unless it is stopped, and a program whose entries all
run only once comes to an end after each was executed at most once. -/
theorem exhaustion_exact {σ : Type} {registry : PinRegistry} {board : Board} {config : Config}
    {logger : Option Logger} {source : String} {program : Program} {file : RegisterFile}
    (parsed : (Program.parse registry board config logger source).result = .ok (program, file))
    (nonempty : program.size ≠ 0) {audience : Audience σ} (steady : audience.Steady)
    (nodeLogger : Option Logger) (listeners : σ) (turns : List (Turn σ)) {diary : Diary σ}
    (reached : (Diary.resting (.ofProgram program file nodeLogger) listeners).run audience turns =
      diary) :
    (∀ position earlier,
      diary.notes = .heard .stopped :: .visited position .exhausted :: earlier →
      (∀ other < program.size, diary.agent.execution.node.isSpent other = true) ∧
        (Note.skips earlier).Perm (List.range program.size)) ∧
    (∀ position < program.size, diary.agent.execution.node.isSpent position = false →
      (Note.skips diary.notes).length < program.size) ∧
    (diary.agent.phase.isLooping = true → diary.agent.execution.halted = false →
      (∀ position < program.size, diary.agent.execution.node.isSpent position = true) →
      Diary.Inevitable audience (fun later =>
        later.agent.ending? = some (.returned (.ok ())) ∧
          (later.disturbed = true ∨ Diary.Exhausted program later.notes)) diary) ∧
    ((∀ position < program.size, program.isOnce position = true) →
      Diary.Inevitable audience (fun later => later.agent.ending?.isSome = true) diary ∧
        (Note.executions diary.notes).length ≤ program.size) := by
  have kept : diary.IsKept program := by
    rw [← reached]
    exact Diary.isKept_run steady (Diary.kept_resting program file nodeLogger listeners) turns
  have inside : diary.agent.execution.position < program.size := by
    rw [← reached, Diary.agent, Diary.watch_run]
    exact (Watch.sound_run (Program.closed_of_parse parsed) steady.bystanders
      (Watch.sound_resting program file nodeLogger listeners) turns).bears.position nonempty
  refine ⟨fun position earlier shape => ?_, fun position inside fresh => ?_,
    fun looping halted spent => ?_, fun once => ?_⟩
  · rw [Diary.IsKept, shape] at kept
    exact ⟨fun other => kept.spent_of_exhausted,
      Note.skips_perm kept.regular.2.2 kept.regular.2.1.2.2.2⟩
  · exact kept.length_skips_lt inside fresh
  · exact Diary.inevitable_exhaustion steady ⟨kept, spent, .inl ⟨looping, halted, inside⟩⟩
  · exact ⟨Diary.inevitable_ending steady once kept, Note.length_executions_le kept.regular once⟩

/-- An addition and a jump back to it, each only once. After both were executed
the run passes over both and ends. -/
theorem exhaustion_exact_loop :
    let source := "l: @add 1\n@jmp l"
    let board := Board.ofInput [] 0
    let table := (defaultRegisters 500).1
    let file := (defaultRegisters 500).2
    let program : Program :=
      ⟨#[⟨.add (.int 1), true, 1⟩, ⟨.jump "l", true, 2⟩], [("l", 0)], table⟩
    let turns := .restart () board :: List.replicate 9 (.step board)
    let diary := (Diary.resting (.ofProgram program file none) ()).run Audience.silent turns
    (Program.parse .empty board .default none source).result = .ok (program, file) ∧
      (∀ position < program.size, diary.agent.execution.node.isSpent position = true) ∧
      Diary.Inevitable Audience.silent (fun later =>
        later.agent.ending? = some (.returned (.ok ())) ∧
          (later.disturbed = true ∨ Diary.Exhausted program later.notes)) diary ∧
      (Note.executions diary.notes).length ≤ program.size := by
  intro source board table file program turns diary
  have parsed : (Program.parse .empty board .default none source).result =
      .ok (program, file) := by
    decide +kernel
  have spent : ∀ position < program.size,
      diary.agent.execution.node.isSpent position = true := by
    decide +kernel
  have once : ∀ position < program.size, program.isOnce position = true := by decide +kernel
  have looping : diary.agent.phase.isLooping = true := by decide +kernel
  have halted : diary.agent.execution.halted = false := by decide +kernel
  have nonempty : program.size ≠ 0 := by decide
  have reached : (Diary.resting (.ofProgram program file none) ()).run Audience.silent turns =
      diary := rfl
  have exhausts := exhaustion_exact parsed nonempty Audience.silent_steady none () turns reached
  exact ⟨parsed, spent, exhausts.2.2.1 looping halted spent, (exhausts.2.2.2 once).2⟩

end NodeAssembly
