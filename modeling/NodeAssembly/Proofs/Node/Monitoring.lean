import NodeAssembly.Node.Monitor
import NodeAssembly.Proofs.Instruction.Terms

/-! What a monitor asks of the node that it watches. It reads the accumulator and
the registers it was told to watch, asks for nothing else, and watches the same
registers from one event to the next. -/

namespace NodeAssembly

variable {terms : Terms}

/-- What every listener keeps is kept when an event goes to all of them. -/
theorem keeps_deliver {σ L E : Type} {fine : σ → Prop}
    {handle : L → E → StateT σ Script (Handled L)}
    (each : ∀ listener event state, fine state →
      ((handle listener event).run state).Keeps terms fun result => fine result.2)
    (listeners : List L) (event : E) {state : σ} (now : fine state) :
    ((deliver handle event listeners).run state).Keeps terms fun result => fine result.2 := by
  induction listeners generalizing state with
  | nil => exact now
  | cons listener rest induction =>
      apply Script.Keeps.bind (each listener event state now)
      rintro ⟨handled, next⟩ later
      simp only
      split
      · exact later
      · exact Script.Keeps.bind (induction later) fun _ last => last

theorem keeps_mapM {α β : Type} {visit : α → Script β} {items : List α}
    (each : ∀ item ∈ items, (visit item).Keeps terms fun _ => True) :
    (items.mapM visit).Keeps terms fun _ => True := by
  unfold List.mapM
  generalize [] = visited
  induction items generalizing visited with
  | nil => trivial
  | cons head tail induction =>
      apply Script.Keeps.bind (each head List.mem_cons_self)
      intro result _
      exact induction (fun item member => each item (List.mem_cons_of_mem head member))
        (result :: visited)

namespace Monitor

/-- The registers that the monitor reads. -/
def registers (monitor : Monitor) : List RegisterRef :=
  monitor.table.accumulator :: monitor.options.watch.filterMap monitor.table.find?

variable {monitor : Monitor}

theorem keeps_readNamed {table : RegisterTable} {name : String}
    (reads : ∀ register, table.find? name = some register → terms.asks (.read register)) :
    (readNamed table name).Keeps terms fun _ => True := by
  unfold readNamed
  split
  next register found =>
    exact Script.Keeps.bind (Script.keeps_request (reads register found)) fun _ _ => trivial
  next => trivial

theorem keeps_record (reads : ∀ register ∈ monitor.registers, terms.asks (.read register))
    (running : Bool) (event : Event) :
    (record running event monitor).Keeps terms
      fun result => result.1.registers = monitor.registers := by
  cases event with
  | executed position opcode =>
      have watched : (monitor.options.watch.mapM (readNamed monitor.table)).Keeps terms
          fun _ => True := by
        apply keeps_mapM
        intro name member
        apply keeps_readNamed
        intro register found
        exact reads register
          (List.mem_cons_of_mem _ (List.mem_filterMap.mpr ⟨name, member, found⟩))
      apply Script.Keeps.bind (Script.keeps_request (reads _ List.mem_cons_self))
      intro accumulator _
      apply Script.Keeps.bind watched
      intro values _
      change registers (if _ then _ else _) = _
      split <;> rfl
  | _ => rfl

theorem keeps_handle (reads : ∀ register ∈ monitor.registers, terms.asks (.read register))
    (running : Bool) (listener : MonitorListener) (event : Event) (state : Monitor × Reaction)
    (same : state.1.registers = monitor.registers) :
    ((handle running listener event).run state).Keeps terms
      fun result => result.2.1.registers = monitor.registers := by
  have looks : Script.Keeps terms (fun result => result = (state, state))
      ((get : StateT (Monitor × Reaction) Script (Monitor × Reaction)).run state) := rfl
  refine Script.Keeps.bind looks fun current isCurrent => ?_
  subst isCurrent
  rcases state with ⟨current, reaction⟩
  cases listener with
  | counter => exact same
  | recorder =>
      have counted : registers { current with events := current.events + 1 } = monitor.registers :=
        same
      rw [← counted] at reads ⊢
      have records := keeps_record reads running event
      have lifted := Script.Keeps.bind records fun result kept =>
        show Script.Keeps terms (fun outcome => outcome.1.1.registers = _)
          (.done (result, (current, reaction))) from kept
      exact Script.Keeps.bind lifted fun _ kept => kept

theorem keeps_notify (reads : ∀ register ∈ monitor.registers, terms.asks (.read register))
    (running : Bool) (event : Event) :
    (notify running event monitor).Keeps terms
      fun result => result.1.registers = monitor.registers := by
  have start : (monitor, Reaction.none).1.registers = monitor.registers := rfl
  have delivered := keeps_deliver (keeps_handle reads running) monitor.listeners event start
  have dispatched : ((dispatch (handle running) monitor.listeners event).run
      (monitor, .none)).Keeps terms fun result => result.2.1.registers = monitor.registers :=
    Script.Keeps.bind delivered fun _ kept => kept
  exact Script.Keeps.bind dispatched fun _ kept => kept

end Monitor

end NodeAssembly
