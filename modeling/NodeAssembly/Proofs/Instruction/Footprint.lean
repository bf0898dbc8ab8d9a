import NodeAssembly.Instruction.Execute
import NodeAssembly.Proofs.Instruction.Terms
import NodeAssembly.Proofs.Value.Operators

/-! The footprint of an instruction: the registers that it may read, write and
observe, and the labels that it may jump to, its branches included. The script
of an instruction never asks for anything else, whatever it is answered. -/

namespace NodeAssembly

/-- The register that an operand refers to, if any. -/
def Value.registers : Value → List RegisterRef
  | .ref register => [register]
  | _ => []

/-- The registers that are read, written and observed, and the labels that are
jumped to. -/
structure Footprint where
  sources : List RegisterRef
  targets : List RegisterRef
  probes : List RegisterRef
  labels : List String
deriving DecidableEq

namespace Footprint

def empty : Footprint :=
  ⟨[], [], [], []⟩

def append (first second : Footprint) : Footprint where
  sources := first.sources ++ second.sources
  targets := first.targets ++ second.targets
  probes := first.probes ++ second.probes
  labels := first.labels ++ second.labels

instance : Append Footprint :=
  ⟨append⟩

/-- The footprint of an instruction that reads some registers and replaces the
accumulator. -/
def ofOperator (accumulator : RegisterRef) (operands : List RegisterRef) : Footprint :=
  { empty with sources := accumulator :: operands, targets := [accumulator] }

end Footprint

/-- The footprint of an instruction without its branches. -/
def Instruction.ownFootprint (accumulator : RegisterRef) : Instruction → Footprint
  | .noOperation | .stop => .empty
  | .move source target => { Footprint.empty with sources := source.registers, targets := [target] }
  | .swap left right =>
    { Footprint.empty with sources := [left, right], targets := [left, right] }
  | .jump label => { Footprint.empty with labels := [label] }
  | .sleep duration => { Footprint.empty with sources := duration.registers }
  | .observe register => { Footprint.empty with probes := [register] }
  | .generate register on off =>
    { Footprint.empty with sources := on.registers ++ off.registers, targets := [register] }
  | .add operand | .subtract operand | .multiply operand | .divide operand =>
    .ofOperator accumulator operand.registers
  | .not => .ofOperator accumulator []
  | .digit position => .ofOperator accumulator position.registers
  | .setDigit position value => .ofOperator accumulator (position.registers ++ value.registers)
  | .cast kind => .ofOperator accumulator kind.registers
  | .increment register | .decrement register =>
    { Footprint.empty with sources := [register], targets := [accumulator, register] }
  | .test _ left right _ _ => { Footprint.empty with sources := left.registers ++ right.registers }

mutual

/-- The footprint of an instruction with its branches. -/
def Instruction.footprint (accumulator : RegisterRef) : Instruction → Footprint
  | .test kind left right positive negative =>
    (Instruction.test kind left right positive negative).ownFootprint accumulator ++
      (positive.footprint accumulator ++ negative.footprint accumulator)
  | instruction => instruction.ownFootprint accumulator

def Block.footprint (accumulator : RegisterRef) : Block → Footprint
  | .nil => .empty
  | .cons head tail => head.footprint accumulator ++ tail.footprint accumulator

end

namespace Terms

/-- Terms under which every instruction can be carried out: it may always look
after itself, and what the operators make of values within the terms is within
the terms. -/
structure Fair (terms : Terms) : Prop where
  stop : terms.asks .stop
  running : terms.asks .running
  sleep : ∀ ticks, terms.asks (.sleep ticks)
  flat : ∀ value, value.isFlat → terms.values value
  readable : ∀ register, terms.values (.ref register) → terms.asks (.read register)
  computed : ∀ fault, fault.isComputed → terms.faults fault

/-- Everything in a footprint may be asked for. -/
structure Allows (terms : Terms) (footprint : Footprint) : Prop where
  reads : ∀ register ∈ footprint.sources, terms.asks (.read register)
  writes : ∀ register ∈ footprint.targets, ∀ value, terms.values value →
    terms.asks (.write register value)
  observes : ∀ register ∈ footprint.probes, terms.asks (.observe register)
  jumps : ∀ label ∈ footprint.labels, terms.asks (.jump label)

variable {terms : Terms}

theorem Allows.left {first second : Footprint} (allows : terms.Allows (first ++ second)) :
    terms.Allows first where
  reads := fun register member => allows.reads register (List.mem_append_left _ member)
  writes := fun register member => allows.writes register (List.mem_append_left _ member)
  observes := fun register member => allows.observes register (List.mem_append_left _ member)
  jumps := fun label member => allows.jumps label (List.mem_append_left _ member)

theorem Allows.right {first second : Footprint} (allows : terms.Allows (first ++ second)) :
    terms.Allows second where
  reads := fun register member => allows.reads register (List.mem_append_right _ member)
  writes := fun register member => allows.writes register (List.mem_append_right _ member)
  observes := fun register member => allows.observes register (List.mem_append_right _ member)
  jumps := fun label member => allows.jumps label (List.mem_append_right _ member)

/-- An operand whose register may be read. -/
def Reads (terms : Terms) (value : Value) : Prop :=
  ∀ register ∈ value.registers, terms.asks (.read register)

theorem Fair.reads_of_values (fair : terms.Fair) {value : Value} (within : terms.values value) :
    terms.Reads value := by
  intro register member
  cases value with
  | ref known =>
      rw [List.mem_singleton.mp member]
      exact fair.readable known within
  | _ => cases member

theorem Fair.grants_operator (fair : terms.Fair) {operator : Value → Value → Except Fault Value}
    (member : operator ∈ Value.operators) {left : Value} (within : terms.values left)
    (right : Value) : terms.Grants terms.values (operator left right) := by
  rcases Value.computes_or_ref member left right with computed | same
  · cases outcome : operator left right with
    | ok value =>
        rw [outcome] at computed
        exact fair.flat value computed
    | error fault =>
        rw [outcome] at computed
        exact fair.computed fault computed
  · rw [same]
    exact within

end Terms

namespace Action

variable {terms : Terms}

theorem keeps_resolve (fair : terms.Fair) {value : Value} (reads : terms.Reads value) :
    (resolve value).Keeps terms terms.values := by
  cases value with
  | ref register => exact keeps_read (reads register (by simp [Value.registers]))
  | int number => exact fair.flat (.int number) rfl
  | float number => exact fair.flat (.float number) rfl
  | str text => exact fair.flat (.str text) rfl
  | null => exact fair.flat .null rfl

theorem keeps_put (fair : terms.Fair) {register : RegisterRef} {value : Value}
    (writes : ∀ written, terms.values written → terms.asks (.write register written))
    (within : terms.values value) : (put register value).Keeps terms fun _ => True :=
  (keeps_resolve fair (fair.reads_of_values within)).bind fun written holds =>
    keeps_write (writes written holds)

theorem keeps_combine (fair : terms.Fair) {operator : Value → Value → Except Fault Value}
    (member : operator ∈ Value.operators) {left right : Value} (leftReads : terms.Reads left)
    (rightReads : terms.Reads right) :
    (combine operator left right).Keeps terms terms.values := by
  apply (keeps_resolve fair leftReads).bind
  intro first firstHolds
  apply (keeps_resolve fair rightReads).bind
  intro second _
  exact keeps_liftM (fair.grants_operator member firstHolds second)

theorem keeps_order (fair : terms.Fair) {left right : Value} (leftReads : terms.Reads left)
    (rightReads : terms.Reads right) : (order left right).Keeps terms fun _ => True := by
  apply (keeps_resolve fair leftReads).bind
  intro first _
  apply (keeps_resolve fair rightReads).bind
  intro second _
  exact keeps_pure trivial

theorem keeps_unary (fair : terms.Fair) {operator : Value → Value} {value : Value}
    (yields : ∀ resolved, (operator resolved).isFlat ∨ operator resolved = resolved)
    (within : terms.values value) :
    Keeps terms terms.values (do return operator (← resolve value)) := by
  apply (keeps_resolve fair (fair.reads_of_values within)).bind
  intro resolved holds
  apply keeps_pure
  rcases yields resolved with flat | same
  · exact fair.flat _ flat
  · rw [same]
    exact holds

end Action

section Execution

variable {terms : Terms} {accumulator : RegisterRef}

theorem keeps_accumulate (fair : terms.Fair) {operands : List RegisterRef}
    (allows : terms.Allows (.ofOperator accumulator operands))
    {operator : Value → Action Value}
    (operates : ∀ value, terms.values value → (operator value).Keeps terms terms.values) :
    (accumulate accumulator operator).Keeps terms fun _ => True := by
  have reads := allows.reads accumulator List.mem_cons_self
  have writes := allows.writes accumulator List.mem_cons_self
  apply (Action.keeps_read reads).bind
  intro value holds
  apply (operates value holds).bind
  intro result within
  exact Action.keeps_put fair writes within

theorem keeps_operation (fair : terms.Fair) {operator : Value → Value → Except Fault Value}
    (member : operator ∈ Value.operators) {operand : Value}
    (allows : terms.Allows (.ofOperator accumulator operand.registers)) :
    (accumulate accumulator fun value => Action.combine operator value operand).Keeps terms
      fun _ => True := by
  apply keeps_accumulate fair allows
  intro value within
  apply Action.keeps_combine fair member (fair.reads_of_values within)
  exact fun register inOperand => allows.reads register (List.mem_cons_of_mem _ inOperand)

theorem keeps_stepRegister (fair : terms.Fair) {register : RegisterRef} (amount : Int32)
    (allows : terms.Allows
      { Footprint.empty with sources := [register], targets := [accumulator, register] }) :
    (stepRegister accumulator register amount).Keeps terms fun _ => True := by
  have reads := allows.reads register List.mem_cons_self
  apply (Action.keeps_read reads).bind
  intro value holds
  have amountReads : terms.Reads (.int amount) := by
    intro register member
    cases member
  refine (Action.keeps_combine fair (by simp [Value.operators]) (fair.reads_of_values holds)
    amountReads).bind fun result within => ?_
  apply (Action.keeps_put fair (allows.writes accumulator (by simp)) within).bind
  intro _ _
  exact Action.keeps_put fair (allows.writes register (by simp)) within

theorem keeps_move (fair : terms.Fair) {source : Value} {target : RegisterRef}
    (allows : terms.Allows ((Instruction.move source target).ownFootprint accumulator)) :
    ((Instruction.move source target).execute accumulator).Keeps terms fun _ => True := by
  simp only [Instruction.execute]
  apply (Action.keeps_resolve fair allows.reads).bind
  intro value within
  exact Action.keeps_put fair (allows.writes target List.mem_cons_self) within

theorem keeps_swap (fair : terms.Fair) {left right : RegisterRef}
    (allows : terms.Allows ((Instruction.swap left right).ownFootprint accumulator)) :
    ((Instruction.swap left right).execute accumulator).Keeps terms fun _ => True := by
  have reads := allows.reads
  have writes := allows.writes
  simp only [Instruction.ownFootprint, List.mem_cons, List.not_mem_nil, or_false] at reads writes
  simp only [Instruction.execute]
  apply (Action.keeps_read (reads left (.inl rfl))).bind
  intro first firstHolds
  apply (Action.keeps_read (reads right (.inr rfl))).bind
  intro second secondHolds
  apply (Action.keeps_put fair (writes left (.inl rfl)) secondHolds).bind
  intro _ _
  exact Action.keeps_put fair (writes right (.inr rfl)) firstHolds

theorem keeps_generate (fair : terms.Fair) {register : RegisterRef} {on off : Value}
    (allows : terms.Allows ((Instruction.generate register on off).ownFootprint accumulator)) :
    ((Instruction.generate register on off).execute accumulator).Keeps terms fun _ => True := by
  have writes := allows.writes register List.mem_cons_self
  have onReads : terms.Reads on :=
    fun source member => allows.reads source (List.mem_append_left _ member)
  have offReads : terms.Reads off :=
    fun source member => allows.reads source (List.mem_append_right _ member)
  simp only [Instruction.execute]
  apply (Action.keeps_resolve fair onReads).bind
  intro onTicks _
  apply (Action.keeps_resolve fair offReads).bind
  intro offTicks _
  apply (Action.keeps_put fair writes (fair.flat (.int 100) rfl)).bind
  intro _ _
  apply (Action.keeps_sleep (fair.sleep _)).bind
  intro _ _
  apply (Action.keeps_put fair writes (fair.flat (.int 0) rfl)).bind
  intro _ _
  exact Action.keeps_sleep (fair.sleep _)

theorem keeps_digit (fair : terms.Fair) {position : Value}
    (allows : terms.Allows ((Instruction.digit position).ownFootprint accumulator)) :
    ((Instruction.digit position).execute accumulator).Keeps terms fun _ => True := by
  have positionReads : terms.Reads position :=
    fun source member => allows.reads source (List.mem_cons_of_mem _ member)
  simp only [Instruction.execute]
  apply (Action.keeps_resolve fair positionReads).bind
  intro index _
  apply keeps_accumulate fair allows
  intro value within
  exact Action.keeps_unary fair (fun resolved => resolved.isFlat_digit_or_eq index.toInt) within

theorem keeps_setDigit (fair : terms.Fair) {position replacement : Value}
    (allows : terms.Allows ((Instruction.setDigit position replacement).ownFootprint accumulator)) :
    ((Instruction.setDigit position replacement).execute accumulator).Keeps terms
      fun _ => True := by
  have positionReads : terms.Reads position := fun source member =>
    allows.reads source (List.mem_cons_of_mem _ (List.mem_append_left _ member))
  have replacementReads : terms.Reads replacement := fun source member =>
    allows.reads source (List.mem_cons_of_mem _ (List.mem_append_right _ member))
  simp only [Instruction.execute]
  apply (Action.keeps_resolve fair positionReads).bind
  intro index _
  apply (Action.keeps_resolve fair replacementReads).bind
  intro digit _
  apply keeps_accumulate fair allows
  intro value within
  exact Action.keeps_unary fair
    (fun resolved => resolved.isFlat_setDigit_or_eq index.toInt digit) within

mutual

/-- The script of an instruction stays within its footprint. -/
theorem Instruction.execute_keeps (fair : terms.Fair) (instruction : Instruction)
    (allows : terms.Allows (instruction.footprint accumulator)) :
    (instruction.execute accumulator).Keeps terms fun _ => True := by
  match instruction with
  | .noOperation => exact Action.keeps_pure trivial
  | .stop => exact Action.keeps_stop fair.stop
  | .move source target => exact keeps_move fair allows
  | .swap left right => exact keeps_swap fair allows
  | .jump label => exact Action.keeps_jump (allows.jumps label List.mem_cons_self)
  | .sleep duration =>
      apply (Action.keeps_resolve fair allows.reads).bind
      intro ticks _
      exact Action.keeps_sleep (fair.sleep _)
  | .observe register => exact Action.keeps_observe (allows.observes register List.mem_cons_self)
  | .generate register on off => exact keeps_generate fair allows
  | .add operand => exact keeps_operation fair (by simp [Value.operators]) allows
  | .subtract operand => exact keeps_operation fair (by simp [Value.operators]) allows
  | .multiply operand => exact keeps_operation fair (by simp [Value.operators]) allows
  | .divide operand => exact keeps_operation fair (by simp [Value.operators]) allows
  | .not =>
      apply keeps_accumulate fair allows
      intro value within
      exact Action.keeps_unary fair (fun resolved => resolved.isFlat_not_or_eq) within
  | .digit position => exact keeps_digit fair allows
  | .setDigit position replacement => exact keeps_setDigit fair allows
  | .cast kind => exact keeps_operation fair (by simp [Value.operators]) allows
  | .increment register => exact keeps_stepRegister fair 1 allows
  | .decrement register => exact keeps_stepRegister fair (-1) allows
  | .test kind left right positive negative =>
      have own := allows.left
      have branches := allows.right
      have leftReads : terms.Reads left :=
        fun source member => own.reads source (List.mem_append_left _ member)
      have rightReads : terms.Reads right :=
        fun source member => own.reads source (List.mem_append_right _ member)
      simp only [Instruction.execute]
      apply (Action.keeps_order fair leftReads rightReads).bind
      intro ordering _
      split
      · exact Block.execute_keeps fair positive branches.left
      · exact Block.execute_keeps fair negative branches.right
      · exact Action.keeps_pure trivial

theorem Block.execute_keeps (fair : terms.Fair) (block : Block)
    (allows : terms.Allows (block.footprint accumulator)) :
    (block.execute accumulator).Keeps terms fun _ => True := by
  match block with
  | .nil => exact Action.keeps_pure trivial
  | .cons head tail =>
      simp only [Block.execute]
      apply (Action.keeps_running fair.running).bind
      intro running _
      split
      · apply (Instruction.execute_keeps fair head allows.left).bind
        intro _ _
        exact Block.execute_keeps fair tail allows.right
      · exact Action.keeps_pure trivial

end

end Execution

end NodeAssembly
