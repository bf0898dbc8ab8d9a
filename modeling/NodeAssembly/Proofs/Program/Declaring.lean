import NodeAssembly.Proofs.Program.Interchange
import NodeAssembly.Proofs.Program.RoundTrip

/-! What declarations do to a program in the making. A dollar sign declares a
register wherever it stands, in front of an instruction or among its operands,
and a name that is known keeps its register. New registers only ever get names
that were free, so nothing that was declared before is replaced. -/

namespace NodeAssembly

open NodeAssembly.Assembly

/-- The name that a register has after it was written with a dollar sign. The
number of a pin loses its leading zeros. -/
def canonicalName (name : String) : String :=
  match pinOfName? name.toList with
  | some (kind, pin) => kind.registerName pin
  | none => name

theorem canonicalName_of_pin {name : String} {kind : PinKind} {pin : Nat}
    (isPin : pinOfName? name.toList = some (kind, pin)) :
    canonicalName name = kind.registerName pin := by
  rw [canonicalName, isPin]

theorem canonicalName_of_noPin {name : String} (noPin : pinOfName? name.toList = none) :
    canonicalName name = name := by
  rw [canonicalName, noPin]

namespace Declaration

/-- The pin that is declared. -/
def pin? : Declaration → Option (PinKind × Nat)
  | .pin kind number => some (kind, number)
  | .register name => pinOfName? name.toList
  | _ => none

/-- The name of the register that a dollar sign declares. -/
def registerName? : Declaration → Option String
  | .pin kind number => some (kind.registerName number)
  | .register name => some (canonicalName name)
  | _ => none

theorem registerName?_of_pin {declaration : Declaration} {kind : PinKind} {pin : Nat}
    (isPin : declaration.pin? = some (kind, pin)) :
    declaration.registerName? = some (kind.registerName pin) := by
  cases declaration with
  | pin otherKind number =>
      cases isPin
      rfl
  | register name => exact congrArg some (canonicalName_of_pin isPin)
  | memory => cases isPin
  | label => cases isPin

end Declaration

namespace Assembler

/-- Enters a memory with the cursor beside it. -/
def createMemory (assembler : Assembler) (plan : MemoryPlan) : Assembler :=
  let (cursor, between) := assembler.create plan.cursorName (.offset 0)
  (between.create plan.name (plan.register cursor)).2

/-- What becomes of an assembler by one declaration. -/
inductive Declared (before : Assembler) : Declaration → Assembler → Prop
  | known {declaration : Declaration} {name : String} {register : RegisterRef}
      (named : declaration.registerName? = some name)
      (found : before.table.find? name = some register) : Declared before declaration before
  | pin {declaration : Declaration} {kind : PinKind} {pin channel : Nat} {registry : PinRegistry}
      {channels : Channels} (isPin : declaration.pin? = some (kind, pin))
      (free : before.table.find? (kind.registerName pin) = none)
      (bound : before.registry.channel before.board.channels pin kind =
        (.ok channel, registry, channels)) :
      Declared before declaration ((before.connect kind pin registry channels).create
        (kind.registerName pin) (.pin kind channel)).2
  | plain {name : String} (noPin : pinOfName? name.toList = none)
      (free : before.table.find? name = none) :
      Declared before (.register name) (before.create name (.plain (.int 0))).2
  | memory {plan : MemoryPlan} (free : before.table.find? plan.name = none)
      (cursorFree : before.table.find? plan.cursorName = none) :
      Declared before (.memory plan.name plan.size) (before.createMemory plan)
  | label (name : String) (labels : List (LabelSite × Nat)) :
      Declared before (.label name) { before with labels := labels }

/-- The assemblers differ in nothing that declarations are about. -/
structure Aside (before after : Assembler) : Prop where
  table : after.table = before.table
  file : after.file = before.file
  registry : after.registry = before.registry
  channels : after.board.channels = before.board.channels

/-- The declarations were carried out one after the other. -/
inductive Declares : Assembler → List Declaration → Assembler → Prop
  | nil (assembler : Assembler) : Declares assembler [] assembler
  | cons {before between after : Assembler} {declaration : Declaration}
      {rest : List Declaration} (declared : before.Declared declaration between)
      (further : Declares between rest after) : Declares before (declaration :: rest) after
  | aside {before between after : Assembler} {declarations : List Declaration}
      (apart : before.Aside between) (further : Declares between declarations after) :
      Declares before declarations after

/-- Names keep their registers, and cells what they hold. -/
structure Retains (before after : Assembler) : Prop where
  table : before.table.Within after.table
  cells : ∀ (cell : Nat) (state : Register), before.file[cell]? = some state →
    after.file[cell]? = some state
  accumulator : after.table.accumulator = before.table.accumulator
  clock : after.table.clock = before.table.clock

variable {before between after : Assembler} {declaration : Declaration}
  {early late : List Declaration}

namespace Retains

theorem refl (assembler : Assembler) : assembler.Retains assembler :=
  ⟨.refl _, fun _ _ held => held, rfl, rfl⟩

theorem trans (first : before.Retains between) (second : between.Retains after) :
    before.Retains after where
  table := first.table.trans second.table
  cells := fun cell state held => second.cells cell state (first.cells cell state held)
  accumulator := second.accumulator.trans first.accumulator
  clock := second.clock.trans first.clock

theorem of_aside (apart : before.Aside after) : before.Retains after := by
  constructor
  · rw [apart.table]
    exact .refl _
  · rw [apart.file]
    exact fun _ _ held => held
  · rw [apart.table]
  · rw [apart.table]

theorem create {name : String} (state : Register) (free : before.table.find? name = none) :
    before.Retains (before.create name state).2 where
  table := by
    intro other register found
    have different : name ≠ other := by
      rintro rfl
      rw [free] at found
      cases found
    rw [find?_create free, if_neg different]
    exact found
  cells := by
    intro cell held there
    rcases Array.getElem?_eq_some_iff.mp there with ⟨inside, same⟩
    change (before.file.push state)[cell]? = some held
    rw [Array.getElem?_push_lt inside, same]
  accumulator := by
    change (before.table.insert _).accumulator = _
    rw [RegisterTable.insert]
    split <;> rfl
  clock := by
    change (before.table.insert _).clock = _
    rw [RegisterTable.insert]
    split <;> rfl

end Retains

theorem find?_create_self {name : String} {state : Register}
    (free : before.table.find? name = none) :
    (before.create name state).2.table.find? name = some (before.create name state).1 := by
  rw [find?_create free, if_pos rfl]

theorem name_ne_cursorName (plan : MemoryPlan) : plan.cursorName ≠ plan.name := by
  intro same
  have lengths := congrArg (·.toList.length) same
  simp [MemoryPlan.cursorName] at lengths

/-- The name of a memory is still free when its cursor is there. -/
theorem find?_name_of_cursor {plan : MemoryPlan} {state : Register}
    (free : before.table.find? plan.name = none)
    (cursorFree : before.table.find? plan.cursorName = none) :
    (before.create plan.cursorName state).2.table.find? plan.name = none := by
  rw [find?_create cursorFree, if_neg (name_ne_cursorName plan)]
  exact free

theorem Declared.retains (declared : before.Declared declaration after) :
    before.Retains after := by
  cases declared with
  | known => exact .refl before
  | @pin _ kind pin _ registry channels isPin free bound =>
      have connected : before.Retains (before.connect kind pin registry channels) :=
        ⟨.refl _, fun _ _ held => held, rfl, rfl⟩
      exact connected.trans (.create _ free)
  | plain noPin free => exact .create _ free
  | memory free cursorFree =>
      exact (Retains.create _ cursorFree).trans
        (.create _ (find?_name_of_cursor free cursorFree))
  | label => exact ⟨.refl _, fun _ _ held => held, rfl, rfl⟩

/-- What is declared with a dollar sign is in the table afterwards. -/
theorem Declared.find? (declared : before.Declared declaration after) {name : String}
    (named : declaration.registerName? = some name) :
    ∃ register, after.table.find? name = some register := by
  cases declared with
  | known isNamed found =>
      cases isNamed.symm.trans named
      exact ⟨_, found⟩
  | pin isPin free bound =>
      rw [Declaration.registerName?_of_pin isPin] at named
      cases named
      exact ⟨_, find?_create_self free⟩
  | plain noPin free =>
      rw [Declaration.registerName?, canonicalName_of_noPin noPin] at named
      cases named
      exact ⟨_, find?_create_self free⟩
  | memory => cases named
  | label => cases named

namespace Declares

theorem append (first : before.Declares early between) (second : between.Declares late after) :
    before.Declares (early ++ late) after := by
  induction first with
  | nil => exact second
  | cons declared _ induction => exact .cons declared (induction second)
  | aside apart _ induction => exact .aside apart (induction second)

theorem single (declared : before.Declared declaration after) :
    before.Declares [declaration] after :=
  .cons declared (.nil after)

theorem of_aside (apart : before.Aside after) : before.Declares [] after :=
  .aside apart (.nil after)

/-- What every declaration keeps, all of them together keep. -/
theorem induct (holds : Assembler → Prop) {declarations : List Declaration}
    (declares : before.Declares declarations after)
    (step : ∀ {before after : Assembler} {declaration : Declaration},
      declaration ∈ declarations → before.Declared declaration after → holds before → holds after)
    (skip : ∀ {before after : Assembler}, before.Aside after → holds before → holds after)
    (start : holds before) : holds after := by
  induction declares with
  | nil => exact start
  | cons declared _ induction =>
      apply induction (fun member => step (List.mem_cons_of_mem _ member))
      exact step List.mem_cons_self declared start
  | aside apart _ induction => exact induction step (skip apart start)

theorem retains {declarations : List Declaration} (declares : before.Declares declarations after) :
    before.Retains after :=
  declares.induct (fun assembler => before.Retains assembler)
    (fun _ declared retains => retains.trans declared.retains)
    (fun apart retains => retains.trans (.of_aside apart)) (.refl before)

/-- Every declaration was carried out at some moment. -/
theorem declared_of_mem {declarations : List Declaration}
    (declares : before.Declares declarations after) (member : declaration ∈ declarations) :
    ∃ moment next : Assembler, moment.Declared declaration next ∧ next.Retains after := by
  induction declares with
  | nil => cases member
  | cons declared further induction =>
      rcases List.mem_cons.mp member with rfl | later
      · exact ⟨_, _, declared, further.retains⟩
      · exact induction later
  | aside _ _ induction => exact induction member

theorem find?_of_mem {declarations : List Declaration}
    (declares : before.Declares declarations after) (member : declaration ∈ declarations)
    {name : String} (named : declaration.registerName? = some name) :
    ∃ register, after.table.find? name = some register := by
  rcases declares.declared_of_mem member with ⟨moment, next, declared, retains⟩
  rcases declared.find? named with ⟨register, found⟩
  exact ⟨register, retains.table _ _ found⟩

end Declares

end Assembler

end NodeAssembly
