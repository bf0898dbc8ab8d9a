import Mathlib.Logic.Relation
import NodeAssembly.Proofs.Program.Outcome
import NodeAssembly.Proofs.Register.Access

/-! How an assembler grows while operands are looked up: pins are bound,
registers are made and jumps are noted. Nothing else happens while a statement
is assembled, whether it ends well or not. -/

namespace NodeAssembly

namespace Assembler

/-- The assembler after a pin was looked up in the registry. -/
def connect (assembler : Assembler) (kind : PinKind) (pin : Nat) (registry : PinRegistry)
    (channels : Channels) : Assembler :=
  { assembler with
    registry := registry
    board := { assembler.board with channels := channels }.record assembler.logger .debug
      "bind pin" [("pin", Text.natural pin), ("kind", kind.text)] }

/-- One change on the way to an instruction. -/
inductive Growth (before : Assembler) : Assembler → Prop
  | pin (kind : PinKind) (pin channel : Nat) (registry : PinRegistry) (channels : Channels)
      (bound : before.registry.channel before.board.channels pin kind =
        (.ok channel, registry, channels)) :
      Growth before ((before.connect kind pin registry channels).create (kind.registerName pin)
        (.pin kind channel)).2
  | register (name : String) (state : Register) (unpinned : state.pinKind? = none)
      (flat : state.Flat) : Growth before (before.create name state).2
  | jump (site : LabelSite) : Growth before { before with jumps := site :: before.jumps }

/-- Any number of such changes. -/
abbrev Grows : Assembler → Assembler → Prop :=
  Relation.ReflTransGen Growth

variable {before after : Assembler}

theorem Grows.jump_subset (grows : before.Grows after) : before.jumps ⊆ after.jumps := by
  induction grows with
  | refl => exact List.Subset.refl _
  | tail _ growth induction =>
      cases growth with
      | jump site => exact List.Subset.trans induction (List.subset_cons_self _ _)
      | _ => exact induction

theorem Grows.labels_eq (grows : before.Grows after) : after.labels = before.labels := by
  induction grows with
  | refl => rfl
  | tail _ growth induction => cases growth <;> exact induction

theorem Grows.entries_eq (grows : before.Grows after) : after.entries = before.entries := by
  induction grows with
  | refl => rfl
  | tail _ growth induction => cases growth <;> exact induction

end Assembler

namespace Assembly

variable {α β : Type}

/-- From an assembler as required, the step only makes the assembler grow, and
if it ends well, then as ensured. -/
def Leads (requires : Assembler → Prop) (step : Assembly α) (ensures : α → Assembler → Prop) :
    Prop :=
  ∀ before, requires before → before.Grows (outcome step before).2 ∧
    ∀ result after, outcome step before = (.ok result, after) → ensures result after

/-- A step that needs and promises nothing. -/
abbrev Extends (step : Assembly α) : Prop :=
  Leads (fun _ => True) step fun _ _ => True

variable {requires : Assembler → Prop} {ensures : β → Assembler → Prop}

theorem leads_pure {ensures : α → Assembler → Prop} {result : α}
    (holds : ∀ assembler, requires assembler → ensures result assembler) :
    Leads requires (pure result) ensures := by
  intro before required
  refine ⟨.refl, fun value after done => ?_⟩
  cases done
  exact holds before required

theorem leads_fail {ensures : α → Assembler → Prop} (line : Line) (kind : ErrorKind) :
    Leads requires (fail line kind) ensures := by
  intro before _
  refine ⟨.refl, fun value after done => ?_⟩
  cases done

theorem leads_get_bind {next : Assembler → Assembly β}
    (leads : ∀ assembler, requires assembler → Leads (· = assembler) (next assembler) ensures) :
    Leads requires (get >>= next) ensures := by
  intro before required
  rw [outcome_get_bind]
  exact leads before required before rfl

theorem Leads.bind {between : α → Assembler → Prop} {step : Assembly α} {next : α → Assembly β}
    (first : Leads requires step between)
    (second : ∀ result, Leads (between result) (next result) ensures) :
    Leads requires (step >>= next) ensures := by
  intro before required
  rcases first before required with ⟨grows, holds⟩
  rw [outcome_bind]
  rcases done : outcome step before with ⟨error | result, middle⟩
  · rw [done] at grows
    exact ⟨grows, nofun⟩
  · rw [done] at grows
    have held := holds result middle done
    rcases second result middle held with ⟨further, ends⟩
    exact ⟨grows.trans further, ends⟩

theorem Leads.weaken {stronger : Assembler → Prop} {step : Assembly β}
    {weaker : β → Assembler → Prop} (leads : Leads requires step ensures)
    (before : ∀ assembler, stronger assembler → requires assembler)
    (after : ∀ result assembler, ensures result assembler → weaker result assembler) :
    Leads stronger step weaker := by
  intro assembler required
  rcases leads assembler (before assembler required) with ⟨grows, holds⟩
  exact ⟨grows, fun result last done => after result last (holds result last done)⟩

/-- What growing keeps can be carried past a step. -/
theorem Leads.frame {step : Assembly β} (kept : Assembler → Prop)
    (stable : ∀ {before after : Assembler}, before.Grows after → kept before → kept after)
    (leads : Leads requires step ensures) :
    Leads (fun assembler => requires assembler ∧ kept assembler) step
      fun result assembler => ensures result assembler ∧ kept assembler := by
  intro before required
  rcases leads before required.1 with ⟨grows, holds⟩
  refine ⟨grows, fun result after done => ⟨holds result after done, ?_⟩⟩
  rw [done] at grows
  exact stable grows required.2

theorem Leads.within {step : Assembly β} (context : ErrorContext)
    (leads : Leads requires step ensures) : Leads requires (within context step) ensures := by
  intro before required
  rcases leads before required with ⟨grows, holds⟩
  exact ⟨grows, fun result after done => holds result after (outcome_within_ok.mp done)⟩

/-! ## Operands -/

theorem extends_create (name : String) {state : Register} (unpinned : state.pinKind? = none)
    (flat : state.Flat) : Extends (create name state) :=
  fun _ _ => ⟨.single (.register name state unpinned flat), fun _ _ _ => trivial⟩

theorem extends_declarePin (line : Line) (kind : PinKind) (pin : Nat) :
    Extends (declarePin line kind pin) := by
  apply leads_get_bind
  intro assembler _
  cases found : assembler.table.find? (kind.registerName pin) with
  | some register =>
      simp only [found]
      exact leads_pure fun _ _ => trivial
  | none =>
      rcases bound : assembler.registry.channel assembler.board.channels pin kind with
        ⟨conflict | channel, registry, channels⟩
      · simp only [found]
        exact leads_fail line _
      · simp only [found]
        rintro before rfl
        exact ⟨.single (.pin kind pin channel registry channels bound), fun _ _ _ => trivial⟩

theorem extends_declareRegister (line : Line) (name : String) :
    Extends (declareRegister line name) := by
  unfold declareRegister
  split
  · exact extends_declarePin line _ _
  · apply leads_get_bind
    intro assembler _
    split
    · exact leads_pure fun _ _ => trivial
    · have flat : (Register.plain (.int 0)).Flat := rfl
      exact (extends_create name rfl flat).weaken (fun _ _ => trivial) fun _ _ _ => trivial

theorem extends_checkFree (line : Line) (name : String) : Extends (checkFree line name) := by
  apply leads_get_bind
  intro assembler _
  split
  · exact leads_fail line _
  · exact leads_pure fun _ _ => trivial

theorem extends_declareMemory (line : Line) (name : String) (size : Option Nat) :
    Extends (declareMemory line name size) := by
  apply (extends_checkFree line name).bind
  intro _
  apply (extends_checkFree line _).bind
  intro _
  have cursorFlat : (Register.offset 0).Flat := trivial
  apply (extends_create _ rfl cursorFlat).bind
  intro cursor
  cases size with
  | some size =>
      have flat : (Register.sized cursor (Array.replicate size .null)).Flat := by
        intro value member
        rw [Array.eq_of_mem_replicate member]
        rfl
      exact (extends_create name rfl flat).bind fun _ => leads_pure fun _ _ => trivial
  | none =>
      have flat : (Register.growing cursor #[]).Flat := nofun
      exact (extends_create name rfl flat).bind fun _ => leads_pure fun _ _ => trivial

theorem extends_value (line : Line) (token : Token) : Extends (value line token) := by
  unfold value
  split
  · exact leads_pure fun _ _ => trivial
  · exact leads_pure fun _ _ => trivial
  · exact leads_pure fun _ _ => trivial
  · exact (extends_declareRegister line _).bind fun _ => leads_pure fun _ _ => trivial
  · apply leads_get_bind
    intro assembler _
    split
    · exact leads_pure fun _ _ => trivial
    · exact leads_fail line _
  · exact leads_fail line _

theorem extends_register (line : Line) (index : Nat) (token : Token) :
    Extends (register line index token) := by
  apply (extends_value line token).bind
  intro operand
  split
  · exact leads_pure fun _ _ => trivial
  · exact leads_fail line _

theorem extends_pinKind? (register : RegisterRef) : Extends (pinKind? register) := by
  apply leads_get_bind
  intro assembler _
  exact leads_pure fun _ _ => trivial

theorem extends_pin (line : Line) (index : Nat) (token : Token) :
    Extends (pin line index token) := by
  apply (extends_register line index token).bind
  intro register
  apply (extends_pinKind? register).bind
  intro kind
  split
  · exact leads_pure fun _ _ => trivial
  · exact leads_fail line _

theorem extends_bus (line : Line) (index : Nat) (token : Token) :
    Extends (bus line index token) := by
  apply (extends_register line index token).bind
  intro register
  apply (extends_pinKind? register).bind
  intro kind
  split
  · exact leads_pure fun _ _ => trivial
  · exact leads_fail line _

theorem extends_castType (line : Line) (name : String) : Extends (castType line name) := by
  unfold castType
  split
  · exact leads_pure fun _ _ => trivial
  · exact leads_fail line _

theorem extends_castOperand (line : Line) (token : Token) : Extends (castOperand line token) := by
  unfold castOperand
  split
  · apply leads_get_bind
    intro assembler _
    split
    · exact (extends_value line _).weaken (fun _ _ => trivial) fun _ _ _ => trivial
    · exact (extends_castType line _).weaken (fun _ _ => trivial) fun _ _ _ => trivial
  · exact extends_castType line _
  · exact extends_value line _

theorem leads_jumpLabel (line : Line) (token : Token) :
    Leads (fun _ => True) (jumpLabel line token)
      fun label assembler => ∃ site ∈ assembler.jumps, site.label = label := by
  unfold jumpLabel
  split
  next label =>
    intro before _
    refine ⟨.single (.jump ⟨label, line.number, line.raw⟩), fun result after done => ?_⟩
    cases done
    exact ⟨_, List.mem_cons_self, rfl⟩
  next => exact leads_fail line _

end Assembly

end NodeAssembly
