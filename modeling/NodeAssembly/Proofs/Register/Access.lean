import NodeAssembly.Register.Access

/-! What an access to a register can do to the registers of its node. It never
makes a reference out of values that are none, never connects a register to
something outside the node, and fails only for want of space or on a stream. -/

namespace NodeAssembly

deriving instance DecidableEq for Register

/-- Nothing in the register is a reference. The cursor of a memory belongs to
the memory and is no value. -/
def Register.Flat : Register → Prop
  | .plain value => value.isFlat
  | .sized _ cells => ∀ value ∈ cells, value.isFlat
  | .growing _ cells => ∀ value ∈ cells, value.isFlat
  | _ => True

/-- What a register can be connected to outside its node. -/
inductive Wire where
  | pin (kind : PinKind) (channel : Nat)
  | console
deriving DecidableEq

def InputSource.isConsole : InputSource → Bool
  | .console _ => true
  | .bytes _ => false

/-- The wire of a register. Output is only ever added to, so the registers for
it are not counted. -/
def Register.wire? : Register → Option Wire
  | .pin kind channel => some (.pin kind channel)
  | .input stream => if stream.source.isConsole then some .console else none
  | _ => none

namespace RegisterFile

def Flat (file : RegisterFile) : Prop :=
  ∀ register, (file.state register).Flat

/-- The wire of the register that is referred to. -/
def wire? (file : RegisterFile) (register : RegisterRef) : Option Wire :=
  (file.state register).wire?

/-- A file stays flat, and no register of it gets a new wire. -/
structure Settles (before after : RegisterFile) : Prop where
  flat : before.Flat → after.Flat
  wires : ∀ register wire, after.wire? register = some wire → before.wire? register = some wire

variable {file : RegisterFile}

theorem Flat.of_state (flat : file.Flat) {register : RegisterRef} {found : Register}
    (state : file.state register = found) : found.Flat := by
  rw [← state]
  exact flat register

theorem Settles.refl (file : RegisterFile) : file.Settles file :=
  ⟨id, fun _ _ => id⟩

theorem Settles.trans {before between after : RegisterFile} (first : before.Settles between)
    (second : between.Settles after) : before.Settles after :=
  ⟨second.flat ∘ first.flat,
    fun register wire found => first.wires register wire (second.wires register wire found)⟩

theorem state_of_cell {first second : RegisterRef} (same : first.cell = second.cell) :
    file.state first = file.state second := by
  rw [state, state, same]

theorem state_update (register other : RegisterRef) (state : Register) :
    (file.update register state).state other = file.state other ∨
      (file.update register state).state other = state ∧ register.cell = other.cell := by
  by_cases same : register.cell = other.cell
  · by_cases inside : other.cell < file.size
    · right
      refine ⟨?_, same⟩
      simp [RegisterFile.state, update, same, inside]
    · left
      simp [RegisterFile.state, update, same, inside]
  · left
    simp [RegisterFile.state, update, Array.getElem?_setIfInBounds_ne same]

theorem state_update_eq (file : RegisterFile) (register other : RegisterRef) (state : Register) :
    (file.update register state).state other =
      if register.cell = other.cell ∧ other.cell < file.size then state
      else file.state other := by
  rw [RegisterFile.state, update, Array.getElem?_setIfInBounds]
  by_cases same : register.cell = other.cell
  · by_cases inside : other.cell < file.size
    · simp [same, inside]
    · simp [RegisterFile.state, same, inside]
  · simp [RegisterFile.state, same]

/-- A cell that was never made stays as it is. -/
theorem state_outside {register : RegisterRef} (outside : ¬register.cell < file.size) :
    file.state register = .null := by
  rw [RegisterFile.state, Array.getElem?_eq_none (Nat.le_of_not_lt outside)]
  rfl

/-- A register that was made takes on a new state. -/
theorem state_update_self {register : RegisterRef} (made : file.state register ≠ .null)
    (state : Register) : (file.update register state).state register = state := by
  have inside : register.cell < file.size :=
    Decidable.byContradiction fun outside => made (state_outside outside)
  rw [state_update_eq, if_pos ⟨rfl, inside⟩]

theorem state_update_other {register other : RegisterRef} (apart : register.cell ≠ other.cell)
    (state : Register) : (file.update register state).state other = file.state other := by
  rw [state_update_eq, if_neg (apart ·.1)]

theorem settles_update {register : RegisterRef} {state : Register}
    (flat : file.Flat → state.Flat)
    (wire : ∀ found, state.wire? = some found → file.wire? register = some found) :
    file.Settles (file.update register state) := by
  constructor
  · intro fileFlat other
    rcases state_update register other state with kept | ⟨changed, _⟩
    · rw [kept]
      exact fileFlat other
    · rw [changed]
      exact flat fileFlat
  · intro other found
    unfold wire?
    rcases state_update register other state with kept | ⟨changed, same⟩
    · rw [kept]
      exact id
    · rw [changed, state_of_cell same.symm]
      exact wire found

theorem settles_unwired {register : RegisterRef} {state : Register}
    (flat : file.Flat → state.Flat) (unwired : state.wire? = none) :
    file.Settles (file.update register state) := by
  apply settles_update flat
  intro found wired
  rw [unwired] at wired
  cases wired

theorem settles_offset (register : RegisterRef) (offset : Int32) :
    file.Settles (file.update register (.offset offset)) :=
  settles_unwired (fun _ => trivial) rfl

end RegisterFile

/-! ## Memories -/

namespace Memory

variable {cells : Cells} {offset : Int32} {value : Value}

private theorem isFlat_getD (flat : ∀ value ∈ cells, value.isFlat) (place : Nat) :
    ((cells[place]?).getD .null).isFlat := by
  cases found : cells[place]? with
  | none => rfl
  | some value => exact flat value (Array.mem_of_getElem? found)

theorem isFlat_sized_read (flat : ∀ value ∈ cells, value.isFlat) :
    (Sized.read cells offset).1.isFlat := by
  unfold Sized.read
  simp only
  split
  next found => exact flat _ (Array.mem_of_getElem? found)
  next => exact isFlat_getD flat 0

theorem isFlat_sized_write (flat : ∀ value ∈ cells, value.isFlat) (valueFlat : value.isFlat) :
    ∀ other ∈ (Sized.write cells offset value).1, other.isFlat := by
  unfold Sized.write
  simp only
  split
  all_goals
    intro other member
    rcases Array.mem_or_eq_of_mem_setIfInBounds member with old | new
    · exact flat other old
    · rw [new]
      exact valueFlat

theorem isFlat_growing_read (flat : ∀ value ∈ cells, value.isFlat) :
    (Growing.read cells offset).1.isFlat := by
  unfold Growing.read
  split
  · split
    · rfl
    · exact isFlat_getD flat _
  · exact isFlat_getD flat _

theorem isFlat_growing_write (flat : ∀ value ∈ cells, value.isFlat) (valueFlat : value.isFlat)
    {after : Cells × Int32} (written : Growing.write cells offset value = .ok after) :
    ∀ other ∈ after.1, other.isFlat := by
  have shape : after.1 = (Growing.grow cells (Growing.place cells offset)).setIfInBounds
      (Growing.place cells offset) value := by
    unfold Growing.write checkCells at written
    simp only at written
    split at written
    · split at written
      · cases written
      · cases written
        rfl
    · cases written
      rfl
  rw [shape]
  intro other member
  rcases Array.mem_or_eq_of_mem_setIfInBounds member with old | new
  · rcases Array.mem_append.mp old with kept | added
    · exact flat other kept
    · rw [Array.eq_of_mem_replicate added]
      rfl
  · rw [new]
    exact valueFlat

end Memory

/-! ## Streams -/

namespace Tape

theorem isFlat_read (tape : Tape) : tape.read.1.isFlat := by
  unfold read
  split <;> rfl

/-- What comes of writing a text to a tape. -/
inductive Writes (tape : Tape) (console : Console) (text : String) :
    Except Fault Unit × Tape × Console → Prop
  | kept : Writes tape console text
      (.ok (), (tape.accept console text text.toUTF8).1.keep text,
        (tape.accept console text text.toUTF8).2)
  /-- The writer has accepted the first bytes of the text, or all of them. -/
  | refused (count : Nat) (message : String) : Writes tape console text
      (.error (.stream message), tape.accept console text (text.toUTF8.extract 0 count))

theorem write_writes (writers : Writers) (tape : Tape) (console : Console) (text : String) :
    tape.Writes console text (tape.write writers console text) := by
  unfold write
  simp only
  split
  next count message _ => exact .refused count message
  next message _ =>
    have all : Writes tape console text _ := .refused text.toUTF8.size message
    rwa [ByteArray.extract_zero_size] at all
  next => exact .kept

end Tape

namespace Input

variable (input : Input) (console : Console)

theorem isFlat_read : input.read.1.isFlat := by
  unfold read
  split <;> rfl

theorem isConsole_read : input.read.2.source.isConsole = input.source.isConsole := by
  unfold read
  split <;> rfl

theorem isConsole_accept (bytes : List UInt8) (count : Nat) (closed : Bool) :
    (input.accept console bytes count closed).1.source.isConsole = input.source.isConsole := by
  rcases input with ⟨source, waiting, wasClosed⟩
  cases source <;> rfl

theorem isConsole_prepare (request : Value) :
    (input.prepare console request).1.source.isConsole = input.source.isConsole := by
  unfold prepare readTo readCount
  split
  · rfl
  · split
    · split <;> exact isConsole_accept ..
    · exact isConsole_accept ..

end Input

/-! ## Accesses -/

/-- The faults of an access that is done at once: no space is left, or a stream
failed. -/
def Fault.isStorage : Fault → Bool
  | .outOfMemory _ _ => true
  | .stream _ => true
  | _ => false

namespace Site

variable {site after : Site} {register : RegisterRef} {value : Value} {channel : Nat}
  {call : Bus.Call}

theorem isFlat_draw (generator : Random.Generator) (entropy : UInt64) :
    (draw generator entropy).1.isFlat := by
  unfold draw
  simp only
  split <;> rfl

theorem read_done {answer : Except Fault Value} (accessed : site.read register = .done answer after) :
    (∃ value, answer = .ok value ∧ (site.file.Flat → value.isFlat)) ∧
      site.file.Settles after.file := by
  unfold read at accessed
  cases state : site.file.state register with
  | plain value =>
      rw [state] at accessed
      cases accessed
      exact ⟨⟨value, rfl, fun flat => flat.of_state state⟩, .refl _⟩
  | random generator =>
      rw [state] at accessed
      cases accessed
      exact ⟨⟨_, rfl, fun _ => isFlat_draw generator _⟩,
        RegisterFile.settles_unwired (fun _ => trivial) rfl⟩
  | pin kind channel =>
      rw [state] at accessed
      cases kind <;> cases accessed
      exact ⟨⟨_, rfl, fun _ => rfl⟩, .refl _⟩
  | sized cursor cells =>
      rw [state] at accessed
      cases accessed
      exact ⟨⟨_, rfl, fun flat => Memory.isFlat_sized_read (flat.of_state state)⟩,
        RegisterFile.settles_offset cursor _⟩
  | growing cursor cells =>
      rw [state] at accessed
      cases accessed
      exact ⟨⟨_, rfl, fun flat => Memory.isFlat_growing_read (flat.of_state state)⟩,
        RegisterFile.settles_offset cursor _⟩
  | tape tape =>
      rw [state] at accessed
      cases accessed
      exact ⟨⟨_, rfl, fun _ => tape.isFlat_read⟩,
        RegisterFile.settles_unwired (fun _ => trivial) rfl⟩
  | input input =>
      simp only [state, Access.done.injEq] at accessed
      rcases accessed with ⟨rfl, rfl⟩
      refine ⟨⟨_, rfl, fun _ => input.isFlat_read⟩,
        RegisterFile.settles_update (fun _ => trivial) fun wire found => ?_⟩
      rw [RegisterFile.wire?, state, ← found, Register.wire?, Register.wire?]
      rw [input.isConsole_read]
  | _ =>
      rw [state] at accessed
      cases accessed
      exact ⟨⟨_, rfl, fun _ => rfl⟩, .refl _⟩

theorem read_call (accessed : site.read register = .call channel call) :
    call = .receive ∧ site.file.wire? register = some (.pin .xbus channel) := by
  unfold read at accessed
  split at accessed
  case h_6 state =>
    cases accessed
    rw [RegisterFile.wire?, state]
    exact ⟨rfl, rfl⟩
  all_goals cases accessed

theorem observe_done {answer : Except Fault Unit}
    (accessed : site.observe register = .done answer after) :
    answer = .ok () ∧ after = site := by
  unfold observe at accessed
  split at accessed
  · cases accessed
  · cases accessed
    exact ⟨rfl, rfl⟩

theorem observe_call (accessed : site.observe register = .call channel call) :
    call = .observe ∧ site.file.wire? register = some (.pin .xbus channel) := by
  unfold observe at accessed
  split at accessed
  next state =>
    cases accessed
    rw [RegisterFile.wire?, state]
    exact ⟨rfl, rfl⟩
  next => cases accessed

theorem write_call (accessed : site.write register value = .call channel call) :
    call = .deposit value ∧ site.file.wire? register = some (.pin .xbus channel) := by
  unfold write at accessed
  cases state : site.file.state register with
  | pin kind channel =>
      rw [state] at accessed
      cases kind <;> cases accessed
      rw [RegisterFile.wire?, state]
      exact ⟨rfl, rfl⟩
  | random generator =>
      rw [state] at accessed
      simp only at accessed
      split at accessed <;> cases accessed
  | growing cursor cells =>
      rw [state] at accessed
      simp only at accessed
      split at accessed <;> cases accessed
  | _ =>
      rw [state] at accessed
      cases accessed

theorem isStorage_of_seed {generator : Random.Generator} {entropy : UInt64} {fault : Fault}
    (failed : seed generator entropy value = .error fault) : fault.isStorage := by
  unfold seed at failed
  split at failed
  case h_3 =>
    simp only at failed
    split at failed
    · cases failed
      rfl
    · cases failed
  all_goals cases failed

theorem isStorage_of_growing_write {cells : Memory.Cells} {offset : Int32} {fault : Fault}
    (failed : Memory.Growing.write cells offset value = .error fault) : fault.isStorage := by
  unfold Memory.Growing.write Memory.checkCells at failed
  simp only at failed
  split at failed
  · split at failed
    · cases failed
      rfl
    · cases failed
  · cases failed

theorem isStorage_of_tape_write {writers : Writers} {tape : Tape} {console : Console}
    {text : String} {fault : Fault}
    (failed : (tape.write writers console text).1 = .error fault) : fault.isStorage := by
  have writes := tape.write_writes writers console text
  generalize tape.write writers console text = outcome at writes failed
  cases writes with
  | kept => cases failed
  | refused count message =>
      cases failed
      rfl

/-- A write that fails for want of space leaves the file as it is. -/
theorem settles_failed {fault : Fault} (storage : fault.isStorage) (file : RegisterFile) :
    (∀ other, (.error fault : Except Fault Unit) = .error other → other.isStorage) ∧
      (value.isFlat → file.Settles file) := by
  refine ⟨fun other equal => ?_, fun _ => .refl file⟩
  cases equal
  exact storage

theorem write_done {answer : Except Fault Unit}
    (accessed : site.write register value = .done answer after) :
    (∀ fault, answer = .error fault → fault.isStorage) ∧
      (value.isFlat → site.file.Settles after.file) := by
  unfold write at accessed
  cases state : site.file.state register with
  | plain old =>
      rw [state] at accessed
      cases accessed
      exact ⟨nofun, fun flat => RegisterFile.settles_unwired (fun _ => flat) rfl⟩
  | random generator =>
      rw [state] at accessed
      simp only at accessed
      split at accessed
      · cases accessed
        exact ⟨nofun, fun _ => RegisterFile.settles_unwired (fun _ => trivial) rfl⟩
      next failed =>
        cases accessed
        exact settles_failed (isStorage_of_seed failed) _
  | clock clock =>
      rw [state] at accessed
      cases accessed
      exact ⟨nofun, fun _ => RegisterFile.settles_unwired (fun _ => trivial) rfl⟩
  | pin kind channel =>
      rw [state] at accessed
      cases kind <;> cases accessed
      exact ⟨nofun, fun _ => .refl _⟩
  | offset offset =>
      rw [state] at accessed
      cases accessed
      exact ⟨nofun, fun _ => RegisterFile.settles_offset register _⟩
  | sized cursor cells =>
      rw [state] at accessed
      cases accessed
      refine ⟨nofun, fun flat => ?_⟩
      refine .trans (RegisterFile.settles_unwired (fun fileFlat => ?_) rfl)
        (RegisterFile.settles_offset cursor _)
      exact Memory.isFlat_sized_write (fileFlat.of_state state) flat
  | growing cursor cells =>
      rw [state] at accessed
      simp only at accessed
      split at accessed
      next written =>
        cases accessed
        refine ⟨nofun, fun flat => ?_⟩
        refine .trans (RegisterFile.settles_unwired (fun fileFlat => ?_) rfl)
          (RegisterFile.settles_offset cursor _)
        exact Memory.isFlat_growing_write (fileFlat.of_state state) flat written
      next failed =>
        cases accessed
        exact settles_failed (isStorage_of_growing_write failed) _
  | tape tape =>
      rw [state] at accessed
      cases accessed
      exact ⟨fun fault => isStorage_of_tape_write,
        fun _ => RegisterFile.settles_unwired (fun _ => trivial) rfl⟩
  | input input =>
      simp only [state, Access.done.injEq] at accessed
      rcases accessed with ⟨rfl, rfl⟩
      refine ⟨nofun, fun _ => RegisterFile.settles_update (fun _ => trivial) fun wire found => ?_⟩
      rw [RegisterFile.wire?, state, ← found, Register.wire?, Register.wire?]
      rw [input.isConsole_prepare]
  | null =>
      rw [state] at accessed
      cases accessed
      exact ⟨nofun, fun _ => .refl _⟩

end Site

end NodeAssembly
