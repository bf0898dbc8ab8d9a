import NodeAssembly.Proofs.Register.Access

/-! Registers keep their kinds. An access changes what registers hold, and never
what they are, as long as the cursor of every memory is an offset. A plain
register then holds what it held before or what was just written. -/

namespace NodeAssembly

/-- What a register is, as far as others depend on it. -/
inductive Register.Kind where
  | plain
  | offset
  | memory (cursor : RegisterRef)
  | other

def Register.kind : Register → Kind
  | .plain _ => .plain
  | .offset _ => .offset
  | .sized cursor _ => .memory cursor
  | .growing cursor _ => .memory cursor
  | _ => .other

theorem Register.plain_of_kind {register : Register} (kind : register.kind = .plain) :
    ∃ value, register = .plain value := by
  cases register with
  | plain value => exact ⟨value, rfl⟩
  | _ => cases kind

namespace RegisterFile

/-- Every memory has an offset for its cursor. -/
def Arranged (file : RegisterFile) : Prop :=
  ∀ memory cursor, (file.state memory).kind = .memory cursor → (file.state cursor).kind = .offset

/-- What an access can make of a file, given the value that it writes. -/
structure Accessed (written : Option Value) (before after : RegisterFile) : Prop where
  kinds : ∀ register, (after.state register).kind = (before.state register).kind
  plain : ∀ register value, after.state register = .plain value →
    before.state register = .plain value ∨ written = some value

variable {file before between after : RegisterFile} {written : Option Value}
  {register : RegisterRef} {state : Register}

theorem Accessed.refl (written : Option Value) (file : RegisterFile) :
    Accessed written file file :=
  ⟨fun _ => rfl, fun _ _ => .inl⟩

theorem Accessed.trans (first : Accessed written before between)
    (second : Accessed written between after) : Accessed written before after where
  kinds register := (second.kinds register).trans (first.kinds register)
  plain register value holds := by
    rcases second.plain register value holds with held | isWritten
    · exact first.plain register value held
    · exact .inr isWritten

theorem Accessed.arranged (accessed : Accessed written before after) (arranged : before.Arranged) :
    after.Arranged := by
  intro memory cursor isMemory
  rw [accessed.kinds] at isMemory ⊢
  exact arranged memory cursor isMemory

theorem accessed_update (kind : state.kind = (file.state register).kind)
    (plain : ∀ value, state = .plain value → written = some value) :
    Accessed written file (file.update register state) := by
  constructor
  · intro other
    rcases state_update register other state with kept | ⟨changed, same⟩
    · rw [kept]
    · rw [changed, kind, state_of_cell same]
  · intro other value holds
    rcases state_update register other state with kept | ⟨changed, _⟩
    · exact .inl (kept.symm.trans holds)
    · exact .inr (plain value (changed.symm.trans holds))

/-- An access to a memory moves its cursor. -/
theorem accessed_cursor {cursor : RegisterRef} (arranged : file.Arranged)
    (isMemory : (file.state register).kind = .memory cursor) (place : Int32) :
    Accessed written file (file.update cursor (.offset place)) :=
  accessed_update (arranged register cursor isMemory).symm nofun

theorem accessed_memory {cursor : RegisterRef} (arranged : file.Arranged)
    (isMemory : (file.state register).kind = .memory cursor) (same : state.kind = .memory cursor)
    (place : Int32) :
    Accessed written file ((file.update register state).update cursor (.offset place)) := by
  have stored : Accessed written file (file.update register state) :=
    accessed_update (same.trans isMemory.symm) fun value isPlain => by
      rw [isPlain] at same
      cases same
  have still : ((file.update register state).state register).kind = .memory cursor :=
    (stored.kinds register).trans isMemory
  exact stored.trans (accessed_cursor (stored.arranged arranged) still place)

/-- A new register. If it is a memory, its cursor is there already. -/
theorem Arranged.push (arranged : file.Arranged)
    (fits : ∀ cursor, state.kind = .memory cursor → (file.state cursor).kind = .offset) :
    Arranged (file.push state) := by
  have kept : ∀ {cursor : RegisterRef}, (file.state cursor).kind = .offset →
      (RegisterFile.state (file.push state) cursor).kind = .offset := by
    intro cursor isOffset
    -- A cell that is not there yet is no offset.
    have inside : cursor.cell < file.size :=
      Decidable.byContradiction fun outside => by
        rw [state_outside outside] at isOffset
        cases isOffset
    rw [RegisterFile.state, Array.getElem?_push_lt inside]
    rw [RegisterFile.state, Array.getElem?_eq_getElem inside] at isOffset
    exact isOffset
  intro memory cursor isMemory
  apply kept
  rw [RegisterFile.state, Array.getElem?_push] at isMemory
  split at isMemory
  · exact fits cursor isMemory
  · exact arranged memory cursor isMemory

end RegisterFile

namespace Site

open RegisterFile

variable {site after : Site} {register : RegisterRef} {value : Value}

theorem accessed_of_read (arranged : site.file.Arranged) {answer : Except Fault Value}
    (accessed : site.read register = .done answer after) :
    Accessed none site.file after.file := by
  unfold read at accessed
  cases state : site.file.state register with
  | pin kind channel =>
      rw [state] at accessed
      cases kind <;> cases accessed
      exact .refl none _
  | sized cursor cells =>
      rw [state] at accessed
      cases accessed
      exact accessed_cursor arranged (congrArg Register.kind state) _
  | growing cursor cells =>
      rw [state] at accessed
      cases accessed
      exact accessed_cursor arranged (congrArg Register.kind state) _
  | random generator =>
      rw [state] at accessed
      cases accessed
      exact accessed_update (congrArg Register.kind state).symm nofun
  | tape tape =>
      rw [state] at accessed
      cases accessed
      exact accessed_update (congrArg Register.kind state).symm nofun
  | input input =>
      simp only [state, Access.done.injEq] at accessed
      rcases accessed with ⟨_, rfl⟩
      exact accessed_update (congrArg Register.kind state).symm nofun
  | _ =>
      rw [state] at accessed
      cases accessed
      exact .refl none _

theorem accessed_of_write (arranged : site.file.Arranged) {answer : Except Fault Unit}
    (accessed : site.write register value = .done answer after) :
    Accessed (some value) site.file after.file := by
  unfold write at accessed
  cases state : site.file.state register with
  | null =>
      rw [state] at accessed
      cases accessed
      exact .refl _ _
  | plain old =>
      rw [state] at accessed
      cases accessed
      refine accessed_update (congrArg Register.kind state).symm fun other same => ?_
      cases same
      rfl
  | pin kind channel =>
      rw [state] at accessed
      cases kind <;> cases accessed
      exact .refl _ _
  | sized cursor cells =>
      rw [state] at accessed
      cases accessed
      exact accessed_memory arranged (congrArg Register.kind state) rfl _
  | growing cursor cells =>
      rw [state] at accessed
      simp only at accessed
      split at accessed
      · cases accessed
        exact accessed_memory arranged (congrArg Register.kind state) rfl _
      · cases accessed
        exact .refl _ _
  | random generator =>
      rw [state] at accessed
      simp only at accessed
      split at accessed
      · cases accessed
        exact accessed_update (congrArg Register.kind state).symm nofun
      · cases accessed
        exact .refl _ _
  | input input =>
      simp only [state, Access.done.injEq] at accessed
      rcases accessed with ⟨_, rfl⟩
      exact accessed_update (congrArg Register.kind state).symm nofun
  | _ =>
      rw [state] at accessed
      cases accessed
      exact accessed_update (congrArg Register.kind state).symm nofun

end Site

end NodeAssembly
