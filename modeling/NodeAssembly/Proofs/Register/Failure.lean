import NodeAssembly.Instruction.Script
import NodeAssembly.Proofs.Bus.Retraction
import NodeAssembly.Proofs.Register.Kinds

/-! What a write leaves that fails with nobody else there: everything as it was,
except that the writer of a tape may have accepted the first bytes of the text. The
texts on the tape are the same all the same, so whoever uses the tape afterwards
cannot tell the difference, as long as the writer does not make one. -/

namespace NodeAssembly

/-- A sender that finds no receiver takes its value back. -/
theorem Bus.Slot.alone_deposit_failed {slot after : Slot} {value : Value}
    (failed : slot.alone (.deposit value) = (after, none)) : after = slot := by
  unfold alone at failed
  cases held : slot.value with
  | some other =>
      simp only [step, held] at failed
      cases failed
      rfl
  | none =>
      simp only [step, held] at failed
      split at failed
      · cases failed
      · cases failed
        exact giveUp_filled held value _

namespace Board

variable {board after : Board} {channel : Nat} {value : Value} {fault : Fault}

theorem withSlot_self {pin : Nat} {slot : Bus.Slot}
    (found : board.bus? channel = some (pin, slot)) : board.withSlot channel pin slot = board := by
  unfold bus? at found
  split at found
  next isBus =>
    cases found
    rcases Array.getElem?_eq_some_iff.mp isBus with ⟨inside, same⟩
    rw [withSlot, Array.setIfInBounds_def, dif_pos inside, ← same, Array.set_getElem_self]
  next => cases found

theorem callAlone_deposit_failed
    (failed : board.callAlone channel (.deposit value) = (.error fault, after)) :
    after = board := by
  unfold callAlone at failed
  split at failed
  next => cases failed
  next pin slot found =>
    split at failed
    next => cases failed
    next left gaveUp =>
      cases failed
      rw [Bus.Slot.alone_deposit_failed gaveUp]
      exact withSlot_self found

end Board

namespace Site

/-- The site with another tape in a register, and with another console. -/
def withTape (site : Site) (register : RegisterRef) (written : Tape × Console) : Site :=
  (site.update register (.tape written.1)).withConsole written.2

/-- What is left of a text that could not be written to a register. -/
inductive Unwritten (site : Site) (register : RegisterRef) (text : String) : Site → Prop
  | untouched : Unwritten site register text site
  /-- The writer of the tape has accepted so many bytes. -/
  | accepted {tape : Tape} (state : site.file.state register = .tape tape) (count : Nat) :
      Unwritten site register text (site.withTape register
        (tape.accept site.board.console text (text.toUTF8.extract 0 count)))

variable {site after : Site} {register : RegisterRef} {value : Value} {fault : Fault}

theorem write_failed (failed : site.write register value = .done (.error fault) after) :
    site.Unwritten register value.text after := by
  unfold write at failed
  cases state : site.file.state register with
  | random _ | growing _ _ =>
      rw [state] at failed
      simp only at failed
      split at failed <;> cases failed
      exact .untouched
  | tape tape =>
      rw [state] at failed
      simp only at failed
      have writes := tape.write_writes site.board.outside.writers site.board.console value.text
      generalize tape.write site.board.outside.writers site.board.console value.text = outcome
        at writes failed
      cases writes with
      | kept => cases failed
      | refused count message =>
          cases failed
          exact .accepted state count
  | pin kind channel =>
      rw [state] at failed
      cases kind <;> cases failed
  | _ =>
      rw [state] at failed
      cases failed

theorem writeAlone_failed (failed : site.writeAlone register value = (.error fault, after)) :
    site.Unwritten register value.text after := by
  unfold writeAlone Access.alone at failed
  split at failed
  next answer reached accessed =>
    cases failed
    exact write_failed accessed
  next channel call accessed =>
    cases (write_call accessed).1
    cases outcome : site.board.callAlone channel (.deposit value) with
    | mk answer board =>
        rw [outcome] at failed
        cases answer with
        | ok received => cases failed
        | error fault =>
            cases failed
            rw [Board.callAlone_deposit_failed outcome]
            exact .untouched

namespace Unwritten

variable {text : String}

/-- Nothing but tapes has changed. -/
theorem state_eq (unwritten : site.Unwritten register text after) {other : RegisterRef}
    (untaped : ∀ tape, site.file.state other ≠ .tape tape) :
    after.file.state other = site.file.state other := by
  cases unwritten with
  | untouched => rfl
  | accepted state count =>
      refine RegisterFile.state_update_other (fun same => ?_) _
      rw [RegisterFile.state_of_cell same] at state
      exact absurd state (untaped _)

end Unwritten

/-! ## Using a tape afterwards -/

/-- What can be done with a register. -/
inductive Use where
  | read
  | write (value : Value)
  | observe
deriving DecidableEq

def Use.isWrite : Use → Bool
  | .write _ => true
  | _ => false

/-- Makes use of a register. -/
def use (site : Site) (register : RegisterRef) : Use → Except Fault Value × Site
  | .read => site.readAlone register
  | .write value => (site.writeAlone register value).map (·.map fun _ => .null) id
  | .observe => (site.observeAlone register).map (·.map fun _ => .null) id

/-- What a register is used for and what it answers. -/
def uses (register : RegisterRef) : Site → List Use → List (Use × Except Fault Value)
  | _, [] => []
  | site, use :: rest =>
    (use, (site.use register use).1) :: (site.use register use).2.uses register rest

/-- The register is a tape with some texts. -/
def Holds (site : Site) (register : RegisterRef) (texts : List String) : Prop :=
  ∃ sink, site.file.state register = .tape ⟨sink, texts⟩

/-- The texts on a tape once it was used. -/
def Use.texts (texts : List String) (use : Use) (answer : Except Fault Value) : List String :=
  match use, answer with
  | .read, _ => texts.tail
  | .write value, .ok _ => value.text :: texts
  | _, _ => texts

variable {texts : List String}

theorem Holds.update {tape : Tape} (holds : site.Holds register texts) :
    (site.update register (.tape tape)).Holds register tape.texts := by
  rcases holds with ⟨sink, state⟩
  refine ⟨tape.sink, RegisterFile.state_update_self (fun isNull => ?_) _⟩
  rw [state] at isNull
  cases isNull

/-- What is on the tape after a use depends on the use and the answer alone. -/
theorem Holds.use (holds : site.Holds register texts) (use : Use) :
    (site.use register use).2.Holds register (use.texts texts (site.use register use).1) := by
  rcases holds with ⟨sink, state⟩
  have holds : site.Holds register texts := ⟨sink, state⟩
  cases use with
  | read =>
      simp only [Site.use, readAlone, read, state, Access.alone]
      cases texts with
      | nil => exact holds.update
      | cons text texts => exact holds.update
  | write value =>
      simp only [Site.use, writeAlone, write, state, Access.alone]
      have writes := Tape.write_writes site.board.outside.writers ⟨sink, texts⟩ site.board.console
        value.text
      generalize Tape.write site.board.outside.writers ⟨sink, texts⟩ site.board.console value.text =
        outcome at writes
      cases writes with
      | kept => exact holds.update
      | refused count message => exact holds.update
  | observe =>
      simp only [Site.use, observeAlone, observe, state, Access.alone]
      exact holds

theorem Holds.read_eq (holds : site.Holds register texts) :
    (site.use register .read).1 = .ok (.str (texts.headD "")) := by
  rcases holds with ⟨sink, state⟩
  simp only [Site.use, readAlone, read, state, Access.alone]
  cases texts <;> rfl

theorem Holds.observe_eq (holds : site.Holds register texts) :
    (site.use register .observe).1 = .ok .null := by
  rcases holds with ⟨sink, state⟩
  simp only [Site.use, observeAlone, observe, state, Access.alone]
  rfl

/-- Two tapes with the same texts answer alike as long as their writers do. -/
theorem Holds.uses_eq {other : Site} (holds : site.Holds register texts)
    (holdsToo : other.Holds register texts) (later : List Use)
    (writers : (site.uses register later).filter (·.1.isWrite) =
      (other.uses register later).filter (·.1.isWrite)) :
    site.uses register later = other.uses register later := by
  induction later generalizing site other texts with
  | nil => rfl
  | cons next later induction =>
      rw [uses, uses] at writers ⊢
      have same : (site.use register next).1 = (other.use register next).1 ∧
          ((site.use register next).2.uses register later).filter (·.1.isWrite) =
            ((other.use register next).2.uses register later).filter (·.1.isWrite) := by
        cases next with
        | read => exact ⟨holds.read_eq.trans holdsToo.read_eq.symm, writers⟩
        | observe => exact ⟨holds.observe_eq.trans holdsToo.observe_eq.symm, writers⟩
        | write value =>
            have both := List.cons.inj writers
            exact ⟨(Prod.mk.inj both.1).2, both.2⟩
      have holdsLater := holdsToo.use next
      rw [← same.1] at holdsLater
      rw [same.1, induction (holds.use next) holdsLater same.2]

/-- After a text could not be written a register answers as if nobody had tried,
unless a writer tells the difference. -/
theorem Unwritten.uses_eq {text : String} (unwritten : site.Unwritten register text after)
    (later : List Use)
    (writers : (after.uses register later).filter (·.1.isWrite) =
      (site.uses register later).filter (·.1.isWrite)) :
    after.uses register later = site.uses register later := by
  cases unwritten with
  | untouched => rfl
  | @accepted tape state count =>
      have holds : site.Holds register tape.texts := ⟨tape.sink, state⟩
      have kept : Holds (site.withTape register (tape.accept site.board.console text
          (text.toUTF8.extract 0 count))) register tape.texts := holds.update
      exact kept.uses_eq holds later writers

end Site

end NodeAssembly
