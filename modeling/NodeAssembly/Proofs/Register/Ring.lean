import NodeAssembly.Instruction.Script
import NodeAssembly.Proofs.Register.Access

/-! A memory of fixed size is a ring of cells. The ring is described without
the memory: by its size, by what its cells hold, and by a cursor that may stand
anywhere. Whatever is done with a memory and its cursor is then the same as
doing it with the ring. -/

namespace NodeAssembly

/-- A ring of cells. Past the last cell there is nothing. -/
structure Ring where
  size : Nat
  cell : Nat → Value
  cursor : Int

namespace Ring

/-- What can be done with a ring. Values are resolved. -/
inductive Usage where
  /-- A value is written to the cursor. -/
  | point (value : Value)
  /-- The cursor is read. -/
  | locate
  | put (value : Value)
  | get
  | resize (size : Nat)

/-- What comes of it, with a value if one was read. -/
abbrev Outcome :=
  Except Fault (Option Value)

def ofSize (size : Nat) (cursor : Int) : Ring :=
  ⟨size, fun _ => .null, cursor⟩

/-- The cell that the cursor means: where it comes to when it goes around. -/
def place (ring : Ring) : Nat :=
  if ring.size = 0 then 0 else (ring.cursor % ring.size).toNat

def use (ring : Ring) : Usage → Outcome × Ring
  | .point value => (.ok none, { ring with cursor := value.toInt.toInt })
  | .locate => (.ok (some (.int (Int32.ofInt ring.cursor))), ring)
  | .put value =>
    (.ok none,
      { ring with
        cell := fun index =>
          if index = ring.place ∧ index < ring.size then value else ring.cell index
        cursor := ring.place })
  | .get => (.ok (some (ring.cell ring.place)), { ring with cursor := ring.place })
  | .resize size =>
    if size > Memory.cellLimit then (.error (.outOfMemory size Memory.cellLimit), ring)
    else
      (.ok none,
        { ring with
          size := size
          cell := fun index => if index < min ring.size size then ring.cell index else .null })

/-- Several usages, one after the other. -/
def useAll {σ : Type} (use : σ → Usage → Outcome × σ) (start : σ) :
    List Usage → List Outcome × σ
  | [] => ([], start)
  | usage :: rest =>
    let (outcome, next) := use start usage
    let (outcomes, last) := useAll use next rest
    (outcome :: outcomes, last)

end Ring

namespace Site

/-- The same with a memory and its cursor, with no other node there. -/
def useRing (memory cursor : RegisterRef) (site : Site) : Ring.Usage → Ring.Outcome × Site
  | .point value =>
    let (result, site) := site.writeAlone cursor value
    (result.map fun _ => none, site)
  | .locate =>
    let (result, site) := site.readAlone cursor
    (result.map some, site)
  | .put value =>
    let (result, site) := site.writeAlone memory value
    (result.map fun _ => none, site)
  | .get =>
    let (result, site) := site.readAlone memory
    (result.map some, site)
  | .resize size =>
    let (result, site) := site.resize memory size
    (result.map fun _ => none, site)

end Site

/-! ## Cells -/

namespace Memory

variable {cells : Cells} {offset : Int32} {value : Value}

/-- What a cell holds; past the last cell there is nothing. -/
def cell (cells : Cells) (index : Nat) : Value :=
  (cells[index]?).getD .null

theorem wrap_eq {length : Nat} (fits : length ≤ cellLimit) (offset : Int32) :
    wrap offset length = if length = 0 then 0 else (offset.toInt % length).toNat := by
  have small : length < 2 ^ 31 := Nat.lt_of_le_of_lt fits (by decide)
  rw [wrap, Int32.toInt_ofNat_of_lt small]

theorem wrap_lt {length : Nat} (fits : length ≤ cellLimit) (nonempty : length ≠ 0)
    (offset : Int32) : wrap offset length < length := by
  have positive : (0 : Int) < length := by omega
  have least := Int.emod_nonneg offset.toInt (Int.ne_of_gt positive)
  have most := Int.emod_lt_of_pos offset.toInt positive
  rw [wrap_eq fits, if_neg nonempty]
  omega

theorem toInt_wrap {length : Nat} (fits : length ≤ cellLimit) (offset : Int32) :
    (Int32.ofNat (wrap offset length)).toInt = wrap offset length := by
  apply Int32.toInt_ofNat_of_lt
  by_cases nonempty : length = 0
  · rw [wrap, if_pos nonempty]
    decide
  · exact Nat.lt_trans (wrap_lt fits nonempty offset) (Nat.lt_of_le_of_lt fits (by decide))

theorem sized_read_eq (fits : cells.size ≤ cellLimit) :
    Sized.read cells offset =
      (cell cells (wrap offset cells.size), Int32.ofNat (wrap offset cells.size)) := by
  unfold Sized.read cell
  by_cases nonempty : cells.size = 0
  · rw [Array.size_eq_zero_iff.mp nonempty]
    rfl
  · have inside := wrap_lt fits nonempty offset
    simp only [Array.getElem?_eq_getElem inside, Option.getD_some]

/-- A write changes one cell, if there is one. -/
theorem cell_sized_write (fits : cells.size ≤ cellLimit) (index : Nat) :
    cell (Sized.write cells offset value).1 index =
      if index = wrap offset cells.size ∧ index < cells.size then value else cell cells index := by
  unfold Sized.write
  by_cases nonempty : cells.size = 0
  · rw [Array.size_eq_zero_iff.mp nonempty]
    simp [wrap, cell]
  · have inside := wrap_lt fits nonempty offset
    simp only [if_pos inside, cell, Array.getElem?_setIfInBounds]
    by_cases here : index = wrap offset cells.size
    · simp [here, inside]
    · simp [here, Ne.symm here]

theorem size_sized_write : (Sized.write cells offset value).1.size = cells.size := by
  unfold Sized.write
  simp only
  split <;> exact Array.size_setIfInBounds

theorem place_sized_write (fits : cells.size ≤ cellLimit) :
    (Sized.write cells offset value).2 = Int32.ofNat (wrap offset cells.size) := by
  unfold Sized.write
  by_cases nonempty : cells.size = 0
  · rw [Array.size_eq_zero_iff.mp nonempty]
    rfl
  · simp only [if_pos (wrap_lt fits nonempty offset)]

theorem size_resize (size : Nat) : (Sized.resize cells size).size = size := by
  unfold Sized.resize
  simp only [Array.size_append, Array.size_extract, Array.size_replicate]
  omega

theorem cell_resize (size index : Nat) :
    cell (Sized.resize cells size) index =
      if index < min cells.size size then cell cells index else .null := by
  have length : (cells.take size).size = min size cells.size := by simp
  unfold Sized.resize cell
  rw [Array.getElem?_append, length]
  by_cases kept : index < min size cells.size
  · rw [if_pos kept, if_pos (Nat.min_comm _ _ ▸ kept), Array.getElem?_extract]
    simp [kept]
  · rw [if_neg kept, if_neg (Nat.min_comm _ _ ▸ kept), Array.getElem?_replicate]
    split <;> rfl

end Memory

/-! ## Registers -/

theorem Script.runWith_bind {σ α β : Type}
    (answer : (request : Request) → σ → request.Answer × σ) (script : Script α)
    (next : α → Script β) (state : σ) :
    (script.bind next).runWith answer state =
      (next (script.runWith answer state).1).runWith answer (script.runWith answer state).2 := by
  induction script generalizing state with
  | done result => rfl
  | ask request resume ih => exact ih _ _

namespace Site

variable {site : Site} {memory cursor : RegisterRef} {ring : Ring}

/-- The memory and its cursor stand for the ring. -/
structure Shows (memory cursor : RegisterRef) (site : Site) (ring : Ring) : Prop where
  cells : ∃ cells : Memory.Cells, site.file.state memory = .sized cursor cells ∧
    cells.size = ring.size ∧ ∀ index, Memory.cell cells index = ring.cell index
  cursor : ∃ offset : Int32, site.file.state cursor = .offset offset ∧
    offset.toInt = ring.cursor
  fits : ring.size ≤ Memory.cellLimit

/-- Nothing but the memory and its cursor is different. -/
structure Spares (memory cursor : RegisterRef) (before after : Site) : Prop where
  others : ∀ other : RegisterRef, other.cell ≠ memory.cell → other.cell ≠ cursor.cell →
    after.file.state other = before.file.state other
  board : after.board = before.board

theorem Spares.refl (memory cursor : RegisterRef) (site : Site) :
    Spares memory cursor site site :=
  ⟨fun _ _ _ => rfl, rfl⟩

theorem Spares.trans {first second third : Site} (early : Spares memory cursor first second)
    (late : Spares memory cursor second third) : Spares memory cursor first third :=
  ⟨fun other fromMemory fromCursor =>
    (late.others other fromMemory fromCursor).trans (early.others other fromMemory fromCursor),
    late.board.trans early.board⟩

theorem spares_cursor (memory cursor : RegisterRef) (site : Site) (state : Register) :
    Spares memory cursor site (site.update cursor state) :=
  ⟨fun _ _ apart => RegisterFile.state_update_other (Ne.symm apart) state, rfl⟩

theorem spares_memory (memory cursor : RegisterRef) (site : Site) (state : Register) :
    Spares memory cursor site (site.update memory state) :=
  ⟨fun _ apart _ => RegisterFile.state_update_other (Ne.symm apart) state, rfl⟩

theorem Shows.place_eq (shows : Shows memory cursor site ring) {offset : Int32}
    (points : offset.toInt = ring.cursor) : Memory.wrap offset ring.size = ring.place := by
  rw [Memory.wrap_eq shows.fits, Ring.place, points]

/-- A memory is not its own cursor. -/
theorem Shows.apart (shows : Shows memory cursor site ring) : memory.cell ≠ cursor.cell := by
  intro same
  rcases shows.cells with ⟨cells, isMemory, _⟩
  rcases shows.cursor with ⟨offset, isCursor, _⟩
  rw [RegisterFile.state_of_cell same, isCursor] at isMemory
  cases isMemory

/-- The cursor may be moved to any place. -/
theorem Shows.move (shows : Shows memory cursor site ring) (offset : Int32) :
    Shows memory cursor (site.update cursor (.offset offset))
      { ring with cursor := offset.toInt } := by
  rcases shows.cells with ⟨cells, isMemory, size, holds⟩
  rcases shows.cursor with ⟨before, isCursor, _⟩
  refine ⟨⟨cells, ?_, size, holds⟩, ⟨offset, ?_, rfl⟩, shows.fits⟩
  · exact (RegisterFile.state_update_other (Ne.symm shows.apart) _).trans isMemory
  · exact RegisterFile.state_update_self (by rw [isCursor]; exact nofun) _

/-- Other cells may be put in place of those of the memory. -/
theorem Shows.replace (shows : Shows memory cursor site ring) (cells : Memory.Cells)
    (fits : cells.size ≤ Memory.cellLimit) :
    Shows memory cursor (site.update memory (.sized cursor cells))
      { ring with size := cells.size, cell := Memory.cell cells } := by
  rcases shows.cells with ⟨before, isMemory, _⟩
  rcases shows.cursor with ⟨offset, isCursor, points⟩
  refine ⟨⟨cells, ?_, rfl, fun _ => rfl⟩, ⟨offset, ?_, points⟩, fits⟩
  · exact RegisterFile.state_update_self (by rw [isMemory]; exact nofun) _
  · exact (RegisterFile.state_update_other shows.apart _).trans isCursor

/-- Memory and ring agree on what came of a usage, and go on agreeing. -/
structure Agrees (memory cursor : RegisterRef) (before : Site) (used : Ring.Outcome × Site)
    (expected : Ring.Outcome × Ring) : Prop where
  outcome : used.1 = expected.1
  shows : Shows memory cursor used.2 expected.2
  spares : Spares memory cursor before used.2

theorem Shows.agrees_point (shows : Shows memory cursor site ring) (value : Value) :
    Agrees memory cursor site (site.useRing memory cursor (.point value))
      (ring.use (.point value)) := by
  rcases shows.cursor with ⟨offset, isCursor, _⟩
  have written : site.writeAlone cursor value =
      (.ok (), site.update cursor (.offset value.toInt)) := by
    simp only [writeAlone, write, isCursor, Access.alone]
  simp only [useRing, written]
  exact ⟨rfl, shows.move value.toInt, spares_cursor ..⟩

theorem Shows.agrees_locate (shows : Shows memory cursor site ring) :
    Agrees memory cursor site (site.useRing memory cursor .locate) (ring.use .locate) := by
  rcases shows.cursor with ⟨offset, isCursor, points⟩
  have read : site.readAlone cursor = (.ok (.int offset), site) := by
    simp only [readAlone, Site.read, isCursor, Access.alone]
  simp only [useRing, read]
  refine ⟨?_, shows, .refl ..⟩
  simp only [Ring.use, ← points, Int32.ofInt_toInt, Except.map]

theorem Shows.agrees_get (shows : Shows memory cursor site ring) :
    Agrees memory cursor site (site.useRing memory cursor .get) (ring.use .get) := by
  rcases shows.cells with ⟨cells, isMemory, size, holds⟩
  rcases shows.cursor with ⟨offset, isCursor, points⟩
  have fits : cells.size ≤ Memory.cellLimit := size ▸ shows.fits
  have place : Memory.wrap offset cells.size = ring.place := by
    rw [size, shows.place_eq points]
  have read : site.readAlone memory =
      (.ok (ring.cell ring.place), site.update cursor (.offset (Int32.ofNat ring.place))) := by
    simp only [readAlone, Site.read, isMemory, RegisterFile.offset, isCursor,
      Memory.sized_read_eq fits, Access.alone, place, holds]
  have moved := shows.move (Int32.ofNat ring.place)
  rw [← place, Memory.toInt_wrap fits, place] at moved
  simp only [useRing, read]
  exact ⟨rfl, moved, spares_cursor ..⟩

theorem Shows.agrees_put (shows : Shows memory cursor site ring) (value : Value) :
    Agrees memory cursor site (site.useRing memory cursor (.put value))
      (ring.use (.put value)) := by
  rcases shows.cells with ⟨cells, isMemory, size, holds⟩
  rcases shows.cursor with ⟨offset, isCursor, points⟩
  have fits : cells.size ≤ Memory.cellLimit := size ▸ shows.fits
  have place : Memory.wrap offset cells.size = ring.place := by
    rw [size, shows.place_eq points]
  generalize written : (Memory.Sized.write cells offset value).1 = changed
  have changedSize : changed.size = ring.size := by
    rw [← written, Memory.size_sized_write, size]
  have changedCell : Memory.cell changed = fun index =>
      if index = ring.place ∧ index < ring.size then value else ring.cell index := by
    funext index
    rw [← written, Memory.cell_sized_write fits, place, size, holds]
  have stored : site.writeAlone memory value =
      (.ok (), (site.update memory (.sized cursor changed)).update cursor
        (.offset (Int32.ofNat ring.place))) := by
    simp only [writeAlone, Site.write, isMemory, RegisterFile.offset, isCursor, written,
      Memory.place_sized_write fits, Access.alone, place]
  have moved := (shows.replace changed (changedSize ▸ shows.fits)).move
    (Int32.ofNat ring.place)
  rw [← place, Memory.toInt_wrap fits, place, changedSize, changedCell] at moved
  simp only [useRing, stored]
  exact ⟨rfl, moved, (spares_memory ..).trans (spares_cursor ..)⟩

theorem Shows.agrees_resize (shows : Shows memory cursor site ring) (size : Nat) :
    Agrees memory cursor site (site.useRing memory cursor (.resize size))
      (ring.use (.resize size)) := by
  rcases shows.cells with ⟨cells, isMemory, sameSize, holds⟩
  by_cases large : size > Memory.cellLimit
  · have refused : site.resize memory size =
        (.error (.outOfMemory size Memory.cellLimit), site) := by
      simp only [resize, isMemory, Memory.checkCells, if_pos large]
    simp only [useRing, refused, Ring.use, if_pos large]
    exact ⟨rfl, shows, .refl ..⟩
  · have done : site.resize memory size =
        (.ok (), site.update memory (.sized cursor (Memory.Sized.resize cells size))) := by
      simp only [resize, isMemory, Memory.checkCells, if_neg large]
    have resizedCell : Memory.cell (Memory.Sized.resize cells size) = fun index =>
        if index < min ring.size size then ring.cell index else .null := by
      funext index
      rw [Memory.cell_resize, sameSize, holds]
    have replaced := shows.replace (Memory.Sized.resize cells size)
      (by rw [Memory.size_resize]; omega)
    rw [Memory.size_resize, resizedCell] at replaced
    simp only [useRing, done, Ring.use, if_neg large]
    exact ⟨rfl, replaced, spares_memory ..⟩

theorem Shows.agrees (shows : Shows memory cursor site ring) (usage : Ring.Usage) :
    Agrees memory cursor site (site.useRing memory cursor usage) (ring.use usage) := by
  cases usage with
  | point value => exact shows.agrees_point value
  | locate => exact shows.agrees_locate
  | put value => exact shows.agrees_put value
  | get => exact shows.agrees_get
  | resize size => exact shows.agrees_resize size

/-- A run of usages from a memory that shows a ring. -/
theorem Shows.useAll (usages : List Ring.Usage) {site : Site} {ring : Ring}
    (shows : Shows memory cursor site ring) :
    (Ring.useAll (useRing memory cursor) site usages).1 = (Ring.useAll Ring.use ring usages).1 ∧
      Shows memory cursor (Ring.useAll (useRing memory cursor) site usages).2
        (Ring.useAll Ring.use ring usages).2 ∧
      Spares memory cursor site (Ring.useAll (useRing memory cursor) site usages).2 := by
  induction usages generalizing site ring with
  | nil => exact ⟨rfl, shows, .refl ..⟩
  | cons usage rest ih =>
      have first := shows.agrees usage
      rcases ih first.shows with ⟨outcomes, shown, spared⟩
      refine ⟨?_, shown, first.spares.trans spared⟩
      simp only [Ring.useAll, first.outcome, outcomes]

theorem shows_ofSize {capacity : Nat} (fits : capacity ≤ Memory.cellLimit) {offset : Int32}
    (made : site.file.state memory = .sized cursor (Array.replicate capacity .null))
    (starts : site.file.state cursor = .offset offset) :
    Shows memory cursor site (.ofSize capacity offset.toInt) := by
  refine ⟨⟨_, made, Array.size_replicate, fun index => ?_⟩, ⟨offset, starts, rfl⟩, fits⟩
  rw [Memory.cell, Array.getElem?_replicate]
  split <;> rfl

/-- Goes on with a result unless it is a fault. -/
def proceed {α β : Type} (next : α → Site → Except Fault β × Site) :
    Except Fault α × Site → Except Fault β × Site
  | (.ok value, site) => next value site
  | (.error fault, site) => (.error fault, site)

theorem perform_bind {α β : Type} (action : Action α) (next : α → Action β) (site : Site) :
    site.perform (action >>= next) =
      proceed (fun value site => site.perform (next value)) (site.perform action) := by
  have split := Script.runWith_bind answerAlone action.run (ExceptT.bindCont next) site
  refine split.trans ?_
  unfold perform
  rcases action.run.runWith answerAlone site with ⟨result, after⟩
  cases result <;> rfl

/-- To put a value into a memory is to resolve it and to write what comes of
it. -/
theorem Shows.putAlone_eq (shows : Shows memory cursor site ring) (value : Value) :
    site.putAlone memory value =
      proceed (fun resolved site => site.writeAlone memory resolved)
        (site.perform (Action.resolve value)) := by
  rcases shows.cells with ⟨cells, isMemory, _⟩
  simp only [putAlone, isMemory, Action.put, perform_bind]
  rfl

/-- A memory of fixed size behaves like a ring. Whatever is done with it and
its cursor, what comes of it is what comes of doing the same with a ring of as
many cells, and nothing else is different afterwards. A place outside the cells
is never meant unless there are no cells. -/
theorem sized_memory_is_ring {site : Site} {memory cursor : RegisterRef} {capacity : Nat}
    (fits : capacity ≤ Memory.cellLimit) {offset : Int32}
    (made : site.file.state memory = .sized cursor (Array.replicate capacity .null))
    (starts : site.file.state cursor = .offset offset) (usages : List Ring.Usage) :
    ∃ outcomes after ring,
      Ring.useAll (useRing memory cursor) site usages = (outcomes, after) ∧
      Ring.useAll Ring.use (.ofSize capacity offset.toInt) usages = (outcomes, ring) ∧
      Shows memory cursor after ring ∧ Spares memory cursor site after ∧
      (∀ cells place, after.file.state memory = .sized cursor cells → cells.size ≠ 0 →
        Memory.wrap place cells.size < cells.size) ∧
      ∀ value, after.putAlone memory value =
        proceed (fun resolved site => site.writeAlone memory resolved)
          (after.perform (Action.resolve value)) := by
  rcases (shows_ofSize fits made starts).useAll usages with ⟨outcomes, shows, spares⟩
  refine ⟨_, _, _, Prod.ext outcomes rfl, rfl, shows, spares, ?_, shows.putAlone_eq⟩
  intro cells place isMemory nonempty
  rcases shows.cells with ⟨shown, isShown, size, _⟩
  have same : cells = shown := by
    rw [isShown] at isMemory
    cases isMemory
    rfl
  refine Memory.wrap_lt ?_ nonempty place
  rw [same, size]
  exact shows.fits

/-- Three cells: one is written from before the first, lost when the memory
shrinks, and empty when it grows again. -/
theorem sized_memory_is_ring_of_three :
    ∃ after, Ring.useAll (useRing ⟨"m", 0⟩ ⟨"m_i", 1⟩)
      ⟨#[.sized ⟨"m_i", 1⟩ (Array.replicate 3 .null), .offset (-1)], .ofInput [] 0⟩
      [.put (.int 5), .get, .locate, .resize 2, .resize 3, .point (.int 5), .get, .locate,
        .resize 1048577] =
      ([.ok none, .ok (some (.int 5)), .ok (some (.int 2)), .ok none, .ok none, .ok none,
        .ok (some .null), .ok (some (.int 2)), .error (.outOfMemory 1048577 1048576)], after) := by
  have fits : 3 ≤ Memory.cellLimit := by decide
  rcases @sized_memory_is_ring
    ⟨#[.sized ⟨"m_i", 1⟩ (Array.replicate 3 .null), .offset (-1)], .ofInput [] 0⟩
    ⟨"m", 0⟩ ⟨"m_i", 1⟩ 3 fits (-1) rfl rfl _ with ⟨outcomes, after, ring, used, expected, _⟩
  exact ⟨after, used.trans (congrArg (·, after) (congrArg Prod.fst expected).symm)⟩

end Site

end NodeAssembly
