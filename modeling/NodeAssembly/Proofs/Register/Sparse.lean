import Mathlib.Algebra.Group.Int.Defs
import Mathlib.Algebra.GroupWithZero.Nat
import Mathlib.Control.Monad.Basic
import Mathlib.Logic.Function.Basic
import NodeAssembly.Proofs.Register.Ring

/-! A memory that grows is a sparse array of bounded length. The array is
described without the memory: it has a value at every index, nothing at most of
them, and a length up to which it counts as filled. Whatever is done with a
memory and its cursor is then the same as doing it with the array. -/

namespace NodeAssembly

structure SparseArray where
  length : Nat
  cell : Nat → Value
  cursor : Int

namespace SparseArray

/-- What can be done with an array. Values are resolved. -/
inductive Usage where
  /-- A value is written to the cursor. -/
  | point (value : Value)
  /-- The cursor is read. -/
  | locate
  | put (value : Value)
  | get

/-- What comes of it, with a value if one was read. -/
abbrev Outcome :=
  Except Fault (Option Value)

def empty (cursor : Int) : SparseArray :=
  ⟨0, fun _ => .null, cursor⟩

/-- The index that the cursor means. A negative cursor counts from the end of
what is filled. -/
def index (array : SparseArray) : Nat :=
  if 0 ≤ array.cursor then array.cursor.toNat
  else if array.length = 0 then 0
  else (array.cursor % array.length).toNat

def use : Usage → StateM SparseArray Outcome
  | .point value => fun array => (.ok none, { array with cursor := value.toInt.toInt })
  | .locate => fun array => (.ok (some (.int (Int32.ofInt array.cursor))), array)
  | .put value => fun array =>
    if 2 ^ 20 ≤ array.cursor then
      (.error (.outOfMemory (array.cursor + 1).toNat (2 ^ 20)), array)
    else
      (.ok none,
        { length := max array.length (array.index + 1)
          cell := Function.update array.cell array.index value
          cursor := array.index })
  | .get => fun array =>
    (.ok (some (array.cell array.index)),
      if array.cursor < 0 ∧ array.length ≠ 0 then { array with cursor := array.index } else array)

end SparseArray

namespace Site

/-- The same with a memory and its cursor, with no other node there. -/
def useSparse (memory cursor : RegisterRef) :
    SparseArray.Usage → StateM Site SparseArray.Outcome
  | .point value => fun site =>
    let (result, site) := site.writeAlone cursor value
    (result.map fun _ => none, site)
  | .locate => fun site =>
    let (result, site) := site.readAlone cursor
    (result.map some, site)
  | .put value => fun site =>
    let (result, site) := site.writeAlone memory value
    (result.map fun _ => none, site)
  | .get => fun site =>
    let (result, site) := site.readAlone memory
    (result.map some, site)

end Site

/-! ## Cells -/

namespace Memory

variable {cells : Cells} {offset : Int32}

theorem size_grow (cells : Cells) (place : Nat) :
    (Growing.grow cells place).size = max cells.size (place + 1) := by
  simp only [Growing.grow, Array.size_append, Array.size_replicate]
  omega

/-- The cells that are added hold nothing, as if they had always been there. -/
theorem cell_grow (cells : Cells) (place index : Nat) :
    cell (Growing.grow cells place) index = cell cells index := by
  unfold Growing.grow cell
  rw [Array.getElem?_append]
  split
  · rfl
  next outside =>
    rw [Array.getElem?_eq_none (Nat.le_of_not_lt outside), Array.getElem?_replicate]
    split <;> rfl

theorem cell_setIfInBounds {place : Nat} (inside : place < cells.size) (value : Value) :
    cell (cells.setIfInBounds place value) = Function.update (cell cells) place value := by
  funext index
  unfold cell
  rw [Array.getElem?_setIfInBounds]
  by_cases here : place = index
  · subst here
    rw [if_pos rfl, if_pos inside, Function.update_self]
    rfl
  · rw [if_neg here, Function.update_of_ne (Ne.symm here)]

/-- What a write leaves that is not refused. -/
theorem size_written (cells : Cells) (place : Nat) (value : Value) :
    ((Growing.grow cells place).setIfInBounds place value).size = max cells.size (place + 1) := by
  rw [Array.size_setIfInBounds, size_grow]

theorem cell_written (cells : Cells) (place : Nat) (value : Value) :
    cell ((Growing.grow cells place).setIfInBounds place value) =
      Function.update (cell cells) place value := by
  have inside : place < (Growing.grow cells place).size := by
    rw [size_grow]
    omega
  rw [cell_setIfInBounds inside]
  exact congrArg (Function.update · place value) (funext (cell_grow cells place))

theorem cell_outside {index : Nat} (outside : cells.size ≤ index) : cell cells index = .null := by
  rw [cell, Array.getElem?_eq_none outside]
  rfl

theorem growing_place_lt (fits : cells.size ≤ cellLimit) (small : offset.toInt < cellLimit) :
    Growing.place cells offset < cellLimit := by
  have positive : 0 < cellLimit := by decide
  unfold Growing.place
  split
  · by_cases empty : cells.size = 0
    · rw [wrap, if_pos empty]
      exact positive
    · exact Nat.lt_of_lt_of_le (wrap_lt fits empty offset) fits
  · omega

theorem toInt_growing_place (fits : cells.size ≤ cellLimit) (small : offset.toInt < cellLimit) :
    (Int32.ofNat (Growing.place cells offset)).toInt = Growing.place cells offset :=
  Int32.toInt_ofNat_of_lt (Nat.lt_trans (growing_place_lt fits small) (by decide))

/-- A read looks where a write would go, and leaves the cursor there only if it
has counted from the end. -/
theorem growing_read_eq (cells : Cells) (offset : Int32) :
    Growing.read cells offset =
      (cell cells (Growing.place cells offset),
        if offset < 0 ∧ cells.size ≠ 0 then Int32.ofNat (Growing.place cells offset)
        else offset) := by
  unfold Growing.read Growing.place
  by_cases negative : offset < 0
  · by_cases empty : cells.size = 0
    · rw [Array.size_eq_zero_iff.mp empty]
      simp [negative, cell]
    · have filled : cells.isEmpty = false := by
        rw [Array.isEmpty_eq_false_iff]
        exact fun none => empty (Array.size_eq_zero_iff.mpr none)
      simp [negative, filled, empty, cell]
  · simp [negative, cell]

/-- A place that is not negative and past the limit is past the end as well. -/
theorem growing_write_refused (fits : cells.size ≤ cellLimit) (large : cellLimit ≤ offset.toInt)
    (value : Value) :
    Growing.write cells offset value =
      .error (.outOfMemory (offset.toInt + 1).toNat cellLimit) := by
  have natural : ¬offset < 0 := by
    rw [Int32.lt_iff_toInt_lt, Int32.toInt_zero]
    omega
  have place : Growing.place cells offset = offset.toInt.toNat := if_neg natural
  have outside : cells.size ≤ offset.toInt.toNat := by omega
  have requested : (offset.toInt + 1).toNat = offset.toInt.toNat + 1 := by omega
  have refused : offset.toInt.toNat + 1 > cellLimit := by omega
  simp only [Growing.write, place, if_pos outside, checkCells, if_pos refused, requested]
  rfl

theorem growing_write_eq (fits : cells.size ≤ cellLimit) (small : offset.toInt < cellLimit)
    (value : Value) :
    Growing.write cells offset value =
      .ok ((Growing.grow cells (Growing.place cells offset)).setIfInBounds
        (Growing.place cells offset) value, Int32.ofNat (Growing.place cells offset)) := by
  have passed : checkCells (Growing.place cells offset + 1) = .ok () :=
    if_neg (Nat.not_lt.mpr (growing_place_lt fits small))
  unfold Growing.write
  simp only [passed]
  split <;> rfl

end Memory

/-! ## Registers -/

namespace Site

variable {site : Site} {memory cursor : RegisterRef} {array : SparseArray}

/-- The memory and its cursor stand for the array. -/
structure Depicts (memory cursor : RegisterRef) (site : Site) (array : SparseArray) : Prop where
  cells : ∃ cells : Memory.Cells, site.file.state memory = .growing cursor cells ∧
    cells.size = array.length ∧ Memory.cell cells = array.cell
  cursor : ∃ offset : Int32, site.file.state cursor = .offset offset ∧
    offset.toInt = array.cursor
  fits : array.length ≤ Memory.cellLimit

theorem depicts_empty {offset : Int32} (made : site.file.state memory = .growing cursor #[])
    (starts : site.file.state cursor = .offset offset) :
    Depicts memory cursor site (.empty offset.toInt) :=
  ⟨⟨#[], made, rfl, rfl⟩, ⟨offset, starts, rfl⟩, Nat.zero_le _⟩

/-- A memory is not its own cursor. -/
theorem Depicts.apart (depicts : Depicts memory cursor site array) :
    memory.cell ≠ cursor.cell := by
  intro same
  rcases depicts.cells with ⟨cells, isMemory, _⟩
  rcases depicts.cursor with ⟨offset, isCursor, _⟩
  rw [RegisterFile.state_of_cell same, isCursor] at isMemory
  cases isMemory

theorem Depicts.null_beyond (depicts : Depicts memory cursor site array) {index : Nat}
    (beyond : array.length ≤ index) : array.cell index = .null := by
  rcases depicts.cells with ⟨cells, _, size, holds⟩
  rw [← holds]
  exact Memory.cell_outside (size ▸ beyond)

/-- The cursor may be moved to any place. -/
theorem Depicts.move (depicts : Depicts memory cursor site array) (offset : Int32) :
    Depicts memory cursor (site.update cursor (.offset offset))
      { array with cursor := offset.toInt } := by
  rcases depicts.cells with ⟨cells, isMemory, size, holds⟩
  rcases depicts.cursor with ⟨before, isCursor, _⟩
  refine ⟨⟨cells, ?_, size, holds⟩, ⟨offset, ?_, rfl⟩, depicts.fits⟩
  · exact (RegisterFile.state_update_other (Ne.symm depicts.apart) _).trans isMemory
  · exact RegisterFile.state_update_self (by rw [isCursor]; exact nofun) _

/-- Other cells may be put in place of those of the memory. -/
theorem Depicts.replace (depicts : Depicts memory cursor site array) (cells : Memory.Cells)
    (fits : cells.size ≤ Memory.cellLimit) :
    Depicts memory cursor (site.update memory (.growing cursor cells))
      { array with length := cells.size, cell := Memory.cell cells } := by
  rcases depicts.cells with ⟨before, isMemory, _⟩
  rcases depicts.cursor with ⟨offset, isCursor, points⟩
  refine ⟨⟨cells, ?_, rfl, rfl⟩, ⟨offset, ?_, points⟩, fits⟩
  · exact RegisterFile.state_update_self (by rw [isMemory]; exact nofun) _
  · exact (RegisterFile.state_update_other depicts.apart _).trans isCursor

/-- Memory and array agree on the index that the cursor means. -/
theorem Depicts.index_eq (depicts : Depicts memory cursor site array) {cells : Memory.Cells}
    {offset : Int32} (size : cells.size = array.length) (points : offset.toInt = array.cursor) :
    Memory.Growing.place cells offset = array.index := by
  have sign : offset < 0 ↔ ¬0 ≤ array.cursor := by
    rw [Int32.lt_iff_toInt_lt, Int32.toInt_zero, points, Int.not_le]
  unfold Memory.Growing.place SparseArray.index
  by_cases natural : 0 ≤ array.cursor
  · rw [if_neg (by rw [sign]; exact not_not_intro natural), if_pos natural, points]
  · rw [if_pos (sign.mpr natural), if_neg natural, size, Memory.wrap_eq depicts.fits, points]

/-- Memory and array agree on what came of a usage, and go on agreeing. -/
structure Conforms (memory cursor : RegisterRef) (before : Site)
    (used : SparseArray.Outcome × Site) (expected : SparseArray.Outcome × SparseArray) :
    Prop where
  outcome : used.1 = expected.1
  depicts : Depicts memory cursor used.2 expected.2
  spares : Spares memory cursor before used.2

theorem Depicts.conforms_point (depicts : Depicts memory cursor site array) (value : Value) :
    Conforms memory cursor site (useSparse memory cursor (.point value) site)
      (SparseArray.use (.point value) array) := by
  rcases depicts.cursor with ⟨offset, isCursor, _⟩
  have written : site.writeAlone cursor value =
      (.ok (), site.update cursor (.offset value.toInt)) := by
    simp only [writeAlone, write, isCursor, Access.alone]
  simp only [useSparse, written]
  exact ⟨rfl, depicts.move value.toInt, spares_cursor ..⟩

theorem Depicts.conforms_locate (depicts : Depicts memory cursor site array) :
    Conforms memory cursor site (useSparse memory cursor .locate site)
      (SparseArray.use .locate array) := by
  rcases depicts.cursor with ⟨offset, isCursor, points⟩
  have read : site.readAlone cursor = (.ok (.int offset), site) := by
    simp only [readAlone, Site.read, isCursor, Access.alone]
  simp only [useSparse, read]
  refine ⟨?_, depicts, .refl ..⟩
  simp only [SparseArray.use, ← points, Int32.ofInt_toInt, Except.map]

theorem Depicts.conforms_get (depicts : Depicts memory cursor site array) :
    Conforms memory cursor site (useSparse memory cursor .get site)
      (SparseArray.use .get array) := by
  rcases depicts.cells with ⟨cells, isMemory, size, holds⟩
  rcases depicts.cursor with ⟨offset, isCursor, points⟩
  have index := depicts.index_eq size points
  have sign : offset < 0 ↔ array.cursor < 0 := by
    rw [Int32.lt_iff_toInt_lt, Int32.toInt_zero, points]
  let place := if array.cursor < 0 ∧ array.length ≠ 0 then Int32.ofNat array.index else offset
  have read : site.readAlone memory =
      (.ok (array.cell array.index), site.update cursor (.offset place)) := by
    simp only [readAlone, Site.read, isMemory, RegisterFile.offset, isCursor,
      Memory.growing_read_eq, Access.alone, index, holds, sign, size, place]
  have moved := depicts.move place
  simp only [useSparse, read]
  refine ⟨rfl, ?_, spares_cursor ..⟩
  simp only [SparseArray.use]
  by_cases back : array.cursor < 0 ∧ array.length ≠ 0
  · have fits : cells.size ≤ Memory.cellLimit := size ▸ depicts.fits
    have small : offset.toInt < Memory.cellLimit := by omega
    have landed := Memory.toInt_growing_place fits small
    simp only [place, if_pos back, ← index, landed] at moved ⊢
    exact moved
  · simp only [place, if_neg back, points] at moved ⊢
    exact moved

theorem Depicts.conforms_put (depicts : Depicts memory cursor site array) (value : Value) :
    Conforms memory cursor site (useSparse memory cursor (.put value) site)
      (SparseArray.use (.put value) array) := by
  rcases depicts.cells with ⟨cells, isMemory, size, holds⟩
  rcases depicts.cursor with ⟨offset, isCursor, points⟩
  have fits : cells.size ≤ Memory.cellLimit := size ▸ depicts.fits
  have limit : ((Memory.cellLimit : Nat) : Int) = 2 ^ 20 := by decide
  by_cases large : 2 ^ 20 ≤ array.cursor
  · have refused : site.writeAlone memory value =
        (.error (.outOfMemory (array.cursor + 1).toNat (2 ^ 20)), site) := by
      have past : Memory.cellLimit ≤ offset.toInt := by omega
      have write := Memory.growing_write_refused fits past value
      simp only [writeAlone, Site.write, isMemory, RegisterFile.offset, isCursor, write,
        Access.alone, points]
      rfl
    simp only [useSparse, refused, SparseArray.use, if_pos large]
    exact ⟨rfl, depicts, .refl ..⟩
  · have small : offset.toInt < Memory.cellLimit := by omega
    have index := depicts.index_eq size points
    have landed := Memory.toInt_growing_place fits small
    rw [index] at landed
    generalize written : (Memory.Growing.grow cells array.index).setIfInBounds array.index value =
      changed
    have changedSize : changed.size = max array.length (array.index + 1) := by
      rw [← written, Memory.size_written, size]
    have changedCell : Memory.cell changed = Function.update array.cell array.index value := by
      rw [← written, Memory.cell_written, holds]
    have changedFits : changed.size ≤ Memory.cellLimit := by
      have below := Memory.growing_place_lt fits small
      have filled := depicts.fits
      rw [index] at below
      omega
    have stored : site.writeAlone memory value =
        (.ok (), (site.update memory (.growing cursor changed)).update cursor
          (.offset (Int32.ofNat array.index))) := by
      have write := Memory.growing_write_eq fits small value
      rw [index, written] at write
      simp only [writeAlone, Site.write, isMemory, RegisterFile.offset, isCursor, write,
        Access.alone]
    have moved := (depicts.replace changed changedFits).move (Int32.ofNat array.index)
    rw [landed, changedSize, changedCell] at moved
    simp only [useSparse, stored, SparseArray.use, if_neg large]
    exact ⟨rfl, moved, (spares_memory ..).trans (spares_cursor ..)⟩

theorem Depicts.conforms (depicts : Depicts memory cursor site array)
    (usage : SparseArray.Usage) :
    Conforms memory cursor site (useSparse memory cursor usage site)
      (SparseArray.use usage array) := by
  cases usage with
  | point value => exact depicts.conforms_point value
  | locate => exact depicts.conforms_locate
  | put value => exact depicts.conforms_put value
  | get => exact depicts.conforms_get

/-- What is done with all of a list is done with the first one and then with
the rest. -/
theorem run_mapM_cons {σ α β : Type} (use : α → StateM σ β) (first : α) (rest : List α)
    {start between last : σ} {outcome : β} {outcomes : List β}
    (used : (use first).run start = (outcome, between))
    (further : (rest.mapM use).run between = (outcomes, last)) :
    ((first :: rest).mapM use).run start = (outcome :: outcomes, last) := by
  have steps : ((first :: rest).mapM use).run start =
      (((use first).run start).1 :: ((rest.mapM use).run ((use first).run start).2).1,
        ((rest.mapM use).run ((use first).run start).2).2) := by
    rw [List.mapM_cons]
    rfl
  rw [steps, used, further]

/-- A run of usages from a memory that depicts an array. -/
theorem Depicts.mapM (usages : List SparseArray.Usage) {site : Site} {array : SparseArray}
    (depicts : Depicts memory cursor site array) :
    ∃ outcomes after last, (usages.mapM (useSparse memory cursor)).run site = (outcomes, after) ∧
      (usages.mapM SparseArray.use).run array = (outcomes, last) ∧
      Depicts memory cursor after last ∧ Spares memory cursor site after := by
  induction usages generalizing site array with
  | nil => exact ⟨[], site, array, rfl, rfl, depicts, .refl ..⟩
  | cons usage rest ih =>
      rcases depicts.conforms usage with ⟨outcome, depictsNext, sparesNext⟩
      rcases ih depictsNext with ⟨outcomes, after, last, used, expected, depictsLast, sparesLast⟩
      refine ⟨(SparseArray.use usage array).1 :: outcomes, after, last, ?_, ?_, depictsLast,
        sparesNext.trans sparesLast⟩
      · exact run_mapM_cons _ usage rest (Prod.ext outcome rfl) used
      · exact run_mapM_cons _ usage rest rfl expected

/-- To put a value into a register that keeps something is to resolve it and to
write what comes of it. -/
theorem putAlone_eq (made : site.file.state memory ≠ .null) (value : Value) :
    site.putAlone memory value =
      proceed (fun resolved site => site.writeAlone memory resolved)
        (site.perform (Action.resolve value)) := by
  unfold putAlone
  split
  next isNull => exact absurd isNull made
  next =>
    rw [Action.put, perform_bind]
    rfl

/-- A memory that grows behaves like a sparse array. Whatever is done with it
and its cursor, what comes of it is what comes of doing the same with an array
that was empty in the beginning. The array is never longer than the limit, and
it holds nothing past its length. Nothing else is different afterwards. -/
theorem growing_memory_is_sparse_array {site : Site} {memory cursor : RegisterRef}
    {offset : Int32} (made : site.file.state memory = .growing cursor #[])
    (starts : site.file.state cursor = .offset offset) (usages : List SparseArray.Usage) :
    ∃ outcomes after array,
      (usages.mapM (useSparse memory cursor)).run site = (outcomes, after) ∧
      (usages.mapM SparseArray.use).run (.empty offset.toInt) = (outcomes, array) ∧
      Depicts memory cursor after array ∧ Spares memory cursor site after ∧
      array.length ≤ 2 ^ 20 ∧ (∀ index, array.length ≤ index → array.cell index = .null) ∧
      ∀ value, after.putAlone memory value =
        proceed (fun resolved site => site.writeAlone memory resolved)
          (after.perform (Action.resolve value)) := by
  rcases (depicts_empty made starts).mapM usages with
    ⟨outcomes, after, array, used, expected, depicts, spares⟩
  refine ⟨outcomes, after, array, used, expected, depicts, spares, depicts.fits,
    fun _ => depicts.null_beyond, fun value => putAlone_eq ?_ value⟩
  rcases depicts.cells with ⟨cells, isMemory, _⟩
  rw [isMemory]
  nofun

/-- An empty memory is read from before its start, which leaves the cursor
there, and written there. A gap is then left open, the last cell is found from
the end, and a place past the limit is refused without a trace. -/
theorem growing_memory_is_sparse_array_gap :
    ∃ after, (List.mapM (useSparse ⟨"m", 0⟩ ⟨"m_i", 1⟩)
      [.get, .locate, .put (.int 5), .locate, .point (.int 3), .put (.int 7), .point (.int 2),
        .get, .point (.int (-5)), .get, .locate, .point (.int 1048576), .put (.int 9), .get,
        .locate, .point (.int (-4)), .get]).run
      ⟨#[.growing ⟨"m_i", 1⟩ #[], .offset (-1)], .ofInput [] 0⟩ =
      ([.ok (some .null), .ok (some (.int (-1))), .ok none, .ok (some (.int 0)), .ok none,
        .ok none, .ok none, .ok (some .null), .ok none, .ok (some (.int 7)),
        .ok (some (.int 3)), .ok none, .error (.outOfMemory 1048577 1048576), .ok (some .null),
        .ok (some (.int 1048576)), .ok none, .ok (some (.int 5))], after) := by
  rcases @growing_memory_is_sparse_array
    ⟨#[.growing ⟨"m_i", 1⟩ #[], .offset (-1)], .ofInput [] 0⟩ ⟨"m", 0⟩ ⟨"m_i", 1⟩ (-1) rfl rfl _
    with ⟨outcomes, after, array, used, expected, _⟩
  refine ⟨after, used.trans (congrArg (·, after) ?_)⟩
  refine (congrArg Prod.fst expected).symm.trans ?_
  decide +kernel

end Site

end NodeAssembly
