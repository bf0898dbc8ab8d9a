import Mathlib.Data.List.Induction
import NodeAssembly.Proofs.Bus.Delivery

/-! A send that fails leaves no trace at the bus. A sender that gives up before
it has left its value has changed nothing. One that gives up later takes its
value back; until then nobody else could change the slot, so the slot with its
counts is what it was before the value was left. To all who come afterwards it
is as if the sender had never been there. -/

namespace NodeAssembly.Bus

/-- The slot after a value was left in it. -/
def Slot.filled (slot : Slot) (value : Value) : Slot :=
  { slot with value := some value, deposited := slot.deposited + 1 }

/-- A value that is taken back was never there. -/
theorem Slot.giveUp_filled {slot : Slot} (free : slot.value = none) (value : Value)
    (ticket : Nat) : (slot.filled value).giveUp (.confirm ticket) = slot := by
  rcases slot with ⟨held, deposited, taken⟩
  cases free
  rfl

theorem Slot.giveUp_of_fresh (slot : Slot) {call : Call}
    (fresh : ∀ ticket, call ≠ .confirm ticket) : slot.giveUp call = slot := by
  cases call with
  | confirm ticket => exact absurd rfl (fresh ticket)
  | _ => rfl

namespace Traffic

variable {before after : Traffic} {caller sender ticket : Nat} {value : Value}

/-! ## While a value waits -/

/-- The sender of a value has not ended its errand if it still waits. -/
theorem waits_of_settle {slot : Slot} {standing old : Standing} {mark : Mark}
    {errand known : Errand} (settled : before.callers caller = some ⟨known, old⟩)
    (waits : (before.settle caller slot standing mark).callers sender =
      some ⟨errand, .waiting (.confirm ticket)⟩)
    (ended : standing ≠ .waiting (.confirm ticket)) :
    caller ≠ sender ∧ before.callers sender = some ⟨errand, .waiting (.confirm ticket)⟩ := by
  by_cases same : caller = sender
  · subst same
    rw [settle_callers_self settled] at waits
    cases waits
    exact absurd rfl ended
  · rw [settle_callers_other same] at waits
    exact ⟨same, waits⟩

namespace Sound

/-- A sender that waits for its value has the ticket of the latest deposit. -/
theorem ticket_eq {errand : Errand} (sound : Sound before)
    (waits : before.callers sender = some ⟨errand, .waiting (.confirm ticket)⟩)
    (pending : before.slot.taken < ticket) : ticket = before.slot.taken + 1 := by
  rcases sound.owner_of_pending waits pending with ⟨value, _, held, latest, _, _⟩
  rcases sound.owned value held with ⟨owner, isLatest, known⟩
  cases latest.symm.trans isLatest
  cases waits.symm.trans known
  have balanced := sound.balanced
  rw [held] at balanced
  exact balanced

/-- A sender whose value is in the slot after a step has either left it there in
this step, or has had it there before, and then the step has not touched the
slot. -/
theorem pending_cases (sound : Sound before) (step : Step before caller after)
    (waits : after.callers sender = some ⟨.send value, .waiting (.confirm ticket)⟩)
    (pending : after.slot.taken < ticket) :
    (before.callers sender = some ⟨.send value, .waiting (.deposit value)⟩ ∧
      before.slot.value = none ∧ after.slot = before.slot.filled value) ∨
    (before.callers sender = some ⟨.send value, .waiting (.confirm ticket)⟩ ∧
      before.slot.taken < ticket ∧ after.slot = before.slot) := by
  cases step with
  | rest => exact .inr ⟨waits, pending, rfl⟩
  | enter errand free =>
      by_cases same : caller = sender
      · subst same
        rw [welcome_callers_self] at waits
        cases errand <;> cases waits
      · rw [welcome_callers_other same] at waits
        exact .inr ⟨waits, pending, rfl⟩
  | deposit left errand known empty =>
      by_cases same : caller = sender
      · subst same
        rw [settle_callers_self known] at waits
        cases waits
        cases (sound.fits_fresh known nofun).1
        exact .inl ⟨known, empty, rfl⟩
      · -- The slot of a sender that has left its value is not empty.
        rw [settle_callers_other same] at waits
        rcases sound.owner_of_pending waits pending with ⟨_, _, held, _⟩
        cases empty.symm.trans held
  | confirm number errand known taken =>
      exact .inr ⟨(waits_of_settle known waits nofun).2, pending, rfl⟩
  | receive received errand known full =>
      have waited := (waits_of_settle known waits nofun).2
      -- The ticket is that of the value which was just taken.
      have latest := sound.ticket_eq waited (Nat.lt_of_succ_lt pending)
      rw [latest] at pending
      exact absurd pending (Nat.lt_irrefl _)
  | observe errand known =>
      exact .inr ⟨(waits_of_settle known waits nofun).2, pending, rfl⟩
  | retract number errand known behind =>
      rcases waits_of_settle known waits nofun with ⟨different, waited⟩
      rcases sound.owner_of_pending waited pending with ⟨_, _, _, latest, _⟩
      rcases sound.owner_of_pending known behind with ⟨_, _, _, latestToo, _⟩
      cases latest.symm.trans latestToo
      exact absurd rfl different
  | leave call errand known nothingLeft =>
      exact .inr ⟨(waits_of_settle known waits nofun).2, pending, rfl⟩

end Sound

/-- At the end of `earlier` the sender was still to leave its value. In the moves
after that, the first of which is its own, the slot has held this value and was
otherwise as before. -/
structure Tenure (sender : Nat) (value : Value) (earlier during : List Move) : Prop where
  waited : (run earlier).callers sender = some ⟨.send value, .waiting (.deposit value)⟩
  held : ∀ first, first ≠ [] → first <+: during →
    (run (earlier ++ first)).slot = (run earlier).slot.filled value

section Tenure

variable {earlier during : List Move} {move : Move}

theorem tenure_nil
    (waited : (run earlier).callers sender = some ⟨.send value, .waiting (.deposit value)⟩) :
    Tenure sender value earlier [] :=
  ⟨waited, fun _ some isPrefix => absurd (List.prefix_nil.mp isPrefix) some⟩

theorem Tenure.concat (tenure : Tenure sender value earlier during)
    (filled : (run (earlier ++ during ++ [move])).slot = (run earlier).slot.filled value) :
    Tenure sender value earlier (during ++ [move]) := by
  refine ⟨tenure.waited, fun first some isPrefix => ?_⟩
  rcases List.prefix_concat_iff.mp isPrefix with rfl | shorter
  · rw [← List.append_assoc]
    exact filled
  · exact tenure.held first some shorter

end Tenure

/-- A value in the slot has been there since its sender left it. -/
theorem tenure_of_pending {moves : List Move}
    (waits : (run moves).callers sender = some ⟨.send value, .waiting (.confirm ticket)⟩)
    (pending : (run moves).slot.taken < ticket) :
    ∃ earlier during, moves = earlier ++ during ∧ during ≠ [] ∧
      (run earlier).slot.value = none ∧ Tenure sender value earlier during := by
  induction moves using List.reverseRecOn with
  | nil => cases waits
  | append_singleton moves move ih =>
      have sound := sound_run moves
      have step := (run moves).move_step move
      rw [run_append] at waits pending
      rcases sound.pending_cases step waits pending with
        ⟨waited, free, filled⟩ | ⟨waited, pendingBefore, same⟩
      · refine ⟨moves, [move], rfl, nofun, free, (tenure_nil waited).concat ?_⟩
        rw [List.append_nil, run_append]
        exact filled
      · rcases ih waited pendingBefore with ⟨earlier, during, rfl, some, free, tenure⟩
        refine ⟨earlier, during ++ [move], List.append_assoc .., by simp, free, tenure.concat ?_⟩
        rw [run_append]
        exact same.trans (tenure.held during some (List.prefix_refl during))

/-! ## When a sender gives up -/

theorem expired_of_settle {slot : Slot} {standing old : Standing} {mark : Mark} {errand : Errand}
    (unexpired : before.callers sender ≠ some ⟨.send value, .expired⟩)
    (settled : before.callers caller = some ⟨errand, old⟩)
    (expired : (before.settle caller slot standing mark).callers sender =
      some ⟨.send value, .expired⟩) :
    caller = sender ∧ errand = .send value ∧ standing = .expired := by
  by_cases same : caller = sender
  · subst same
    rw [settle_callers_self settled] at expired
    cases expired
    exact ⟨rfl, rfl, rfl⟩
  · rw [settle_callers_other same] at expired
    exact absurd expired unexpired

/-- A sender comes to its end without an answer only by giving up, and that only
while it would have to wait. -/
theorem Step.expired_cases (step : Step before caller after)
    (unexpired : before.callers sender ≠ some ⟨.send value, .expired⟩)
    (expired : after.callers sender = some ⟨.send value, .expired⟩) :
    ∃ call, before.callers sender = some ⟨.send value, .waiting call⟩ ∧
      (∀ ticket, call = .confirm ticket → before.slot.taken < ticket) ∧
      after.slot = before.slot.giveUp call ∧
      ∀ other, sender ≠ other → after.callers other = before.callers other := by
  cases step with
  | rest => exact absurd expired unexpired
  | enter errand free =>
      by_cases same : caller = sender
      · subst same
        rw [welcome_callers_self] at expired
        cases expired
      · rw [welcome_callers_other same] at expired
        exact absurd expired unexpired
  | deposit left errand known => cases (expired_of_settle unexpired known expired).2.2
  | confirm ticket errand known => cases (expired_of_settle unexpired known expired).2.2
  | receive received errand known => cases (expired_of_settle unexpired known expired).2.2
  | observe errand known => cases (expired_of_settle unexpired known expired).2.2
  | retract ticket errand known pending =>
      rcases expired_of_settle unexpired known expired with ⟨rfl, rfl, _⟩
      refine ⟨.confirm ticket, known, ?_, rfl, fun _ => settle_callers_other⟩
      rintro _ ⟨⟩
      exact pending
  | leave call errand known nothingLeft =>
      rcases expired_of_settle unexpired known expired with ⟨rfl, rfl, _⟩
      exact ⟨call, known, fun ticket isConfirm => absurd isConfirm (nothingLeft ticket),
        (Slot.giveUp_of_fresh _ nothingLeft).symm, fun _ => settle_callers_other⟩

/-- The slot after a sender has given up is the slot before it left its value, if
it has left one at all. -/
theorem tenure_of_expired {moves : List Move} {move : Move}
    (unexpired : (run moves).callers sender ≠ some ⟨.send value, .expired⟩)
    (expired : (run (moves ++ [move])).callers sender = some ⟨.send value, .expired⟩) :
    ∃ earlier during, moves = earlier ++ during ∧ Tenure sender value earlier during ∧
      (run (moves ++ [move])).slot = (run earlier).slot ∧
      ∀ other, sender ≠ other →
        (run (moves ++ [move])).callers other = (run moves).callers other := by
  have sound := sound_run moves
  have step := (run moves).move_step move
  rw [run_append] at expired ⊢
  rcases step.expired_cases unexpired expired with ⟨call, waits, pending, slot, others⟩
  by_cases fresh : ∀ ticket, call ≠ .confirm ticket
  · cases (sound.fits_fresh waits fresh).1
    exact ⟨moves, [], (List.append_nil moves).symm, tenure_nil waits, slot, others⟩
  · rcases not_forall_not.mp fresh with ⟨ticket, rfl⟩
    rcases tenure_of_pending waits (pending ticket rfl) with
      ⟨earlier, during, rfl, some, free, tenure⟩
    refine ⟨earlier, during, rfl, tenure, ?_, others⟩
    rw [tenure.held during some (List.prefix_refl during), Slot.giveUp_filled free] at slot
    exact slot

/-! ## What the others see -/

/-- Whatever a caller other than the absent one does, it finds the same. -/
structure Alike (absent : Nat) (first second : Traffic) : Prop where
  slot : first.slot = second.slot
  callers : ∀ other, absent ≠ other → first.callers other = second.callers other

/-- The traffic if a caller had not come, and the slot were as given. -/
def without (traffic : Traffic) (caller : Nat) (slot : Slot) : Traffic :=
  { traffic with slot := slot, callers := Function.update traffic.callers caller none }

namespace Alike

variable {absent : Nat} {first second : Traffic}

theorem waiting? (alike : Alike absent first second) (other : absent ≠ caller) :
    first.waiting? caller = second.waiting? caller := by
  rw [Traffic.waiting?, Traffic.waiting?, alike.callers caller other]

theorem settle (alike : Alike absent first second) (other : absent ≠ caller) (slot : Slot)
    (standing : Standing) (mark : Mark) :
    Alike absent (first.settle caller slot standing mark)
      (second.settle caller slot standing mark) := by
  refine ⟨rfl, fun someone different => ?_⟩
  by_cases same : caller = someone
  · subst same
    simp only [Traffic.settle, Function.update_self, alike.callers caller other]
  · rw [settle_callers_other same, settle_callers_other same]
    exact alike.callers someone different

theorem enter (alike : Alike absent first second) (other : absent ≠ caller) (errand : Errand) :
    Alike absent (first.enter caller errand) (second.enter caller errand) := by
  unfold Traffic.enter
  rw [alike.callers caller other]
  cases second.callers caller with
  | some known => exact alike
  | none =>
      refine ⟨alike.slot, fun someone different => ?_⟩
      by_cases same : caller = someone
      · subst same
        rw [welcome_callers_self, welcome_callers_self]
      · rw [welcome_callers_other same, welcome_callers_other same]
        exact alike.callers someone different

theorem look (alike : Alike absent first second) (other : absent ≠ caller) :
    Alike absent (first.look caller) (second.look caller) := by
  unfold Traffic.look
  rw [alike.waiting? other, alike.slot]
  split
  · exact alike
  · split
    · exact alike
    · exact alike.settle other ..
    · exact alike.settle other ..

theorem timeOut (alike : Alike absent first second) (other : absent ≠ caller) :
    Alike absent (first.timeOut caller) (second.timeOut caller) := by
  unfold Traffic.timeOut
  rw [alike.waiting? other, alike.slot]
  split
  · exact alike
  · split
    · exact alike.settle other ..
    · exact alike.look other

theorem move (alike : Alike absent first second) {move : Move} (other : absent ≠ move.caller) :
    Alike absent (first.move move) (second.move move) := by
  cases move with
  | enter caller errand => exact alike.enter other errand
  | look caller => exact alike.look other
  | timeOut caller => exact alike.timeOut other

theorem foldl (alike : Alike absent first second) {moves : List Move}
    (others : ∀ move ∈ moves, absent ≠ move.caller) :
    Alike absent (moves.foldl Traffic.move first) (moves.foldl Traffic.move second) := by
  induction moves generalizing first second with
  | nil => exact alike
  | cons move moves ih =>
      have next := alike.move (others move List.mem_cons_self)
      exact ih next fun later member => others later (List.mem_cons_of_mem move member)

end Alike

/-- A sender that has just given up: until it did, the slot was full of its value
and otherwise untouched from the moment it left it, and now the slot is as it was
before that moment. All that others do afterwards comes out as if the sender had
never been there. -/
theorem alike_without_of_expired {moves later : List Move} {move : Move}
    (unexpired : (run moves).callers sender ≠ some ⟨.send value, .expired⟩)
    (expired : (run (moves ++ [move])).callers sender = some ⟨.send value, .expired⟩)
    (others : ∀ move ∈ later, sender ≠ move.caller) :
    ∃ earlier during, moves = earlier ++ during ∧ Tenure sender value earlier during ∧
      (run (moves ++ [move])).slot = (run earlier).slot ∧
      Alike sender (run (moves ++ move :: later))
        (later.foldl Traffic.move ((run moves).without sender (run earlier).slot)) := by
  rcases tenure_of_expired unexpired expired with ⟨earlier, during, split, tenure, slot, same⟩
  have alike : Alike sender (run (moves ++ [move]))
      ((run moves).without sender (run earlier).slot) := by
    refine ⟨slot, fun other different => ?_⟩
    exact (same other different).trans (Function.update_of_ne different.symm _ _).symm
  refine ⟨earlier, during, split, tenure, slot, ?_⟩
  rw [List.append_cons, run_append]
  exact alike.foldl others

end Traffic

end NodeAssembly.Bus
