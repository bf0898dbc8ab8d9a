import Mathlib.Logic.Function.Basic
import NodeAssembly.Channel.Bus

/-! The traffic at one bus: any number of callers who come, look at the slot,
wait, go on and leave in any order. Every change is made by `Slot.step` or
`Slot.giveUp`; beside the slot the traffic only keeps who is waiting for what,
and a history of what has happened. -/

namespace NodeAssembly.Bus

/-- What a caller comes to the bus for. -/
inductive Errand where
  | send (value : Value)
  | receive
  | observe
deriving DecidableEq

def Errand.call : Errand → Call
  | .send value => .deposit value
  | .receive => .receive
  | .observe => .observe

/-- How an errand stands: it waits to do something, or has come to its end with
an answer or without one. -/
inductive Standing where
  | waiting (call : Call)
  | returned (received : Option Value)
  | expired
deriving DecidableEq

structure Caller where
  errand : Errand
  standing : Standing
deriving DecidableEq

/-- What a caller has done at the bus. -/
inductive Mark where
  /-- Did what it had waited for and goes on. -/
  | proceeded (caller : Nat) (call : Call)
  | returned (caller : Nat) (received : Option Value)
  /-- Left without an answer while it waited for `call`. -/
  | gaveUp (caller : Nat) (call : Call)
deriving DecidableEq

namespace Mark

def caller : Mark → Nat
  | .proceeded caller _ => caller
  | .returned caller _ => caller
  | .gaveUp caller _ => caller

/-- The sender and the value of a deposit. -/
def deposit? : Mark → Option (Nat × Value)
  | .proceeded caller (.deposit value) => some (caller, value)
  | _ => none

/-- The receiver and the value that it returned with. -/
def receipt? : Mark → Option (Nat × Value)
  | .returned caller (some value) => some (caller, value)
  | _ => none

/-- The sender that took its value back. -/
def retraction? : Mark → Option Nat
  | .gaveUp caller (.confirm _) => some caller
  | _ => none

end Mark

/-- What has happened at a bus, the latest first. -/
abbrev History := List Mark

namespace History

/-- The values that were left in the slot, in order and with their senders. -/
def deposits (history : History) : List (Nat × Value) :=
  (history.filterMap Mark.deposit?).reverse

/-- The senders that took their values back. -/
def retractions (history : History) : List Nat :=
  history.filterMap Mark.retraction?

/-- The deposits that were not taken back. -/
def survivors (history : History) : List (Nat × Value) :=
  history.deposits.filter fun deposit => deposit.1 ∉ history.retractions

/-- The values that receivers returned with, in order. -/
def receipts (history : History) : List (Nat × Value) :=
  (history.filterMap Mark.receipt?).reverse

/-- The sender of the latest deposit. Whatever is in the slot is from it. -/
def sender? (history : History) : Option Nat :=
  (history.findSome? Mark.deposit?).map Prod.fst

/-- The receipts of a sender's value: those that came when its deposit was the
latest one. -/
def receiptsFrom (sender : Nat) : History → List (Nat × Value)
  | [] => []
  | mark :: earlier =>
    if sender? earlier = some sender then
      mark.receipt?.toList ++ receiptsFrom sender earlier
    else receiptsFrom sender earlier

/-- What one caller has done. -/
def trail (history : History) (caller : Nat) : History :=
  history.filter fun mark => mark.caller = caller

end History

structure Traffic where
  slot : Slot
  callers : Nat → Option Caller
  history : History

/-- What can happen at a bus: a caller comes, wakes up and looks at the slot,
or looks at it for the last time. -/
inductive Move where
  | enter (caller : Nat) (errand : Errand)
  | look (caller : Nat)
  | timeOut (caller : Nat)
deriving DecidableEq

def Move.caller : Move → Nat
  | .enter caller _ => caller
  | .look caller => caller
  | .timeOut caller => caller

namespace Traffic

def start : Traffic :=
  ⟨.empty, fun _ => none, []⟩

def errand? (traffic : Traffic) (caller : Nat) : Option Errand :=
  (traffic.callers caller).map (·.errand)

/-- What a caller is waiting to do. -/
def waiting? (traffic : Traffic) (caller : Nat) : Option Call :=
  match traffic.callers caller with
  | some ⟨_, .waiting call⟩ => some call
  | _ => none

/-- The traffic with one more caller. -/
def welcome (traffic : Traffic) (caller : Nat) (errand : Errand) : Traffic :=
  { traffic with
    callers := Function.update traffic.callers caller (some ⟨errand, .waiting errand.call⟩) }

def enter (traffic : Traffic) (caller : Nat) (errand : Errand) : Traffic :=
  match traffic.callers caller with
  | some _ => traffic
  | none => traffic.welcome caller errand

/-- The traffic after a caller has done something. -/
def settle (traffic : Traffic) (caller : Nat) (slot : Slot) (standing : Standing) (mark : Mark) :
    Traffic where
  slot := slot
  callers := Function.update traffic.callers caller
    ((traffic.callers caller).map fun known => { known with standing := standing })
  history := mark :: traffic.history

/-- One look of a caller at the slot: it goes on if it can. -/
def look (traffic : Traffic) (caller : Nat) : Traffic :=
  match traffic.waiting? caller with
  | none => traffic
  | some call =>
    match traffic.slot.step call with
    | .wait => traffic
    | .proceed slot next => traffic.settle caller slot (.waiting next) (.proceeded caller call)
    | .finish slot received =>
      traffic.settle caller slot (.returned received) (.returned caller received)

/-- The last look of a caller: it gives up only if it would have to wait. -/
def timeOut (traffic : Traffic) (caller : Nat) : Traffic :=
  match traffic.waiting? caller with
  | none => traffic
  | some call =>
    match traffic.slot.step call with
    | .wait => traffic.settle caller (traffic.slot.giveUp call) .expired (.gaveUp caller call)
    | _ => traffic.look caller

def move (traffic : Traffic) : Move → Traffic
  | .enter caller errand => traffic.enter caller errand
  | .look caller => traffic.look caller
  | .timeOut caller => traffic.timeOut caller

/-- The traffic after some moves from the empty bus on. -/
def run (moves : List Move) : Traffic :=
  moves.foldl move start

/-- All that a move of a caller can do. -/
inductive Step (traffic : Traffic) (caller : Nat) : Traffic → Prop
  | rest : Step traffic caller traffic
  | enter (errand : Errand) (free : traffic.callers caller = none) :
      Step traffic caller (traffic.welcome caller errand)
  | deposit (value : Value) (errand : Errand)
      (waits : traffic.callers caller = some ⟨errand, .waiting (.deposit value)⟩)
      (empty : traffic.slot.value = none) :
      Step traffic caller (traffic.settle caller
        { traffic.slot with value := some value, deposited := traffic.slot.deposited + 1 }
        (.waiting (.confirm (traffic.slot.deposited + 1))) (.proceeded caller (.deposit value)))
  | confirm (ticket : Nat) (errand : Errand)
      (waits : traffic.callers caller = some ⟨errand, .waiting (.confirm ticket)⟩)
      (taken : ticket ≤ traffic.slot.taken) :
      Step traffic caller
        (traffic.settle caller traffic.slot (.returned none) (.returned caller none))
  | receive (value : Value) (errand : Errand)
      (waits : traffic.callers caller = some ⟨errand, .waiting .receive⟩)
      (full : traffic.slot.value = some value) :
      Step traffic caller (traffic.settle caller
        { traffic.slot with value := none, taken := traffic.slot.taken + 1 }
        (.returned (some value)) (.returned caller (some value)))
  | observe (errand : Errand)
      (waits : traffic.callers caller = some ⟨errand, .waiting .observe⟩) :
      Step traffic caller
        (traffic.settle caller traffic.slot (.returned none) (.returned caller none))
  | retract (ticket : Nat) (errand : Errand)
      (waits : traffic.callers caller = some ⟨errand, .waiting (.confirm ticket)⟩)
      (pending : traffic.slot.taken < ticket) :
      Step traffic caller (traffic.settle caller
        { traffic.slot with value := none, deposited := traffic.slot.deposited - 1 }
        .expired (.gaveUp caller (.confirm ticket)))
  | leave (call : Call) (errand : Errand)
      (waits : traffic.callers caller = some ⟨errand, .waiting call⟩)
      (nothingLeft : ∀ ticket, call ≠ .confirm ticket) :
      Step traffic caller (traffic.settle caller traffic.slot .expired (.gaveUp caller call))

theorem waiting?_eq_some_iff (traffic : Traffic) (caller : Nat) (call : Call) :
    traffic.waiting? caller = some call ↔
      ∃ errand, traffic.callers caller = some ⟨errand, .waiting call⟩ := by
  unfold waiting?
  constructor
  · intro waits
    split at waits
    case h_1 errand found known =>
      cases waits
      exact ⟨errand, known⟩
    case h_2 => cases waits
  · rintro ⟨errand, known⟩
    simp [known]

theorem look_step (traffic : Traffic) (caller : Nat) :
    Step traffic caller (traffic.look caller) := by
  unfold look
  cases waits : traffic.waiting? caller with
  | none => exact .rest
  | some call =>
      obtain ⟨errand, known⟩ := (traffic.waiting?_eq_some_iff caller call).mp waits
      cases call with
      | deposit value =>
          cases full : traffic.slot.value with
          | some _ =>
              simp only [Slot.step, full]
              exact .rest
          | none =>
              simp only [Slot.step, full]
              exact .deposit value errand known full
      | confirm ticket =>
          by_cases pending : traffic.slot.taken < ticket
          · simp only [Slot.step, pending, if_true]
            exact .rest
          · simp only [Slot.step, pending, if_false]
            exact .confirm ticket errand known (Nat.le_of_not_lt pending)
      | receive =>
          cases full : traffic.slot.value with
          | none =>
              simp only [Slot.step, full]
              exact .rest
          | some value =>
              simp only [Slot.step, full]
              exact .receive value errand known full
      | observe =>
          cases full : traffic.slot.value with
          | none =>
              simp only [Slot.step, full]
              exact .rest
          | some value =>
              simp only [Slot.step, full]
              exact .observe errand known

theorem timeOut_step (traffic : Traffic) (caller : Nat) :
    Step traffic caller (traffic.timeOut caller) := by
  unfold timeOut
  cases waits : traffic.waiting? caller with
  | none => exact .rest
  | some call =>
      obtain ⟨errand, known⟩ := (traffic.waiting?_eq_some_iff caller call).mp waits
      cases result : traffic.slot.step call with
      | proceed slot next =>
          simp only [result]
          exact traffic.look_step caller
      | finish slot received =>
          simp only [result]
          exact traffic.look_step caller
      | wait =>
          simp only [result]
          cases call with
          | confirm ticket =>
              have pending : traffic.slot.taken < ticket := by
                by_contra taken
                simp [Slot.step, taken] at result
              exact .retract ticket errand known pending
          | deposit value => exact .leave _ errand known (by simp)
          | receive => exact .leave _ errand known (by simp)
          | observe => exact .leave _ errand known (by simp)

theorem move_step (traffic : Traffic) (move : Move) :
    Step traffic move.caller (traffic.move move) := by
  cases move with
  | look caller => exact traffic.look_step caller
  | timeOut caller => exact traffic.timeOut_step caller
  | enter caller errand =>
      simp only [Traffic.move, Traffic.enter]
      cases known : traffic.callers caller with
      | some _ => exact .rest
      | none => exact .enter errand known

theorem run_append (before after : List Move) :
    run (before ++ after) = after.foldl move (run before) := by
  rw [run, List.foldl_append, run]

/-- What every step keeps is kept by all moves together. -/
theorem foldl_induction {holds : Traffic → Prop}
    (kept : ∀ {before caller after}, Step before caller after → holds before → holds after)
    (moves : List Move) (traffic : Traffic) (first : holds traffic) :
    holds (moves.foldl move traffic) := by
  induction moves generalizing traffic with
  | nil => exact first
  | cons move moves induction =>
      exact induction (traffic.move move) (kept (traffic.move_step move) first)

end Traffic

end NodeAssembly.Bus
