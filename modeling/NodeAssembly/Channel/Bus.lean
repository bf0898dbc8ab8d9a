import NodeAssembly.Value.Basic

/-! A bus hands one value at a time from a sender to a receiver. A sender waits
for the slot to be empty, leaves its value there, and waits again until the
value has been taken. A receiver waits for a value and takes it; an observer
waits for a value and leaves it.

A caller only looks at the slot and changes it in single steps, in between
which others may do the same. A caller that has waited too long gives up, and a
sender that gives up takes its value back. -/

namespace NodeAssembly.Bus

/-- The value that is waiting to be taken, if any, and how many were ever left
and taken. -/
structure Slot where
  value : Option Value
  deposited : Nat
  taken : Nat
deriving DecidableEq

def Slot.empty : Slot :=
  ⟨none, 0, 0⟩

/-- What a caller is waiting to do next. -/
inductive Call where
  | deposit (value : Value)
  /-- The value left as the `ticket`-th one must be taken. -/
  | confirm (ticket : Nat)
  | receive
  | observe
deriving DecidableEq

def Call.operation : Call → BusOperation
  | .deposit _ => .send
  | .confirm _ => .send
  | .receive => .receive
  | .observe => .observe

/-- What came of one look at the slot. -/
inductive Step where
  | wait
  | proceed (slot : Slot) (call : Call)
  | finish (slot : Slot) (received : Option Value)
deriving DecidableEq

namespace Slot

/-- One step of a caller. -/
def step (slot : Slot) : Call → Step
  | .deposit value =>
    match slot.value with
    | some _ => .wait
    | none =>
      let ticket := slot.deposited + 1
      .proceed { slot with value := some value, deposited := ticket } (.confirm ticket)
  | .confirm ticket => if slot.taken < ticket then .wait else .finish slot none
  | .receive =>
    match slot.value with
    | some value => .finish { slot with value := none, taken := slot.taken + 1 } (some value)
    | none => .wait
  | .observe =>
    match slot.value with
    | some _ => .finish slot none
    | none => .wait

/-- A caller that has to wait gives up. -/
def giveUp (slot : Slot) : Call → Slot
  | .confirm _ => { slot with value := none, deposited := slot.deposited - 1 }
  | _ => slot

/-- A call with nobody else at the bus: it goes on as far as it can, and then
gives up. -/
def alone (slot : Slot) (call : Call) : Slot × Option (Option Value) :=
  match slot.step call with
  | .finish slot received => (slot, some received)
  | .wait => (slot.giveUp call, none)
  | .proceed slot next =>
    match slot.step next with
    | .finish slot received => (slot, some received)
    | _ => (slot.giveUp next, none)

end Slot

end NodeAssembly.Bus
