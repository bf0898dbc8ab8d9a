import NodeAssembly.Fault
import NodeAssembly.OpCode

/-! Events of a running node, and how they reach its listeners. An event goes
to the listeners that were registered before it was sent, in the order of their
registration. A listener may register others while it handles an event; they
receive the events after it. -/

namespace NodeAssembly

inductive Event where
  | executed (position : Nat) (opcode : OpCode)
  /-- An instruction that runs only once was passed over. -/
  | skipped (position : Nat)
  | stopped
  | faulted (fault : Fault)
deriving DecidableEq, Repr

/-- What a listener did with an event: the listeners it registered, and whether
it broke off, so that no other listener receives the event. -/
structure Handled (L : Type) where
  registered : List L
  broken : Bool

/-- Hands an event to some listeners, one after the other. -/
def deliver {m : Type → Type} [Monad m] {L E : Type} (handle : L → E → m (Handled L)) (event : E) :
    List L → m (Handled L)
  | [] => pure ⟨[], false⟩
  | listener :: rest => do
    let handled ← handle listener event
    if handled.broken then
      return handled
    else
      let others ← deliver handle event rest
      return ⟨handled.registered ++ others.registered, others.broken⟩

/-- Sends an event to all listeners, and gives the listeners there are
afterwards and whether one of them broke off. -/
def dispatch {m : Type → Type} [Monad m] {L E : Type} (handle : L → E → m (Handled L))
    (listeners : List L) (event : E) : m (List L × Bool) := do
  let handled ← deliver handle event listeners
  return (listeners ++ handled.registered, handled.broken)

end NodeAssembly
