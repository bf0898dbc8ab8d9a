import NodeAssembly.Node.Event
import NodeAssembly.Proofs.Instruction.Moments
import NodeAssembly.Proofs.Instruction.Terms
import NodeAssembly.Proofs.Node.Ledger

/-! Events that are sent one after the other. Beside the listeners a record of
the events is kept. Listeners may do anything when they receive an event: change
what they all share, ask the machine for something, register others, and break
off. The record only looks on, and without it the events are sent as they are
with it. -/

namespace NodeAssembly

variable {L S E : Type}

/-- The listeners with their numbers, and the record of the events. -/
structure Roster (L S E : Type) where
  listeners : List (L × Nat)
  ledger : Ledger E
  /-- What the listeners share. -/
  memory : S

/-- A listener that has it noted when it receives the event of a round and when it
breaks off, and gives numbers to the listeners it registers. -/
def recorded (handle : L → E → StateT S Script (Handled L)) (place : Nat) (listener : L × Nat)
    (event : E) : StateT (Ledger E × S) Script (Handled (L × Nat)) := fun (ledger, memory) => do
  let (handled, memory) ← (handle listener.1 event).run memory
  let later := (ledger.deliver place listener.2).register handled.registered.length
  return (⟨handled.registered.zipIdx ledger.since.length, handled.broken⟩,
    if handled.broken then later.breakOff place listener.2 else later, memory)

namespace Roster

/-- Nobody listens, and nothing was sent. -/
def empty (memory : S) : Roster L S E :=
  ⟨[], .empty, memory⟩

/-- Registers a listener while no event is on its way. -/
def register (roster : Roster L S E) (listener : L) : Roster L S E :=
  { roster with
    listeners := roster.listeners ++ [(listener, roster.ledger.since.length)]
    ledger := roster.ledger.register 1 }

/-- Sends an event to the listeners, and tells whether one of them broke off. -/
def send (handle : L → E → StateT S Script (Handled L)) (event : E) (roster : Roster L S E) :
    Script (Roster L S E × Bool) := do
  let place := roster.ledger.rounds.length
  let ((listeners, broken), ledger, memory) ←
    (dispatch (recorded handle place) roster.listeners event).run
      (roster.ledger.send event, roster.memory)
  return (⟨listeners, ledger, memory⟩, broken)

/-- The record agrees with the listeners, and no event was on its way when
another one was sent. -/
structure Lossless (roster : Roster L S E) : Prop where
  ledger : roster.ledger.Lossless
  numbered : roster.listeners.map Prod.snd = List.range roster.ledger.since.length
  settled : ∀ round ∈ roster.ledger.rounds, round.isOver = true ∧ round.beside = []

end Roster

/-! ## One delivery -/

/-- What becomes of the last round while its event is delivered, given those who
are to receive it afterwards. -/
structure Delivered (earlier : List (Round E)) (round : Round E) (rest : List Nat)
    (before : Ledger E) (handled : Handled (L × Nat)) (after : Ledger E) : Prop where
  lossless : after.Lossless
  registered : after.since.length = before.since.length + handled.registered.length
  numbered : handled.registered.map Prod.snd =
    List.range' before.since.length handled.registered.length
  rounds : ∃ receivers breaker, breaker.isSome = handled.broken ∧
    after.rounds = earlier ++ [{ round with
      receivers := receivers
      ahead := if handled.broken then [] else rest
      breaker := breaker }]

theorem modify_concat {α : Type} (items : List α) (last : α) (change : α → α) :
    (items ++ [last]).modify items.length change = items ++ [change last] := by
  induction items with
  | nil => rfl
  | cons item rest induction => exact congrArg (item :: ·) induction

variable {handle : L → E → StateT S Script (Handled L)} {earlier : List (Round E)}
  {round : Round E} {ledger : Ledger E}

theorem keeps_recorded (lossless : ledger.Lossless) (rounds : ledger.rounds = earlier ++ [round])
    (unbroken : round.breaker = none) {listener : L × Nat} {rest : List Nat}
    (ahead : round.ahead = listener.2 :: rest) (event : E) (memory : S) :
    ((recorded handle earlier.length listener event).run (ledger, memory)).Keeps .anything
      fun result => Delivered earlier round rest ledger result.1 result.2.1 := by
  apply Script.Keeps.bind (Script.keeps_anything _)
  rintro ⟨⟨registered, broken⟩, later⟩ _
  have isRound : ledger.rounds[earlier.length]? = some round := by
    rw [rounds, List.getElem?_concat_length]
  have received := (lossless.deliver isRound ahead).register registered.length
  have delivered : (ledger.deliver earlier.length listener.2).rounds =
      earlier ++ [round.deliver listener.2] := by
    rw [Ledger.deliver, rounds, modify_concat]
  have more : ((ledger.deliver earlier.length listener.2).register registered.length).since.length =
      ledger.since.length + registered.length := by
    rw [Ledger.register, List.length_append, List.length_replicate]
    rfl
  have numbered : (registered.zipIdx ledger.since.length).map Prod.snd =
      List.range' ledger.since.length (registered.zipIdx ledger.since.length).length := by
    rw [List.zipIdx_map_snd, List.length_zipIdx]
  cases broken with
  | true =>
      have isReceived : ((ledger.deliver earlier.length listener.2).register
          registered.length).rounds[earlier.length]? = some (round.deliver listener.2) := by
        rw [Ledger.register, delivered, List.getElem?_concat_length]
      have last : (round.deliver listener.2).receivers.getLast? = some listener.2 :=
        List.getLast?_concat
      refine ⟨received.breakOff isReceived last, ?_, numbered, round.receivers ++ [listener.2],
        some listener.2, rfl, ?_⟩
      · rw [List.length_zipIdx]
        exact more
      · refine (congrArg (List.modify · _ _) delivered).trans ?_
        rw [modify_concat]
        rfl
  | false =>
      refine ⟨received, ?_, numbered, round.receivers ++ [listener.2], none, rfl, ?_⟩
      · rw [List.length_zipIdx]
        exact more
      · refine delivered.trans ?_
        rw [Round.deliver, ahead, unbroken]
        rfl

theorem keeps_deliver_recorded (lossless : ledger.Lossless)
    (rounds : ledger.rounds = earlier ++ [round]) (unbroken : round.breaker = none)
    {listeners : List (L × Nat)} (ahead : round.ahead = listeners.map Prod.snd) (event : E)
    (memory : S) :
    ((deliver (recorded handle earlier.length) event listeners).run (ledger, memory)).Keeps
      .anything fun result => Delivered earlier round [] ledger result.1 result.2.1 := by
  induction listeners generalizing round ledger memory with
  | nil =>
      refine ⟨lossless, rfl, rfl, round.receivers, none, rfl, rounds.trans ?_⟩
      have ended : round.ahead = [] := ahead
      rcases round with ⟨_, _, _, _, _⟩
      cases ended
      cases unbroken
      rfl
  | cons listener rest induction =>
      apply Script.Keeps.bind (keeps_recorded lossless rounds unbroken ahead event memory)
      rintro ⟨⟨registered, broken⟩, between, shared⟩ delivered
      rcases delivered.rounds with ⟨receivers, breaker, same, roundsBetween⟩
      cases broken with
      | true => exact ⟨delivered.lossless, delivered.registered, delivered.numbered, receivers,
          breaker, same, roundsBetween⟩
      | false =>
          have nobody : breaker = none := by simpa using same
          apply Script.Keeps.bind (induction delivered.lossless roundsBetween nobody rfl shared)
          rintro ⟨others, after, last⟩ later
          refine ⟨later.lossless, ?_, ?_, later.rounds⟩
          · rw [later.registered, delivered.registered, List.length_append, Nat.add_assoc]
          · rw [List.map_append, List.length_append, later.numbered, delivered.numbered,
              delivered.registered]
            exact List.range'_append_1

/-! ## One event -/

namespace Roster.Lossless

variable {roster : Roster L S E}

theorem empty (memory : S) : (Roster.empty memory : Roster L S E).Lossless :=
  ⟨.empty, rfl, nofun⟩

theorem register (lossless : roster.Lossless) (listener : L) :
    (roster.register listener).Lossless where
  ledger := lossless.ledger.register 1
  numbered := by
    rw [Roster.register, List.map_append, lossless.numbered, Ledger.register, List.length_append,
      List.length_replicate, List.range_succ]
    rfl
  settled := lossless.settled

theorem underWay (lossless : roster.Lossless) : roster.ledger.underWay = [] := by
  rw [List.eq_nil_iff_forall_not_mem]
  intro place member
  rcases Ledger.mem_underWay.mp member with ⟨round, isRound, goesOn⟩
  cases goesOn.symm.trans (lossless.settled round (List.mem_of_getElem? isRound)).1

theorem of_delivered (lossless : roster.Lossless) {event : E} {handled : Handled (L × Nat)}
    {after : Ledger E} {memory : S}
    (delivered : Delivered roster.ledger.rounds
      ⟨event, roster.ledger.underWay, [], List.range roster.ledger.since.length, none⟩ []
      (roster.ledger.send event) handled after) :
    (⟨roster.listeners ++ handled.registered, after, memory⟩ : Roster L S E).Lossless where
  ledger := delivered.lossless
  numbered := by
    have joined : List.range' 0 roster.ledger.since.length ++
        List.range' (0 + roster.ledger.since.length) handled.registered.length = _ :=
      List.range'_append_1
    rw [Nat.zero_add] at joined
    rw [List.map_append, lossless.numbered, delivered.numbered, delivered.registered,
      List.range_eq_range', List.range_eq_range']
    exact joined
  settled round member := by
    rcases delivered.rounds with ⟨receivers, _, _, rounds⟩
    rw [rounds] at member
    rcases List.mem_append.mp member with before | latest
    · exact lossless.settled round before
    · cases List.mem_singleton.mp latest
      exact ⟨by rw [Round.isOver, ite_self]; rfl, lossless.underWay⟩

/-- What one dispatch keeps. -/
theorem send (lossless : roster.Lossless) (event : E) :
    (roster.send handle event).Keeps .anything fun result =>
      result.1.Lossless ∧ result.1.ledger.sent = roster.ledger.sent ++ [event] ∧
        result.1.ledger.rounds.getLast?.map Round.broken = some result.2 := by
  have ahead : List.range roster.ledger.since.length = roster.listeners.map Prod.snd :=
    lossless.numbered.symm
  have sent := lossless.ledger.send event
  have dispatched : ((dispatch (recorded handle roster.ledger.rounds.length) roster.listeners
      event).run (roster.ledger.send event, roster.memory)).Keeps .anything fun result =>
        ∃ handled : Handled (L × Nat),
          result.1 = (roster.listeners ++ handled.registered, handled.broken) ∧
          Delivered roster.ledger.rounds
            ⟨event, roster.ledger.underWay, [], List.range roster.ledger.since.length, none⟩ []
            (roster.ledger.send event) handled result.2.1 :=
    Script.Keeps.bind (keeps_deliver_recorded sent rfl rfl ahead event roster.memory)
      fun result whole => ⟨result.1, rfl, whole⟩
  apply Script.Keeps.bind dispatched
  rintro ⟨⟨listeners, broken⟩, after, memory⟩ ⟨handled, same, delivered⟩
  cases same
  rcases delivered.rounds with ⟨receivers, breaker, told, rounds⟩
  have events : after.sent = roster.ledger.sent ++ [event] := by
    rw [Ledger.sent, rounds, List.map_append]
    rfl
  have last : after.rounds.getLast?.map Round.broken = some handled.broken := by
    rw [rounds, List.getLast?_concat, ← told]
    rfl
  exact ⟨lossless.of_delivered delivered, events, last⟩

/-- If no round is broken off, no round is disturbed. -/
theorem undisturbed (lossless : roster.Lossless) {moment : Nat}
    (unbroken : ∀ round ∈ roster.ledger.rounds.drop moment, round.broken = false)
    (which : E → Bool) : roster.ledger.Undisturbed moment which := by
  intro place round isRound after _
  have settled := lossless.settled round (List.mem_of_getElem? isRound)
  have member : round ∈ roster.ledger.rounds.drop moment := by
    apply List.mem_of_getElem? (i := place - moment)
    rw [List.getElem?_drop, Nat.add_sub_cancel' after, isRound]
  refine ⟨?_, fun early beside => ?_⟩
  · rw [Round.isComplete, settled.1, unbroken round member]
    rfl
  · rw [settled.2] at beside
    cases beside

theorem history_eq (lossless : roster.Lossless) {number moment : Nat}
    (registered : roster.ledger.since[number]? = some moment)
    (unbroken : ∀ round ∈ roster.ledger.rounds.drop moment, round.broken = false) :
    roster.ledger.history number = roster.ledger.sent.drop moment := by
  have everything (events : List E) : events.filter (fun _ => true) = events :=
    List.filter_eq_self.mpr fun _ _ => rfl
  have asSent := lossless.ledger.filter_history registered
    (lossless.undisturbed unbroken fun _ => true)
  rwa [everything, everything] at asSent

end Roster.Lossless

/-! ## Many events -/

/-- What is done to a dispatcher. -/
inductive Act (L E : Type) where
  | register (listener : L)
  | send (event : E)

def Act.event? : Act L E → Option E
  | .register _ => none
  | .send event => some event

namespace Roster

def perform (handle : L → E → StateT S Script (Handled L)) :
    List (Act L E) → Roster L S E → Script (Roster L S E)
  | [], roster => pure roster
  | .register listener :: rest, roster => perform handle rest (roster.register listener)
  | .send event :: rest, roster => do
    let (later, _) ← roster.send handle event
    perform handle rest later

theorem Lossless.perform {roster : Roster L S E} (lossless : roster.Lossless)
    (acts : List (Act L E)) : (roster.perform handle acts).Keeps .anything fun later =>
      later.Lossless ∧ later.ledger.sent = roster.ledger.sent ++ acts.filterMap Act.event? := by
  induction acts generalizing roster with
  | nil => exact ⟨lossless, (List.append_nil _).symm⟩
  | cons act rest induction =>
      cases act with
      | register listener => exact induction (lossless.register listener)
      | send event =>
          apply Script.Keeps.bind (lossless.send event)
          rintro ⟨between, _⟩ ⟨kept, sent, _⟩
          apply (induction kept).imp
          rintro later ⟨last, all⟩
          rw [all, sent, List.append_assoc]
          exact ⟨last, rfl⟩

end Roster

/-! ## Without the record -/

theorem run_recorded (place : Nat) (listener : L × Nat) (event : E) (ledger : Ledger E)
    (memory : S) : (recorded handle place listener event).run (ledger, memory) = do
      let (handled, memory) ← (handle listener.1 event).run memory
      let later := (ledger.deliver place listener.2).register handled.registered.length
      return (⟨handled.registered.zipIdx ledger.since.length, handled.broken⟩,
        if handled.broken then later.breakOff place listener.2 else later, memory) :=
  rfl

theorem deliver_forgets (place : Nat) (listeners : List (L × Nat)) (event : E) (ledger : Ledger E)
    (memory : S) :
    (do
      let (handled, _, memory) ← (deliver (recorded handle place) event listeners).run
        (ledger, memory)
      return ((⟨handled.registered.map Prod.fst, handled.broken⟩ : Handled L), memory)) =
    (deliver handle event (listeners.map Prod.fst)).run memory := by
  induction listeners generalizing ledger memory with
  | nil => rfl
  | cons listener rest induction =>
      simp only [deliver, List.map_cons, StateT.run_bind, run_recorded, bind_assoc, pure_bind]
      congr 1
      funext ⟨⟨registered, broken⟩, shared⟩
      cases broken with
      | true =>
          simp only [if_true, StateT.run_pure, pure_bind, List.zipIdx_map_fst]
      | false =>
          simp only [Bool.false_eq_true, if_false, StateT.run_bind, StateT.run_pure, bind_assoc,
            pure_bind, List.map_append, List.zipIdx_map_fst]
          rw [← induction ((ledger.deliver place listener.2).register registered.length)]
          simp only [bind_assoc, pure_bind]

/-- Without the record an event is dispatched as it is with it. -/
theorem Roster.send_forgets (roster : Roster L S E) (event : E) :
    (do
      let (later, broken) ← roster.send handle event
      return ((later.listeners.map Prod.fst, broken), later.memory)) =
    (dispatch handle (roster.listeners.map Prod.fst) event).run roster.memory := by
  simp only [send, dispatch, StateT.run_bind, StateT.run_pure, bind_assoc, pure_bind,
    ← deliver_forgets roster.ledger.rounds.length roster.listeners event (roster.ledger.send event)]
  simp only [List.map_append]

end NodeAssembly
