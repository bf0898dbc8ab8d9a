import Mathlib.Data.List.Sort

/-! A record of events on their way to listeners. Every event goes round the
listeners that were there when it was sent, one after the other, and several
events may be on their way at the same time. The record has the listeners with
the moment of their registration, the events with those who have received them,
and every receipt in the order of time. -/

namespace NodeAssembly

variable {E : Type}

/-- An event on its way. Listeners and rounds have numbers, in the order in which
they were registered and begun. -/
structure Round (E : Type) where
  event : E
  /-- The rounds that were under way when this one began. -/
  beside : List Nat
  receivers : List Nat
  /-- Those who are still to receive the event. -/
  ahead : List Nat
  /-- The listener that broke the round off. -/
  breaker : Option Nat

namespace Round

/-- Whether nobody is still to receive the event. -/
def isOver (round : Round E) : Bool :=
  round.ahead.isEmpty

def broken (round : Round E) : Bool :=
  round.breaker.isSome

/-- Whether the round came to its end and nobody broke it off. -/
def isComplete (round : Round E) : Bool :=
  round.isOver && !round.broken

def deliver (listener : Nat) (round : Round E) : Round E :=
  { round with receivers := round.receivers ++ [listener], ahead := round.ahead.tail }

def breakOff (listener : Nat) (round : Round E) : Round E :=
  { round with ahead := [], breaker := some listener }

@[simp] theorem event_deliver (listener : Nat) (round : Round E) :
    (round.deliver listener).event = round.event := rfl

@[simp] theorem beside_deliver (listener : Nat) (round : Round E) :
    (round.deliver listener).beside = round.beside := rfl

@[simp] theorem event_breakOff (listener : Nat) (round : Round E) :
    (round.breakOff listener).event = round.event := rfl

@[simp] theorem beside_breakOff (listener : Nat) (round : Round E) :
    (round.breakOff listener).beside = round.beside := rfl

end Round

structure Ledger (E : Type) where
  /-- For each listener how many rounds had begun when it was registered. -/
  since : List Nat
  rounds : List (Round E)
  /-- Which listener received the event of which round, the first receipt first. -/
  receipts : List (Nat × Nat)

namespace Ledger

def empty : Ledger E :=
  ⟨[], [], []⟩

/-- The events on record. -/
def sent (ledger : Ledger E) : List E :=
  ledger.rounds.map Round.event

/-- The listeners that were registered before a round began. -/
def present (ledger : Ledger E) (place : Nat) : List Nat :=
  (ledger.since.zipIdx.filter (·.1 ≤ place)).map Prod.snd

def underWay (ledger : Ledger E) : List Nat :=
  (ledger.rounds.zipIdx.filter (!·.1.isOver)).map Prod.snd

/-- Some listeners are registered, one after the other. -/
def register (ledger : Ledger E) (count : Nat) : Ledger E :=
  { ledger with since := ledger.since ++ List.replicate count ledger.rounds.length }

/-- A round begins. It is meant for the listeners that are there now. -/
def send (ledger : Ledger E) (event : E) : Ledger E :=
  { ledger with
    rounds := ledger.rounds ++
      [⟨event, ledger.underWay, [], List.range ledger.since.length, none⟩] }

/-- A listener receives the event of a round. -/
def deliver (ledger : Ledger E) (place listener : Nat) : Ledger E :=
  { ledger with
    rounds := ledger.rounds.modify place (Round.deliver listener)
    receipts := ledger.receipts ++ [(listener, place)] }

/-- A listener that has received the event of a round breaks it off. -/
def breakOff (ledger : Ledger E) (place listener : Nat) : Ledger E :=
  { ledger with rounds := ledger.rounds.modify place (Round.breakOff listener) }

/-- The rounds of which a listener has received the event, the first one first. -/
def heard (ledger : Ledger E) (number : Nat) : List Nat :=
  (ledger.receipts.filter (·.1 == number)).map Prod.snd

/-- The events that a listener has received. -/
def history (ledger : Ledger E) (number : Nat) : List E :=
  (ledger.heard number).filterMap fun place => ledger.rounds[place]?.map Round.event

/-- Whether a round was still under way when a later one began. -/
def Overlap (ledger : Ledger E) (early late : Nat) : Prop :=
  ∃ round, ledger.rounds[late]? = some round ∧ early ∈ round.beside

/-- Every event goes to the listeners that were there before its round began, in
the order of their registration. A listener that receives two events receives
the earlier one first, unless its round was still under way when the other one
began. -/
structure Lossless (ledger : Ledger E) : Prop where
  ordered : ledger.since.Pairwise (· ≤ ·)
  within : ∀ moment ∈ ledger.since, moment ≤ ledger.rounds.length
  reached : ∀ place round, ledger.rounds[place]? = some round →
    round.receivers ++ round.ahead <+: ledger.present place ∧
      (round.broken = false → round.receivers ++ round.ahead = ledger.present place)
  /-- Whoever breaks a round off is the last to receive its event. -/
  lastly : ∀ (place : Nat) round listener, ledger.rounds[place]? = some round →
    round.breaker = some listener → round.receivers.getLast? = some listener ∧ round.ahead = []
  /-- The receipts agree with the rounds. -/
  received : ∀ place round, ledger.rounds[place]? = some round →
    (ledger.receipts.filter (·.2 == place)).map Prod.fst = round.receivers
  begun : ∀ receipt ∈ ledger.receipts, receipt.2 < ledger.rounds.length
  earlier : ∀ early late, ledger.Overlap early late → early < late
  noted : ∀ early late round, ledger.rounds[early]? = some round → round.isOver = false →
    early < late → late < ledger.rounds.length → ledger.Overlap early late
  inOrder : ledger.receipts.Pairwise fun one other =>
    one.1 = other.1 → one.2 < other.2 ∨ ledger.Overlap other.2 one.2

/-! ## Who is there -/

variable {ledger later : Ledger E} {place number moment : Nat} {round : Round E}

theorem mem_present : number ∈ ledger.present place ↔
    ∃ moment, ledger.since[number]? = some moment ∧ moment ≤ place := by
  rw [present, List.mem_map]
  constructor
  · rintro ⟨⟨moment, _⟩, member, rfl⟩
    rcases List.mem_filter.mp member with ⟨isThere, early⟩
    exact ⟨moment, List.mk_mem_zipIdx_iff_getElem?.mp isThere, of_decide_eq_true early⟩
  · rintro ⟨moment, isThere, early⟩
    exact ⟨(moment, number), List.mem_filter.mpr
      ⟨List.mk_mem_zipIdx_iff_getElem?.mpr isThere, decide_eq_true early⟩, rfl⟩

theorem nodup_present (ledger : Ledger E) (place : Nat) : (ledger.present place).Nodup := by
  have numbers : (ledger.since.zipIdx.map Prod.snd).Nodup := by
    rw [List.zipIdx_map_snd]
    exact List.nodup_range'
  exact numbers.sublist (List.filter_sublist.map Prod.snd)

theorem present_append {moments : List Nat} (since : later.since = ledger.since ++ moments)
    (after : ∀ moment ∈ moments, place < moment) : later.present place = ledger.present place := by
  have nobody : (moments.zipIdx ledger.since.length).filter (·.1 ≤ place) = [] := by
    rw [List.filter_eq_nil_iff]
    rintro ⟨moment, number⟩ member
    have later := after moment (List.fst_mem_of_mem_zipIdx member)
    simpa using later
  rw [present, present, since, List.zipIdx_append, List.filter_append, Nat.zero_add, nobody,
    List.append_nil]

/-- All listeners are there when the next round begins. -/
theorem present_all (within : ∀ moment ∈ ledger.since, moment ≤ ledger.rounds.length) :
    ledger.present ledger.rounds.length = List.range ledger.since.length := by
  have all : ledger.since.zipIdx.filter (·.1 ≤ ledger.rounds.length) = ledger.since.zipIdx := by
    rw [List.filter_eq_self]
    rintro ⟨moment, number⟩ member
    simpa using within moment (List.fst_mem_of_mem_zipIdx member)
  rw [present, all, List.zipIdx_map_snd, List.range_eq_range']

theorem mem_underWay : place ∈ ledger.underWay ↔
    ∃ round, ledger.rounds[place]? = some round ∧ round.isOver = false := by
  rw [underWay, List.mem_map]
  constructor
  · rintro ⟨⟨round, _⟩, member, rfl⟩
    rcases List.mem_filter.mp member with ⟨isThere, goesOn⟩
    exact ⟨round, List.mk_mem_zipIdx_iff_getElem?.mp isThere, by simpa using goesOn⟩
  · rintro ⟨round, isThere, goesOn⟩
    exact ⟨(round, place), List.mem_filter.mpr
      ⟨List.mk_mem_zipIdx_iff_getElem?.mpr isThere, by rw [goesOn]; rfl⟩, rfl⟩

/-! ## Rounds -/

theorem getElem?_send {event : E} (isRound : (ledger.send event).rounds[place]? = some round) :
    ledger.rounds[place]? = some round ∨ (place = ledger.rounds.length ∧
      round = ⟨event, ledger.underWay, [], List.range ledger.since.length, none⟩) := by
  have inside : place ≤ ledger.rounds.length := by
    have bound := (List.getElem?_eq_some_iff.mp isRound).1
    rw [send, List.length_append, List.length_singleton] at bound
    exact Nat.le_of_lt_succ bound
  rw [send] at isRound
  rcases Nat.lt_or_eq_of_le inside with early | rfl
  · rw [List.getElem?_append_left early] at isRound
    exact .inl isRound
  · rw [List.getElem?_concat_length] at isRound
    exact .inr ⟨rfl, (Option.some.inj isRound).symm⟩

theorem getElem?_send_of_some (event : E) (isRound : ledger.rounds[place]? = some round) :
    (ledger.send event).rounds[place]? = some round := by
  rw [send, List.getElem?_append_left (List.getElem?_eq_some_iff.mp isRound).1, isRound]

theorem length_send (event : E) :
    (ledger.send event).rounds.length = ledger.rounds.length + 1 :=
  List.length_append

theorem sent_send (event : E) : (ledger.send event).sent = ledger.sent ++ [event] :=
  List.map_append

/-- Something happens in one round that leaves open what it is about. -/
theorem getElem?_modify {change : Round E → Round E} {rounds : List (Round E)} {changed : Nat}
    (isRound : (rounds.modify changed change)[place]? = some round) :
    ∃ before, rounds[place]? = some before ∧
      (round = before ∧ changed ≠ place ∨ round = change before ∧ changed = place) := by
  rw [List.getElem?_modify] at isRound
  rcases Option.map_eq_some_iff.mp isRound with ⟨before, isBefore, rfl⟩
  refine ⟨before, isBefore, ?_⟩
  by_cases same : changed = place
  · exact .inr ⟨if_pos same, same⟩
  · exact .inl ⟨if_neg same, same⟩

theorem overlap_send {early late : Nat} (event : E) (overlap : ledger.Overlap early late) :
    (ledger.send event).Overlap early late := by
  rcases overlap with ⟨round, isRound, member⟩
  exact ⟨round, getElem?_send_of_some event isRound, member⟩

theorem overlap_modify {change : Round E → Round E} {changed early late : Nat}
    (beside : ∀ round, (change round).beside = round.beside)
    (rounds : later.rounds = ledger.rounds.modify changed change) :
    later.Overlap early late ↔ ledger.Overlap early late := by
  constructor
  · rintro ⟨round, isRound, member⟩
    rw [rounds] at isRound
    rcases getElem?_modify isRound with ⟨before, isBefore, ⟨rfl, _⟩ | ⟨rfl, _⟩⟩
    · exact ⟨round, isBefore, member⟩
    · exact ⟨before, isBefore, beside before ▸ member⟩
  · rintro ⟨round, isRound, member⟩
    refine ⟨_, by rw [rounds, List.getElem?_modify, isRound]; rfl, ?_⟩
    split
    · exact (beside round).symm ▸ member
    · exact member

theorem overlap_deliver {early late : Nat} :
    (ledger.deliver place number).Overlap early late ↔ ledger.Overlap early late :=
  overlap_modify (Round.beside_deliver number) rfl

theorem overlap_breakOff {early late : Nat} :
    (ledger.breakOff place number).Overlap early late ↔ ledger.Overlap early late :=
  overlap_modify (Round.beside_breakOff number) rfl

theorem sent_modify {change : Round E → Round E} {changed : Nat}
    (event : ∀ round, (change round).event = round.event)
    (rounds : later.rounds = ledger.rounds.modify changed change) : later.sent = ledger.sent := by
  apply List.ext_getElem?
  intro place
  rw [sent, sent, rounds, List.getElem?_map, List.getElem?_map, List.getElem?_modify]
  cases ledger.rounds[place]? with
  | none => rfl
  | some round =>
      simp only [Option.map_eq_map, Option.map_some]
      split
      · rw [event]
      · rfl

theorem sent_deliver : (ledger.deliver place number).sent = ledger.sent :=
  sent_modify (Round.event_deliver number) rfl

theorem sent_breakOff : (ledger.breakOff place number).sent = ledger.sent :=
  sent_modify (Round.event_breakOff number) rfl

/-! ## What is kept -/

theorem pairwise_append_of_le {moments more : List Nat} {bound : Nat}
    (ordered : moments.Pairwise (· ≤ ·)) (within : ∀ moment ∈ moments, moment ≤ bound)
    (orderedMore : more.Pairwise (· ≤ ·)) (after : ∀ moment ∈ more, bound ≤ moment) :
    (moments ++ more).Pairwise (· ≤ ·) :=
  List.pairwise_append.mpr ⟨ordered, orderedMore, fun early isEarly late isLate =>
    Nat.le_trans (within early isEarly) (after late isLate)⟩

namespace Lossless

theorem empty : (Ledger.empty : Ledger E).Lossless :=
  ⟨.nil, nofun, nofun, nofun, nofun, nofun, nofun, nofun, .nil⟩

theorem register (lossless : ledger.Lossless) (count : Nat) : (ledger.register count).Lossless where
  ordered := by
    apply pairwise_append_of_le lossless.ordered lossless.within
      (List.pairwise_replicate.mpr (.inr Nat.le.refl))
    intro moment member
    exact Nat.le_of_eq (List.mem_replicate.mp member).2.symm
  within moment member := by
    rcases List.mem_append.mp member with before | new
    · exact lossless.within moment before
    · exact Nat.le_of_eq (List.mem_replicate.mp new).2
  reached place round isRound := by
    have inside : place < ledger.rounds.length := (List.getElem?_eq_some_iff.mp isRound).1
    have same : (ledger.register count).present place = ledger.present place := by
      apply present_append rfl
      intro moment member
      rwa [(List.mem_replicate.mp member).2]
    rw [same]
    exact lossless.reached place round isRound
  lastly := lossless.lastly
  received := lossless.received
  begun := lossless.begun
  earlier := lossless.earlier
  noted := lossless.noted
  inOrder := lossless.inOrder

theorem send (lossless : ledger.Lossless) (event : E) : (ledger.send event).Lossless where
  ordered := lossless.ordered
  within moment member := by
    rw [length_send]
    exact Nat.le_succ_of_le (lossless.within moment member)
  reached place round isRound := by
    rcases getElem?_send isRound with before | ⟨rfl, rfl⟩
    · exact lossless.reached place round before
    · have all := present_all lossless.within
      exact ⟨all ▸ List.prefix_rfl, fun _ => all.symm⟩
  lastly place round listener isRound breaks := by
    rcases getElem?_send isRound with before | ⟨rfl, rfl⟩
    · exact lossless.lastly place round listener before breaks
    · cases breaks
  received place round isRound := by
    rcases getElem?_send isRound with before | ⟨rfl, rfl⟩
    · exact lossless.received place round before
    · have none : ledger.receipts.filter (·.2 == ledger.rounds.length) = [] := by
        rw [List.filter_eq_nil_iff]
        intro receipt member same
        exact Nat.ne_of_lt (lossless.begun receipt member) (eq_of_beq same)
      exact congrArg (List.map Prod.fst) none
  begun receipt member := by
    rw [length_send]
    exact Nat.lt_succ_of_lt (lossless.begun receipt member)
  earlier early late overlap := by
    rcases overlap with ⟨round, isRound, member⟩
    rcases getElem?_send isRound with before | ⟨rfl, rfl⟩
    · exact lossless.earlier early late ⟨round, before, member⟩
    · rcases mem_underWay.mp member with ⟨other, isOther, _⟩
      exact (List.getElem?_eq_some_iff.mp isOther).1
  noted early late round isRound goesOn before inside := by
    rcases getElem?_send isRound with isEarlier | ⟨rfl, rfl⟩
    · rcases Nat.lt_or_eq_of_le (Nat.le_of_lt_succ (length_send event ▸ inside)) with older | rfl
      · exact overlap_send event (lossless.noted early late round isEarlier goesOn before older)
      · exact ⟨_, List.getElem?_concat_length, mem_underWay.mpr ⟨round, isEarlier, goesOn⟩⟩
    · rw [length_send] at inside
      omega
  inOrder := lossless.inOrder.imp fun ordered same =>
    (ordered same).imp_right (overlap_send event)

theorem receipt_iff (lossless : ledger.Lossless) (isRound : ledger.rounds[place]? = some round) :
    (number, place) ∈ ledger.receipts ↔ number ∈ round.receivers := by
  rw [← lossless.received place round isRound]
  constructor
  · intro member
    exact List.mem_map.mpr ⟨_, List.mem_filter.mpr ⟨member, beq_self_eq_true place⟩, rfl⟩
  · intro member
    rcases List.mem_map.mp member with ⟨⟨_, other⟩, filtered, rfl⟩
    rcases List.mem_filter.mp filtered with ⟨receipt, same⟩
    cases eq_of_beq same
    exact receipt

theorem nodup_round (lossless : ledger.Lossless) (isRound : ledger.rounds[place]? = some round) :
    (round.receivers ++ round.ahead).Nodup :=
  (ledger.nodup_present place).sublist (lossless.reached place round isRound).1.sublist

/-- The next listener of a round receives its event. -/
theorem deliver (lossless : ledger.Lossless) {rest : List Nat}
    (isRound : ledger.rounds[place]? = some round) (due : round.ahead = number :: rest) :
    (ledger.deliver place number).Lossless where
  ordered := lossless.ordered
  within moment member := by
    rw [Ledger.deliver, List.length_modify]
    exact lossless.within moment member
  reached other after isAfter := by
    rcases getElem?_modify isAfter with ⟨before, isBefore, ⟨rfl, _⟩ | ⟨rfl, rfl⟩⟩
    · exact lossless.reached other after isBefore
    · cases isRound.symm.trans isBefore
      have same : (round.receivers ++ [number]) ++ round.ahead.tail =
          round.receivers ++ round.ahead := by
        rw [due, List.append_assoc]
        rfl
      rw [Round.deliver, same]
      exact lossless.reached place round isRound
  lastly other after listener isAfter breaks := by
    rcases getElem?_modify isAfter with ⟨before, isBefore, ⟨rfl, _⟩ | ⟨rfl, rfl⟩⟩
    · exact lossless.lastly other after listener isBefore breaks
    · cases isRound.symm.trans isBefore
      cases due.symm.trans (lossless.lastly place round listener isRound breaks).2
  received other after isAfter := by
    rw [Ledger.deliver, List.filter_append, List.map_append]
    rcases getElem?_modify isAfter with ⟨before, isBefore, ⟨rfl, different⟩ | ⟨rfl, rfl⟩⟩
    · rw [lossless.received other after isBefore]
      simp [different]
    · rw [lossless.received place before isBefore]
      simp [Round.deliver]
  begun receipt member := by
    rw [Ledger.deliver, List.length_modify]
    rcases List.mem_append.mp member with before | latest
    · exact lossless.begun receipt before
    · cases List.mem_singleton.mp latest
      exact (List.getElem?_eq_some_iff.mp isRound).1
  earlier early late overlap :=
    lossless.earlier early late (overlap_deliver.mp overlap)
  noted early late after isAfter goesOn before inside := by
    rw [overlap_deliver]
    rw [Ledger.deliver, List.length_modify] at inside
    rcases getElem?_modify isAfter with ⟨former, isFormer, ⟨rfl, _⟩ | ⟨rfl, rfl⟩⟩
    · exact lossless.noted early late after isFormer goesOn before inside
    · cases isRound.symm.trans isFormer
      have wentOn : round.isOver = false := by rw [Round.isOver, due]; rfl
      exact lossless.noted place late round isRound wentOn before inside
  inOrder := by
    refine List.pairwise_append.mpr ⟨?_, List.pairwise_singleton _ _, ?_⟩
    · exact lossless.inOrder.imp fun ordered same =>
        (ordered same).imp_right overlap_deliver.mpr
    · rintro ⟨other, earlier⟩ member _ latest same
      cases List.mem_singleton.mp latest
      cases same
      rw [overlap_deliver]
      have wentOn : round.isOver = false := by rw [Round.isOver, due]; rfl
      rcases Nat.lt_trichotomy earlier place with before | rfl | after
      · exact .inl before
      · -- Nobody receives the event of a round twice.
        have disjoint := (List.nodup_append.mp (lossless.nodup_round isRound)).2.2
        have again : number ∈ round.ahead := due ▸ List.mem_cons_self
        exact absurd rfl (disjoint number ((lossless.receipt_iff isRound).mp member) number again)
      · exact .inr (lossless.noted place earlier round isRound wentOn after
          (lossless.begun _ member))

theorem breakOff (lossless : ledger.Lossless) (isRound : ledger.rounds[place]? = some round)
    (last : round.receivers.getLast? = some number) : (ledger.breakOff place number).Lossless where
  ordered := lossless.ordered
  within moment member := by
    rw [Ledger.breakOff, List.length_modify]
    exact lossless.within moment member
  reached other after isAfter := by
    rcases getElem?_modify isAfter with ⟨before, isBefore, ⟨rfl, _⟩ | ⟨rfl, _⟩⟩
    · exact lossless.reached other after isBefore
    · refine ⟨?_, nofun⟩
      rw [Round.breakOff, List.append_nil]
      exact (List.prefix_append _ _).trans (lossless.reached other before isBefore).1
  lastly other after listener isAfter breaks := by
    rcases getElem?_modify isAfter with ⟨before, isBefore, ⟨rfl, _⟩ | ⟨rfl, rfl⟩⟩
    · exact lossless.lastly other after listener isBefore breaks
    · cases isRound.symm.trans isBefore
      cases breaks
      exact ⟨last, rfl⟩
  received other after isAfter := by
    rcases getElem?_modify isAfter with ⟨before, isBefore, ⟨rfl, _⟩ | ⟨rfl, _⟩⟩
    · exact lossless.received other after isBefore
    · exact lossless.received other before isBefore
  begun receipt member := by
    rw [Ledger.breakOff, List.length_modify]
    exact lossless.begun receipt member
  earlier early late overlap :=
    lossless.earlier early late (overlap_breakOff.mp overlap)
  noted early late after isAfter goesOn before inside := by
    rw [overlap_breakOff]
    rw [Ledger.breakOff, List.length_modify] at inside
    rcases getElem?_modify isAfter with ⟨former, isFormer, ⟨rfl, _⟩ | ⟨rfl, _⟩⟩
    · exact lossless.noted early late after isFormer goesOn before inside
    · cases goesOn
  inOrder := lossless.inOrder.imp fun ordered same =>
    (ordered same).imp_right overlap_breakOff.mpr

end Lossless

/-! ## What a listener hears -/

/-- Whether a round is about one of some events. -/
def concerns (ledger : Ledger E) (which : E → Bool) (place : Nat) : Bool :=
  ledger.rounds[place]?.any fun round => which round.event

/-- The rounds of some events, from a moment on, came to their end, and no two of
them overlap. -/
def Undisturbed (ledger : Ledger E) (moment : Nat) (which : E → Bool) : Prop :=
  ∀ place round, ledger.rounds[place]? = some round → moment ≤ place → which round.event = true →
    round.isComplete = true ∧
      ∀ early ∈ round.beside, moment ≤ early → ledger.concerns which early = false

/-- What a listener can rely on, given the moment of its registration. -/
structure Serves (ledger : Ledger E) (number moment : Nat) : Prop where
  once : (ledger.heard number).Nodup
  /-- It hears nothing of the rounds that had begun before, -/
  after : ∀ place ∈ ledger.heard number, moment ≤ place
  /-- and of all others, except for those that were broken off or are not over. -/
  all : ∀ place round, ledger.rounds[place]? = some round → moment ≤ place →
    round.isComplete = true → place ∈ ledger.heard number
  inOrder : (ledger.heard number).Pairwise fun one other =>
    one < other ∨ ledger.Overlap other one
  /-- If some events are undisturbed, it hears these as they were sent. -/
  asSent : ∀ which, ledger.Undisturbed moment which →
    (ledger.history number).filter which = (ledger.sent.drop moment).filter which

/-- What a record promises to all who listen. -/
structure Delivers (ledger : Ledger E) : Prop where
  /-- Listeners have their numbers in the order of their registration. -/
  ordered : ledger.since.Pairwise (· ≤ ·)
  /-- Nobody receives an event who was not there when its round began, and those
  who were there receive it once each, in this order. -/
  reached : ∀ place round, ledger.rounds[place]? = some round →
    round.receivers <+: ledger.present place ∧
      (round.isComplete = true → round.receivers = ledger.present place)
  /-- If somebody breaks a round off, those who come later miss the event. -/
  brokenOff : ∀ (place : Nat) round listener, ledger.rounds[place]? = some round →
    round.breaker = some listener → round.receivers.getLast? = some listener
  serves : ∀ number moment, ledger.since[number]? = some moment → ledger.Serves number moment

theorem mem_heard : place ∈ ledger.heard number ↔ (number, place) ∈ ledger.receipts := by
  rw [heard, List.mem_map]
  constructor
  · rintro ⟨⟨_, _⟩, member, rfl⟩
    rcases List.mem_filter.mp member with ⟨receipt, same⟩
    cases eq_of_beq same
    exact receipt
  · intro receipt
    exact ⟨_, List.mem_filter.mpr ⟨receipt, beq_self_eq_true number⟩, rfl⟩

theorem filterMap_getElem?_range' {α : Type} {items : List α} {count : Nat}
    (whole : moment + count = items.length) :
    (List.range' moment count).filterMap (items[·]?) = items.drop moment := by
  induction count generalizing moment with
  | zero => exact (List.drop_eq_nil_of_le (Nat.le_of_eq whole.symm)).symm
  | succ count induction =>
      have inside : moment < items.length := by omega
      have item : items[moment]? = some items[moment] := List.getElem?_eq_getElem inside
      rw [List.range'_succ, List.filterMap_cons_some item, List.drop_eq_getElem_cons inside,
        induction (by omega)]

theorem filter_events (ledger : Ledger E) (which : E → Bool) (places : List Nat) :
    (places.filterMap fun place => ledger.rounds[place]?.map Round.event).filter which =
      (places.filter (ledger.concerns which)).filterMap fun place =>
        ledger.rounds[place]?.map Round.event := by
  rw [List.filter_filterMap, List.filterMap_filter]
  congr 1
  funext place
  rw [concerns]
  cases ledger.rounds[place]? with
  | none => rfl
  | some round => cases held : which round.event <;> simp [Option.filter, held]

namespace Lossless

theorem pairwise_heard (lossless : ledger.Lossless) (number : Nat) :
    (ledger.heard number).Pairwise fun one other => one < other ∨ ledger.Overlap other one := by
  rw [heard, List.pairwise_map]
  refine (lossless.inOrder.filter _).imp_of_mem ?_
  intro one other isOne isOther ordered
  have same : one.1 = other.1 :=
    (eq_of_beq (List.mem_filter.mp isOne).2).trans (eq_of_beq (List.mem_filter.mp isOther).2).symm
  exact ordered same

theorem nodup_heard (lossless : ledger.Lossless) (number : Nat) :
    (ledger.heard number).Nodup := by
  refine (lossless.pairwise_heard number).imp ?_
  rintro one other (before | overlap) rfl
  · exact Nat.lt_irrefl one before
  · exact Nat.lt_irrefl one (lossless.earlier one one overlap)

theorem present_of_mem_heard (lossless : ledger.Lossless)
    (isRound : ledger.rounds[place]? = some round) (member : place ∈ ledger.heard number) :
    number ∈ ledger.present place := by
  have receiver := (lossless.receipt_iff isRound).mp (mem_heard.mp member)
  exact (lossless.reached place round isRound).1.subset (List.mem_append_left _ receiver)

theorem lt_of_mem_heard (lossless : ledger.Lossless) (member : place ∈ ledger.heard number) :
    place < ledger.rounds.length :=
  lossless.begun _ (mem_heard.mp member)

theorem moment_le_of_mem_heard (lossless : ledger.Lossless)
    (registered : ledger.since[number]? = some moment) (member : place ∈ ledger.heard number) :
    moment ≤ place := by
  have isRound := List.getElem?_eq_getElem (lossless.lt_of_mem_heard member)
  rcases mem_present.mp (lossless.present_of_mem_heard isRound member) with ⟨other, found, early⟩
  cases registered.symm.trans found
  exact early

/-- A complete round has reached everybody who was there. -/
theorem receivers_of_complete (lossless : ledger.Lossless)
    (isRound : ledger.rounds[place]? = some round) (complete : round.isComplete = true) :
    round.receivers = ledger.present place := by
  rcases (Bool.and_eq_true _ _).mp complete with ⟨ended, unbroken⟩
  have reached := (lossless.reached place round isRound).2 (by simpa using unbroken)
  rwa [List.isEmpty_iff.mp ended, List.append_nil] at reached

theorem mem_heard_of_complete (lossless : ledger.Lossless)
    (registered : ledger.since[number]? = some moment)
    (isRound : ledger.rounds[place]? = some round) (after : moment ≤ place)
    (complete : round.isComplete = true) : place ∈ ledger.heard number := by
  rw [mem_heard, lossless.receipt_iff isRound, lossless.receivers_of_complete isRound complete]
  exact mem_present.mpr ⟨moment, registered, after⟩

theorem filter_heard (lossless : ledger.Lossless)
    (registered : ledger.since[number]? = some moment) {which : E → Bool}
    (undisturbed : ledger.Undisturbed moment which) :
    (ledger.heard number).filter (ledger.concerns which) =
      (List.range' moment (ledger.rounds.length - moment)).filter (ledger.concerns which) := by
  have about (place : Nat) (concerned : ledger.concerns which place = true) :
      ∃ round, ledger.rounds[place]? = some round ∧ which round.event = true :=
    (Option.any_eq_true _ _).mp concerned
  have heardInOrder : ((ledger.heard number).filter (ledger.concerns which)).Pairwise (· < ·) := by
    refine ((lossless.pairwise_heard number).filter _).imp_of_mem ?_
    rintro one other isOne isOther (before | ⟨round, isRound, member⟩)
    · exact before
    · rcases List.mem_filter.mp isOne with ⟨heardOne, concerned⟩
      rcases List.mem_filter.mp isOther with ⟨heardOther, alsoConcerned⟩
      rcases about one concerned with ⟨_, same, held⟩
      cases isRound.symm.trans same
      have apart := (undisturbed one round isRound
        (lossless.moment_le_of_mem_heard registered heardOne) held).2 other member
        (lossless.moment_le_of_mem_heard registered heardOther)
      cases apart.symm.trans alsoConcerned
  have sentInOrder : ((List.range' moment (ledger.rounds.length - moment)).filter
      (ledger.concerns which)).Pairwise (· < ·) := (List.pairwise_lt_range' 1).filter _
  refine heardInOrder.sortedLT.eq_of_mem_iff sentInOrder.sortedLT fun place => ?_
  rw [List.mem_filter, List.mem_filter, List.mem_range'_1]
  constructor
  · rintro ⟨member, concerned⟩
    have inside := lossless.lt_of_mem_heard member
    have after := lossless.moment_le_of_mem_heard registered member
    exact ⟨⟨after, by omega⟩, concerned⟩
  · rintro ⟨⟨after, _⟩, concerned⟩
    rcases about place concerned with ⟨round, isRound, held⟩
    have complete := (undisturbed place round isRound after held).1
    exact ⟨lossless.mem_heard_of_complete registered isRound after complete, concerned⟩

theorem filter_history (lossless : ledger.Lossless)
    (registered : ledger.since[number]? = some moment) {which : E → Bool}
    (undisturbed : ledger.Undisturbed moment which) :
    (ledger.history number).filter which = (ledger.sent.drop moment).filter which := by
  have inside := lossless.within moment (List.mem_of_getElem? registered)
  have whole : moment + (ledger.rounds.length - moment) = ledger.sent.length := by
    rw [sent, List.length_map]
    omega
  have events : ledger.sent.drop moment =
      (List.range' moment (ledger.rounds.length - moment)).filterMap fun place =>
        ledger.rounds[place]?.map Round.event := by
    rw [← filterMap_getElem?_range' whole]
    simp only [sent, List.getElem?_map]
  rw [history, events, filter_events, filter_events, lossless.filter_heard registered undisturbed]

theorem serves (lossless : ledger.Lossless) (registered : ledger.since[number]? = some moment) :
    ledger.Serves number moment where
  once := lossless.nodup_heard number
  after _ := lossless.moment_le_of_mem_heard registered
  all _ _ := lossless.mem_heard_of_complete registered
  inOrder := lossless.pairwise_heard number
  asSent _ := lossless.filter_history registered

theorem delivers (lossless : ledger.Lossless) : ledger.Delivers where
  ordered := lossless.ordered
  reached place round isRound :=
    ⟨(List.prefix_append _ _).trans (lossless.reached place round isRound).1,
      lossless.receivers_of_complete isRound⟩
  brokenOff place round listener isRound breaks :=
    (lossless.lastly place round listener isRound breaks).1
  serves _ _ := lossless.serves

end Lossless

end Ledger

end NodeAssembly
