import NodeAssembly.Proofs.Node.Diary
import NodeAssembly.Proofs.Node.Roster

/-! What the listeners of a node hear over its life. The roster of the listeners
goes from event to event and from run to run, and the diary of the node tells
which events there were. The two agree at every moment: what is on record was
heard, in the same order, and the only event that is not yet on record is the one
that the listeners are handling. -/

namespace NodeAssembly

variable {L S : Type}

namespace Roster

variable {E : Type}

/-- The same listeners with something else that they share. -/
def withMemory {T : Type} (roster : Roster L S E) (memory : T) : Roster L T E :=
  ⟨roster.listeners, roster.ledger, memory⟩

theorem Lossless.withMemory {T : Type} {roster : Roster L S E} (lossless : roster.Lossless)
    (memory : T) : (roster.withMemory memory).Lossless :=
  ⟨lossless.ledger, lossless.numbered, lossless.settled⟩

end Roster

/-- Listeners to a node. What they ask of the node while they handle an event is
put together in one reaction. -/
def Audience.ofRoster (handle : Bool → L → Event → StateT (S × Reaction) Script (Handled L)) :
    Audience (Roster L S Event) where
  notify running event roster := do
    let (later, broken) ←
      (roster.withMemory (roster.memory, Reaction.none)).send (handle running) event
    return (later.withMemory later.memory.1, { later.memory.2 with broken := broken })

namespace Note

def event? : Note → Option Event
  | .heard event => some event
  | _ => none

/-- The events that the notes tell of, the first one first. -/
def events (notes : List Note) : List Event :=
  notes.reverse.filterMap event?

theorem events_append (latest notes : List Note) :
    events (latest ++ notes) = events notes ++ events latest := by
  rw [events, List.reverse_append, List.filterMap_append]
  rfl

end Note

/-- The event that the listeners are handling. -/
def Phase.event? : Phase → Option Event
  | .notifying event => some event
  | _ => none

/-- What can happen to a node and its listeners. A run that follows another one
finds the listeners that the other one left. -/
inductive Happening (L : Type) where
  | turn (turn : Turn Unit)
  /-- Somebody registers a listener while no event is on its way. -/
  | register (listener : L)

/-- The turn with the listeners of the node. -/
def Turn.carrying {σ : Type} (listeners : σ) : Turn Unit → Turn σ
  | .step board => .step board
  | .expire board => .expire board
  | .stop => .stop
  | .overwrite file => .overwrite file
  | .restart _ board => .restart listeners board

namespace Diary

def withListeners {σ : Type} (diary : Diary σ) (listeners : σ) : Diary σ :=
  { diary with watch :=
    { diary.watch with agent := { diary.watch.agent with listeners := listeners } } }

def undergo (handle : Bool → L → Event → StateT (S × Reaction) Script (Handled L))
    (diary : Diary (Roster L S Event)) : Happening L → Diary (Roster L S Event)
  | .turn next => diary.turn (.ofRoster handle) (next.carrying diary.agent.listeners)
  | .register listener =>
    match diary.agent.phase.event? with
    | some _ => diary
    | none => diary.withListeners (diary.agent.listeners.register listener)

def live (handle : Bool → L → Event → StateT (S × Reaction) Script (Handled L))
    (diary : Diary (Roster L S Event)) (happenings : List (Happening L)) :
    Diary (Roster L S Event) :=
  happenings.foldl (undergo handle) diary

end Diary

/-! ## One event -/

section

variable {handle : Bool → L → Event → StateT (S × Reaction) Script (Handled L)}

theorem keeps_notify_roster {roster : Roster L S Event} (lossless : roster.Lossless)
    (running : Bool) (event : Event) :
    ((Audience.ofRoster handle).notify running event roster).Keeps .anything fun result =>
      result.1.Lossless ∧ result.1.ledger.sent = roster.ledger.sent ++ [event] := by
  apply Script.Keeps.bind ((lossless.withMemory (roster.memory, Reaction.none)).send event)
  rintro ⟨later, _⟩ ⟨kept, sent, _⟩
  exact ⟨kept.withMemory later.memory.1, sent⟩

end

namespace Script

variable {α : Type} {execution after : Execution} {board boardAfter : Board}
  {script next : Script α} {ends : α → Prop}

theorem Keeps.of_stepScript (keeps : script.Keeps .anything ends)
    (step : execution.stepScript board script = some (after, boardAfter, next)) :
    next.Keeps .anything ends := by
  rcases Execution.stepScript_cases step with
    ⟨request, resume, rfl, ⟨answer, _, rfl⟩ | ⟨_, rfl⟩⟩
  · exact keeps.2 answer (Terms.anything_admits request answer)
  · exact keeps

theorem Keeps.of_expireScript (keeps : script.Keeps .anything ends)
    (step : execution.expireScript board script = some (after, boardAfter, next)) :
    next.Keeps .anything ends := by
  rcases Execution.expireScript_cases step with
    ⟨request, resume, _, _, answer, rfl, _, _, _, _, rfl⟩
  exact keeps.2 answer (Terms.anything_admits request answer)

end Script

/-! ## All events -/

/-- The roster of a node agrees with the notes about it. -/
structure Recorded (agent : Agent (Roster L S Event)) (notes : List Note) : Prop where
  lossless : agent.listeners.Lossless
  heard : agent.listeners.ledger.sent ++ agent.phase.event?.toList = Note.events notes
  /-- Once the event is handled it is on record. -/
  pending : ∀ event script, agent.stage = .notifying event script →
    script.Keeps .anything fun result =>
      result.1.Lossless ∧ result.1.ledger.sent = Note.events notes

namespace Agent

variable {σ : Type}

theorem events_news {before after : Agent σ} {event : Event}
    (starts : before.phase = .visiting ∨ before.phase = .executing)
    (announces : after.phase = .notifying event) : Note.events (before.news after) = [event] := by
  unfold news
  rw [announces]
  rcases starts with phase | phase
  · rw [phase]
    cases event with
    | skipped position => rfl
    | _ =>
        simp only
        split <;> rfl
  · rw [phase]
    cases event <;> rfl

theorem events_news_nil {before after : Agent σ} (quiet : after.phase.event? = none) :
    Note.events (before.news after) = [] := by
  unfold news
  cases phase : after.phase with
  | notifying event =>
      rw [phase] at quiet
      cases quiet
  | _ => cases before.phase <;> rfl

theorem react_settles (agent : Agent σ) (board : Board) (event : Event) (listeners : σ)
    (reaction : Reaction) :
    (agent.react board event listeners reaction).1.listeners = listeners ∧
      (agent.react board event listeners reaction).1.phase.event? = none := by
  rcases reaction with ⟨stop, restart, broken⟩
  cases broken <;> cases stop <;> cases event <;> exact ⟨rfl, rfl⟩

end Agent

namespace Recorded

variable {handle : Bool → L → Event → StateT (S × Reaction) Script (Handled L)}
  {agent after : Agent (Roster L S Event)} {notes : List Note} {board : Board}

/-- The listeners are the same as before, and handle no event. -/
theorem quiet (recorded : Recorded agent notes) (idle : agent.phase.event? = none)
    (listeners : after.listeners = agent.listeners) (quiet : after.phase.event? = none) :
    Recorded after (agent.news after ++ notes) := by
  have heard := recorded.heard
  rw [idle, Option.toList_none, List.append_nil] at heard
  refine ⟨listeners ▸ recorded.lossless, ?_, fun event script stage => ?_⟩
  · rw [listeners, quiet, Note.events_append, Agent.events_news_nil quiet, Option.toList_none,
      heard]
  · rw [Agent.phase, stage] at quiet
    cases quiet

/-- The listeners are about to handle an event. -/
theorem send (recorded : Recorded agent notes)
    (starts : agent.phase = .visiting ∨ agent.phase = .executing)
    (listeners : after.listeners = agent.listeners) (event : Event) :
    Recorded (after.send (.ofRoster handle) event)
      (agent.news (after.send (.ofRoster handle) event) ++ notes) := by
  have idle : agent.phase.event? = none := by
    rcases starts with phase | phase <;> rw [phase] <;> rfl
  have heard := recorded.heard
  rw [idle, Option.toList_none, List.append_nil] at heard
  have news : Note.events (agent.news (after.send (.ofRoster handle) event) ++ notes) =
      agent.listeners.ledger.sent ++ [event] := by
    rw [Note.events_append, Agent.events_news starts rfl, heard]
  have same : (after.send (.ofRoster handle) event).listeners = agent.listeners := listeners
  refine ⟨same ▸ recorded.lossless, ?_, ?_⟩
  · rw [news, same]
    rfl
  · rintro _ _ ⟨⟩
    rw [news, listeners]
    exact keeps_notify_roster recorded.lossless _ event

theorem conclude (recorded : Recorded agent notes)
    (starts : agent.phase = .visiting ∨ agent.phase = .executing) (board : Board)
    (result : Except Fault Unit) :
    Recorded (agent.conclude (.ofRoster handle) board result).1
      (agent.news (agent.conclude (.ofRoster handle) board result).1 ++ notes) := by
  cases result with
  | ok => exact recorded.send starts (by rfl) .stopped
  | error fault => exact recorded.send starts (by rfl) (.faulted fault)

theorem visit (recorded : Recorded agent notes) (stage : agent.stage = .visiting) (board : Board) :
    Recorded (agent.visit (.ofRoster handle) board).1
      (agent.news (agent.visit (.ofRoster handle) board).1 ++ notes) := by
  have phase : agent.phase = .visiting := congrArg Stage.phase stage
  have finds := agent.visit_finds (.ofRoster handle) board
  generalize agent.visit (.ofRoster handle) board = result at finds ⊢
  cases finds with
  | nothing => exact recorded.conclude (.inl phase) board (.ok ())
  | stopped => exact recorded.conclude (.inl phase) board (.ok ())
  | exhausted => exact recorded.conclude (.inl phase) _ (.ok ())
  | spent => exact recorded.send (.inl phase) (by rfl) _
  | fresh => exact recorded.quiet (congrArg Phase.event? phase) rfl rfl

/-- The run is still in the same phase, perhaps with a script that is one request
further. -/
theorem further (recorded : Recorded agent notes) (phase : after.phase = agent.phase)
    (listeners : after.listeners = agent.listeners)
    (pending : ∀ event script, after.stage = .notifying event script →
      script.Keeps .anything fun result =>
        result.1.Lossless ∧ result.1.ledger.sent = Note.events notes) :
    Recorded after (agent.news after ++ notes) := by
  rw [Agent.news_of_phase phase]
  refine ⟨listeners ▸ recorded.lossless, ?_, pending⟩
  rw [phase, listeners]
  exact recorded.heard

theorem react (recorded : Recorded agent notes) {event : Event} {listeners : Roster L S Event}
    {reaction : Reaction} (stage : agent.stage = .notifying event (.done (listeners, reaction))) :
    Recorded (agent.react board event listeners reaction).1
      (agent.news (agent.react board event listeners reaction).1 ++ notes) := by
  rcases recorded.pending event _ stage with ⟨lossless, sent⟩
  rcases Agent.react_settles agent board event listeners reaction with ⟨same, quiet⟩
  rw [Agent.news_of_notifying (congrArg Stage.phase stage)]
  refine ⟨?_, ?_, fun other script stage => ?_⟩
  · rw [same]
    exact lossless
  · rw [same, quiet, Option.toList_none, List.append_nil]
    exact sent
  · rw [Agent.phase, stage] at quiet
    cases quiet

theorem step (recorded : Recorded agent notes) {result : Agent (Roster L S Event) × Board}
    (step : agent.step (.ofRoster handle) board = some result) :
    Recorded result.1 (agent.news result.1 ++ notes) := by
  cases Agent.step_moves step with
  | visits stage => exact recorded.visit stage board
  | faults stage => exact recorded.conclude (.inr (congrArg Stage.phase stage)) board _
  | completes stage found => exact recorded.send (.inr (congrArg Stage.phase stage)) rfl _
  | leaves stage missing => exact recorded.conclude (.inr (congrArg Stage.phase stage)) board _
  | executes stage scriptStep =>
      exact recorded.further (congrArg Stage.phase stage).symm (by rfl) nofun
  | reacts stage => exact recorded.react stage
  | notifies stage scriptStep =>
      refine recorded.further (congrArg Stage.phase stage).symm (by rfl) ?_
      rintro _ _ ⟨⟩
      exact (recorded.pending _ _ stage).of_stepScript scriptStep

theorem expire (recorded : Recorded agent notes) {result : Agent (Roster L S Event) × Board}
    (expires : agent.expire board = some result) :
    Recorded result.1 (agent.news result.1 ++ notes) := by
  cases Agent.expire_givesUp expires with
  | executes stage scriptStep =>
      exact recorded.further (congrArg Stage.phase stage).symm (by rfl) nofun
  | notifies stage scriptStep =>
      refine recorded.further (congrArg Stage.phase stage).symm (by rfl) ?_
      rintro _ _ ⟨⟩
      exact (recorded.pending _ _ stage).of_expireScript scriptStep

theorem unchanged (recorded : Recorded agent notes) : Recorded agent (agent.news agent ++ notes) :=
  recorded.further rfl rfl recorded.pending

theorem turn {diary : Diary (Roster L S Event)} (recorded : Recorded diary.agent diary.notes)
    (next : Turn Unit) :
    Recorded (diary.turn (.ofRoster handle) (next.carrying diary.agent.listeners)).agent
      (diary.turn (.ofRoster handle) (next.carrying diary.agent.listeners)).notes := by
  unfold Diary.turn Watch.turn
  cases next with
  | step board =>
      simp only [Turn.carrying]
      split
      next step => exact recorded.step step
      next => exact recorded.unchanged
  | expire board =>
      simp only [Turn.carrying]
      split
      next expires => exact recorded.expire expires
      next => exact recorded.unchanged
  | stop => exact recorded.further rfl rfl recorded.pending
  | overwrite file => exact recorded.further rfl rfl recorded.pending
  | restart nobody board =>
      simp only [Turn.carrying]
      split
      next node finished claimed =>
        exact recorded.quiet (congrArg Phase.event? (Agent.phase_of_ending finished)) rfl rfl
      next => exact recorded.unchanged

theorem undergo {diary : Diary (Roster L S Event)} (recorded : Recorded diary.agent diary.notes)
    (next : Happening L) :
    Recorded (diary.undergo handle next).agent (diary.undergo handle next).notes := by
  cases next with
  | turn next => exact recorded.turn next
  | register listener =>
      unfold Diary.undergo
      simp only
      split
      next => exact recorded
      next idle =>
        refine ⟨recorded.lossless.register listener, recorded.heard, fun event script stage => ?_⟩
        have notifying : diary.agent.phase = .notifying event := congrArg Stage.phase stage
        rw [notifying] at idle
        cases idle

theorem live {diary : Diary (Roster L S Event)} (recorded : Recorded diary.agent diary.notes)
    (happenings : List (Happening L)) :
    Recorded (diary.live handle happenings).agent (diary.live handle happenings).notes := by
  induction happenings generalizing diary with
  | nil => exact recorded
  | cons next happenings induction => exact induction (recorded.undergo next)

end Recorded

end NodeAssembly
