import NodeAssembly.Proofs.Node.Life

/-! What the listeners of a node are told over its life. A run goes on with the
next event only when the round of the last one is over, so what is known of each
run is kept by every move, whichever run or listener makes it. -/

namespace NodeAssembly

namespace Life

/-- What is known of one run. -/
structure Speaks (life : Life) (place : Nat) : Prop where
  plain : ∀ tenant, life.tenancy.tenants[place]? = some tenant → tenant.Plain
  tells : ∀ phase, life.phase? place = some phase → phase.Tells (life.voices place).events
  nobody : life.phase? place = none → life.voices place = ⟨[], none⟩
  told : life.told place ++ life.unsaid place = (life.voices place).events
  current : ∀ number, (life.voices place).round = some number →
    (∃ round, life.Utters place number round) ∧
      ∃ event, life.phase? place = some (.notifying event)
  settled : ∀ number round, life.Utters place number round →
    (life.voices place).round ≠ some number → round.isOver = true
  unbroken : ∀ number round, life.Utters place number round → round.broken = true →
    life.phase? place = some (.finished .broken)
  apart : ∀ late round, life.Utters place late round → ∀ early ∈ round.beside,
    ∀ other, ¬ life.Utters place early other

/-- What is known of a life. -/
structure Sound (life : Life) : Prop where
  lossless : life.ledger.Lossless
  speaks : ∀ place, life.Speaks place

variable {life later : Life} {place number : Nat} {round : Round (Nat × Event)} {board : Board}

/-- A run of which nothing has changed that its listeners would notice. -/
theorem Speaks.of_same (speaks : life.Speaks place)
    (plain : ∀ tenant, later.tenancy.tenants[place]? = some tenant → tenant.Plain)
    (phase : later.phase? place = life.phase? place)
    (voice : later.voices place = life.voices place)
    (utters : ∀ number round, later.Utters place number round ↔ life.Utters place number round)
    (told : later.told place = life.told place) : later.Speaks place where
  plain := plain
  tells := by
    rw [phase, voice]
    exact speaks.tells
  nobody := by
    rw [phase, voice]
    exact speaks.nobody
  told := by
    rw [told, unsaid, phase, voice]
    exact speaks.told
  current number isCurrent := by
    rcases speaks.current number (voice ▸ isCurrent) with ⟨⟨round, isRound⟩, notifying⟩
    exact ⟨⟨round, (utters number round).mpr isRound⟩, phase ▸ notifying⟩
  settled number round isRound others :=
    speaks.settled number round ((utters number round).mp isRound) (voice ▸ others)
  unbroken number round isRound broken :=
    phase ▸ speaks.unbroken number round ((utters number round).mp isRound) broken
  apart late round isRound early member other isOther :=
    speaks.apart late round ((utters late round).mp isRound) early member other
      ((utters early other).mp isOther)

/-! ## One move -/

theorem not_utters_vacant (node : Node) : ¬ (vacant node).Utters place number round := by
  rintro ⟨isRound, _⟩
  cases isRound

theorem sound_vacant (node : Node) : (vacant node).Sound where
  lossless := .empty
  speaks place := {
    plain := by rintro tenant ⟨⟩
    tells := by rintro phase ⟨⟩
    nobody := fun _ => rfl
    told := rfl
    current := by rintro number ⟨⟩
    settled := fun _ _ isRound => absurd isRound (not_utters_vacant node)
    unbroken := fun _ _ isRound => absurd isRound (not_utters_vacant node)
    apart := fun _ _ isRound => absurd isRound (not_utters_vacant node) }

theorem Sound.of_same (sound : life.Sound) (lossless : later.ledger.Lossless)
    (tenants : later.tenancy.tenants = life.tenancy.tenants)
    (rounds : later.ledger.rounds = life.ledger.rounds) (voices : later.voices = life.voices) :
    later.Sound where
  lossless := lossless
  speaks place := by
    refine (sound.speaks place).of_same ?_ ?_ (congrFun voices place) (fun number round => ?_) ?_
    · rw [tenants]
      exact (sound.speaks place).plain
    · rw [phase?, tenants, ← phase?]
    · rw [Utters, rounds, ← Utters]
    · rw [told, Ledger.sent, rounds, ← Ledger.sent, ← told]

/-- The run that was let in has told nothing. -/
theorem Speaks.enter (speaks : life.Speaks life.tenancy.tenants.length) {tenant : Tenant Unit}
    (tenants : later.tenancy.tenants = life.tenancy.tenants ++ [tenant]) (plain : tenant.Plain)
    (visiting : tenant.agent.phase = .visiting) (ledger : later.ledger = life.ledger)
    (voices : later.voices = life.voices) : later.Speaks life.tenancy.tenants.length := by
  have nobody : life.phase? life.tenancy.tenants.length = none := by
    rw [phase?, List.getElem?_eq_none Nat.le.refl]
    rfl
  have found : later.tenancy.tenants[life.tenancy.tenants.length]? = some tenant := by
    rw [tenants, List.getElem?_concat_length]
  have phase : later.phase? life.tenancy.tenants.length = some .visiting := by
    rw [phase?, found, Option.map_some, visiting]
  have voice : later.voices life.tenancy.tenants.length = ⟨[], none⟩ := by
    rw [voices, speaks.nobody nobody]
  have told : later.told life.tenancy.tenants.length = [] := by
    have toldBefore := speaks.told
    rw [speaks.nobody nobody] at toldBefore
    rw [Life.told, ledger]
    exact (List.append_eq_nil_iff.mp toldBefore).1
  have utters (number : Nat) (round : Round (Nat × Event)) :
      later.Utters life.tenancy.tenants.length number round ↔
        life.Utters life.tenancy.tenants.length number round := by
    rw [Utters, ledger, ← Utters]
  exact {
    plain := by
      intro other isOther
      cases found.symm.trans isOther
      exact plain
    tells := by
      intro other isPhase
      cases phase.symm.trans isPhase
      rw [voice]
      exact fun _ member => (List.not_mem_nil member).elim
    nobody := by
      intro missing
      cases phase.symm.trans missing
    told := by
      rw [told, unsaid, phase, voice]
      rfl
    current := by
      intro number isCurrent
      rw [voice] at isCurrent
      cases isCurrent
    settled := by
      intro number round isRound _
      refine speaks.settled number round ((utters number round).mp isRound) ?_
      rw [speaks.nobody nobody]
      nofun
    unbroken := by
      intro number round isRound broken
      have ended := speaks.unbroken number round ((utters number round).mp isRound) broken
      cases nobody.symm.trans ended
    apart := by
      intro late round isRound early member other isOther
      exact speaks.apart late round ((utters late round).mp isRound) early member other
        ((utters early other).mp isOther) }

theorem getElem?_concat_of_ne {α : Type} {items : List α} (last : α)
    (other : place ≠ items.length) : (items ++ [last])[place]? = items[place]? := by
  rcases Nat.lt_or_gt_of_ne other with before | beyond
  · exact List.getElem?_append_left before
  · have outside : (items ++ [last]).length ≤ place := by
      rw [List.length_append]
      exact beyond
    rw [List.getElem?_eq_none outside, List.getElem?_eq_none (Nat.le_of_lt beyond)]

theorem Sound.request (sound : life.Sound) (board : Board) :
    (life.move (.request board)).Sound := by
  simp only [move, Tenancy.move]
  split
  next node claimed =>
    refine ⟨sound.lossless, fun place => ?_⟩
    by_cases new : place = life.tenancy.tenants.length
    · subst new
      have plain : Tenant.Plain ⟨(Agent.start node () board).1, none⟩ :=
        ⟨by rintro _ _ ⟨⟩, by rintro ⟨⟩⟩
      exact (sound.speaks _).enter rfl plain rfl rfl rfl
    · have others := getElem?_concat_of_ne ⟨(Agent.start node () board).1, none⟩ new
      refine (sound.speaks place).of_same ?_ ?_ rfl (fun _ _ => .rfl) rfl
      · intro tenant found
        exact (sound.speaks place).plain tenant (others.symm.trans found)
      · exact congrArg (Option.map fun tenant => tenant.agent.phase) others
  next => exact sound

/-- A run that does not wait for its listeners has told all events it has come
to, and no round of it is under way. -/
theorem Speaks.ready (speaks : life.Speaks place) (ready : life.isWaiting place = false) :
    life.told place = (life.voices place).events ∧
      ∀ number round, life.Utters place number round → round.isOver = true := by
  cases voice : (life.voices place).round with
  | none =>
      refine ⟨?_, fun number round isRound => speaks.settled number round isRound (voice ▸ nofun)⟩
      have quiet : life.unsaid place = [] := by
        rw [unsaid, voice]
        rw [isWaiting, round?, voice] at ready
        cases phase : life.phase? place with
        | none => rfl
        | some phase' =>
            cases phase' with
            | notifying event =>
                rw [phase] at ready
                cases ready
            | _ => rfl
      rw [← speaks.told, quiet, List.append_nil]
  | some current =>
      have quiet : life.unsaid place = [] := by rw [unsaid, voice]
      refine ⟨by rw [← speaks.told, quiet, List.append_nil], fun number round isRound => ?_⟩
      by_cases same : current = number
      · subst same
        rcases (speaks.current current voice).2 with ⟨event, phase⟩
        rw [isWaiting, phase, round?, voice, Option.bind_some, isRound.1] at ready
        simpa using ready
      · refine speaks.settled number round isRound ?_
        rw [voice]
        exact fun other => same (Option.some.inj other)

section

variable {tenant after : Tenant Unit}

theorem getElem?_settle (found : life.tenancy.tenants[place]? = some tenant) :
    (life.settle place tenant after).tenancy.tenants[place]? = some after :=
  List.getElem?_set_self (List.getElem?_eq_some_iff.mp found).1

theorem phase?_settle (found : life.tenancy.tenants[place]? = some tenant) (after : Tenant Unit) :
    (life.settle place tenant after).phase? place = some after.agent.phase := by
  rw [phase?, getElem?_settle found, Option.map_some]

theorem phase?_of_found (found : life.tenancy.tenants[place]? = some tenant) :
    life.phase? place = some tenant.agent.phase := by
  rw [phase?, found, Option.map_some]

theorem voices_settle : (life.settle place tenant after).voices place =
    ⟨(life.voices place).events ++ after.agent.phase.event?.toList, none⟩ :=
  Function.update_self ..

/-- The other runs do not notice that one has moved. -/
theorem Speaks.settle_other {other : Nat} (speaks : life.Speaks other) (different : other ≠ place)
    (tenant after : Tenant Unit) : (life.settle place tenant after).Speaks other := by
  have same : (life.settle place tenant after).tenancy.tenants[other]? =
      life.tenancy.tenants[other]? :=
    List.getElem?_set_ne different.symm
  refine speaks.of_same ?_ ?_ (Function.update_of_ne different ..) (fun _ _ => .rfl) rfl
  · intro found isFound
    exact speaks.plain found (same.symm.trans isFound)
  · exact congrArg (Option.map fun tenant => tenant.agent.phase) same

theorem Speaks.settle (speaks : life.Speaks place)
    (found : life.tenancy.tenants[place]? = some tenant) (ready : life.isWaiting place = false)
    (advances : tenant.advance .silent life.tenancy.node board = some after) :
    (life.settle place tenant after).Speaks place := by
  have plain := speaks.plain tenant found
  have phaseBefore := phase?_of_found found
  rcases tenant.tells_advance plain (speaks.tells _ phaseBefore) advances with ⟨still, tells⟩
  rcases speaks.ready ready with ⟨told, settled⟩
  have phase := phase?_settle found after
  exact {
    plain := by
      intro other isOther
      cases (getElem?_settle found).symm.trans isOther
      exact still
    tells := by
      intro other isPhase
      cases phase.symm.trans isPhase
      rw [voices_settle]
      exact tells
    nobody := by
      intro missing
      cases phase.symm.trans missing
    told := by
      rw [unsaid, phase, voices_settle]
      exact congrArg (· ++ _) told
    current := by
      intro number isCurrent
      rw [voices_settle] at isCurrent
      cases isCurrent
    settled := fun number round isRound _ => settled number round isRound
    unbroken := by
      intro number round isRound broken
      have ended := speaks.unbroken number round isRound broken
      rw [phaseBefore] at ended
      rw [Tenant.advance_of_finished plain (Option.some.inj ended)] at advances
      cases advances
    apart := speaks.apart }

end

theorem Sound.advance (sound : life.Sound) (place : Nat) (board : Board) :
    (life.advance place board).Sound := by
  unfold Life.advance
  split
  next tenant found =>
    split
    next => exact sound
    next ready =>
      cases advances : tenant.advance .silent life.tenancy.node board with
      | none => exact sound
      | some after =>
          refine ⟨sound.lossless, fun other => ?_⟩
          by_cases same : other = place
          · subst same
            exact (sound.speaks other).settle found (eq_false_of_ne_true ready) advances
          · exact (sound.speaks other).settle_other same tenant after
  next => exact sound

theorem Sound.expire (sound : life.Sound) (place : Nat) (board : Board) :
    (life.move (.expire place board)).Sound := by
  simp only [move, Tenancy.move]
  split
  next tenant found =>
    cases expires : tenant.expire life.tenancy.node board with
    | none => exact sound
    | some after =>
        rcases tenant.plain_expire ((sound.speaks place).plain tenant found) expires with
          ⟨still, phase⟩
        have tenants (other : Nat) : (life.tenancy.settle place tenant after).tenants[other]? =
            if place = other then some after else life.tenancy.tenants[other]? := by
          rw [Tenancy.settle, List.getElem?_set, if_pos (List.getElem?_eq_some_iff.mp found).1]
        refine ⟨sound.lossless, fun other =>
          (sound.speaks other).of_same ?_ ?_ rfl (fun _ _ => .rfl) rfl⟩
        · intro later isLater
          replace isLater := (tenants other).symm.trans isLater
          split at isLater
          · cases isLater
            exact still
          · exact (sound.speaks other).plain later isLater
        · refine (congrArg (Option.map fun tenant => tenant.agent.phase) (tenants other)).trans ?_
          split
          next same =>
            subst same
            rw [Option.map_some, phase, phase?_of_found found]
          next => rfl
  next => exact sound

/-! ### What becomes of a round -/

theorem Utters.unique {other : Nat} (isRound : life.Utters place number round)
    {same : Round (Nat × Event)} (isSame : life.Utters other number same) :
    same = round ∧ other = place := by
  rcases isRound with ⟨found, rfl⟩
  rcases isSame with ⟨again, rfl⟩
  cases found.symm.trans again
  exact ⟨rfl, rfl⟩

theorem utters_modify {change : Round (Nat × Event) → Round (Nat × Event)} {changed : Nat}
    (event : ∀ round, (change round).event = round.event)
    (rounds : later.ledger.rounds = life.ledger.rounds.modify changed change)
    (isRound : later.Utters place number round) :
    ∃ before, life.Utters place number before ∧
      (round = before ∧ changed ≠ number ∨ round = change before ∧ changed = number) := by
  rcases isRound with ⟨found, about⟩
  rw [rounds] at found
  rcases Ledger.getElem?_modify found with ⟨before, isBefore, ⟨rfl, other⟩ | ⟨rfl, same⟩⟩
  · exact ⟨round, ⟨isBefore, about⟩, .inl ⟨rfl, other⟩⟩
  · exact ⟨before, ⟨isBefore, event before ▸ about⟩, .inr ⟨rfl, same⟩⟩

theorem utters_modify_other {change : Round (Nat × Event) → Round (Nat × Event)}
    {changed other : Nat} {current : Round (Nat × Event)}
    (isCurrent : life.Utters place changed current) (different : other ≠ place)
    (event : ∀ round, (change round).event = round.event)
    (rounds : later.ledger.rounds = life.ledger.rounds.modify changed change) :
    later.Utters other number round ↔ life.Utters other number round := by
  constructor
  · intro isRound
    rcases utters_modify event rounds isRound with ⟨before, isBefore, ⟨rfl, _⟩ | ⟨rfl, rfl⟩⟩
    · exact isBefore
    · exact absurd (isCurrent.unique isBefore).2 different
  · intro isRound
    have elsewhere : changed ≠ number := by
      rintro rfl
      exact different (isCurrent.unique isRound).2
    refine ⟨?_, isRound.2⟩
    rw [rounds, List.getElem?_modify, isRound.1, Option.map_eq_map, Option.map_some,
      if_neg elsewhere]

/-- The round of a run that has one under way. -/
theorem Speaks.utters_round? (speaks : life.Speaks place)
    (isCurrent : life.round? place = some (number, round)) :
    (life.voices place).round = some number ∧ life.Utters place number round := by
  rcases Option.bind_eq_some_iff.mp isCurrent with ⟨current, voice, found⟩
  rcases Option.map_eq_some_iff.mp found with ⟨same, isRound, pair⟩
  cases pair
  rcases (speaks.current number voice).1 with ⟨other, isOther, about⟩
  cases isRound.symm.trans isOther
  exact ⟨voice, isRound, about⟩

theorem Speaks.apart_modify (speaks : life.Speaks place)
    {change : Round (Nat × Event) → Round (Nat × Event)} {changed : Nat}
    (event : ∀ round, (change round).event = round.event)
    (beside : ∀ round, (change round).beside = round.beside)
    (rounds : later.ledger.rounds = life.ledger.rounds.modify changed change) :
    ∀ late round, later.Utters place late round → ∀ early ∈ round.beside,
      ∀ other, ¬ later.Utters place early other := by
  intro late round isRound early member other isOther
  rcases utters_modify event rounds isOther with ⟨former, isFormer, _⟩
  rcases utters_modify event rounds isRound with ⟨before, isBefore, ⟨rfl, _⟩ | ⟨rfl, _⟩⟩
  · exact speaks.apart late round isBefore early member former isFormer
  · exact speaks.apart late before isBefore early (beside before ▸ member) former isFormer

theorem utters_deliver {listener changed : Nat}
    (isRound : ({ life with ledger := life.ledger.deliver changed listener } : Life).Utters place
      number round) :
    ∃ before, life.Utters place number before ∧
      (round = before ∧ changed ≠ number ∨ round = before.deliver listener ∧ changed = number) :=
  utters_modify (Round.event_deliver listener) rfl isRound

theorem Speaks.deliver (speaks : life.Speaks place) {listener : Nat}
    (voice : (life.voices place).round = some number) (isRound : life.Utters place number round) :
    ({ life with ledger := life.ledger.deliver number listener } : Life).Speaks place where
  plain := speaks.plain
  tells := speaks.tells
  nobody := speaks.nobody
  told := by
    rw [Life.told, Ledger.sent_deliver]
    exact speaks.told
  current other isCurrent := by
    cases voice.symm.trans isCurrent
    refine ⟨⟨round.deliver listener, ?_, isRound.2⟩, (speaks.current number voice).2⟩
    rw [Ledger.deliver, List.getElem?_modify, isRound.1, Option.map_eq_map, Option.map_some,
      if_pos rfl]
  settled other after isAfter different := by
    rcases utters_deliver isAfter with ⟨before, isBefore, ⟨rfl, _⟩ | ⟨_, rfl⟩⟩
    · exact speaks.settled other after isBefore different
    · exact absurd voice different
  unbroken other after isAfter broken := by
    rcases utters_deliver isAfter with ⟨before, isBefore, ⟨rfl, _⟩ | ⟨rfl, _⟩⟩
    · exact speaks.unbroken other after isBefore broken
    · exact speaks.unbroken other before isBefore broken
  apart := speaks.apart_modify (Round.event_deliver listener) (Round.beside_deliver listener) rfl

theorem Sound.deliver (sound : life.Sound) (place : Nat) : (life.deliver place).Sound := by
  unfold Life.deliver
  split
  next number round isCurrent =>
    rcases (sound.speaks place).utters_round? isCurrent with ⟨voice, isRound⟩
    split
    next listener rest due =>
      refine ⟨sound.lossless.deliver isRound.1 due, fun other => ?_⟩
      by_cases same : other = place
      · subst same
        exact (sound.speaks other).deliver voice isRound
      · refine (sound.speaks other).of_same (sound.speaks other).plain rfl rfl
          (fun _ _ => utters_modify_other isRound same (Round.event_deliver listener) rfl) ?_
        rw [Life.told, Ledger.sent_deliver, ← Life.told]
    next => exact sound
  next => exact sound

theorem Speaks.breakOff (speaks : life.Speaks place) {tenant : Tenant Unit} {listener : Nat}
    (found : life.tenancy.tenants[place]? = some tenant)
    (voice : (life.voices place).round = some number) :
    ({ life.settle place tenant (tenant.breakOff life.tenancy.node board) with
      ledger := life.ledger.breakOff number listener } : Life).Speaks place := by
  have quiet : life.unsaid place = [] := by rw [unsaid, voice]
  rcases (speaks.current number voice).2 with ⟨last, notifying⟩
  have phaseBefore : tenant.agent.phase = .notifying last :=
    Option.some.inj ((phase?_of_found found).symm.trans notifying)
  rcases speaks.tells _ notifying with ⟨earlier, events, lasting⟩
  rcases Tenant.breakOff_ends phaseBefore life.tenancy.node board with ⟨ended, still⟩
  have phase : (life.settle place tenant (tenant.breakOff life.tenancy.node board)).phase? place =
      some (.finished .broken) := by
    rw [phase?_settle found _, ended]
  have voiceAfter : (life.settle place tenant (tenant.breakOff life.tenancy.node board)).voices
      place = ⟨(life.voices place).events, none⟩ := by
    rw [voices_settle, ended]
    exact congrArg (Voice.mk · none) (List.append_nil _)
  exact {
    plain := by
      intro other isOther
      cases (getElem?_settle found).symm.trans isOther
      exact still
    tells := by
      intro other isPhase
      cases phase.symm.trans isPhase
      simp only [voiceAfter]
      exact ⟨earlier, last, events, lasting⟩
    nobody := by
      intro missing
      cases phase.symm.trans missing
    told := by
      have told := speaks.told
      rw [quiet, List.append_nil] at told
      have unsaidAfter : (life.settle place tenant
          (tenant.breakOff life.tenancy.node board)).unsaid place = [] := by
        rw [unsaid, voiceAfter, phase]
        rfl
      refine (congrArg (_ ++ ·) unsaidAfter).trans ?_
      rw [List.append_nil, Life.told, Ledger.sent_breakOff, ← Life.told, voiceAfter, told]
    current := by
      intro other isCurrent
      simp only [voiceAfter] at isCurrent
      cases isCurrent
    settled := by
      intro other after isAfter _
      rcases utters_modify (Round.event_breakOff listener) rfl isAfter with
        ⟨before, isBefore, ⟨rfl, different⟩ | ⟨rfl, _⟩⟩
      · refine speaks.settled other after isBefore ?_
        rw [voice]
        exact fun same => different (Option.some.inj same)
      · rfl
    unbroken := fun _ _ _ _ => phase
    apart :=
      speaks.apart_modify (Round.event_breakOff listener) (Round.beside_breakOff listener) rfl }

theorem Sound.breakOff (sound : life.Sound) (place : Nat) (board : Board) :
    (life.breakOff place board).Sound := by
  unfold Life.breakOff
  split
  next tenant number round found isCurrent =>
    rcases (sound.speaks place).utters_round? isCurrent with ⟨voice, isRound⟩
    split
    next listener last =>
      refine ⟨sound.lossless.breakOff isRound.1 last, fun other => ?_⟩
      by_cases same : other = place
      · subst same
        exact (sound.speaks other).breakOff found voice
      · have moved := (sound.speaks other).settle_other same tenant
          (tenant.breakOff life.tenancy.node board)
        refine moved.of_same moved.plain rfl rfl
          (fun _ _ => utters_modify_other isRound same (Round.event_breakOff listener) rfl) ?_
        rw [Life.told, Ledger.sent_breakOff, Life.told]
        rfl
    next => exact sound
  next => exact sound

/-! ### A round begins -/

theorem utters_send {about : Nat × Event} (ledger : later.ledger = life.ledger.send about)
    (isRound : later.Utters place number round) : life.Utters place number round ∨
      (number = life.ledger.rounds.length ∧ about.1 = place ∧
        round = ⟨about, life.ledger.underWay, [], List.range life.ledger.since.length, none⟩) := by
  rcases isRound with ⟨found, isAbout⟩
  rw [ledger] at found
  rcases Ledger.getElem?_send found with before | ⟨latest, rfl⟩
  · exact .inl ⟨before, isAbout⟩
  · exact .inr ⟨latest, isAbout, rfl⟩

theorem told_send {about : Nat × Event} (ledger : later.ledger = life.ledger.send about) :
    later.told place = life.told place ++ if about.1 = place then [about.2] else [] := by
  rw [told, ledger, Ledger.sent_send, List.filter_append, List.map_append, ← told]
  split
  next same => simp [same]
  next other => simp [other]

theorem voices_send {event : Event} : (life.send place event).voices place =
    ⟨(life.voices place).events, some life.ledger.rounds.length⟩ :=
  Function.update_self ..

theorem Speaks.send_other {other : Nat} (speaks : life.Speaks other) (different : other ≠ place)
    (event : Event) : (life.send place event).Speaks other := by
  refine speaks.of_same speaks.plain rfl (Function.update_of_ne different ..) ?_ ?_
  · intro number round
    constructor
    · intro isRound
      rcases utters_send rfl isRound with before | ⟨_, same, _⟩
      · exact before
      · exact absurd same.symm different
    · exact fun isRound => ⟨Ledger.getElem?_send_of_some _ isRound.1, isRound.2⟩
  · rw [told_send rfl, if_neg different.symm, List.append_nil]

theorem Speaks.send (speaks : life.Speaks place) (lossless : life.ledger.Lossless)
    {event : Event} (phase : life.phase? place = some (.notifying event))
    (voice : (life.voices place).round = none) : (life.send place event).Speaks place := by
  have phaseAfter : (life.send place event).phase? place = some (.notifying event) := phase
  have settled (number : Nat) (round : Round (Nat × Event))
      (isRound : life.Utters place number round) : round.isOver = true :=
    speaks.settled number round isRound (voice ▸ nofun)
  exact {
    plain := speaks.plain
    tells := by
      rw [voices_send]
      exact speaks.tells
    nobody := by
      intro missing
      cases phaseAfter.symm.trans missing
    told := by
      have told := speaks.told
      rw [unsaid, voice, phase] at told
      rw [unsaid, voices_send, told_send rfl, if_pos rfl, List.append_nil]
      exact told
    current := by
      intro number isCurrent
      rw [voices_send] at isCurrent
      cases isCurrent
      exact ⟨⟨_, List.getElem?_concat_length, rfl⟩, event, phaseAfter⟩
    settled := by
      intro number round isRound different
      rcases utters_send rfl isRound with before | ⟨rfl, _, _⟩
      · exact settled number round before
      · exact absurd (congrArg Voice.round voices_send) different
    unbroken := by
      intro number round isRound broken
      rcases utters_send rfl isRound with before | ⟨_, _, rfl⟩
      · exact speaks.unbroken number round before broken
      · cases broken
    apart := by
      intro late round isRound early member other isOther
      rcases utters_send rfl isRound with before | ⟨_, _, rfl⟩
      · rcases utters_send rfl isOther with earlier | ⟨rfl, _, _⟩
        · exact speaks.apart late round before early member other earlier
        · have ahead := lossless.earlier _ late ⟨round, before.1, member⟩
          have inside := (List.getElem?_eq_some_iff.mp before.1).1
          omega
      · -- No round of this run is under way, and the new one is none of those.
        rcases Ledger.mem_underWay.mp member with ⟨unfinished, isUnfinished, goesOn⟩
        rcases utters_send rfl isOther with earlier | ⟨rfl, _, _⟩
        · cases isUnfinished.symm.trans earlier.1
          cases goesOn.symm.trans (settled early other earlier)
        · exact Nat.lt_irrefl _ (List.getElem?_eq_some_iff.mp isUnfinished).1 }

theorem Sound.announce (sound : life.Sound) (place : Nat) : (life.announce place).Sound := by
  unfold Life.announce
  split
  next event phase voice =>
    refine ⟨sound.lossless.send _, fun other => ?_⟩
    by_cases same : other = place
    · subst same
      exact (sound.speaks other).send sound.lossless phase voice
    · exact (sound.speaks other).send_other same event
  next => exact sound

/-! ## All moves -/

theorem Sound.move (sound : life.Sound) (next : Move) : (life.move next).Sound := by
  cases next with
  | register => exact sound.of_same (sound.lossless.register 1) rfl rfl rfl
  | request board => exact sound.request board
  | stop => exact sound.of_same sound.lossless rfl rfl rfl
  | overwrite file => exact sound.of_same sound.lossless rfl rfl rfl
  | advance place board => exact sound.advance place board
  | expire place board => exact sound.expire place board
  | announce place => exact sound.announce place
  | deliver place => exact sound.deliver place
  | breakOff place board => exact sound.breakOff place board

theorem Sound.run (sound : life.Sound) (moves : List Move) : (life.run moves).Sound := by
  induction moves generalizing life with
  | nil => exact sound
  | cons next moves induction => exact induction (sound.move next)

/-- What the listeners are told of a run. -/
structure Recounts (life : Life) (place : Nat) : Prop where
  /-- They are sent the events that the run comes to, in this order, -/
  told : life.told place ++ life.unsaid place = (life.voices place).events
  /-- and none before the round of the last one is over. -/
  apart : ∀ late round, life.Utters place late round → ∀ early ∈ round.beside,
    ∀ other, ¬ life.Utters place early other
  /-- A run that has returned has told them so at the end, and every event of it
  has reached all of them. -/
  whole : ∀ result, life.phase? place = some (.finished (.returned result)) →
    (∃ earlier, life.told place = earlier ++ [Diary.closing result] ∧ Event.Lasting earlier) ∧
      ∀ number round, life.Utters place number round → round.isComplete = true
  /-- A run of which a round was broken off is over. -/
  ended : ∀ number round, life.Utters place number round → round.broken = true →
    life.phase? place = some (.finished .broken)
  /-- A listener hears the events of the run as they were sent. -/
  heard : ∀ number moment, life.ledger.since[number]? = some moment →
    (∀ later round, moment ≤ later → life.Utters place later round → round.isComplete = true) →
    (life.ledger.history number).filter (·.1 == place) =
      (life.ledger.sent.drop moment).filter (·.1 == place)

theorem Speaks.whole (speaks : life.Speaks place) {result : Except Fault Unit}
    (returned : life.phase? place = some (.finished (.returned result))) :
    (∃ earlier, life.told place = earlier ++ [Diary.closing result] ∧ Event.Lasting earlier) ∧
      ∀ number round, life.Utters place number round → round.isComplete = true := by
  have ready : life.isWaiting place = false := by rw [isWaiting, returned]
  rcases speaks.ready ready with ⟨told, settled⟩
  refine ⟨told ▸ speaks.tells _ returned, fun number round isRound => ?_⟩
  have unbroken : round.broken = false := by
    refine eq_false_of_ne_true fun broken => ?_
    cases returned.symm.trans (speaks.unbroken number round isRound broken)
  rw [Round.isComplete, settled number round isRound, unbroken]
  rfl

theorem Speaks.undisturbed (speaks : life.Speaks place) {moment : Nat}
    (complete : ∀ later round, moment ≤ later → life.Utters place later round →
      round.isComplete = true) : life.ledger.Undisturbed moment (·.1 == place) := by
  intro later round isRound after about
  have utters : life.Utters place later round := ⟨isRound, eq_of_beq about⟩
  refine ⟨complete later round after utters, fun early member _ => ?_⟩
  refine eq_false_of_ne_true fun concerned => ?_
  rcases (Option.any_eq_true _ _).mp concerned with ⟨other, isOther, same⟩
  exact speaks.apart later round utters early member other ⟨isOther, eq_of_beq same⟩

theorem Sound.recounts (sound : life.Sound) (place : Nat) : life.Recounts place where
  told := (sound.speaks place).told
  apart := (sound.speaks place).apart
  whole _ := (sound.speaks place).whole
  ended := (sound.speaks place).unbroken
  heard _ _ registered complete :=
    sound.lossless.filter_history registered ((sound.speaks place).undisturbed complete)

end Life

/-- Events are never lost. However often events are sent and listeners
registered, and whatever the listeners do, an event reaches the listeners that
were registered before its dispatch began, once each and in the order of their
registration, and nobody else. So a listener has received all events from its
registration on, in order. Only where a listener breaks off, those after it miss
the event. For the listeners of a node this holds over all runs, with the events
that end them. Where runs overlap, the events of each run are still sent one
after the other as the run comes to them, and a listener receives them so; it
receives events of different runs in the order in which they were sent, unless
the earlier one was still on its way when the dispatch of the other one began.
The record only looks on: without it events are dispatched in the same way. -/
theorem dispatch_lossless {L S : Type} :
    (∀ {E : Type} (handle : L → E → StateT S Script (Handled L)) (memory : S)
      (acts : List (Act L E)),
      ((Roster.empty memory).perform handle acts).Keeps .anything fun roster =>
        roster.ledger.sent = acts.filterMap Act.event? ∧ roster.Lossless ∧
        roster.ledger.Delivers ∧
        ∀ number moment, roster.ledger.since[number]? = some moment →
          (∀ round ∈ roster.ledger.rounds.drop moment, round.broken = false) →
          roster.ledger.history number = roster.ledger.sent.drop moment) ∧
    (∀ (handle : Bool → L → Event → StateT (S × Reaction) Script (Handled L)) (node : Node)
      (memory : S) (happenings : List (Happening L)) {diary : Diary (Roster L S Event)},
      (Diary.resting node (.empty memory)).live handle happenings = diary →
        let roster := diary.agent.listeners
        roster.ledger.sent ++ diary.agent.phase.event?.toList = Note.events diary.notes ∧
        roster.Lossless ∧ roster.ledger.Delivers ∧
        ∀ number moment, roster.ledger.since[number]? = some moment →
          (∀ round ∈ roster.ledger.rounds.drop moment, round.broken = false) →
          roster.ledger.history number = roster.ledger.sent.drop moment) ∧
    (∀ (node : Node) (moves : List Life.Move) {life : Life},
      (Life.vacant node).run moves = life →
        life.ledger.Delivers ∧ ∀ place, life.Recounts place) ∧
    ∀ {E : Type} (handle : L → E → StateT S Script (Handled L)) (roster : Roster L S E) (event : E),
      (do
        let (later, broken) ← roster.send handle event
        return ((later.listeners.map Prod.fst, broken), later.memory)) =
      (dispatch handle (roster.listeners.map Prod.fst) event).run roster.memory := by
  refine ⟨fun handle memory acts => ?_, fun handle node memory happenings diary reached => ?_,
    fun node moves life reached => ?_, fun handle roster event => roster.send_forgets event⟩
  · apply ((Roster.Lossless.empty memory).perform acts).imp
    rintro roster ⟨lossless, sent⟩
    exact ⟨sent, lossless, lossless.ledger.delivers, fun _ _ => lossless.history_eq⟩
  · let fresh : Diary (Roster L S Event) := .resting node (.empty memory)
    have start : Recorded fresh.agent fresh.notes := ⟨.empty memory, rfl, nofun⟩
    have recorded := @Recorded.live L S handle fresh start happenings
    rw [reached] at recorded
    exact ⟨recorded.heard, recorded.lossless, recorded.lossless.ledger.delivers,
      fun _ _ => recorded.lossless.history_eq⟩
  · have sound : life.Sound := by
      rw [← reached]
      exact (Life.sound_vacant node).run moves
    exact ⟨sound.lossless.delivers, sound.recounts⟩

/-- A listener that registers another one at every event, over two runs of a
program that stops, and two listeners to runs of it that overlap. -/
theorem dispatch_lossless_two_runs :
    let handle : Bool → Nat → Event → StateT (Unit × Reaction) Script (Handled Nat) :=
      fun _ depth _ => pure ⟨if depth = 0 then [] else [depth - 1], false⟩
    let board := Board.ofInput [] 0
    let program : Program := ⟨#[⟨.stop, false, 1⟩], [], (defaultRegisters 500).1⟩
    let node : Node := .ofProgram program (defaultRegisters 500).2 none
    let lap : List (Happening Nat) :=
      .turn (.restart () board) :: List.replicate 10 (.turn (.step board))
    let ledger := ((Diary.resting node (.empty ())).live handle
      (.register 1 :: lap ++ lap)).agent.listeners.ledger
    let goOn (place : Nat) : List Life.Move := List.replicate 4 (.advance place board)
    let tell (place : Nat) : List Life.Move := [.announce place, .deliver place, .deliver place]
    let moves := [.register, .request board] ++ goOn 0 ++ [.announce 0, .register, .deliver 0] ++
      goOn 0 ++ [.announce 0, .request board] ++ goOn 1 ++ tell 1 ++ [.deliver 0, .deliver 0] ++
      goOn 0 ++ goOn 1 ++ tell 1
    let life := (Life.vacant node).run moves
    ledger.sent = [.executed 0 .stop, .stopped, .executed 0 .stop, .stopped] ∧
      ledger.since = [0, 1, 2, 3, 4] ∧
      ledger.history 1 = [.stopped, .executed 0 .stop, .stopped] ∧
      life.ledger.since = [0, 1] ∧
      life.ledger.history 1 = [(1, .executed 0 .stop), (0, .stopped), (1, .stopped)] ∧
      (life.ledger.history 1).filter (·.1 == 1) = [(1, .executed 0 .stop), (1, .stopped)] := by
  intro handle board program node lap ledger goOn tell moves life
  have sent : ledger.sent = [.executed 0 .stop, .stopped, .executed 0 .stop, .stopped] := by
    decide +kernel
  have since : ledger.since = [0, 1, 2, 3, 4] := by
    decide +kernel
  have registered : ledger.since[1]? = some 1 := by
    rw [since]
    rfl
  have unbroken : ∀ round ∈ ledger.rounds.drop 1, round.broken = false := by
    decide +kernel
  have history : ledger.history 1 = ledger.sent.drop 1 :=
    (dispatch_lossless.2.1 handle node () (.register 1 :: lap ++ lap) rfl).2.2.2 1 1 registered
      unbroken
  have sentOver : life.ledger.sent =
      [(0, .executed 0 .stop), (0, .stopped), (1, .executed 0 .stop), (1, .stopped)] := by
    decide +kernel
  have sinceOver : life.ledger.since = [0, 1] := by
    decide +kernel
  have registeredOver : life.ledger.since[1]? = some 1 := by
    rw [sinceOver]
    rfl
  have complete : ∀ round ∈ life.ledger.rounds, round.isComplete = true := by
    decide +kernel
  have swapped : life.ledger.history 1 =
      [(1, .executed 0 .stop), (0, .stopped), (1, .stopped)] := by
    decide +kernel
  have recounts : life.Recounts 1 :=
    ((dispatch_lossless (L := Nat) (S := Unit)).2.2.1 node moves rfl).2 1
  have heard := recounts.heard 1 1 registeredOver fun _ round _ isRound =>
    complete round (List.mem_of_getElem? isRound.1)
  rw [sentOver] at heard
  exact ⟨sent, since, history.trans (sent ▸ rfl), sinceOver, swapped, heard⟩

/-- Where a listener breaks off, one that was registered after it misses the
event; and a run that is let in while another one tells how it ended may be heard
of before that. -/
theorem events_missed_or_swapped :
    let board := Board.ofInput [] 0
    let handle : Bool → Event → StateT Unit Script (Handled Bool) :=
      fun breaks _ => pure ⟨[], breaks⟩
    let program : Program := ⟨#[⟨.stop, false, 1⟩], [], (defaultRegisters 500).1⟩
    let node : Node := .ofProgram program (defaultRegisters 500).2 none
    let goOn (place : Nat) : List Life.Move := List.replicate 4 (.advance place board)
    let tell (place : Nat) : List Life.Move := [.announce place, .deliver place, .deliver place]
    let life := (Life.vacant node).run ([.register, .register, .request board] ++ goOn 0 ++
      tell 0 ++ goOn 0 ++ [.announce 0, .request board] ++ goOn 1 ++ tell 1 ++
      [.deliver 0, .deliver 0])
    (Program.parse .empty board .default none "end").result =
        .ok (program, (defaultRegisters 500).2) ∧
      (∃ roster, (Roster.empty ()).perform handle
          [.register true, .register false, .send .stopped] = .done roster ∧
        roster.ledger.since = [0, 0] ∧ roster.ledger.sent = [.stopped] ∧
        roster.ledger.history 1 = []) ∧
      life.ledger.since = [0, 0] ∧ (∀ round ∈ life.ledger.rounds, round.isComplete = true) ∧
      life.ledger.sent = [(0, .executed 0 .stop), (0, .stopped), (1, .executed 0 .stop)] ∧
      life.ledger.history 0 = [(0, .executed 0 .stop), (1, .executed 0 .stop), (0, .stopped)] := by
  refine ⟨by decide +kernel, ⟨_, rfl, ?_⟩, ?_⟩
  · decide +kernel
  · decide +kernel

end NodeAssembly
