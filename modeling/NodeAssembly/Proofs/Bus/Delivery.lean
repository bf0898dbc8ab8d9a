import NodeAssembly.Proofs.Bus.Traffic

/-! Delivery at a bus, whatever its callers do and in whatever order: the slot
holds a value exactly if one more was left than taken, values are received in
the order in which they were left, and each sender learns truly whether its own
value was received.

A ticket is the count of deposits, which goes down again when a sender takes
its value back, so the same ticket may be given out twice. What makes this safe
is that a sender that still waits either has had its value taken, and then its
ticket stays at or below the count of values taken, or is the sender of the
value in the slot. -/

namespace NodeAssembly.Bus

namespace History

theorem trail_cons_self (mark : Mark) (history : History) :
    trail (mark :: history) mark.caller = mark :: trail history mark.caller := by
  simp [trail]

theorem trail_cons_other {mark : Mark} {caller : Nat} (different : mark.caller ≠ caller)
    (history : History) : trail (mark :: history) caller = trail history caller := by
  simp [trail, different]

theorem mem_trail {mark : Mark} {history : History} {caller : Nat} (member : mark ∈ history)
    (own : mark.caller = caller) : mark ∈ history.trail caller := by
  simp [trail, member, own]

theorem not_mem_of_trail_eq_nil {mark : Mark} {history : History} {caller : Nat}
    (nothing : history.trail caller = []) (own : mark.caller = caller) : mark ∉ history := by
  intro member
  have inTrail := mem_trail member own
  rw [nothing] at inTrail
  cases inTrail

theorem sender?_cons_of_no_deposit {mark : Mark} (none : mark.deposit? = none)
    (history : History) : sender? (mark :: history) = sender? history := by
  simp [sender?, none]

theorem receiptsFrom_cons_of_no_receipt {mark : Mark} (none : mark.receipt? = none)
    (sender : Nat) (history : History) :
    receiptsFrom sender (mark :: history) = receiptsFrom sender history := by
  simp [receiptsFrom, none]

theorem receiptsFrom_cons_other {sender other : Nat} {history : History}
    (latest : history.sender? = some other) (different : other ≠ sender) (mark : Mark) :
    receiptsFrom sender (mark :: history) = receiptsFrom sender history := by
  simp [receiptsFrom, latest, different]

/-- Nobody receives the value of a caller that never left one. -/
theorem receiptsFrom_eq_nil {sender : Nat} {history : History}
    (without : ∀ value, Mark.proceeded sender (.deposit value) ∉ history) :
    receiptsFrom sender history = [] := by
  induction history with
  | nil => rfl
  | cons mark earlier induction =>
      have fewer : ∀ value, Mark.proceeded sender (.deposit value) ∉ earlier :=
        fun value member => without value (List.mem_cons_of_mem mark member)
      have other : sender? earlier ≠ some sender := by
        intro latest
        rw [sender?, Option.map_eq_some_iff] at latest
        obtain ⟨⟨depositor, value⟩, found, rfl⟩ := latest
        obtain ⟨deposit, member, shape⟩ := List.exists_of_findSome?_eq_some found
        unfold Mark.deposit? at shape
        split at shape
        · cases shape
          exact fewer _ member
        · cases shape
      rw [receiptsFrom, if_neg other]
      exact induction fewer

theorem receiptsFrom_suffix (sender : Nat) (later earlier : History) :
    receiptsFrom sender earlier <:+ receiptsFrom sender (later ++ earlier) := by
  induction later with
  | nil => exact List.suffix_refl _
  | cons mark later induction =>
      rw [List.cons_append, receiptsFrom]
      split
      · exact induction.trans (List.suffix_append _ _)
      · exact induction

theorem mem_retractions {caller : Nat} {history : History}
    (member : caller ∈ history.retractions) :
    ∃ ticket, Mark.gaveUp caller (.confirm ticket) ∈ history.trail caller := by
  obtain ⟨mark, marked, shape⟩ := List.mem_filterMap.mp member
  unfold Mark.retraction? at shape
  split at shape
  case h_1 retractor ticket =>
    cases shape
    exact ⟨ticket, mem_trail marked rfl⟩
  case h_2 => cases shape

theorem survivors_cons_deposit {caller : Nat} {history : History}
    (nothing : history.trail caller = []) (value : Value) :
    survivors (.proceeded caller (.deposit value) :: history) =
      history.survivors ++ [(caller, value)] := by
  have kept : caller ∉ history.retractions := by
    intro member
    obtain ⟨ticket, marked⟩ := mem_retractions member
    rw [nothing] at marked
    cases marked
  have sameRetractions : retractions (.proceeded caller (.deposit value) :: history) =
      history.retractions := rfl
  have oneMore : deposits (.proceeded caller (.deposit value) :: history) =
      history.deposits ++ [(caller, value)] := by
    simp [deposits, Mark.deposit?]
  simp [survivors, sameRetractions, oneMore, kept]

theorem survivors_cons_of_idle {mark : Mark} (noDeposit : mark.deposit? = none)
    (noRetraction : mark.retraction? = none) (history : History) :
    survivors (mark :: history) = history.survivors := by
  simp [survivors, deposits, retractions, noDeposit, noRetraction]

/-- The deposits of one caller are those in its trail. -/
theorem filter_deposits (history : History) (caller : Nat) :
    (history.filterMap Mark.deposit?).filter (fun deposit => deposit.1 = caller) =
      (history.trail caller).filterMap Mark.deposit? := by
  induction history with
  | nil => rfl
  | cons mark earlier induction =>
      have ownDeposit : ∀ deposit, mark.deposit? = some deposit → deposit.1 = mark.caller := by
        intro deposit shape
        unfold Mark.deposit? at shape
        split at shape
        · cases shape
          rfl
        · cases shape
      by_cases own : mark.caller = caller
      · subst own
        rw [trail_cons_self]
        cases shape : mark.deposit? with
        | none => simpa [shape] using induction
        | some deposit => simpa [shape, ownDeposit deposit shape] using induction
      · rw [trail_cons_other own]
        cases shape : mark.deposit? with
        | none => simpa [shape] using induction
        | some deposit => simpa [shape, ownDeposit deposit shape, own] using induction

/-- The sender of the latest deposit takes it back. -/
theorem survivors_cons_retraction {caller : Nat} {history : History} {value : Value}
    (latest : history.sender? = some caller)
    (did : history.trail caller = [.proceeded caller (.deposit value)]) (ticket : Nat) :
    history.survivors =
      survivors (.gaveUp caller (.confirm ticket) :: history) ++ [(caller, value)] := by
  have own := history.filter_deposits caller
  rw [did] at own
  rw [sender?, ← List.head?_filterMap, Option.map_eq_some_iff] at latest
  obtain ⟨⟨sender, found⟩, first, rfl⟩ := latest
  obtain ⟨rest, split⟩ := List.head?_eq_some_iff.mp first
  rw [split] at own
  have others : found = value ∧ rest.filter (fun deposit => deposit.1 = sender) = [] := by
    simpa [Mark.deposit?] using own
  obtain ⟨rfl, others⟩ := others
  have kept : sender ∉ history.retractions := by
    intro member
    obtain ⟨other, marked⟩ := mem_retractions member
    rw [did] at marked
    simp at marked
  have same : history.deposits = rest.reverse ++ [(sender, found)] := by
    simp [deposits, split]
  have sameAfter : deposits (.gaveUp sender (.confirm ticket) :: history) = history.deposits := rfl
  have more : retractions (.gaveUp sender (.confirm ticket) :: history) =
      sender :: history.retractions := rfl
  have different : ∀ deposit ∈ rest.reverse, deposit.1 ≠ sender := by
    intro deposit member equal
    have inFilter : deposit ∈ rest.filter (fun deposit => deposit.1 = sender) := by
      simp [List.mem_reverse.mp member, equal]
    rw [others] at inFilter
    cases inFilter
  have sameFilter : rest.reverse.filter (fun deposit => deposit.1 ∉ sender :: history.retractions) =
      rest.reverse.filter (fun deposit => deposit.1 ∉ history.retractions) := by
    apply List.filter_congr
    intro deposit member
    simp [different deposit member]
  simp only [survivors, sameAfter, same, more, List.filter_append, sameFilter]
  simp [kept]

theorem receipts_cons_of_no_receipt {mark : Mark} (none : mark.receipt? = none)
    (history : History) : receipts (mark :: history) = history.receipts := by
  simp [receipts, none]

end History

namespace Traffic

/-- A caller's standing agrees with what it has done and with what has become
of its value. -/
inductive Fits (traffic : Traffic) (caller : Nat) : Option Caller → Prop
  | absent (nothing : traffic.history.trail caller = []) : Fits traffic caller none
  | came (errand : Errand) (nothing : traffic.history.trail caller = []) :
      Fits traffic caller (some ⟨errand, .waiting errand.call⟩)
  /-- The value is in the slot. -/
  | left (value : Value)
      (did : traffic.history.trail caller = [.proceeded caller (.deposit value)])
      (unreceived : traffic.history.receiptsFrom caller = [])
      (held : traffic.slot.value = some value)
      (latest : traffic.history.sender? = some caller) :
      Fits traffic caller (some ⟨.send value, .waiting (.confirm traffic.slot.deposited)⟩)
  /-- The value was taken, and the sender has yet to find out. -/
  | delivered (value : Value) (ticket receiver : Nat)
      (did : traffic.history.trail caller = [.proceeded caller (.deposit value)])
      (received : traffic.history.receiptsFrom caller = [(receiver, value)])
      (taken : ticket ≤ traffic.slot.taken) :
      Fits traffic caller (some ⟨.send value, .waiting (.confirm ticket)⟩)
  | sent (value : Value) (receiver : Nat)
      (did : traffic.history.trail caller =
        [.returned caller none, .proceeded caller (.deposit value)])
      (received : traffic.history.receiptsFrom caller = [(receiver, value)]) :
      Fits traffic caller (some ⟨.send value, .returned none⟩)
  | received (value : Value)
      (did : traffic.history.trail caller = [.returned caller (some value)]) :
      Fits traffic caller (some ⟨.receive, .returned (some value)⟩)
  | observed (did : traffic.history.trail caller = [.returned caller none]) :
      Fits traffic caller (some ⟨.observe, .returned none⟩)
  | gone (errand : Errand)
      (did : traffic.history.trail caller = [.gaveUp caller errand.call]) :
      Fits traffic caller (some ⟨errand, .expired⟩)
  | retracted (value : Value) (ticket : Nat)
      (did : traffic.history.trail caller =
        [.gaveUp caller (.confirm ticket), .proceeded caller (.deposit value)])
      (unreceived : traffic.history.receiptsFrom caller = []) :
      Fits traffic caller (some ⟨.send value, .expired⟩)

/-- What holds at a bus at all times. -/
structure Sound (traffic : Traffic) : Prop where
  balanced : traffic.slot.deposited =
    traffic.slot.taken + (if traffic.slot.value.isSome then 1 else 0)
  /-- Whatever is in the slot belongs to a sender that waits for it. -/
  owned : ∀ value, traffic.slot.value = some value →
    ∃ sender, traffic.history.sender? = some sender ∧
      traffic.callers sender =
        some ⟨.send value, .waiting (.confirm traffic.slot.deposited)⟩
  ordered : traffic.history.receipts.map Prod.snd ++ traffic.slot.value.toList =
    traffic.history.survivors.map Prod.snd
  fits : ∀ caller, Fits traffic caller (traffic.callers caller)

theorem sound_start : Sound start where
  balanced := rfl
  owned := by
    intro value held
    cases held
  ordered := rfl
  fits := fun _ => .absent rfl

section Settling

variable {traffic : Traffic} {caller other : Nat} {slot : Slot} {standing before : Standing}
  {mark : Mark} {errand : Errand}

@[simp] theorem settle_slot : (traffic.settle caller slot standing mark).slot = slot := rfl

@[simp] theorem settle_history :
    (traffic.settle caller slot standing mark).history = mark :: traffic.history := rfl

theorem settle_callers_self (known : traffic.callers caller = some ⟨errand, before⟩) :
    (traffic.settle caller slot standing mark).callers caller = some ⟨errand, standing⟩ := by
  simp [settle, known]

theorem settle_callers_other (different : caller ≠ other) :
    (traffic.settle caller slot standing mark).callers other = traffic.callers other :=
  Function.update_of_ne (Ne.symm different) _ _

theorem welcome_callers_self :
    (traffic.welcome caller errand).callers caller = some ⟨errand, .waiting errand.call⟩ :=
  Function.update_self _ _ _

theorem welcome_callers_other (different : caller ≠ other) :
    (traffic.welcome caller errand).callers other = traffic.callers other :=
  Function.update_of_ne (Ne.symm different) _ _

end Settling

/-- A caller stays as it is while others go on, as long as they leave a value
of its own in the slot. -/
theorem Fits.keep {traffic after : Traffic} {caller : Nat} {known : Option Caller}
    (fits : Fits traffic caller known)
    (sameTrail : after.history.trail caller = traffic.history.trail caller)
    (sameReceipts : after.history.receiptsFrom caller = traffic.history.receiptsFrom caller)
    (grown : traffic.slot.taken ≤ after.slot.taken)
    (untouched : ∀ value, traffic.slot.value = some value → traffic.history.sender? = some caller →
      after.slot.value = some value ∧ after.slot.deposited = traffic.slot.deposited ∧
        after.history.sender? = some caller) : Fits after caller known := by
  cases fits with
  | absent nothing => exact .absent (sameTrail.trans nothing)
  | came errand nothing => exact .came errand (sameTrail.trans nothing)
  | left value did unreceived held latest =>
      obtain ⟨stillHeld, sameCount, stillLatest⟩ := untouched value held latest
      rw [← sameCount]
      exact .left value (sameTrail.trans did) (sameReceipts.trans unreceived) stillHeld stillLatest
  | delivered value ticket receiver did received taken =>
      exact .delivered value ticket receiver (sameTrail.trans did) (sameReceipts.trans received)
        (Nat.le_trans taken grown)
  | sent value receiver did received =>
      exact .sent value receiver (sameTrail.trans did) (sameReceipts.trans received)
  | received value did => exact .received value (sameTrail.trans did)
  | observed did => exact .observed (sameTrail.trans did)
  | gone errand did => exact .gone errand (sameTrail.trans did)
  | retracted value ticket did unreceived =>
      exact .retracted value ticket (sameTrail.trans did) (sameReceipts.trans unreceived)

namespace Sound

variable {traffic : Traffic} {caller : Nat} {errand : Errand}

/-- A caller that has not begun to wait for its value has done nothing yet. -/
theorem fits_fresh {call : Call} (sound : Sound traffic)
    (waits : traffic.callers caller = some ⟨errand, .waiting call⟩)
    (fresh : ∀ ticket, call ≠ .confirm ticket) :
    call = errand.call ∧ traffic.history.trail caller = [] := by
  have fits := sound.fits caller
  rw [waits] at fits
  cases fits with
  | came _ nothing => exact ⟨rfl, nothing⟩
  | left => exact absurd rfl (fresh _)
  | delivered => exact absurd rfl (fresh _)

/-- A sender whose ticket is above the count of values taken owns the value in
the slot. -/
theorem owner_of_pending {ticket : Nat} (sound : Sound traffic)
    (waits : traffic.callers caller = some ⟨errand, .waiting (.confirm ticket)⟩)
    (pending : traffic.slot.taken < ticket) :
    ∃ value, errand = .send value ∧ traffic.slot.value = some value ∧
      traffic.history.sender? = some caller ∧
      traffic.history.trail caller = [.proceeded caller (.deposit value)] ∧
      traffic.history.receiptsFrom caller = [] := by
  have fits := sound.fits caller
  rw [waits] at fits
  generalize calls : Call.confirm ticket = call at fits
  cases fits with
  | came errand nothing => cases errand <;> cases calls
  | left value did unreceived held latest => exact ⟨value, rfl, held, latest, did, unreceived⟩
  | delivered value number receiver did received taken =>
      cases calls
      omega

/-- A sender whose ticket is not above that count has had its value taken. -/
theorem received_of_taken {ticket : Nat} (sound : Sound traffic)
    (waits : traffic.callers caller = some ⟨errand, .waiting (.confirm ticket)⟩)
    (taken : ticket ≤ traffic.slot.taken) :
    ∃ value receiver, errand = .send value ∧
      traffic.history.trail caller = [.proceeded caller (.deposit value)] ∧
      traffic.history.receiptsFrom caller = [(receiver, value)] := by
  have fits := sound.fits caller
  rw [waits] at fits
  generalize calls : Call.confirm ticket = call at fits
  cases fits with
  | came errand nothing => cases errand <;> cases calls
  | left value did unreceived held latest =>
      cases calls
      have balanced := sound.balanced
      rw [held] at balanced
      simp at balanced
      omega
  | delivered value number receiver did received _ =>
      exact ⟨value, receiver, rfl, did, received⟩

/-- Others keep their standing when a mark is made that is no receipt. -/
theorem fits_other {other : Nat} {slot : Slot} {standing : Standing} {mark : Mark}
    (sound : Sound traffic) (own : mark.caller = caller) (different : caller ≠ other)
    (noReceipt : mark.receipt? = none) (grown : traffic.slot.taken ≤ slot.taken)
    (untouched : ∀ value, traffic.slot.value = some value → traffic.history.sender? = some other →
      slot.value = some value ∧ slot.deposited = traffic.slot.deposited ∧
        History.sender? (mark :: traffic.history) = some other) :
    Fits (traffic.settle caller slot standing mark) other
      ((traffic.settle caller slot standing mark).callers other) := by
  rw [settle_callers_other different]
  exact (sound.fits other).keep (History.trail_cons_other (own.trans_ne different) _)
    (History.receiptsFrom_cons_of_no_receipt noReceipt other _) grown untouched

theorem welcome (sound : Sound traffic) (free : traffic.callers caller = none) :
    Sound (traffic.welcome caller errand) where
  balanced := sound.balanced
  owned := by
    intro value held
    obtain ⟨sender, latest, waits⟩ := sound.owned value held
    have different : caller ≠ sender := by
      rintro rfl
      rw [free] at waits
      cases waits
    exact ⟨sender, latest, (welcome_callers_other different).trans waits⟩
  ordered := sound.ordered
  fits := by
    intro other
    by_cases same : caller = other
    · subst same
      rw [welcome_callers_self]
      have fits := sound.fits caller
      rw [free] at fits
      cases fits with
      | absent nothing => exact .came errand nothing
    · rw [welcome_callers_other same]
      exact (sound.fits other).keep rfl rfl (Nat.le_refl _)
        fun value held latest => ⟨held, rfl, latest⟩

/-- A caller that is not the owner of the slot's value ends its errand without
touching the slot. -/
theorem settle_idle {call : Call} {standing : Standing} {mark : Mark} (sound : Sound traffic)
    (waits : traffic.callers caller = some ⟨errand, .waiting call⟩)
    (own : mark.caller = caller) (noDeposit : mark.deposit? = none)
    (noReceipt : mark.receipt? = none) (noRetraction : mark.retraction? = none)
    (notOwner : traffic.slot.value.isSome → call ≠ .confirm traffic.slot.deposited)
    (fits : Fits (traffic.settle caller traffic.slot standing mark) caller
      (some ⟨errand, standing⟩)) :
    Sound (traffic.settle caller traffic.slot standing mark) where
  balanced := sound.balanced
  owned := by
    intro value held
    obtain ⟨sender, latest, owner⟩ := sound.owned value held
    have different : caller ≠ sender := by
      rintro rfl
      rw [waits] at owner
      cases owner
      rw [settle_slot] at held
      exact notOwner (by simp [held]) rfl
    refine ⟨sender, ?_, (settle_callers_other different).trans owner⟩
    rw [settle_history, History.sender?_cons_of_no_deposit noDeposit, latest]
  ordered := by
    rw [settle_history, settle_slot, History.receipts_cons_of_no_receipt noReceipt,
      History.survivors_cons_of_idle noDeposit noRetraction]
    exact sound.ordered
  fits := by
    intro other
    by_cases same : caller = other
    · subst same
      rw [settle_callers_self waits]
      exact fits
    · apply sound.fits_other own same noReceipt (Nat.le_refl _)
      intro value held latest
      rw [History.sender?_cons_of_no_deposit noDeposit]
      exact ⟨held, rfl, latest⟩

theorem deposit {value : Value} (sound : Sound traffic)
    (waits : traffic.callers caller = some ⟨errand, .waiting (.deposit value)⟩)
    (empty : traffic.slot.value = none) :
    Sound (traffic.settle caller
      { traffic.slot with value := some value, deposited := traffic.slot.deposited + 1 }
      (.waiting (.confirm (traffic.slot.deposited + 1))) (.proceeded caller (.deposit value))) := by
  obtain ⟨call, nothing⟩ := sound.fits_fresh waits (by simp)
  have sends : errand = .send value := by
    cases errand <;> cases call
    rfl
  subst sends
  have unreceived : traffic.history.receiptsFrom caller = [] :=
    History.receiptsFrom_eq_nil fun other => History.not_mem_of_trail_eq_nil nothing rfl
  have latest : History.sender? (.proceeded caller (.deposit value) :: traffic.history) =
      some caller := rfl
  constructor
  case balanced =>
    have balanced := sound.balanced
    rw [empty] at balanced
    simpa using balanced
  case owned =>
    intro other held
    cases held
    exact ⟨caller, latest, settle_callers_self waits⟩
  case ordered =>
    have ordered := sound.ordered
    rw [empty] at ordered
    rw [settle_history, settle_slot, History.receipts_cons_of_no_receipt rfl,
      History.survivors_cons_deposit nothing, List.map_append, ← ordered]
    simp
  case fits =>
    intro other
    by_cases same : caller = other
    · subst same
      rw [settle_callers_self waits]
      refine .left value ?_ ?_ rfl latest
      · rw [settle_history, ← nothing]
        exact History.trail_cons_self _ _
      · exact (History.receiptsFrom_cons_of_no_receipt rfl caller _).trans unreceived
    · refine sound.fits_other rfl same rfl (Nat.le_refl _) ?_
      intro held full
      rw [empty] at full
      cases full

theorem confirm {ticket : Nat} (sound : Sound traffic)
    (waits : traffic.callers caller = some ⟨errand, .waiting (.confirm ticket)⟩)
    (taken : ticket ≤ traffic.slot.taken) :
    Sound (traffic.settle caller traffic.slot (.returned none) (.returned caller none)) := by
  obtain ⟨value, receiver, rfl, did, received⟩ := sound.received_of_taken waits taken
  apply sound.settle_idle waits rfl rfl rfl rfl
  · intro full owner
    cases owner
    have balanced := sound.balanced
    rw [full] at balanced
    simp at balanced
    omega
  · refine .sent value receiver ?_ ?_
    · rw [settle_history, ← did]
      exact History.trail_cons_self _ _
    · exact (History.receiptsFrom_cons_of_no_receipt rfl caller _).trans received

theorem observe (sound : Sound traffic)
    (waits : traffic.callers caller = some ⟨errand, .waiting .observe⟩) :
    Sound (traffic.settle caller traffic.slot (.returned none) (.returned caller none)) := by
  obtain ⟨call, nothing⟩ := sound.fits_fresh waits (by simp)
  have observes : errand = .observe := by
    cases errand <;> cases call
    rfl
  subst observes
  apply sound.settle_idle waits rfl rfl rfl rfl (by simp)
  apply Fits.observed
  rw [settle_history, ← nothing]
  exact History.trail_cons_self _ _

theorem leave {call : Call} (sound : Sound traffic)
    (waits : traffic.callers caller = some ⟨errand, .waiting call⟩)
    (nothingLeft : ∀ ticket, call ≠ .confirm ticket) :
    Sound (traffic.settle caller traffic.slot .expired (.gaveUp caller call)) := by
  obtain ⟨rfl, nothing⟩ := sound.fits_fresh waits nothingLeft
  have noRetraction : (Mark.gaveUp caller errand.call).retraction? = none := by
    cases errand <;> rfl
  apply sound.settle_idle waits rfl rfl rfl noRetraction (fun _ => nothingLeft _)
  apply Fits.gone
  rw [settle_history, ← nothing]
  exact History.trail_cons_self _ _

/-- A receiver takes the value of its owner, who then counts as delivered. -/
theorem receive {value : Value} (sound : Sound traffic)
    (waits : traffic.callers caller = some ⟨errand, .waiting .receive⟩)
    (full : traffic.slot.value = some value) :
    Sound (traffic.settle caller
      { traffic.slot with value := none, taken := traffic.slot.taken + 1 }
      (.returned (some value)) (.returned caller (some value))) := by
  obtain ⟨call, nothing⟩ := sound.fits_fresh waits (by simp)
  have receives : errand = .receive := by
    cases errand <;> cases call
    rfl
  subst receives
  obtain ⟨owner, latest, ownerWaits⟩ := sound.owned value full
  have balanced := sound.balanced
  rw [full] at balanced
  constructor
  case balanced => simpa using balanced
  case owned =>
    intro other held
    cases held
  case ordered =>
    have ordered := sound.ordered
    rw [full] at ordered
    rw [settle_history, settle_slot, History.survivors_cons_of_idle rfl rfl, ← ordered]
    simp [History.receipts, Mark.receipt?]
  case fits =>
    intro other
    by_cases same : caller = other
    · subst same
      rw [settle_callers_self waits]
      apply Fits.received
      rw [settle_history, ← nothing]
      exact History.trail_cons_self _ _
    · rw [settle_callers_other same]
      have sameTrail : History.trail (.returned caller (some value) :: traffic.history) other =
          traffic.history.trail other := by
        apply History.trail_cons_other
        exact same
      by_cases owns : owner = other
      · subst owns
        obtain ⟨sent, sends, held, _, did, unreceived⟩ :=
          sound.owner_of_pending ownerWaits (by simp at balanced; omega)
        cases sends
        rw [ownerWaits]
        refine .delivered value _ caller (sameTrail.trans did) ?_ (Nat.le_of_eq (by simpa using balanced))
        rw [settle_history, History.receiptsFrom, if_pos latest, unreceived]
        rfl
      · apply (sound.fits other).keep sameTrail (History.receiptsFrom_cons_other latest owns _)
          (Nat.le_succ _)
        intro sent held otherLatest
        rw [latest] at otherLatest
        cases otherLatest
        exact absurd rfl owns

theorem retract {ticket : Nat} (sound : Sound traffic)
    (waits : traffic.callers caller = some ⟨errand, .waiting (.confirm ticket)⟩)
    (pending : traffic.slot.taken < ticket) :
    Sound (traffic.settle caller
      { traffic.slot with value := none, deposited := traffic.slot.deposited - 1 }
      .expired (.gaveUp caller (.confirm ticket))) := by
  obtain ⟨value, rfl, held, latest, did, unreceived⟩ := sound.owner_of_pending waits pending
  constructor
  case balanced =>
    have balanced := sound.balanced
    rw [held] at balanced
    simp at balanced
    simp [balanced]
  case owned =>
    intro other none
    cases none
  case ordered =>
    have ordered := sound.ordered
    rw [held, History.survivors_cons_retraction latest did ticket, List.map_append] at ordered
    rw [settle_history, settle_slot, History.receipts_cons_of_no_receipt rfl]
    simpa using ordered
  case fits =>
    intro other
    by_cases same : caller = other
    · subst same
      rw [settle_callers_self waits]
      refine .retracted value ticket ?_ ?_
      · rw [settle_history, ← did]
        exact History.trail_cons_self _ _
      · exact (History.receiptsFrom_cons_of_no_receipt rfl caller _).trans unreceived
    · refine sound.fits_other rfl same rfl (Nat.le_refl _) ?_
      intro sent full otherLatest
      rw [latest] at otherLatest
      cases otherLatest
      exact absurd rfl same

theorem step {after : Traffic} (sound : Sound traffic) (step : Step traffic caller after) :
    Sound after := by
  cases step with
  | rest => exact sound
  | enter errand free => exact sound.welcome free
  | deposit value errand waits empty => exact sound.deposit waits empty
  | confirm ticket errand waits taken => exact sound.confirm waits taken
  | receive value errand waits full => exact sound.receive waits full
  | observe errand waits => exact sound.observe waits
  | retract ticket errand waits pending => exact sound.retract waits pending
  | leave call errand waits nothingLeft => exact sound.leave waits nothingLeft

end Sound

theorem sound_run (moves : List Move) : Sound (run moves) :=
  foldl_induction (fun step sound => sound.step step) moves start sound_start

/-! ## What a sender learns -/

theorem settle_errand? (traffic : Traffic) (caller other : Nat) (slot : Slot)
    (standing : Standing) (mark : Mark) :
    (traffic.settle caller slot standing mark).errand? other = traffic.errand? other := by
  by_cases same : caller = other
  · subst same
    simp [errand?, settle, Function.comp_def]
  · rw [errand?, settle_callers_other same, errand?]

/-- A sender had its value received before it returned. -/
def Acknowledged (traffic : Traffic) : Prop :=
  ∀ sender value received later earlier, traffic.errand? sender = some (.send value) →
    traffic.history = later ++ .returned sender received :: earlier →
    ∃ receiver, History.receiptsFrom sender earlier = [(receiver, value)]

namespace Acknowledged

variable {traffic : Traffic} {caller : Nat} {errand : Errand} {call : Call}

theorem settle {slot : Slot} {standing : Standing} {mark : Mark}
    (acknowledged : Acknowledged traffic)
    (waits : traffic.callers caller = some ⟨errand, .waiting call⟩)
    (own : ∀ value received, errand = .send value → mark = .returned caller received →
      ∃ receiver, traffic.history.receiptsFrom caller = [(receiver, value)])
    (byCaller : mark.caller = caller) :
    Acknowledged (traffic.settle caller slot standing mark) := by
  intro sender value received later earlier sends split
  rw [settle_errand?] at sends
  rw [settle_history] at split
  cases later with
  | nil =>
      obtain ⟨rfl, rfl⟩ := List.cons.inj split
      have same : sender = caller := byCaller
      subst same
      rw [errand?, waits] at sends
      cases sends
      exact own value received rfl rfl
  | cons first later =>
      exact acknowledged sender value received later earlier sends (List.cons.inj split).2

theorem welcome (acknowledged : Acknowledged traffic) (sound : Sound traffic)
    (free : traffic.callers caller = none) : Acknowledged (traffic.welcome caller errand) := by
  intro sender value received later earlier sends split
  by_cases same : caller = sender
  · subst same
    have fits := sound.fits caller
    rw [free] at fits
    cases fits with
    | absent nothing =>
        have marked : Mark.returned caller received ∈ traffic.history := by
          rw [show traffic.history = later ++ .returned caller received :: earlier from split]
          simp
        exact absurd marked (History.not_mem_of_trail_eq_nil nothing rfl)
  · rw [errand?, welcome_callers_other same] at sends
    exact acknowledged sender value received later earlier sends split

theorem step {after : Traffic} (acknowledged : Acknowledged traffic) (sound : Sound traffic)
    (step : Step traffic caller after) : Acknowledged after := by
  cases step with
  | rest => exact acknowledged
  | enter errand free => exact acknowledged.welcome sound free
  | deposit value errand waits empty =>
      refine acknowledged.settle waits ?_ rfl
      intro sent received sends shape
      cases shape
  | confirm ticket errand waits taken =>
      refine acknowledged.settle waits ?_ rfl
      intro sent received sends _
      obtain ⟨value, receiver, same, _, delivered⟩ := sound.received_of_taken waits taken
      rw [sends] at same
      cases same
      exact ⟨receiver, delivered⟩
  | receive value errand waits full =>
      refine acknowledged.settle waits ?_ rfl
      rintro sent received rfl _
      cases (sound.fits_fresh waits (by simp)).1
  | observe errand waits =>
      refine acknowledged.settle waits ?_ rfl
      rintro sent received rfl _
      cases (sound.fits_fresh waits (by simp)).1
  | retract ticket errand waits pending =>
      refine acknowledged.settle waits ?_ rfl
      intro sent received sends shape
      cases shape
  | leave call errand waits nothingLeft =>
      refine acknowledged.settle waits ?_ rfl
      intro sent received sends shape
      cases shape

end Acknowledged

theorem acknowledged_run (moves : List Move) : Acknowledged (run moves) := by
  have both : Sound (run moves) ∧ Acknowledged (run moves) := by
    apply @foldl_induction (fun traffic => Sound traffic ∧ Acknowledged traffic)
    · intro before caller after step kept
      exact ⟨kept.1.step step, kept.2.step kept.1 step⟩
    · refine ⟨sound_start, ?_⟩
      intro sender value received later earlier sends
      cases sends
  exact both.2

theorem Sound.received_of_returned {traffic : Traffic} {sender : Nat} {value : Value}
    {received : Option Value} (sound : Sound traffic)
    (sends : traffic.errand? sender = some (.send value))
    (marked : .returned sender received ∈ traffic.history) :
    ∃ receiver, traffic.history.receiptsFrom sender = [(receiver, value)] := by
  have inTrail := History.mem_trail marked (show _ = sender from rfl)
  have fits := sound.fits sender
  rw [errand?] at sends
  generalize traffic.callers sender = known at fits sends
  cases fits with
  | sent value receiver did delivered =>
      cases sends
      exact ⟨receiver, delivered⟩
  | absent nothing => simp [nothing] at inTrail
  | came errand nothing => simp [nothing] at inTrail
  | left value did => simp [did] at inTrail
  | delivered value ticket receiver did => simp [did] at inTrail
  | received value did => cases sends
  | observed did => cases sends
  | gone errand did => simp [did] at inTrail
  | retracted value ticket did => simp [did] at inTrail

theorem Sound.unreceived_of_gaveUp {traffic : Traffic} {sender : Nat} {value : Value}
    {call : Call} (sound : Sound traffic)
    (sends : traffic.errand? sender = some (.send value))
    (marked : .gaveUp sender call ∈ traffic.history) :
    traffic.history.receiptsFrom sender = [] := by
  have inTrail := History.mem_trail marked (show _ = sender from rfl)
  have fits := sound.fits sender
  rw [errand?] at sends
  generalize traffic.callers sender = known at fits sends
  cases fits with
  | retracted value ticket did unreceived => exact unreceived
  | gone errand did =>
      apply History.receiptsFrom_eq_nil
      intro left member
      have other := History.mem_trail member (show _ = sender from rfl)
      simp [did] at other
  | absent nothing => simp [nothing] at inTrail
  | came errand nothing => simp [nothing] at inTrail
  | left value did => simp [did] at inTrail
  | delivered value ticket receiver did => simp [did] at inTrail
  | sent value receiver did => simp [did] at inTrail
  | received value did => cases sends
  | observed did => cases sends

/-! ## Who leaves the slot alone -/

theorem Step.history_suffix {before after : Traffic} {caller : Nat}
    (step : Step before caller after) : before.history <:+ after.history := by
  cases step with
  | rest => exact List.suffix_refl _
  | enter => exact List.suffix_refl _
  | deposit => exact List.suffix_cons _ _
  | confirm => exact List.suffix_cons _ _
  | receive => exact List.suffix_cons _ _
  | observe => exact List.suffix_cons _ _
  | retract => exact List.suffix_cons _ _
  | leave => exact List.suffix_cons _ _

/-- A step that changes the slot leaves a mark that says how. -/
theorem Step.slot_eq {before after : Traffic} {caller : Nat} (step : Step before caller after)
    (unmarked : ∀ mark ∈ after.history, mark.caller = caller →
      mark.deposit? = none ∧ mark.receipt? = none ∧ mark.retraction? = none) :
    after.slot = before.slot := by
  cases step with
  | rest => rfl
  | enter => rfl
  | deposit => cases (unmarked _ (List.mem_cons_self) rfl).1
  | confirm => rfl
  | receive => cases (unmarked _ (List.mem_cons_self) rfl).2.1
  | observe => rfl
  | retract => cases (unmarked _ (List.mem_cons_self) rfl).2.2
  | leave => rfl

/-- A caller that only observes, or gives up before it has received or left a
value. -/
def Idle (traffic : Traffic) (caller : Nat) : Prop :=
  traffic.errand? caller = some .observe ∨
    .gaveUp caller .receive ∈ traffic.history ∨
    ∃ value, .gaveUp caller (.deposit value) ∈ traffic.history

theorem Sound.trail_of_idle {traffic : Traffic} {caller : Nat} (sound : Sound traffic)
    (idle : Idle traffic caller) :
    traffic.history.trail caller = [] ∨ traffic.history.trail caller = [.returned caller none] ∨
      ∃ errand : Errand, traffic.history.trail caller = [.gaveUp caller errand.call] := by
  have given : ∀ call, Mark.gaveUp caller call ∈ traffic.history →
      Mark.gaveUp caller call ∈ traffic.history.trail caller :=
    fun call member => History.mem_trail member rfl
  have inTrail : traffic.errand? caller = some .observe ∨
      .gaveUp caller .receive ∈ traffic.history.trail caller ∨
      ∃ value, .gaveUp caller (.deposit value) ∈ traffic.history.trail caller := by
    rcases idle with observes | gone | ⟨value, gone⟩
    · exact .inl observes
    · exact .inr (.inl (given _ gone))
    · exact .inr (.inr ⟨value, given _ gone⟩)
  have fits := sound.fits caller
  rw [errand?] at inTrail
  generalize traffic.callers caller = known at fits inTrail
  -- The trails of those who have left or received something hold no such mark.
  cases fits with
  | absent nothing => exact .inl nothing
  | came errand nothing => exact .inl nothing
  | left value did => simp [did] at inTrail
  | delivered value ticket receiver did => simp [did] at inTrail
  | sent value receiver did => simp [did] at inTrail
  | received value did => simp [did] at inTrail
  | observed did => exact .inr (.inl did)
  | gone errand did => exact .inr (.inr ⟨errand, did⟩)
  | retracted value ticket did => simp [did] at inTrail

theorem Sound.unmarked_of_idle {traffic : Traffic} {caller : Nat} (sound : Sound traffic)
    (idle : Idle traffic caller) : ∀ mark ∈ traffic.history, mark.caller = caller →
      mark.deposit? = none ∧ mark.receipt? = none ∧ mark.retraction? = none := by
  intro mark marked own
  have inTrail := History.mem_trail marked own
  rcases sound.trail_of_idle idle with nothing | observed | ⟨errand, gone⟩
  · rw [nothing] at inTrail
    cases inTrail
  · rw [observed, List.mem_singleton] at inTrail
    subst inTrail
    exact ⟨rfl, rfl, rfl⟩
  · rw [gone, List.mem_singleton] at inTrail
    subst inTrail
    cases errand <;> exact ⟨rfl, rfl, rfl⟩

theorem history_suffix_foldl (moves : List Move) (traffic : Traffic) :
    traffic.history <:+ (moves.foldl move traffic).history := by
  apply @foldl_induction (fun later => traffic.history <:+ later.history)
  · intro before caller after step shorter
    exact shorter.trans step.history_suffix
  · exact List.suffix_refl _

/-- No move of a caller that stays idle to the end touches the slot. -/
theorem slot_eq_of_idle (before : List Move) (move : Move) (after : List Move)
    (idle : Idle (run (before ++ move :: after)) move.caller) :
    (run (before ++ [move])).slot = (run before).slot := by
  have step := (run before).move_step move
  rw [run_append before [move]]
  apply step.slot_eq
  intro mark marked own
  apply (sound_run (before ++ move :: after)).unmarked_of_idle idle mark _ own
  rw [run_append before (move :: after)]
  exact (history_suffix_foldl after ((run before).move move)).subset marked

/-- However the callers at a bus take turns, wake up for nothing and time out:

the counts differ by one exactly while a value is in the slot; the values that
were received, with the one in the slot, are those that were left and not taken
back, in order; a sender that returned had its own value received exactly once,
and before it returned; a sender that gave up had its value received by nobody,
and takes back only what it has left itself; and whoever only observes, or gives
up before it has received or left anything, leaves the slot as it is. -/
theorem delivers_once_in_order (moves : List Move) :
    let traffic := run moves
    (traffic.slot.deposited = traffic.slot.taken + if traffic.slot.value.isSome then 1 else 0) ∧
    (traffic.history.receipts.map Prod.snd ++ traffic.slot.value.toList =
      traffic.history.survivors.map Prod.snd) ∧
    (∀ sender value received later earlier, traffic.errand? sender = some (.send value) →
      traffic.history = later ++ .returned sender received :: earlier →
      ∃ receiver, History.receiptsFrom sender earlier = [(receiver, value)] ∧
        traffic.history.receiptsFrom sender = [(receiver, value)]) ∧
    (∀ sender value call, traffic.errand? sender = some (.send value) →
      .gaveUp sender call ∈ traffic.history → traffic.history.receiptsFrom sender = []) ∧
    (∀ sender ticket, traffic.waiting? sender = some (.confirm ticket) →
      traffic.slot.step (.confirm ticket) = .wait →
      ∃ value, traffic.errand? sender = some (.send value) ∧
        traffic.slot.value = some value ∧ traffic.history.sender? = some sender) ∧
    (∀ before move after, moves = before ++ move :: after →
      (traffic.errand? move.caller = some .observe ∨
        .gaveUp move.caller .receive ∈ traffic.history ∨
        ∃ value, .gaveUp move.caller (.deposit value) ∈ traffic.history) →
      (run (before ++ [move])).slot = (run before).slot) := by
  intro traffic
  have sound : Sound traffic := sound_run moves
  refine ⟨sound.balanced, sound.ordered, ?_, ?_, ?_, ?_⟩
  · intro sender value received later earlier sends split
    obtain ⟨receiver, before⟩ :=
      acknowledged_run moves sender value received later earlier sends split
    have marked : Mark.returned sender received ∈ traffic.history := by
      rw [split]
      simp
    obtain ⟨known, total⟩ := sound.received_of_returned sends marked
    have fewer := History.receiptsFrom_suffix sender (later ++ [.returned sender received]) earlier
    rw [List.append_assoc, List.singleton_append, ← split, total, before] at fewer
    refine ⟨receiver, before, ?_⟩
    rw [total, fewer.eq_of_length rfl]
  · intro sender value call sends marked
    exact sound.unreceived_of_gaveUp sends marked
  · intro sender ticket waits blocked
    obtain ⟨errand, known⟩ := (traffic.waiting?_eq_some_iff sender _).mp waits
    have pending : traffic.slot.taken < ticket := by
      by_contra taken
      simp [Slot.step, taken] at blocked
    obtain ⟨value, rfl, held, latest, -, -⟩ := sound.owner_of_pending known pending
    exact ⟨value, by simp [errand?, known], held, latest⟩
  · rintro before move after rfl idle
    exact slot_eq_of_idle before move after idle

/-- A receiver waits for a sender, which returns once its value was received. -/
example : (run [.enter 0 .receive, .look 0, .enter 1 (.send (.int 7)), .look 1, .look 1, .look 0,
      .look 1]).history =
    [.returned 1 none, .returned 0 (some (.int 7)), .proceeded 1 (.deposit (.int 7))] := by
  decide

/-- A value that nobody has received is taken back, and the next one is received. -/
example : let history := (run [.enter 0 (.send (.int 1)), .look 0, .timeOut 0,
      .enter 1 (.send (.int 2)), .look 1, .enter 2 .receive, .look 2, .look 1]).history
    history.deposits = [(0, .int 1), (1, .int 2)] ∧ history.survivors = [(1, .int 2)] ∧
      history.receipts = [(2, .int 2)] := by
  decide

end Traffic

end NodeAssembly.Bus
