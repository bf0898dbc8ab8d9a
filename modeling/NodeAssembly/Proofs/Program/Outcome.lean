import NodeAssembly.Program.Assembler

/-! What comes of a step of assembling: its result and the assembler that it
leaves. A step that fails leaves an assembler as well, since what was declared
before stays declared. -/

namespace NodeAssembly.Assembly

variable {α β : Type}

/-- The result of a step, and the assembler afterwards. -/
def outcome (step : Assembly α) (assembler : Assembler) : Except ParseError α × Assembler :=
  step.run.run assembler

@[simp] theorem outcome_pure (result : α) (assembler : Assembler) :
    outcome (pure result) assembler = (.ok result, assembler) := rfl

@[simp] theorem outcome_get (assembler : Assembler) :
    outcome get assembler = (.ok assembler, assembler) := rfl

@[simp] theorem outcome_set (next assembler : Assembler) :
    outcome (set next) assembler = (.ok (), next) := rfl

@[simp] theorem outcome_modify (change : Assembler → Assembler) (assembler : Assembler) :
    outcome (modify change) assembler = (.ok (), change assembler) := rfl

@[simp] theorem outcome_throw (error : ParseError) (assembler : Assembler) :
    outcome (throw error : Assembly α) assembler = (.error error, assembler) := rfl

@[simp] theorem outcome_fail (line : Line) (kind : ErrorKind) (assembler : Assembler) :
    outcome (fail line kind : Assembly α) assembler =
      (.error (.ofLine line.number line.raw kind), assembler) := rfl

@[simp] theorem outcome_create (name : String) (state : Register) (assembler : Assembler) :
    outcome (create name state) assembler =
      (.ok (assembler.create name state).1, (assembler.create name state).2) := rfl

theorem outcome_bind (step : Assembly α) (next : α → Assembly β) (assembler : Assembler) :
    outcome (step >>= next) assembler =
      match outcome step assembler with
      | (.ok result, after) => outcome (next result) after
      | (.error error, after) => (.error error, after) := by
  simp only [outcome, ExceptT.run_bind, StateT.run_bind]
  cases StateT.run (ExceptT.run step) assembler with
  | mk result after => cases result <;> rfl

theorem outcome_within (context : ErrorContext) (step : Assembly α) (assembler : Assembler) :
    outcome (within context step) assembler =
      ((outcome step assembler).1.mapError (·.within context), (outcome step assembler).2) := rfl

/-- A step that has to look at the assembler first. -/
@[simp] theorem outcome_get_bind (next : Assembler → Assembly β) (assembler : Assembler) :
    outcome (get >>= next) assembler = outcome (next assembler) assembler := by
  rw [outcome_bind, outcome_get]

/-! A step that ends well. -/

theorem outcome_bind_ok {step : Assembly α} {next : α → Assembly β} {before between : Assembler}
    {result : α} (done : outcome step before = (.ok result, between)) :
    outcome (step >>= next) before = outcome (next result) between := by
  rw [outcome_bind, done]

theorem outcome_bind_eq_ok {step : Assembly α} {next : α → Assembly β} {before after : Assembler}
    {result : β} (done : outcome (step >>= next) before = (.ok result, after)) :
    ∃ value between, outcome step before = (.ok value, between) ∧
      outcome (next value) between = (.ok result, after) := by
  rw [outcome_bind] at done
  rcases first : outcome step before with ⟨error | value, between⟩
  · rw [first] at done
    cases done
  · rw [first] at done
    exact ⟨value, between, rfl, done⟩

theorem outcome_within_ok {context : ErrorContext} {step : Assembly α} {before after : Assembler}
    {result : α} :
    outcome (within context step) before = (.ok result, after) ↔
      outcome step before = (.ok result, after) := by
  rw [outcome_within]
  rcases outcome step before with ⟨error | value, between⟩
  · constructor
    · intro done
      cases done
    · intro done
      cases done
  · exact Iff.rfl

theorem outcome_forM_cons (visit : β → Assembly Unit) (head : β) (tail : List β)
    (assembler : Assembler) :
    outcome ((head :: tail).forM visit) assembler =
      outcome (visit head >>= fun _ => tail.forM visit) assembler := rfl

theorem outcome_forM_append (visit : β → Assembly Unit) (early late : List β)
    {before between : Assembler} (done : outcome (early.forM visit) before = (.ok (), between)) :
    outcome ((early ++ late).forM visit) before = outcome (late.forM visit) between := by
  induction early generalizing before with
  | nil =>
      cases done
      rfl
  | cons head tail induction =>
      rw [outcome_forM_cons] at done
      rcases outcome_bind_eq_ok done with ⟨_, middle, here, rest⟩
      rw [List.cons_append, outcome_forM_cons, outcome_bind_ok here]
      exact induction rest

theorem outcome_forM_pass {before : Assembler} {check : β → Assembly Unit} {items : List β}
    (passes : ∀ item ∈ items, outcome (check item) before = (.ok (), before)) :
    outcome (items.forM check) before = (.ok (), before) := by
  induction items with
  | nil => rfl
  | cons head tail induction =>
      rw [outcome_forM_cons, outcome_bind_ok (passes head List.mem_cons_self)]
      exact induction fun item member => passes item (List.mem_cons_of_mem head member)

end NodeAssembly.Assembly
